import TrustyApp.Hwaes.RoundTrip

/-!
# The outcomes of an operation

Every outcome of `hwaes_aes_op`, for arguments of any length.  The EVP calls take a
length as an `int`, so that what they see of an argument of 2 GiB or more is not all
of it.  A request is turned down before the text is processed, or the context is set
up for it; after that the output buffer may be written although the operation fails.
-/

namespace TrustyApp.Hwaes

open Reactive

variable {evp : Evp.Library} {prims : Evp.Primitives} {phase : evp.Ctx → Evp.Phase}
  {ctx : evp.Ctx} {args : Args} {cipher : Evp.Cipher} {key : List UInt8}
  {session : Evp.Session}

theorem toInt_eq (len : Nat) : toInt len =
    if len % 2 ^ 32 < 2 ^ 31 then ((len % 2 ^ 32 : Nat) : Int)
    else ((len % 2 ^ 32 : Nat) : Int) - 2 ^ 32 := by
  rw [toInt, BitVec.toInt_eq_toNat_cond, BitVec.toNat_ofNat]
  split
  next low => rw [if_pos (by omega)]
  next high =>
    rw [if_neg (by omega)]
    rfl

theorem toInt_le (len : Nat) : toInt len ≤ len := by
  rw [toInt_eq]
  split
  · omega
  · omega

theorem toNat_toInt {len : Nat} (nonneg : 0 ≤ toInt len) :
    (toInt len).toNat = len % 2 ^ 32 := by
  rw [toInt_eq] at nonneg ⊢
  split at nonneg
  next low => rw [if_pos low, Int.toNat_natCast]
  next high => omega

theorem lt_of_toInt_nonneg {len : Nat} (nonneg : 0 ≤ toInt len) (narrow : len < 2 ^ 32) :
    len < 2 ^ 31 := by
  rw [toInt_eq, Nat.mod_eq_of_lt narrow] at nonneg
  split at nonneg
  next small => exact small
  next => omega

theorem aligned_toInt {len : Nat} {mode : Evp.Mode} (nonneg : 0 ≤ toInt len)
    (aligned : len % mode.blockSize = 0) : (toInt len).toNat % mode.blockSize = 0 := by
  rw [toNat_toInt nonneg]
  cases mode with
  | cbc =>
      rw [Evp.Mode.blockSize] at aligned ⊢
      omega
  | gcm => exact Nat.mod_one _

/-- What a call sees of an argument whose length it takes as an `int`. -/
def Arg.seen (arg : Arg) : List UInt8 := arg.bytes.take (toInt arg.len).toNat

theorem Arg.Present.length_bytes {arg : Arg} (present : arg.Present) :
    arg.bytes.length = arg.len := by
  obtain ⟨data, rfl, -⟩ := present_iff.mp present
  rfl

theorem Arg.bytes_of_not_present {arg : Arg} (absent : ¬ arg.Present) : arg.bytes = [] := by
  cases arg with
  | null len => rfl
  | pointer data =>
      by_contra nonempty
      exact absent (present_iff.mpr ⟨data, rfl, nonempty⟩)

theorem Arg.Present.length_seen {arg : Arg} (present : arg.Present) :
    arg.seen.length = (toInt arg.len).toNat := by
  have le := toInt_le arg.len
  rw [Arg.seen, List.length_take, present.length_bytes]
  omega

theorem Arg.seen_of_lt {arg : Arg} (small : arg.len < 2 ^ 31) : arg.seen = arg.bytes := by
  cases arg with
  | null len => exact List.take_nil
  | pointer data =>
      have length : (Arg.pointer data).len = data.length := rfl
      rw [Arg.seen, toInt_of_lt small, length, Int.toNat_natCast]
      exact List.take_length

def Arg.overwritten (arg : Arg) (data : List UInt8) : Arg :=
  match arg with
  | .null len => .null len
  | .pointer buf => .pointer (Bytes.overwrite buf data)

theorem Arg.overwritten_nil (arg : Arg) : arg.overwritten [] = arg := by
  cases arg with
  | null len => rfl
  | pointer buf => rfl

theorem Arg.Present.write {arg : Arg} {data : List UInt8} (present : arg.Present)
    (fits : data.length ≤ arg.len) : arg.write data = .ok (arg.overwritten data) := by
  obtain ⟨buf, rfl, -⟩ := present_iff.mp present
  exact if_pos fits

theorem Arg.write_nil (arg : Arg) : arg.write [] = .ok arg := by
  cases arg with
  | null len => rfl
  | pointer buf => rfl

/-- The lengths are those the calls before the text take. -/
structure Ready (args : Args) (mode : Evp.Mode) : Prop where
  aligned : args.textIn.len % mode.blockSize = 0
  ivLength : args.iv.len = mode.ivLength
  aad : args.aad.Present → 0 ≤ toInt args.aad.len
  tagIn : args.tagIn.Present → Evp.TagLength (toInt args.tagIn.len)

def setUp (args : Args) (cipher : Evp.Cipher) (key : List UInt8) : Evp.Session where
  cipher
  encrypt := args.encrypt
  key
  iv := args.iv.bytes
  aad := if args.aad.Present then args.aad.seen else []
  tag := if args.tagIn.Present then some args.tagIn.seen else none

theorem updateAad_exact (exact : Evp.Exact evp prims phase) (ready : phase ctx = .ready session)
    (mode : args.aad.Present → session.cipher.mode = .gcm)
    (valid : args.aad.Present → 0 ≤ toInt args.aad.len) (noAad : session.aad = []) :
    ∃ next, (if hwaesCheckArgIn args.aad = .noError then
        proceed (evp.updateAad ctx args.aad.bytes (toInt args.aad.len)) else .ok ctx) =
          .ok next ∧
      phase next = .ready { session with
        aad := if args.aad.Present then args.aad.seen else [] } := by
  by_cases given : args.aad.Present
  · have updates := exact.updateAad ctx session args.aad.bytes (toInt args.aad.len) ready
      (mode given)
    have bound := toInt_le args.aad.len
    rw [exact.authenticated _ _ (by rwa [given.length_bytes]), if_pos (valid given)] at updates
    refine ⟨_, ?_, updates.2.trans ?_⟩
    · exact (if_pos given).trans (if_pos updates.1)
    · rw [if_pos given, Arg.seen]
  · refine ⟨ctx, if_neg given, ready.trans ?_⟩
    rw [if_neg given, ← noAad]

theorem updateAad_fails (exact : Evp.Exact evp prims phase) (ready : phase ctx = .ready session)
    (mode : session.cipher.mode = .gcm) (given : args.aad.Present)
    (negative : toInt args.aad.len < 0) :
    ∃ next, proceed (evp.updateAad ctx args.aad.bytes (toInt args.aad.len)) =
      .error (.errGeneric, next) := by
  have updates := exact.updateAad ctx session args.aad.bytes (toInt args.aad.len) ready mode
  have bound := toInt_le args.aad.len
  rw [exact.authenticated _ _ (by rwa [given.length_bytes]), if_neg (by omega)] at updates
  exact ⟨_, by rw [proceed, updates, if_neg (by decide)]⟩

theorem setTag_exact (exact : Evp.Exact evp prims phase) (ready : phase ctx = .ready session)
    (mode : args.tagIn.Present → session.cipher.mode = .gcm ∧ session.encrypt = false)
    (valid : args.tagIn.Present → Evp.TagLength (toInt args.tagIn.len))
    (untagged : session.tag = none) :
    ∃ next, (if hwaesCheckArgIn args.tagIn = .noError then
        proceed (evp.setTag ctx args.tagIn.bytes (toInt args.tagIn.len)) else .ok ctx) =
          .ok next ∧
      phase next = .ready { session with
        tag := if args.tagIn.Present then some args.tagIn.seen else none } := by
  by_cases given : args.tagIn.Present
  · have bound := toInt_le args.tagIn.len
    obtain ⟨setOk, tagged⟩ := exact.setTagPart ctx session args.tagIn.bytes
      (toInt args.tagIn.len) ready (mode given).1 (mode given).2 (valid given)
      (by rwa [given.length_bytes])
    refine ⟨_, ?_, tagged.trans ?_⟩
    · exact (if_pos given).trans (if_pos setOk)
    · rw [if_pos given, Arg.seen]
  · refine ⟨ctx, if_neg given, ready.trans ?_⟩
    rw [if_neg given, ← untagged]

theorem setTag_fails (exact : Evp.Exact evp prims phase) (ready : phase ctx = .ready session)
    (mode : session.cipher.mode = .gcm ∧ session.encrypt = false)
    (invalid : ¬ Evp.TagLength (toInt args.tagIn.len)) :
    ∃ next, proceed (evp.setTag ctx args.tagIn.bytes (toInt args.tagIn.len)) =
      .error (.errGeneric, next) := by
  have fails := exact.setTagFails ctx session args.tagIn.bytes (toInt args.tagIn.len) ready
    mode.1 mode.2 invalid
  exact ⟨_, by rw [proceed, fails, if_neg (by decide)]⟩

/-- The pointer to the IV, as the server library hands it over. -/
def IvGiven (args : Args) : Prop := args.iv.len ≠ 0 → args.iv.dataPtr ≠ none

theorem IvGiven.pointer {mode : Evp.Mode} (ivGiven : IvGiven args)
    (ivLength : args.iv.len = mode.ivLength) : args.iv = .pointer args.iv.bytes := by
  cases ivIs : args.iv with
  | pointer data => rfl
  | null len =>
      have missing : args.iv.dataPtr = none := by rw [ivIs]; rfl
      refine absurd missing (ivGiven ?_)
      rw [ivLength]
      cases mode with
      | cbc => decide
      | gcm => decide

theorem IvGiven.length_bytes {mode : Evp.Mode} (ivGiven : IvGiven args)
    (ivLength : args.iv.len = mode.ivLength) : args.iv.bytes.length = mode.ivLength := by
  rw [← ivLength, ivGiven.pointer ivLength]
  rfl

section Admitted

variable {ifc : Interface} {client : HwkeyClient}

theorem Admitted.unique {otherCipher : Evp.Cipher} {otherKey : List UInt8}
    (admitted : Admitted ifc client args cipher key)
    (other : Admitted ifc client args otherCipher otherKey) :
    otherCipher = cipher ∧ otherKey = key := by
  have sameKey : otherKey = key := Except.ok.inj (other.keyIs.symm.trans admitted.keyIs)
  have chosen := selectCipher_eq_ok.mpr ⟨admitted.keyLength, admitted.fits⟩
  have otherChosen := selectCipher_eq_ok.mpr ⟨other.keyLength, other.fits⟩
  rw [sameKey, chosen] at otherChosen
  exact ⟨(Except.ok.inj otherChosen).symm, sameKey⟩

theorem Admitted.aad_mode (admitted : Admitted ifc client args cipher key)
    (given : args.aad.Present) : cipher.mode = .gcm := by
  have fits := admitted.fits
  cases mode : cipher.mode with
  | gcm => rfl
  | cbc =>
      rw [mode] at fits
      exact absurd given fits.2.1

theorem Admitted.tagIn_mode (admitted : Admitted ifc client args cipher key)
    (given : args.tagIn.Present) : cipher.mode = .gcm ∧ args.encrypt = false := by
  have fits := admitted.fits
  cases mode : cipher.mode with
  | gcm =>
      rw [mode] at fits
      exact ⟨rfl, fits.2.1.mp given⟩
  | cbc =>
      rw [mode] at fits
      exact absurd given fits.2.2.1

theorem configure_of_ready (ctx : evp.Ctx) (exact : Evp.Exact evp prims phase)
    (ivGiven : IvGiven args) (admitted : Admitted ifc client args cipher key)
    (ready : Ready args cipher.mode) :
    ∃ next, configure ctx args cipher key = .ok next ∧
      phase next = .ready (setUp args cipher key) := by
  obtain ⟨keyed, keyedPhase, configures⟩ := configure_keyed ctx exact.toLawful
    admitted.keyLength (ivGiven.pointer ready.ivLength) (ivGiven.length_bytes ready.ivLength)
    ready.aligned
  obtain ⟨updated, updates, updatedPhase⟩ :=
    updateAad_exact exact keyedPhase admitted.aad_mode ready.aad rfl
  obtain ⟨tagged, sets, taggedPhase⟩ :=
    setTag_exact exact updatedPhase admitted.tagIn_mode ready.tagIn rfl
  refine ⟨tagged, ?_, taggedPhase⟩
  rw [configures, updates, ok_bind, sets]

theorem configure_invalid (ctx : evp.Ctx) (exact : Evp.Exact evp prims phase)
    (invalid : args.textIn.len % cipher.mode.blockSize ≠ 0 ∨
      args.iv.len ≠ cipher.mode.ivLength) :
    configure ctx args cipher key =
      .error (.errInvalidArgs, (evp.cipherInit evp.new cipher args.encrypt).1) := by
  obtain ⟨selects, selected⟩ := exact.cipherInit evp.new cipher args.encrypt exact.new
  by_cases aligned : args.textIn.len % cipher.mode.blockSize = 0
  · have wrongIv := invalid.resolve_left (not_not.mpr aligned)
    simp [configure, exact.reset, proceed, selects, exact.blockSize _ _ _ selected,
      exact.ivLength _ _ _ selected, aligned, wrongIv.symm]
  · simp [configure, exact.reset, proceed, selects, exact.blockSize _ _ _ selected, aligned]

/-- Without valid lengths the context is not set up. -/
theorem configure_of_not_ready (ctx : evp.Ctx) (exact : Evp.Exact evp prims phase)
    (ivGiven : IvGiven args) (admitted : Admitted ifc client args cipher key)
    (notReady : ¬ Ready args cipher.mode) :
    ∃ failed, configure ctx args cipher key = .error failed ∧ failed.1 ≠ .noError := by
  by_cases aligned : args.textIn.len % cipher.mode.blockSize = 0
  case neg => exact ⟨_, configure_invalid ctx exact (.inl aligned), nofun⟩
  by_cases ivLength : args.iv.len = cipher.mode.ivLength
  case neg => exact ⟨_, configure_invalid ctx exact (.inr ivLength), nofun⟩
  obtain ⟨keyed, keyedPhase, configures⟩ := configure_keyed ctx exact.toLawful
    admitted.keyLength (ivGiven.pointer ivLength) (ivGiven.length_bytes ivLength) aligned
  rw [configures]
  by_cases aad : args.aad.Present → 0 ≤ toInt args.aad.len
  · obtain ⟨updated, updates, updatedPhase⟩ :=
      updateAad_exact exact keyedPhase admitted.aad_mode aad rfl
    have badTag : args.tagIn.Present ∧ ¬ Evp.TagLength (toInt args.tagIn.len) := by
      by_contra fine
      exact notReady ⟨aligned, ivLength, aad, fun given =>
        not_not.mp fun invalid => fine ⟨given, invalid⟩⟩
    obtain ⟨failed, fails⟩ :=
      setTag_fails exact updatedPhase (admitted.tagIn_mode badTag.1) badTag.2
    refine ⟨(.errGeneric, failed), ?_, nofun⟩
    rw [updates, ok_bind]
    exact (if_pos badTag.1).trans fails
  · obtain ⟨given, negative⟩ := Classical.not_imp.mp aad
    obtain ⟨failed, fails⟩ := updateAad_fails exact keyedPhase (admitted.aad_mode given)
      given (Int.not_le.mp negative)
    refine ⟨(.errGeneric, failed), ?_, nofun⟩
    rw [if_pos (show hwaesCheckArgIn args.aad = .noError from given), fails]
    rfl

end Admitted

def output (prims : Evp.Primitives) (args : Args) (session : Evp.Session) : List UInt8 :=
  session.transform prims args.textIn.seen

def outputTag (prims : Evp.Primitives) (args : Args) (session : Evp.Session) : List UInt8 :=
  session.computedTag prims (session.ciphertext prims args.textIn.seen)

/-- The tag of the input, if there has to be one, is the right one. -/
def TagVerified (prims : Evp.Primitives) (args : Args) (session : Evp.Session) : Prop :=
  session.Verified prims (session.ciphertext prims args.textIn.seen)

/-- What is left once the context is set up. -/
inductive Performed (prims : Evp.Primitives) (args : Args) (session : Evp.Session) :
    Op evp → Prop
  | negative {ctx : evp.Ctx} : toInt args.textIn.len < 0 →
      Performed prims args session ⟨.errGeneric, ctx, args.textOut, args.tagOut⟩
  | unverified {ctx : evp.Ctx} : 0 ≤ toInt args.textIn.len → ¬ TagVerified prims args session →
      Performed prims args session ⟨.errGeneric, ctx,
        args.textOut.overwritten (output prims args session), args.tagOut⟩
  | untagged {ctx : evp.Ctx} : 0 ≤ toInt args.textIn.len → TagVerified prims args session →
      args.tagOut.Present → ¬ Evp.TagLength (toInt args.tagOut.len) →
      Performed prims args session ⟨.errGeneric, ctx,
        args.textOut.overwritten (output prims args session), args.tagOut⟩
  | succeeded {ctx : evp.Ctx} : 0 ≤ toInt args.textIn.len → TagVerified prims args session →
      (args.tagOut.Present → Evp.TagLength (toInt args.tagOut.len)) →
      Performed prims args session ⟨.noError, ctx,
        args.textOut.overwritten (output prims args session),
        if args.tagOut.Present then args.tagOut.overwritten
          ((outputTag prims args session).take (toInt args.tagOut.len).toNat)
        else args.tagOut⟩

theorem length_take_tag {arg : Arg} {tag : List UInt8}
    (valid : Evp.TagLength (toInt arg.len)) :
    (tag.take (toInt arg.len).toNat).length ≤ arg.len := by
  have bound := toInt_le arg.len
  have positive := valid.1
  rw [List.length_take]
  omega

theorem finish_performed (exact : Evp.Exact evp prims phase) {next : evp.Ctx}
    (updates : evp.update ctx args.textIn.bytes (toInt args.textIn.len) =
      (next, ⟨true, output prims args session, toInt args.textOut.len⟩))
    (processed : phase next = .processed session (session.ciphertext prims args.textIn.seen))
    (stored : args.textOut.write (output prims args session) =
      .ok (args.textOut.overwritten (output prims args session)))
    (nonneg : 0 ≤ toInt args.textIn.len)
    (tagMode : args.tagOut.Present → session.cipher.mode = .gcm ∧ session.encrypt = true) :
    ∃ op, transform ctx args = .ok op ∧ Performed prims args session op := by
  cases final : evp.final next with
  | mk done finalOk =>
  by_cases verified : TagVerified prims args session
  case neg =>
    have fails : finalOk = false := by
      simpa only [final] using exact.finalFails next session _ processed verified
    refine ⟨⟨.errGeneric, done, _, _⟩, ?_, .unverified nonneg verified⟩
    simp [transform, updates, stored, final, fails]
  have finalSpec := exact.final next session _ processed verified
  rw [final] at finalSpec
  obtain ⟨succeeds, completed⟩ := finalSpec
  by_cases wanted : args.tagOut.Present
  · obtain ⟨mode, direction⟩ := tagMode wanted
    have checked : hwaesCheckArgOut args.tagOut = .noError := wanted
    cases getTag : evp.getTag done (toInt args.tagOut.len) with
    | mk last delivered =>
    by_cases valid : Evp.TagLength (toInt args.tagOut.len)
    · have delivers := exact.getTag done session _ (toInt args.tagOut.len).toNat completed mode
        direction (by have := valid.1; omega) (by have := valid.2; omega)
      rw [Int.toNat_of_nonneg (by have := valid.1; omega), getTag] at delivers
      have deliveredIs : delivered = (true,
          (outputTag prims args session).take (toInt args.tagOut.len).toNat) := delivers
      have tagStored : args.tagOut.write
          ((outputTag prims args session).take (toInt args.tagOut.len).toNat) = .ok _ :=
        wanted.write (length_take_tag valid)
      refine ⟨⟨.noError, last, _, _⟩, ?_, .succeeded nonneg verified fun _ => valid⟩
      simp [transform, updates, stored, final, succeeds, checked, getTag, deliveredIs,
        tagStored, wanted]
    · have fails := exact.getTagFails done session _ _ completed mode direction valid
      rw [getTag] at fails
      refine ⟨⟨.errGeneric, last, _, _⟩, ?_, .untagged nonneg verified wanted valid⟩
      simp [transform, updates, stored, final, succeeds, checked, getTag, fails, Arg.write_nil]
  · have unchecked : hwaesCheckArgOut args.tagOut ≠ .noError := wanted
    refine ⟨⟨.noError, done, _, _⟩, ?_, .succeeded nonneg verified (absurd · wanted)⟩
    simp [transform, updates, stored, final, succeeds, unchecked, wanted]

theorem transform_performed (exact : Evp.Exact evp prims phase) (inverse : prims.Inverse)
    (ready : phase ctx = .ready session) (textGiven : args.textIn.Present)
    (outGiven : args.textOut.Present) (sameLen : args.textIn.len = args.textOut.len)
    (aligned : args.textIn.len % session.cipher.mode.blockSize = 0)
    (tagMode : args.tagOut.Present → session.cipher.mode = .gcm ∧ session.encrypt = true) :
    ∃ op, transform ctx args = .ok op ∧ Performed prims args session op := by
  have bound := toInt_le args.textIn.len
  cases update : evp.update ctx args.textIn.bytes (toInt args.textIn.len) with
  | mk next result =>
  by_cases nonneg : 0 ≤ toInt args.textIn.len
  · have alignedInt := aligned_toInt nonneg aligned
    obtain ⟨updates, processed⟩ := exact.updatePart ctx session args.textIn.bytes _ ready nonneg
      (by rwa [textGiven.length_bytes]) alignedInt
    rw [update] at updates processed
    have written : (output prims args session).length ≤ args.textOut.len := by
      have seenLength := textGiven.length_seen
      rw [output, length_transform inverse session (by rw [seenLength]; exact alignedInt),
        seenLength, ← sameLen]
      omega
    apply finish_performed exact _ processed (outGiven.write written) nonneg tagMode
    rw [update, ← sameLen]
    exact congrArg (Prod.mk next) updates
  · have fails := exact.updateFails ctx session args.textIn.bytes _ ready (Int.not_le.mp nonneg)
    rw [update] at fails
    refine ⟨⟨.errGeneric, next, _, _⟩, ?_, .negative (Int.not_le.mp nonneg)⟩
    simp [transform, update, fails, Arg.write_nil]

section Outcome

variable {ifc : Interface} {client : HwkeyClient} {op : Op evp}

/-- The context is set up for the request. -/
structure Configured (ifc : Interface) (client : HwkeyClient) (args : Args)
    (cipher : Evp.Cipher) (key : List UInt8) : Prop where
  admitted : Admitted ifc client args cipher key
  ready : Ready args cipher.mode

inductive Outcome (prims : Evp.Primitives) (ifc : Interface) (client : HwkeyClient)
    (args : Args) : Op evp → Prop
  | refused {rc : Code} {ctx : evp.Ctx} : rc ≠ .noError →
      (∀ cipher key, ¬ Configured ifc client args cipher key) →
      Outcome prims ifc client args ⟨rc, ctx, args.textOut, args.tagOut⟩
  | performed {cipher : Evp.Cipher} {key : List UInt8} {op : Op evp} :
      Configured ifc client args cipher key → Performed prims args (setUp args cipher key) op →
      Outcome prims ifc client args op

theorem fetchKey_ne_noError (ifc : Interface) (client : HwkeyClient) (args : Args) :
    fetchKey ifc client args ≠ .error .noError := by
  unfold fetchKey
  repeat' split
  all_goals simp

theorem hwaesAesOp_of_not_admitted (ctx : evp.Ctx)
    (notAdmitted : ∀ cipher key, ¬ Admitted ifc client args cipher key) :
    ∃ rc, hwaesAesOp ifc client ctx args = .ok ⟨rc, ctx, args.textOut, args.tagOut⟩ ∧
      rc ≠ .noError := by
  by_cases checks : checkArgs args = .noError
  case neg => exact ⟨_, if_pos checks, checks⟩
  cases fetched : fetchKey ifc client args with
  | error rc =>
      refine ⟨rc, by simp [hwaesAesOp, checks, fetched], ?_⟩
      intro noError
      exact fetchKey_ne_noError ifc client args (noError ▸ fetched)
  | ok key =>
      cases chosen : selectCipher args key.length with
      | error rc =>
          refine ⟨rc, by simp [hwaesAesOp, checks, fetched, operate, chosen], ?_⟩
          intro noError
          exact selectCipher_ne_noError args key.length (noError ▸ chosen)
      | ok cipher =>
          obtain ⟨keyLength, fits⟩ := selectCipher_eq_ok.mp chosen
          exact absurd ⟨checks, fetched, keyLength, fits⟩ (notAdmitted cipher key)

/-- What an operation does with any request, in any state of the context. -/
theorem hwaesAesOp_outcome (ifc : Interface) (client : HwkeyClient) (ctx : evp.Ctx)
    (exact : Evp.Exact evp prims phase) (inverse : prims.Inverse) (ivGiven : IvGiven args) :
    ∃ op, hwaesAesOp ifc client ctx args = .ok op ∧ Outcome prims ifc client args op := by
  by_cases admits : ∃ cipher key, Admitted ifc client args cipher key
  case neg =>
    have notAdmitted cipher key : ¬ Admitted ifc client args cipher key :=
      fun admitted => admits ⟨cipher, key, admitted⟩
    obtain ⟨rc, turnedDown, fails⟩ := hwaesAesOp_of_not_admitted ctx notAdmitted
    exact ⟨_, turnedDown, .refused fails fun cipher key configured =>
      notAdmitted cipher key configured.admitted⟩
  obtain ⟨cipher, key, admitted⟩ := admits
  rw [admitted.hwaesAesOp_eq]
  by_cases ready : Ready args cipher.mode
  · obtain ⟨next, configured, readyPhase⟩ := configure_of_ready ctx exact ivGiven admitted ready
    obtain ⟨-, -, textGiven, outGiven, sameLen⟩ := checkArgs_eq_noError.mp admitted.checks
    obtain ⟨op, transforms, performed⟩ := transform_performed exact inverse readyPhase textGiven
      outGiven sameLen ready.aligned admitted.tagOut_mode
    rw [configured]
    exact ⟨op, transforms, .performed ⟨admitted, ready⟩ performed⟩
  · obtain ⟨⟨rc, failed⟩, configured, fails⟩ :=
      configure_of_not_ready ctx exact ivGiven admitted ready
    rw [configured]
    refine ⟨_, rfl, .refused fails ?_⟩
    intro otherCipher otherKey configured
    have same := (admitted.unique configured.admitted).1
    exact ready (same ▸ configured.ready)

/-- The request is accepted, in terms of what the calls see of its arguments. -/
structure Accepted (prims : Evp.Primitives) (ifc : Interface) (client : HwkeyClient)
    (args : Args) (cipher : Evp.Cipher) (key : List UInt8) : Prop
    extends Configured ifc client args cipher key where
  nonneg : 0 ≤ toInt args.textIn.len
  verified : TagVerified prims args (setUp args cipher key)
  tagOut : args.tagOut.Present → Evp.TagLength (toInt args.tagOut.len)

theorem Outcome.accepted (outcome : Outcome prims ifc client args op)
    (succeeds : op.rc = .noError) : ∃ cipher key, Accepted prims ifc client args cipher key := by
  cases outcome with
  | refused fails => exact absurd succeeds fails
  | @performed cipher key _ configured performed =>
      cases performed with
      | negative | unverified | untagged => cases succeeds
      | succeeded nonneg verified tagOut =>
          exact ⟨cipher, key, configured, nonneg, verified, tagOut⟩

theorem Outcome.of_accepted (outcome : Outcome prims ifc client args op)
    (accepted : Accepted prims ifc client args cipher key) : op.rc = .noError ∧
      op.textOut = args.textOut.overwritten (output prims args (setUp args cipher key)) := by
  cases outcome with
  | refused _ notConfigured => exact absurd accepted.toConfigured (notConfigured cipher key)
  | performed configured performed =>
      obtain ⟨rfl, rfl⟩ := accepted.admitted.unique configured.admitted
      cases performed with
      | negative negative => exact absurd accepted.nonneg (Int.not_le.mpr negative)
      | unverified _ wrong => exact absurd accepted.verified wrong
      | untagged _ _ wanted invalid => exact absurd (accepted.tagOut wanted) invalid
      | succeeded => exact ⟨rfl, rfl⟩

theorem succeeds_iff_accepted (ctx : evp.Ctx) (exact : Evp.Exact evp prims phase)
    (inverse : prims.Inverse) (ivGiven : IvGiven args) :
    (∃ op, hwaesAesOp ifc client ctx args = .ok op ∧ op.rc = .noError) ↔
      ∃ cipher key, Accepted prims ifc client args cipher key := by
  obtain ⟨op, performs, outcome⟩ := hwaesAesOp_outcome ifc client ctx exact inverse ivGiven
  constructor
  · rintro ⟨other, same, succeeds⟩
    obtain rfl := Except.ok.inj (same.symm.trans performs)
    exact outcome.accepted succeeds
  · rintro ⟨cipher, key, accepted⟩
    exact ⟨op, performs, (outcome.of_accepted accepted).1⟩

end Outcome

end TrustyApp.Hwaes
