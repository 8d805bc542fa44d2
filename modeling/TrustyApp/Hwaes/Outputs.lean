import TrustyApp.Hwaes.Acceptance

/-!
# What is left in the output buffers

The text is processed straight into the buffer of the client.  What it holds after the
operation is compared for all contents it may have held before, so that nothing rests
on old contents that happen to be the result.
-/

namespace TrustyApp.Hwaes

open Reactive

variable {evp : Evp.Library} {prims : Evp.Primitives} {phase : evp.Ctx → Evp.Phase}
  {ctx : evp.Ctx} {args : Args} {cipher : Evp.Cipher} {key : List UInt8}
  {ifc : Interface} {client : HwkeyClient} {contents : List UInt8}

def Arg.holding (arg : Arg) (contents : List UInt8) : Arg :=
  match arg with
  | .null len => .null len
  | .pointer _ => .pointer contents

def Args.withTextOut (args : Args) (contents : List UInt8) : Args :=
  { args with textOut := args.textOut.holding contents }

theorem Arg.len_holding {arg : Arg} (full : contents.length = arg.len) :
    (arg.holding contents).len = arg.len := by
  cases arg with
  | null len => rfl
  | pointer buf => exact full

theorem Arg.present_holding {arg : Arg} (full : contents.length = arg.len) :
    (arg.holding contents).Present ↔ arg.Present := by
  cases arg with
  | null len => exact Iff.rfl
  | pointer buf =>
      have sameLength : contents.length = buf.length := full
      simp [Arg.holding, present_iff, ← List.length_eq_zero_iff, sameLength]

theorem checkArgs_withTextOut (full : contents.length = args.textOut.len) :
    checkArgs (args.withTextOut contents) = .noError ↔ checkArgs args = .noError := by
  rw [checkArgs_eq_noError, checkArgs_eq_noError, Args.withTextOut, Arg.present_holding full,
    Arg.len_holding full]

theorem configured_withTextOut (full : contents.length = args.textOut.len) :
    Configured ifc client (args.withTextOut contents) cipher key ↔
      Configured ifc client args cipher key := by
  constructor
  · rintro ⟨admitted, ready⟩
    exact ⟨⟨(checkArgs_withTextOut full).mp admitted.checks, admitted.keyIs,
      admitted.keyLength, admitted.fits⟩, ready.aligned, ready.ivLength, ready.aad, ready.tagIn⟩
  · rintro ⟨admitted, ready⟩
    exact ⟨⟨(checkArgs_withTextOut full).mpr admitted.checks, admitted.keyIs,
      admitted.keyLength, admitted.fits⟩, ready.aligned, ready.ivLength, ready.aad, ready.tagIn⟩

theorem accepted_withTextOut (full : contents.length = args.textOut.len) :
    Accepted prims ifc client (args.withTextOut contents) cipher key ↔
      Accepted prims ifc client args cipher key := by
  constructor
  · rintro ⟨configured, nonneg, verified, tagOut⟩
    exact ⟨(configured_withTextOut full).mp configured, nonneg, verified, tagOut⟩
  · rintro ⟨configured, nonneg, verified, tagOut⟩
    exact ⟨(configured_withTextOut full).mpr configured, nonneg, verified, tagOut⟩

theorem Configured.texts (configured : Configured ifc client args cipher key) :
    args.textIn.Present ∧ args.textIn.len = args.textOut.len ∧ 0 < args.textOut.len := by
  obtain ⟨-, -, textIn, textOut, sameLength⟩ :=
    checkArgs_eq_noError.mp configured.admitted.checks
  obtain ⟨buf, bufIs, nonempty⟩ := present_iff.mp textOut
  refine ⟨textIn, sameLength, ?_⟩
  rw [bufIs]
  exact List.length_pos_of_ne_nil nonempty

theorem Configured.textOut_eq (configured : Configured ifc client args cipher key)
    (contents : List UInt8) : (args.withTextOut contents).textOut = .pointer contents := by
  obtain ⟨-, -, -, textOut, -⟩ := checkArgs_eq_noError.mp configured.admitted.checks
  obtain ⟨buf, bufIs, -⟩ := present_iff.mp textOut
  rw [Args.withTextOut, bufIs]
  rfl

theorem Configured.length_output (inverse : prims.Inverse)
    (configured : Configured ifc client args cipher key) (nonneg : 0 ≤ toInt args.textIn.len) :
    (output prims args (setUp args cipher key)).length = (toInt args.textIn.len).toNat := by
  have seenLength := configured.texts.1.length_seen
  have aligned := aligned_toInt nonneg configured.ready.aligned
  rw [output, length_transform inverse _ (by rw [seenLength]; exact aligned), seenLength]

/-- When the operation fails, the output buffers hold what they held. -/
def FailsCleanly (ifc : Interface) (client : HwkeyClient) (ctx : evp.Ctx) (args : Args) : Prop :=
  ∀ op, hwaesAesOp ifc client ctx args = .ok op → op.rc ≠ .noError →
    op.textOut = args.textOut ∧ op.tagOut = args.tagOut

/-- Text is processed, and the operation then fails: in a decryption on a wrong tag, or
in an encryption on the length of the tag that is asked for. -/
structure Spills (prims : Evp.Primitives) (ifc : Interface) (client : HwkeyClient)
    (args : Args) (cipher : Evp.Cipher) (key : List UInt8) : Prop
    extends Configured ifc client args cipher key where
  positive : 0 < toInt args.textIn.len
  fails : ¬ TagVerified prims args (setUp args cipher key) ∨
    args.tagOut.Present ∧ ¬ Evp.TagLength (toInt args.tagOut.len)

theorem Configured.overwritten_output (inverse : prims.Inverse)
    (configured : Configured ifc client args cipher key) (empty : toInt args.textIn.len = 0) :
    args.textOut.overwritten (output prims args (setUp args cipher key)) = args.textOut := by
  have length := configured.length_output inverse empty.ge
  rw [empty, Int.toNat_zero, List.length_eq_zero_iff] at length
  rw [length, Arg.overwritten_nil]

theorem failsCleanly_of_not_spills (ctx : evp.Ctx) (exact : Evp.Exact evp prims phase)
    (inverse : prims.Inverse) (ivGiven : IvGiven args)
    (dry : ¬ ∃ cipher key, Spills prims ifc client args cipher key) :
    FailsCleanly ifc client ctx args := by
  intro op performed fails
  obtain ⟨same, performs, outcome⟩ := hwaesAesOp_outcome ifc client ctx exact inverse ivGiven
  obtain rfl := Except.ok.inj (performed.symm.trans performs)
  cases outcome with
  | refused => exact ⟨rfl, rfl⟩
  | @performed cipher key _ configured performed =>
      cases performed with
      | negative => exact ⟨rfl, rfl⟩
      | unverified nonneg wrong =>
          have empty : toInt args.textIn.len = 0 := by
            by_contra nonempty
            exact dry ⟨cipher, key, configured, by omega, .inl wrong⟩
          exact ⟨configured.overwritten_output inverse empty, rfl⟩
      | untagged nonneg _ wanted invalid =>
          have empty : toInt args.textIn.len = 0 := by
            by_contra nonempty
            exact dry ⟨cipher, key, configured, by omega, .inr ⟨wanted, invalid⟩⟩
          exact ⟨configured.overwritten_output inverse empty, rfl⟩
      | succeeded => exact absurd rfl fails

theorem Spills.textOut (spills : Spills prims ifc client args cipher key) {op : Op evp}
    (outcome : Outcome prims ifc client args op) : op.rc ≠ .noError ∧
      op.textOut = args.textOut.overwritten (output prims args (setUp args cipher key)) := by
  cases outcome with
  | refused _ notConfigured => exact absurd spills.toConfigured (notConfigured cipher key)
  | performed configured performed =>
      obtain ⟨rfl, rfl⟩ := spills.admitted.unique configured.admitted
      have positive := spills.positive
      cases performed with
      | negative negative => omega
      | unverified => exact ⟨nofun, rfl⟩
      | untagged => exact ⟨nofun, rfl⟩
      | succeeded _ verified tagOut =>
          rcases spills.fails with wrong | ⟨wanted, invalid⟩
          · exact absurd verified wrong
          · exact absurd (tagOut wanted) invalid

theorem Spills.withTextOut (spills : Spills prims ifc client args cipher key)
    (full : contents.length = args.textOut.len) :
    Spills prims ifc client (args.withTextOut contents) cipher key :=
  ⟨(configured_withTextOut full).mpr spills.toConfigured, spills.positive, spills.fails⟩

/-- A failed operation leaves the output buffers as they were, whatever they held, unless
text was processed before the operation failed. -/
theorem failed_operation_keeps_buffers_iff (ctx : evp.Ctx) (exact : Evp.Exact evp prims phase)
    (inverse : prims.Inverse) (ivGiven : IvGiven args) :
    (∀ contents, contents.length = args.textOut.len →
      FailsCleanly ifc client ctx (args.withTextOut contents)) ↔
        ¬ ∃ cipher key, Spills prims ifc client args cipher key := by
  constructor
  · rintro clean ⟨cipher, key, spills⟩
    have nonempty : output prims args (setUp args cipher key) ≠ [] := by
      have positive := spills.positive
      apply List.ne_nil_of_length_pos
      rw [spills.length_output inverse positive.le]
      omega
    obtain ⟨contents, full, changes⟩ :=
      Bytes.exists_overwrite_ne args.textOut.len nonempty spills.texts.2.2
    have given : IvGiven (args.withTextOut contents) := ivGiven
    obtain ⟨op, performs, outcome⟩ := hwaesAesOp_outcome ifc client ctx exact inverse given
    obtain ⟨fails, textOut⟩ := (spills.withTextOut full).textOut outcome
    have kept := (clean contents full op performs fails).1
    rw [textOut, spills.textOut_eq, Arg.overwritten, Arg.pointer.injEq] at kept
    exact changes kept
  · intro dry contents full
    have given : IvGiven (args.withTextOut contents) := ivGiven
    apply failsCleanly_of_not_spills ctx exact inverse given
    rintro ⟨cipher, key, spills⟩
    exact dry ⟨cipher, key, (configured_withTextOut full).mp spills.toConfigured, spills.positive,
      spills.fails⟩

def forgedArgs : Args := vectorArgs (List.replicate 16 0)

theorem failed_operation_keeps_buffers_iff_forged :
    (∀ contents, contents.length = forgedArgs.textOut.len →
      FailsCleanly ⟨32, 128⟩ sampleClient vectorPrimitives.exactImplementation.new
        (forgedArgs.withTextOut contents)) ↔
      ¬ ∃ cipher key, Spills vectorPrimitives ⟨32, 128⟩ sampleClient forgedArgs cipher key :=
  failed_operation_keeps_buffers_iff _ vectorPrimitives_exact vectorPrimitives_inverse
    (vectorArgs_ivGiven _)

theorem unverified_plaintext_released :
    ∃ op : Op vectorPrimitives.exactImplementation,
      hwaesAesOp ⟨32, 128⟩ sampleClient Evp.Phase.initial forgedArgs = .ok op ∧
        op.rc = .errGeneric ∧ op.textOut = .pointer (List.replicate 16 0) ∧
        op.textOut ≠ forgedArgs.textOut :=
  ⟨_, rfl, rfl, rfl, by decide⟩

def wholeOutput (prims : Evp.Primitives) (args : Args) (cipher : Evp.Cipher)
    (key : List UInt8) : List UInt8 :=
  (setUp args cipher key).transform prims args.textIn.bytes

/-- A successful operation fills the buffer with what the whole input stands for, and in
GCM mode authenticates all of the additional data. -/
def ProcessesWhole (prims : Evp.Primitives) (ifc : Interface) (client : HwkeyClient)
    (ctx : evp.Ctx) (args : Args) : Prop :=
  ∀ op, hwaesAesOp ifc client ctx args = .ok op → op.rc = .noError →
    ∃ cipher key, Admitted ifc client args cipher key ∧
      op.textOut = .pointer (wholeOutput prims args cipher key) ∧
      (args.mode = .gcm → authenticatedAad prims args = some args.aad.bytes)

/-- The request is accepted with lengths that an `int` does not hold. -/
structure Narrowed (prims : Evp.Primitives) (ifc : Interface) (client : HwkeyClient)
    (args : Args) (cipher : Evp.Cipher) (key : List UInt8) : Prop
    extends Accepted prims ifc client args cipher key where
  wide : 2 ^ 32 ≤ args.textIn.len ∨ args.aad.Present ∧ 2 ^ 32 ≤ args.aad.len

theorem authenticatedAad_of_not_present (absent : ¬ args.aad.Present) :
    authenticatedAad prims args = some args.aad.bytes := by
  rw [Arg.bytes_of_not_present absent]
  exact if_neg absent

theorem authenticatedAad_eq_some_iff (exact : Evp.Exact evp prims phase)
    (given : args.aad.Present) (nonneg : 0 ≤ toInt args.aad.len) :
    authenticatedAad prims args = some args.aad.bytes ↔ args.aad.len < 2 ^ 32 := by
  have bound := toInt_le args.aad.len
  have part : authenticatedAad prims args = some args.aad.seen := by
    refine (if_pos given).trans ?_
    rw [exact.authenticated _ _ (by rwa [given.length_bytes]), if_pos nonneg]
    rfl
  rw [part, Option.some.injEq]
  constructor
  · intro whole
    have lengths := congrArg List.length whole
    rw [given.length_seen, toNat_toInt nonneg, given.length_bytes] at lengths
    omega
  · intro narrow
    exact Arg.seen_of_lt (lt_of_toInt_nonneg nonneg narrow)

theorem Accepted.length_wholeOutput (inverse : prims.Inverse)
    (accepted : Accepted prims ifc client args cipher key) :
    (wholeOutput prims args cipher key).length = args.textOut.len := by
  obtain ⟨textIn, sameLength, -⟩ := accepted.texts
  have aligned := accepted.ready.aligned
  rw [← textIn.length_bytes] at aligned
  rw [wholeOutput, length_transform inverse _ aligned, textIn.length_bytes, sameLength]

theorem Accepted.whole (exact : Evp.Exact evp prims phase) (inverse : prims.Inverse)
    (accepted : Accepted prims ifc client args cipher key)
    (narrow : ¬ (2 ^ 32 ≤ args.textIn.len ∨ args.aad.Present ∧ 2 ^ 32 ≤ args.aad.len)) :
    args.textOut.overwritten (output prims args (setUp args cipher key)) =
        .pointer (wholeOutput prims args cipher key) ∧
      authenticatedAad prims args = some args.aad.bytes := by
  obtain ⟨shortText, shortAad⟩ := not_or.mp narrow
  constructor
  · have small := lt_of_toInt_nonneg accepted.nonneg (Nat.not_le.mp shortText)
    have whole : output prims args (setUp args cipher key) =
        wholeOutput prims args cipher key := by
      rw [output, wholeOutput, Arg.seen_of_lt small]
    obtain ⟨-, -, -, textOut, -⟩ := checkArgs_eq_noError.mp accepted.admitted.checks
    obtain ⟨buf, bufIs, -⟩ := present_iff.mp textOut
    have length := accepted.length_wholeOutput inverse
    rw [bufIs] at length
    rw [whole, bufIs, Arg.overwritten, Bytes.overwrite, List.drop_eq_nil_of_le length.ge,
      List.append_nil]
  · by_cases given : args.aad.Present
    · apply (authenticatedAad_eq_some_iff exact given (accepted.ready.aad given)).mpr
      exact Nat.not_le.mp fun wide => shortAad ⟨given, wide⟩
    · exact authenticatedAad_of_not_present given

theorem ProcessesWhole.of_accepted (exact : Evp.Exact evp prims phase) (inverse : prims.Inverse)
    (ivGiven : IvGiven args) (whole : ProcessesWhole prims ifc client ctx args)
    (accepted : Accepted prims ifc client args cipher key) :
    args.textOut.overwritten (output prims args (setUp args cipher key)) =
        .pointer (wholeOutput prims args cipher key) ∧
      (args.mode = .gcm → authenticatedAad prims args = some args.aad.bytes) := by
  obtain ⟨op, performs, outcome⟩ := hwaesAesOp_outcome ifc client ctx exact inverse ivGiven
  obtain ⟨succeeds, textOut⟩ := outcome.of_accepted accepted
  obtain ⟨otherCipher, otherKey, admitted, wholeText, wholeAad⟩ := whole op performs succeeds
  obtain ⟨rfl, rfl⟩ := accepted.admitted.unique admitted
  exact ⟨textOut.symm.trans wholeText, wholeAad⟩

theorem Narrowed.not_whole (ctx : evp.Ctx) (exact : Evp.Exact evp prims phase)
    (inverse : prims.Inverse) (ivGiven : IvGiven args)
    (narrowed : Narrowed prims ifc client args cipher key) :
    ¬ ∀ contents, contents.length = args.textOut.len →
      ProcessesWhole prims ifc client ctx (args.withTextOut contents) := by
  intro whole
  have given contents : IvGiven (args.withTextOut contents) := ivGiven
  have accepted {contents : List UInt8} (full : contents.length = args.textOut.len) :
      Accepted prims ifc client (args.withTextOut contents) cipher key :=
    (accepted_withTextOut full).mpr narrowed.toAccepted
  obtain ⟨-, sameLength, -⟩ := narrowed.texts
  rcases narrowed.wide with wideText | ⟨aadGiven, wideAad⟩
  · have short : (output prims args (setUp args cipher key)).length < args.textOut.len := by
      rw [narrowed.length_output inverse narrowed.nonneg, toNat_toInt narrowed.nonneg]
      omega
    obtain ⟨contents, full, shows⟩ :=
      Bytes.exists_overwrite_ne_of_short short (narrowed.length_wholeOutput inverse)
    have text :=
      ((whole contents full).of_accepted exact inverse (given contents) (accepted full)).1
    rw [narrowed.textOut_eq, Arg.overwritten, Arg.pointer.injEq] at text
    exact shows text
  · have full : (List.replicate args.textOut.len (0 : UInt8)).length = args.textOut.len :=
      List.length_replicate
    have aad := ((whole _ full).of_accepted exact inverse (given _) (accepted full)).2
    have mode : args.mode = .gcm :=
      (narrowed.admitted.aad_mode aadGiven ▸ narrowed.admitted.fits).1
    have narrow := (authenticatedAad_eq_some_iff exact aadGiven
      (narrowed.ready.aad aadGiven)).mp (aad mode)
    omega

/-- A successful operation processes all of its input, whatever the buffer held, unless it
accepted a length of 4 GiB or more. -/
theorem whole_input_processed_iff (ctx : evp.Ctx) (exact : Evp.Exact evp prims phase)
    (inverse : prims.Inverse) (ivGiven : IvGiven args) :
    (∀ contents, contents.length = args.textOut.len →
      ProcessesWhole prims ifc client ctx (args.withTextOut contents)) ↔
        ¬ ∃ cipher key, Narrowed prims ifc client args cipher key := by
  constructor
  · rintro whole ⟨cipher, key, narrowed⟩
    exact narrowed.not_whole ctx exact inverse ivGiven whole
  · intro narrow contents full op performed succeeds
    have given : IvGiven (args.withTextOut contents) := ivGiven
    obtain ⟨same, performs, outcome⟩ := hwaesAesOp_outcome ifc client ctx exact inverse given
    obtain rfl := Except.ok.inj (performed.symm.trans performs)
    obtain ⟨cipher, key, accepted⟩ := outcome.accepted succeeds
    have wide : ¬ (2 ^ 32 ≤ args.textIn.len ∨ args.aad.Present ∧ 2 ^ 32 ≤ args.aad.len) :=
      fun wide => narrow ⟨cipher, key, (accepted_withTextOut full).mp accepted, wide⟩
    obtain ⟨text, aad⟩ := accepted.whole exact inverse wide
    refine ⟨cipher, key, accepted.admitted, ?_, fun _ => aad⟩
    rw [(outcome.of_accepted accepted).2]
    exact text

section Wide

variable {text buf : List UInt8}

def encryptArgs (text buf : List UInt8) : Args where
  padding := .noPadding
  keyType := .other
  mode := .gcm
  encrypt := true
  key := .pointer vectorKey
  iv := .pointer vectorIv
  textIn := .pointer text
  textOut := .pointer buf
  aad := .null 0
  tagIn := .null 0
  tagOut := .pointer (List.replicate 16 0)

/-- 4 GiB of zeros and one block more. -/
def wideArgs : Args :=
  encryptArgs (List.replicate (2 ^ 32 + 16) 0) (List.replicate (2 ^ 32 + 16) 0xff)

theorem wideArgs_ivGiven : IvGiven wideArgs :=
  fun _ => nofun

theorem whole_input_processed_iff_wide :
    (∀ contents, contents.length = wideArgs.textOut.len →
      ProcessesWhole vectorPrimitives ⟨32, 128⟩ sampleClient
        vectorPrimitives.exactImplementation.new (wideArgs.withTextOut contents)) ↔
      ¬ ∃ cipher key, Narrowed vectorPrimitives ⟨32, 128⟩ sampleClient wideArgs cipher key :=
  whole_input_processed_iff _ vectorPrimitives_exact vectorPrimitives_inverse wideArgs_ivGiven

theorem encryptArgs_accepted (nonempty : text ≠ []) (sameLength : text.length = buf.length)
    (nonneg : 0 ≤ toInt text.length) :
    Accepted vectorPrimitives ⟨32, 128⟩ sampleClient (encryptArgs text buf) (.aes128 .gcm)
      vectorKey := by
  have absent : ¬ (Arg.null 0).Present := by decide
  have keyGiven : (Arg.pointer vectorKey).Present := by decide
  have tagWanted : (Arg.pointer (List.replicate 16 0)).Present := by decide
  have outNonempty : buf ≠ [] := by
    apply List.ne_nil_of_length_pos
    rw [← sameLength]
    exact List.length_pos_of_ne_nil nonempty
  have checks : checkArgs (encryptArgs text buf) = .noError :=
    checkArgs_eq_noError.mpr ⟨rfl, keyGiven, present_iff.mpr ⟨text, rfl, nonempty⟩,
      present_iff.mpr ⟨buf, rfl, outNonempty⟩, sameLength⟩
  have tagLength : Evp.TagLength (toInt 16) := by decide
  exact {
    admitted := ⟨checks, rfl, rfl, rfl, iff_of_false absent nofun, iff_of_true tagWanted rfl⟩
    ready := ⟨Nat.mod_one _, rfl, fun given => absurd given absent,
      fun given => absurd given absent⟩
    nonneg
    verified := verified_of_not_gcm (.inr rfl)
    tagOut := fun _ => tagLength }

theorem wideArgs_textIn_len : wideArgs.textIn.len = 2 ^ 32 + 16 := List.length_replicate

theorem toInt_wide : toInt (2 ^ 32 + 16) = 16 := by decide

theorem wideArgs_accepted :
    Accepted vectorPrimitives ⟨32, 128⟩ sampleClient wideArgs (.aes128 .gcm) vectorKey := by
  apply encryptArgs_accepted
  · apply List.ne_nil_of_length_pos
    rw [List.length_replicate]
    omega
  · rw [List.length_replicate, List.length_replicate]
  · rw [List.length_replicate, toInt_wide]
    decide

theorem wideArgs_output :
    output vectorPrimitives wideArgs (setUp wideArgs (.aes128 .gcm) vectorKey) =
      vectorCiphertext := by
  have seen : wideArgs.textIn.seen = List.replicate 16 0 := by
    have bytes : wideArgs.textIn.bytes = List.replicate (2 ^ 32 + 16) 0 := rfl
    rw [Arg.seen, bytes, wideArgs_textIn_len, toInt_wide, List.take_replicate]
    rfl
  rw [output, seen]
  rfl

/-- The encryption succeeds, and leaves all of the buffer behind the first block as it
was. -/
theorem wide_text_not_processed :
    (∃ op : Op vectorPrimitives.exactImplementation,
      hwaesAesOp ⟨32, 128⟩ sampleClient Evp.Phase.initial wideArgs = .ok op ∧
        op.rc = .noError ∧
        op.textOut = .pointer (vectorCiphertext ++ List.replicate (2 ^ 32) 0xff)) ∧
      ¬ ∀ contents, contents.length = wideArgs.textOut.len →
        ProcessesWhole vectorPrimitives ⟨32, 128⟩ sampleClient
          vectorPrimitives.exactImplementation.new (wideArgs.withTextOut contents) := by
  constructor
  · obtain ⟨op, performs, outcome⟩ := hwaesAesOp_outcome ⟨32, 128⟩ sampleClient
      vectorPrimitives.exactImplementation.new vectorPrimitives_exact vectorPrimitives_inverse
      wideArgs_ivGiven
    obtain ⟨succeeds, textOut⟩ := outcome.of_accepted wideArgs_accepted
    refine ⟨op, performs, succeeds, textOut.trans ?_⟩
    have bufIs : wideArgs.textOut = .pointer (List.replicate (2 ^ 32 + 16) 0xff) := rfl
    have rest : 2 ^ 32 + 16 - vectorCiphertext.length = 2 ^ 32 := by decide
    rw [wideArgs_output, bufIs, Arg.overwritten, Bytes.overwrite, List.drop_replicate, rest]
  · apply Narrowed.not_whole _ vectorPrimitives_exact vectorPrimitives_inverse wideArgs_ivGiven
    refine ⟨wideArgs_accepted, .inl ?_⟩
    rw [wideArgs_textIn_len]
    omega

end Wide

end TrustyApp.Hwaes
