import TrustyApp.Hwaes.Service

/-!
# Decryption undoes encryption

Every operation starts with a reset of the context, so that what it computes does not
depend on the operations before it.  A request and the one that reverses it configure
the context in the same way, up to the direction.
-/

namespace TrustyApp.Hwaes

open Reactive

variable {evp : Evp.Library} {prims : Evp.Primitives} {phase : evp.Ctx → Evp.Phase}
  {ctx : evp.Ctx} {args : Args} {cipher : Evp.Cipher} {key iv text : List UInt8}

/-- The argument is there: the pointer is not null and the length not zero. -/
def Arg.Present (arg : Arg) : Prop := hwaesCheckArgIn arg = .noError

instance (arg : Arg) : Decidable arg.Present :=
  inferInstanceAs (Decidable (hwaesCheckArgIn arg = .noError))

theorem present_iff {arg : Arg} : arg.Present ↔ ∃ data, arg = .pointer data ∧ data ≠ [] := by
  cases arg with
  | null len => simp [Arg.Present, hwaesCheckArgIn, hwaesCheckArgHelper, Arg.dataPtr]
  | pointer data =>
      simp [Arg.Present, hwaesCheckArgIn, hwaesCheckArgHelper, Arg.dataPtr, Arg.len]

theorem toInt_of_lt {len : Nat} (small : len < 2 ^ 31) : toInt len = len := by
  have mod : len % 2 ^ 32 = len := Nat.mod_eq_of_lt (by omega)
  rw [toInt, BitVec.toInt_eq_toNat_cond, BitVec.toNat_ofNat, mod, if_pos (by omega)]

theorem Arg.write_all {buf data : List UInt8} (full : data.length = buf.length) :
    (Arg.pointer buf).write data = .ok (.pointer data) := by
  simp [Arg.write, full, Bytes.overwrite]

theorem checkArgs_eq_noError : checkArgs args = .noError ↔
    args.padding = .noPadding ∧ args.key.Present ∧ args.textIn.Present ∧ args.textOut.Present ∧
      args.textIn.len = args.textOut.len := by
  unfold checkArgs Arg.Present
  constructor
  · intro passed
    split at passed
    · cases passed
    next padding =>
    split at passed
    next missing => exact absurd passed missing
    next keyGiven =>
    split at passed
    next missing => exact absurd passed missing
    next textGiven =>
    split at passed
    next missing => exact absurd passed missing
    next outGiven =>
    split at passed
    · cases passed
    next same =>
      exact ⟨not_not.mp padding, not_not.mp keyGiven, not_not.mp textGiven, not_not.mp outGiven,
        not_not.mp same⟩
  · rintro ⟨padding, keyGiven, textGiven, outGiven, same⟩
    have outChecked : hwaesCheckArgOut args.textOut = .noError := outGiven
    simp [padding, keyGiven, textGiven, outChecked, same]

def Matches (args : Args) : Evp.Mode → Prop
  | .cbc => args.mode = .cbc ∧ ¬ args.aad.Present ∧ ¬ args.tagIn.Present ∧ ¬ args.tagOut.Present
  | .gcm => args.mode = .gcm ∧ (args.tagIn.Present ↔ args.encrypt = false) ∧
      (args.tagOut.Present ↔ args.encrypt = true)

theorem cipherFor_eq_ok {mode : Evp.Mode} {keyLen : Nat} :
    cipherFor mode keyLen = .ok cipher ↔ cipher.mode = mode ∧ keyLen = cipher.keyLength := by
  unfold cipherFor
  constructor
  · intro chosen
    split at chosen
    next short =>
      obtain rfl := Except.ok.inj chosen
      exact ⟨rfl, short⟩
    next =>
    split at chosen
    next long =>
      obtain rfl := Except.ok.inj chosen
      exact ⟨rfl, long⟩
    next => cases chosen
  · rintro ⟨rfl, rfl⟩
    cases cipher with
    | aes128 mode => rfl
    | aes256 mode => rfl

theorem selectCipher_cbc {keyLen : Nat} (modeIs : args.mode = .cbc) :
    selectCipher args keyLen = .ok cipher ↔
      keyLen = cipher.keyLength ∧ Matches args cipher.mode := by
  simp only [selectCipher, modeIs, bind_eq_ok, cipherFor_eq_ok]
  constructor
  · rintro ⟨chosen, ⟨mode, len⟩, passed⟩
    split at passed
    · cases passed
    next noAad =>
    split at passed
    · cases passed
    next noTag =>
      obtain rfl := Except.ok.inj passed
      rw [mode]
      exact ⟨len, modeIs, noAad, fun given => noTag (.inl given), fun given => noTag (.inr given)⟩
  · rintro ⟨len, fits⟩
    cases mode : cipher.mode with
    | gcm => simp [mode, Matches, modeIs] at fits
    | cbc =>
        rw [mode] at fits
        obtain ⟨-, noAad, noTagIn, noTagOut⟩ := fits
        have noTag : ¬ (hwaesCheckArgIn args.tagIn = .noError ∨
            hwaesCheckArgOut args.tagOut = .noError) := not_or.mpr ⟨noTagIn, noTagOut⟩
        exact ⟨cipher, ⟨mode, len⟩, (if_neg noAad).trans (if_neg noTag)⟩

theorem selectCipher_gcm {keyLen : Nat} (modeIs : args.mode = .gcm) :
    selectCipher args keyLen = .ok cipher ↔
      keyLen = cipher.keyLength ∧ Matches args cipher.mode := by
  simp only [selectCipher, modeIs, bind_eq_ok, cipherFor_eq_ok]
  constructor
  · rintro ⟨chosen, ⟨mode, len⟩, passed⟩
    have direction : (hwaesCheckArgIn args.tagIn = .noError ↔ args.encrypt = false) ∧
        (hwaesCheckArgOut args.tagOut = .noError ↔ args.encrypt = true) ∧ chosen = cipher := by
      cases encrypt : args.encrypt with
      | true =>
          rw [encrypt, if_pos rfl] at passed
          split at passed
          · cases passed
          next noTagIn =>
          split at passed
          · cases passed
          next tagOut => simpa [noTagIn, not_not.mp tagOut] using passed
      | false =>
          rw [encrypt, if_neg (by decide)] at passed
          split at passed
          · cases passed
          next tagIn =>
          split at passed
          · cases passed
          next noTagOut => simpa [noTagOut, not_not.mp tagIn] using passed
    obtain ⟨tagIn, tagOut, rfl⟩ := direction
    rw [mode]
    exact ⟨len, modeIs, tagIn, tagOut⟩
  · rintro ⟨len, fits⟩
    cases mode : cipher.mode with
    | cbc => simp [mode, Matches, modeIs] at fits
    | gcm =>
        rw [mode] at fits
        obtain ⟨-, tagInIff, tagOutIff⟩ := fits
        have tagIn : hwaesCheckArgIn args.tagIn = .noError ↔ args.encrypt = false := tagInIff
        have tagOut : hwaesCheckArgOut args.tagOut = .noError ↔ args.encrypt = true := tagOutIff
        refine ⟨cipher, ⟨mode, len⟩, ?_⟩
        cases encrypt : args.encrypt with
        | true => simp [tagIn, tagOut, encrypt]
        | false => simp [tagIn, tagOut, encrypt]

theorem selectCipher_eq_ok {keyLen : Nat} :
    selectCipher args keyLen = .ok cipher ↔
      keyLen = cipher.keyLength ∧ Matches args cipher.mode := by
  cases modeIs : args.mode with
  | cbc => exact selectCipher_cbc modeIs
  | gcm => exact selectCipher_gcm modeIs
  | other =>
      simp only [selectCipher, modeIs, reduceCtorEq, false_iff, not_and]
      intro _ fits
      cases cipherMode : cipher.mode with
      | cbc | gcm => simp [cipherMode, Matches, modeIs] at fits

/-- The additional data that the request authenticates, if the call succeeds. -/
def authenticatedAad (prims : Evp.Primitives) (args : Args) : Option (List UInt8) :=
  if hwaesCheckArgIn args.aad = .noError then
    prims.authenticated args.aad.bytes (toInt args.aad.len)
  else some []

def givenTag (args : Args) : Option (List UInt8) :=
  if hwaesCheckArgIn args.tagIn = .noError then some args.tagIn.bytes else none

/-- The request fits the cipher: sizes, and no additional data or tag in CBC mode. -/
structure Configurable (args : Args) (cipher : Evp.Cipher) (key iv : List UInt8) : Prop where
  keyLength : key.length = cipher.keyLength
  ivIs : args.iv = .pointer iv
  ivLength : iv.length = cipher.mode.ivLength
  aligned : args.textIn.len % cipher.mode.blockSize = 0
  aadMode : args.aad.Present → cipher.mode = .gcm
  tagMode : args.tagIn.Present → cipher.mode = .gcm ∧ args.encrypt = false ∧
    args.tagIn.len ≤ 16

theorem setTag_spec (lawful : Evp.Lawful evp prims phase)
    (configurable : Configurable args cipher key iv) {session : Evp.Session}
    (ready : phase ctx = .ready session) (untagged : session.tag = none)
    (same : session.cipher = cipher ∧ session.encrypt = args.encrypt) :
    ∃ tagged,
      (if hwaesCheckArgIn args.tagIn = .noError then
        proceed (evp.setTag ctx args.tagIn.bytes (toInt args.tagIn.len)) else .ok ctx) =
          .ok tagged ∧
        phase tagged = .ready { session with tag := givenTag args } := by
  by_cases given : hwaesCheckArgIn args.tagIn = .noError
  · obtain ⟨mode, direction, short⟩ := configurable.tagMode given
    obtain ⟨tag, tagIs, nonempty⟩ := present_iff.mp given
    have len : args.tagIn.len = tag.length := by rw [tagIs]; rfl
    have bytes : args.tagIn.bytes = tag := by rw [tagIs]; rfl
    rw [len] at short
    obtain ⟨setOk, tagged⟩ := lawful.setTag ctx session tag ready (same.1 ▸ mode)
      (same.2.trans direction) (List.length_pos_of_ne_nil nonempty) short
    refine ⟨_, ?_, tagged.trans ?_⟩
    · rw [if_pos given, len, bytes, toInt_of_lt (by omega), proceed, if_pos setOk]
    · rw [givenTag, if_pos given, bytes]
  · refine ⟨ctx, by rw [if_neg given], ready.trans ?_⟩
    rw [givenTag, if_neg given, ← untagged]

/-- The context once the key and the IV are set; what follows takes the additional data
and the tag. -/
theorem configure_keyed (ctx : evp.Ctx) (lawful : Evp.Lawful evp prims phase)
    (keyLength : key.length = cipher.keyLength) (ivIs : args.iv = .pointer iv)
    (ivLength : iv.length = cipher.mode.ivLength)
    (aligned : args.textIn.len % cipher.mode.blockSize = 0) :
    ∃ keyed, phase keyed = .ready ⟨cipher, args.encrypt, key, iv, [], none⟩ ∧
      configure ctx args cipher key =
        (if hwaesCheckArgIn args.aad = .noError then
          proceed (evp.updateAad keyed args.aad.bytes (toInt args.aad.len))
        else .ok keyed) >>= fun ctx =>
          if hwaesCheckArgIn args.tagIn = .noError then
            proceed (evp.setTag ctx args.tagIn.bytes (toInt args.tagIn.len))
          else .ok ctx := by
  obtain ⟨selects, selected⟩ := lawful.cipherInit evp.new cipher args.encrypt lawful.new
  obtain ⟨initOk, keyed⟩ := lawful.cipherInitKey _ cipher args.encrypt key iv selected
    keyLength ivLength
  obtain ⟨padOk, padded⟩ := lawful.setPadding _ _ keyed
  have ivLen : args.iv.len = cipher.mode.ivLength := by
    rw [ivIs]
    exact ivLength
  have ivPtr : args.iv.dataPtr = some iv := by
    rw [ivIs]
    rfl
  refine ⟨_, padded, ?_⟩
  by_cases given : hwaesCheckArgIn args.aad = .noError
  · simp [configure, lawful.reset, proceed, selects, lawful.blockSize _ _ _ selected,
      lawful.ivLength _ _ _ selected, aligned, ivLen, ivPtr, initOk, padOk, given]
  · simp [configure, lawful.reset, proceed, selects, lawful.blockSize _ _ _ selected,
      lawful.ivLength _ _ _ selected, aligned, ivLen, ivPtr, initOk, padOk, given]

theorem configure_spec (ctx : evp.Ctx) (lawful : Evp.Lawful evp prims phase)
    (configurable : Configurable args cipher key iv) :
    match authenticatedAad prims args with
    | none => ∃ failed, configure ctx args cipher key = .error failed ∧ failed.1 = .errGeneric
    | some aad => ∃ ready, configure ctx args cipher key = .ok ready ∧
        phase ready = .ready ⟨cipher, args.encrypt, key, iv, aad, givenTag args⟩ := by
  obtain ⟨keyed, keyedPhase, configures⟩ := configure_keyed ctx lawful configurable.keyLength
    configurable.ivIs configurable.ivLength configurable.aligned
  rw [configures]
  by_cases given : hwaesCheckArgIn args.aad = .noError
  · have authenticates := lawful.updateAad _ _ args.aad.bytes (toInt args.aad.len) keyedPhase
      (configurable.aadMode given)
    simp only [authenticatedAad, given, if_true]
    cases result : prims.authenticated args.aad.bytes (toInt args.aad.len) with
    | none =>
        simp only [result] at authenticates
        simp [proceed, authenticates]
    | some aad =>
        simp only [result] at authenticates
        simp only [proceed, authenticates.1, if_true, ok_bind]
        exact setTag_spec lawful configurable authenticates.2 rfl ⟨rfl, rfl⟩
  · simp only [authenticatedAad, given, if_false, ok_bind]
    exact setTag_spec lawful configurable keyedPhase rfl ⟨rfl, rfl⟩

theorem length_transform (inverse : prims.Inverse) (session : Evp.Session)
    (aligned : text.length % session.cipher.mode.blockSize = 0) :
    (session.transform prims text).length = text.length := by
  unfold Evp.Session.transform
  split
  next mode _ =>
    rw [mode] at aligned
    exact (inverse.cbcLength _ _ text aligned).1
  next mode _ =>
    rw [mode] at aligned
    exact (inverse.cbcLength _ _ text aligned).2
  next => exact (inverse.gcmLength _ _ text).1
  next => exact (inverse.gcmLength _ _ text).2

theorem transform_spec (lawful : Evp.Lawful evp prims phase) {session : Evp.Session}
    (inverse : prims.Inverse) (ready : phase ctx = .ready session)
    {text buf : List UInt8} (textIs : args.textIn = .pointer text)
    (bufIs : args.textOut = .pointer buf) (room : text.length = buf.length)
    (aligned : text.length % session.cipher.mode.blockSize = 0) (small : text.length < 2 ^ 31)
    (checks : session.cipher.mode = .gcm → session.encrypt = false → ∃ tag,
      session.tag = some tag ∧
        tag = (session.computedTag prims (session.ciphertext prims text)).take tag.length)
    (tagMode : args.tagOut.Present → session.cipher.mode = .gcm ∧ session.encrypt = true ∧
      args.tagOut.len ≤ 16) :
    ∃ ctx', transform ctx args = .ok ⟨.noError, ctx', .pointer (session.transform prims text),
      if hwaesCheckArgOut args.tagOut = .noError then
        .pointer ((session.computedTag prims (session.ciphertext prims text)).take
          args.tagOut.len)
      else args.tagOut⟩ := by
  obtain ⟨updates, processed⟩ := lawful.update ctx session text ready aligned small
  obtain ⟨finalOk, completed⟩ := lawful.final _ session _ processed checks
  have written : (session.transform prims text).length = buf.length :=
    (length_transform inverse session aligned).trans room
  have inLen : toInt args.textIn.len = text.length := by
    rw [textIs]
    exact toInt_of_lt small
  have outLen : toInt args.textOut.len = text.length := by
    rw [bufIs, Arg.len, ← room]
    exact toInt_of_lt small
  have bytes : args.textIn.bytes = text := by
    rw [textIs]
    rfl
  have stored : args.textOut.write (session.transform prims text) =
      .ok (.pointer (session.transform prims text)) := by
    rw [bufIs]
    exact Arg.write_all written
  simp only [transform, inLen, bytes, updates, outLen, stored, ok_bind, finalOk, ne_eq,
    not_true_eq_false, if_false]
  by_cases wanted : hwaesCheckArgOut args.tagOut = .noError
  · obtain ⟨mode, direction, short⟩ := tagMode wanted
    obtain ⟨tagBuf, tagIs, nonempty⟩ := present_iff.mp wanted
    have len : args.tagOut.len = tagBuf.length := by rw [tagIs]; rfl
    rw [len] at short
    have delivered := lawful.getTag _ session _ tagBuf.length completed mode direction
      (List.length_pos_of_ne_nil nonempty) short
    have fills : ((session.computedTag prims (session.ciphertext prims text)).take
        tagBuf.length).length = tagBuf.length := by
      have tagLength := inverse.tagLength session.key session.iv session.aad
        (session.ciphertext prims text)
      rw [List.length_take, Evp.Session.computedTag, tagLength]
      omega
    have tagStored (tag : List UInt8) (full : tag.length = tagBuf.length) :
        args.tagOut.write tag = .ok (.pointer tag) := by
      rw [tagIs]
      exact Arg.write_all full
    simp only [wanted, if_true, len, toInt_of_lt (show tagBuf.length < 2 ^ 31 by omega),
      delivered, tagStored _ fills, ok_bind, not_true_eq_false, if_false]
    exact ⟨_, rfl⟩
  · simp [wanted]

theorem cipherFor_ne_noError (mode : Evp.Mode) (keyLen : Nat) :
    cipherFor mode keyLen ≠ .error .noError := by
  unfold cipherFor
  split
  · simp
  · split
    · simp
    · simp

theorem selectCipher_ne_noError (args : Args) (keyLen : Nat) :
    selectCipher args keyLen ≠ .error .noError := by
  unfold selectCipher
  cases args.mode with
  | other => simp
  | cbc =>
      simp only [ne_eq, bind_eq_error, cipherFor_ne_noError, false_or]
      rintro ⟨cipher, -, fails⟩
      repeat' split at fails
      all_goals cases fails
  | gcm =>
      simp only [ne_eq, bind_eq_error, cipherFor_ne_noError, false_or]
      rintro ⟨cipher, -, fails⟩
      repeat' split at fails
      all_goals cases fails

/-- The request passes the checks up to the cipher context. -/
structure Admitted (ifc : Interface) (client : HwkeyClient) (args : Args) (cipher : Evp.Cipher)
    (key : List UInt8) : Prop where
  checks : checkArgs args = .noError
  keyIs : fetchKey ifc client args = .ok key
  keyLength : key.length = cipher.keyLength
  fits : Matches args cipher.mode

theorem Admitted.hwaesAesOp_eq {ifc : Interface} {client : HwkeyClient}
    (admitted : Admitted ifc client args cipher key) :
    hwaesAesOp ifc client ctx args =
      match configure ctx args cipher key with
      | .error (rc, ctx) => .ok ⟨rc, ctx, args.textOut, args.tagOut⟩
      | .ok ctx => transform ctx args := by
  have chosen : selectCipher args key.length = .ok cipher :=
    selectCipher_eq_ok.mpr ⟨admitted.keyLength, admitted.fits⟩
  cases configured : configure ctx args cipher key with
  | error stopped =>
      simp [hwaesAesOp, admitted.checks, admitted.keyIs, operate, chosen, configured]
  | ok ready => simp [hwaesAesOp, admitted.checks, admitted.keyIs, operate, chosen, configured]

theorem admitted_of_noError {ifc : Interface} {client : HwkeyClient} {op : Op evp}
    (keyIs : fetchKey ifc client args = .ok key)
    (performed : hwaesAesOp ifc client ctx args = .ok op) (succeeds : op.rc = .noError) :
    ∃ cipher, Admitted ifc client args cipher key := by
  by_cases checks : checkArgs args = .noError
  · cases chosen : selectCipher args key.length with
    | ok cipher =>
        obtain ⟨keyLength, fits⟩ := selectCipher_eq_ok.mp chosen
        exact ⟨cipher, checks, keyIs, keyLength, fits⟩
    | error rc =>
        simp only [hwaesAesOp, checks, ne_eq, not_true_eq_false, if_false, keyIs, operate,
          chosen, Except.ok.injEq] at performed
        rw [← performed] at succeeds
        rw [show rc = .noError from succeeds] at chosen
        exact absurd chosen (selectCipher_ne_noError args key.length)
  · rw [hwaesAesOp, if_pos checks, Except.ok.injEq] at performed
    rw [← performed] at succeeds
    exact absurd succeeds checks

/-- The sizes that go with a mode; text and tags are such that an `int` holds their
length. -/
structure Sized (args : Args) (mode : Evp.Mode) (iv text : List UInt8) : Prop where
  ivIs : args.iv = .pointer iv
  ivLength : iv.length = mode.ivLength
  textIs : args.textIn = .pointer text
  aligned : text.length % mode.blockSize = 0
  small : text.length < 2 ^ 31
  tagIn : args.tagIn.Present → args.tagIn.len ≤ 16
  tagOut : args.tagOut.Present → args.tagOut.len ≤ 16

theorem Admitted.configurable {ifc : Interface} {client : HwkeyClient}
    (admitted : Admitted ifc client args cipher key) (sized : Sized args cipher.mode iv text) :
    Configurable args cipher key iv where
  keyLength := admitted.keyLength
  ivIs := sized.ivIs
  ivLength := sized.ivLength
  aligned := by
    rw [sized.textIs]
    exact sized.aligned
  aadMode := by
    intro given
    have fits := admitted.fits
    cases mode : cipher.mode with
    | gcm => rfl
    | cbc =>
        rw [mode] at fits
        exact absurd given fits.2.1
  tagMode := by
    intro given
    have fits := admitted.fits
    cases mode : cipher.mode with
    | gcm =>
        rw [mode] at fits
        exact ⟨rfl, fits.2.1.mp given, sized.tagIn given⟩
    | cbc =>
        rw [mode] at fits
        exact absurd given fits.2.2.1

theorem Admitted.tagOut_mode {ifc : Interface} {client : HwkeyClient}
    (admitted : Admitted ifc client args cipher key) (wanted : args.tagOut.Present) :
    cipher.mode = .gcm ∧ args.encrypt = true := by
  have fits := admitted.fits
  cases mode : cipher.mode with
  | gcm =>
      rw [mode] at fits
      exact ⟨rfl, fits.2.2.mp wanted⟩
  | cbc =>
      rw [mode] at fits
      exact absurd wanted fits.2.2.2

def sessionFor (args : Args) (cipher : Evp.Cipher) (key iv aad : List UInt8) : Evp.Session :=
  ⟨cipher, args.encrypt, key, iv, aad, givenTag args⟩

/-- What an operation does with a request of valid sizes, in any state of the context. -/
theorem hwaesAesOp_spec {ifc : Interface} {client : HwkeyClient} (ctx : evp.Ctx)
    (lawful : Evp.Lawful evp prims phase) (inverse : prims.Inverse)
    (admitted : Admitted ifc client args cipher key) (sized : Sized args cipher.mode iv text) :
    match authenticatedAad prims args with
    | none => ∃ op, hwaesAesOp ifc client ctx args = .ok op ∧ op.rc = .errGeneric
    | some aad =>
        let session := sessionFor args cipher key iv aad
        let tag := session.computedTag prims (session.ciphertext prims text)
        (cipher.mode = .gcm → args.encrypt = false →
          ∃ given, givenTag args = some given ∧ given = tag.take given.length) →
        ∃ ctx', hwaesAesOp ifc client ctx args =
          .ok ⟨.noError, ctx', .pointer (session.transform prims text),
            if hwaesCheckArgOut args.tagOut = .noError then .pointer (tag.take args.tagOut.len)
            else args.tagOut⟩ := by
  have configures := configure_spec ctx lawful (admitted.configurable sized)
  rw [admitted.hwaesAesOp_eq]
  cases authenticates : authenticatedAad prims args with
  | none =>
      simp only [authenticates] at configures ⊢
      obtain ⟨⟨rc, failed⟩, configured, rcIs⟩ := configures
      rw [configured]
      exact ⟨_, rfl, rcIs⟩
  | some aad =>
      simp only [authenticates] at configures ⊢
      intro checks
      obtain ⟨ready, configured, readyPhase⟩ := configures
      rw [configured]
      obtain ⟨-, -, -, outGiven, sameLen⟩ := checkArgs_eq_noError.mp admitted.checks
      obtain ⟨buf, bufIs, -⟩ := present_iff.mp outGiven
      rw [sized.textIs, bufIs] at sameLen
      exact transform_spec lawful inverse readyPhase sized.textIs bufIs sameLen sized.aligned
        sized.small checks fun wanted => ⟨(admitted.tagOut_mode wanted).1,
          (admitted.tagOut_mode wanted).2, sized.tagOut wanted⟩

def interfaceMode : Evp.Mode → Mode
  | .cbc => .cbc
  | .gcm => .gcm

theorem mode_of_matches {mode : Evp.Mode} (fits : Matches args cipher.mode)
    (modeIs : args.mode = interfaceMode mode) : cipher.mode = mode := by
  cases chosen : cipher.mode with
  | cbc | gcm =>
      rw [chosen] at fits
      have agree := fits.1.symm.trans modeIs
      cases mode with
      | cbc | gcm => first | rfl | cases agree

/-- A request to encrypt, with a key given in plain or behind an opaque handle. -/
structure Encrypts (ifc : Interface) (client : HwkeyClient) (args : Args) (mode : Evp.Mode)
    (key iv text : List UInt8) : Prop where
  encrypt : args.encrypt = true
  modeIs : args.mode = interfaceMode mode
  keyIs : fetchKey ifc client args = .ok key
  ivIs : args.iv = .pointer iv
  ivLength : iv.length = mode.ivLength
  textIs : args.textIn = .pointer text
  aligned : text.length % mode.blockSize = 0
  small : text.length < 2 ^ 31
  tagOut : mode = .gcm → args.tagOut.len ≤ 16

/-- The request that turns the ciphertext `op` left back.  A handle has to stand for the
same key still. -/
structure Reverses (ifc : Interface) (client : HwkeyClient) (args dec : Args) (op : Op evp)
    (key : List UInt8) : Prop where
  decrypt : dec.encrypt = false
  padding : dec.padding = args.padding
  mode : dec.mode = args.mode
  sameKey : dec.keyType = args.keyType ∧ dec.key = args.key
  keyIs : fetchKey ifc client dec = .ok key
  iv : dec.iv = args.iv
  aad : dec.aad = args.aad
  textIn : dec.textIn = op.textOut
  textOut : ∃ buf, dec.textOut = .pointer buf ∧ buf.length = op.textOut.len
  tagIn : if args.mode = .gcm then dec.tagIn = op.tagOut else ¬ dec.tagIn.Present
  tagOut : ¬ dec.tagOut.Present

theorem transform_transform (inverse : prims.Inverse) {session reverse : Evp.Session}
    (same : reverse.cipher = session.cipher ∧ reverse.key = session.key ∧
      reverse.iv = session.iv)
    (encrypts : session.encrypt = true) (decrypts : reverse.encrypt = false)
    (aligned : text.length % session.cipher.mode.blockSize = 0) :
    reverse.transform prims (session.transform prims text) = text := by
  obtain ⟨cipher, key, iv⟩ := same
  unfold Evp.Session.transform
  rw [cipher, key, iv, encrypts, decrypts]
  cases mode : session.cipher.mode with
  | cbc =>
      rw [mode] at aligned
      exact inverse.cbc _ _ text aligned
  | gcm => exact inverse.gcm _ _ text

theorem Encrypts.sized {ifc : Interface} {client : HwkeyClient} {mode : Evp.Mode}
    (encrypts : Encrypts ifc client args mode key iv text)
    (admitted : Admitted ifc client args cipher key) : Sized args cipher.mode iv text := by
  have modeIs := mode_of_matches admitted.fits encrypts.modeIs
  exact {
    ivIs := encrypts.ivIs
    ivLength := modeIs ▸ encrypts.ivLength
    textIs := encrypts.textIs
    aligned := modeIs ▸ encrypts.aligned
    small := encrypts.small
    tagIn := by
      intro given
      cases chosen : cipher.mode with
      | cbc =>
          have fits := chosen ▸ admitted.fits
          exact absurd given fits.2.2.1
      | gcm =>
          have fits := chosen ▸ admitted.fits
          have direction := fits.2.1.mp given
          rw [encrypts.encrypt] at direction
          cases direction
    tagOut := fun wanted => encrypts.tagOut (modeIs ▸ (admitted.tagOut_mode wanted).1) }

section Reverse

variable {ifc : Interface} {client decClient : HwkeyClient} {dec : Args} {op : Op evp}
  {aad : List UInt8}

/-- What an encryption leaves in the output buffers. -/
structure Leaves (prims : Evp.Primitives) (args : Args) (cipher : Evp.Cipher)
    (key iv aad text : List UInt8) (op : Op evp) : Prop where
  textOut : op.textOut =
    .pointer ((sessionFor args cipher key iv aad).transform prims text)
  tagOut : cipher.mode = .gcm → op.tagOut =
    .pointer ((prims.gcmTag key iv aad
      ((sessionFor args cipher key iv aad).transform prims text)).take args.tagOut.len)

theorem Encrypts.leaves {mode : Evp.Mode} (lawful : Evp.Lawful evp prims phase)
    (inverse : prims.Inverse) (encrypts : Encrypts ifc client args mode key iv text)
    (admitted : Admitted ifc client args cipher key)
    (performed : hwaesAesOp ifc client ctx args = .ok op) (succeeds : op.rc = .noError) :
    ∃ aad, authenticatedAad prims args = some aad ∧
      Leaves prims args cipher key iv aad text op := by
  have spec := hwaesAesOp_spec ctx lawful inverse admitted (encrypts.sized admitted)
  cases authenticates : authenticatedAad prims args with
  | none =>
      simp only [authenticates] at spec
      obtain ⟨other, fails, rc⟩ := spec
      obtain rfl := Except.ok.inj (performed.symm.trans fails)
      rw [succeeds] at rc
      cases rc
  | some aad =>
      simp only [authenticates] at spec
      obtain ⟨ctx', delivers⟩ := spec (by simp [encrypts.encrypt])
      obtain rfl := Except.ok.inj (performed.symm.trans delivers)
      refine ⟨aad, rfl, rfl, ?_⟩
      intro gcm
      have wanted : hwaesCheckArgOut args.tagOut = .noError := by
        have fits := gcm ▸ admitted.fits
        exact fits.2.2.mpr encrypts.encrypt
      have ciphertext : (sessionFor args cipher key iv aad).ciphertext prims text =
          (sessionFor args cipher key iv aad).transform prims text := by
        rw [Evp.Session.ciphertext, sessionFor, if_pos encrypts.encrypt]
      simp only [wanted, if_true, ciphertext]
      rfl

theorem Leaves.tag_length (inverse : prims.Inverse)
    (leaves : Leaves prims args cipher key iv aad text op) (gcm : cipher.mode = .gcm)
    (wanted : args.tagOut.Present) (short : args.tagOut.len ≤ 16) :
    op.tagOut.Present ∧ op.tagOut.len ≤ 16 := by
  obtain ⟨buf, bufIs, nonempty⟩ := present_iff.mp wanted
  have positive : 0 < args.tagOut.len := by
    rw [bufIs]
    exact List.length_pos_of_ne_nil nonempty
  have taken := inverse.tagLength key iv aad
    ((sessionFor args cipher key iv aad).transform prims text)
  rw [leaves.tagOut gcm]
  constructor
  · apply present_iff.mpr
    refine ⟨_, rfl, ?_⟩
    apply List.ne_nil_of_length_pos
    rw [List.length_take, taken]
    omega
  · rw [Arg.len, List.length_take]
    omega

theorem Reverses.tag_of_cbc (admitted : Admitted ifc client args cipher key)
    (reverses : Reverses ifc decClient args dec op key) (cbc : cipher.mode = .cbc) :
    ¬ dec.tagIn.Present := by
  have fits := cbc ▸ admitted.fits
  have tagIn := reverses.tagIn
  rw [fits.1, if_neg (by decide)] at tagIn
  exact tagIn

theorem Reverses.tag_of_gcm (admitted : Admitted ifc client args cipher key)
    (reverses : Reverses ifc decClient args dec op key) (gcm : cipher.mode = .gcm) :
    dec.tagIn = op.tagOut := by
  have fits := gcm ▸ admitted.fits
  have tagIn := reverses.tagIn
  rw [fits.1, if_pos rfl] at tagIn
  exact tagIn

theorem Reverses.tag_length (inverse : prims.Inverse) {mode : Evp.Mode}
    (encrypts : Encrypts ifc client args mode key iv text)
    (admitted : Admitted ifc client args cipher key)
    (leaves : Leaves prims args cipher key iv aad text op)
    (reverses : Reverses ifc decClient args dec op key) (gcm : cipher.mode = .gcm) :
    dec.tagIn.Present ∧ dec.tagIn.len ≤ 16 := by
  have fits := gcm ▸ admitted.fits
  have wanted := fits.2.2.mpr encrypts.encrypt
  rw [reverses.tag_of_gcm admitted gcm]
  exact leaves.tag_length inverse gcm wanted ((encrypts.sized admitted).tagOut wanted)

theorem Reverses.admitted (inverse : prims.Inverse) {mode : Evp.Mode}
    (encrypts : Encrypts ifc client args mode key iv text)
    (admitted : Admitted ifc client args cipher key)
    (leaves : Leaves prims args cipher key iv aad text op)
    (reverses : Reverses ifc decClient args dec op key) :
    Admitted ifc decClient dec cipher key := by
  obtain ⟨padding, keyGiven, textGiven, -, -⟩ := checkArgs_eq_noError.mp admitted.checks
  have sized := encrypts.sized admitted
  have len := length_transform inverse (sessionFor args cipher key iv aad) sized.aligned
  have outLen : op.textOut.len = text.length := by
    rw [leaves.textOut]
    exact len
  have positive : 0 < text.length := by
    obtain ⟨data, dataIs, nonempty⟩ := present_iff.mp textGiven
    rw [sized.textIs, Arg.pointer.injEq] at dataIs
    exact dataIs ▸ List.length_pos_of_ne_nil nonempty
  obtain ⟨buf, bufIs, bufLen⟩ := reverses.textOut
  refine ⟨checkArgs_eq_noError.mpr ⟨?_, ?_, ?_, ?_, ?_⟩, reverses.keyIs, admitted.keyLength, ?_⟩
  · exact reverses.padding.trans padding
  · rw [reverses.sameKey.2]
    exact keyGiven
  · rw [reverses.textIn, leaves.textOut]
    apply present_iff.mpr
    exact ⟨_, rfl, List.ne_nil_of_length_pos (len ▸ positive)⟩
  · apply present_iff.mpr
    exact ⟨buf, bufIs, List.ne_nil_of_length_pos (by omega)⟩
  · rw [reverses.textIn, bufIs]
    exact bufLen.symm
  · cases chosen : cipher.mode with
    | cbc =>
        have fits := chosen ▸ admitted.fits
        exact ⟨reverses.mode.trans fits.1, reverses.aad ▸ fits.2.1,
          reverses.tag_of_cbc admitted chosen, reverses.tagOut⟩
    | gcm =>
        have fits := chosen ▸ admitted.fits
        have tagGiven := (reverses.tag_length inverse encrypts admitted leaves chosen).1
        exact ⟨reverses.mode.trans fits.1, iff_of_true tagGiven reverses.decrypt,
          iff_of_false reverses.tagOut (by simp [reverses.decrypt])⟩

theorem Reverses.sized (inverse : prims.Inverse) {mode : Evp.Mode}
    (encrypts : Encrypts ifc client args mode key iv text)
    (admitted : Admitted ifc client args cipher key)
    (leaves : Leaves prims args cipher key iv aad text op)
    (reverses : Reverses ifc decClient args dec op key) :
    Sized dec cipher.mode iv
      ((sessionFor args cipher key iv aad).transform prims text) := by
  have sized := encrypts.sized admitted
  have len := length_transform inverse (sessionFor args cipher key iv aad) sized.aligned
  refine ⟨reverses.iv.trans sized.ivIs, sized.ivLength, reverses.textIn.trans leaves.textOut,
    ?_, ?_, ?_, fun wanted => absurd wanted reverses.tagOut⟩
  · rw [len]
    exact sized.aligned
  · rw [len]
    exact sized.small
  · intro given
    cases chosen : cipher.mode with
    | cbc => exact absurd given (reverses.tag_of_cbc admitted chosen)
    | gcm => exact (reverses.tag_length inverse encrypts admitted leaves chosen).2

theorem Reverses.undoes {mode : Evp.Mode} (ctx : evp.Ctx) (lawful : Evp.Lawful evp prims phase)
    (inverse : prims.Inverse) (encrypts : Encrypts ifc client args mode key iv text)
    (admitted : Admitted ifc client args cipher key)
    (authenticates : authenticatedAad prims args = some aad)
    (leaves : Leaves prims args cipher key iv aad text op)
    (reverses : Reverses ifc decClient args dec op key) :
    ∃ undone, hwaesAesOp ifc decClient ctx dec = .ok undone ∧ undone.rc = .noError ∧
      undone.textOut = .pointer text := by
  have decAdmitted := reverses.admitted inverse encrypts admitted leaves
  have spec := hwaesAesOp_spec ctx lawful inverse decAdmitted
    (reverses.sized inverse encrypts admitted leaves)
  have sameAad : authenticatedAad prims dec = some aad := by
    rw [authenticatedAad, reverses.aad]
    exact authenticates
  simp only [sameAad] at spec
  obtain ⟨ctx', delivers⟩ := spec fun gcm decrypts => by
    have fits := gcm ▸ decAdmitted.fits
    have tagGiven : hwaesCheckArgIn dec.tagIn = .noError := fits.2.1.mpr decrypts
    have input (ciphertext : List UInt8) :
        (sessionFor dec cipher key iv aad).ciphertext prims ciphertext = ciphertext := by
      simp [Evp.Session.ciphertext, sessionFor, decrypts]
    refine ⟨_, if_pos tagGiven, ?_⟩
    rw [reverses.tag_of_gcm admitted gcm, leaves.tagOut gcm, input]
    simp [Arg.bytes, Arg.dataPtr, Evp.Session.computedTag, sessionFor]
  refine ⟨_, delivers, rfl, ?_⟩
  exact congrArg Arg.pointer (transform_transform inverse ⟨rfl, rfl, rfl⟩ encrypts.encrypt
    reverses.decrypt (encrypts.sized admitted).aligned)

end Reverse

/-- A request that reverses an encryption of the history gets the text back, whatever
was requested before, in between and since. -/
theorem decryption_undoes_encryption {ifc : Interface}
    {history : List (Step evp.Ctx Event (Op evp))} {step : Step evp.Ctx Event (Op evp)}
    {mode : Evp.Mode} {client : HwkeyClient} {dec : Args}
    (lawful : Evp.Lawful evp prims phase) (inverse : prims.Inverse)
    (run : Exec (service evp ifc) history ctx) (member : step ∈ history)
    (encrypts : Encrypts ifc step.event.client step.event.args mode key iv text)
    (succeeds : step.output.rc = .noError)
    (reverses : Reverses ifc client step.event.args dec step.output key) :
    ∃ undone, hwaesAesOp ifc client ctx dec = .ok undone ∧ undone.rc = .noError ∧
      undone.textOut = .pointer text := by
  obtain ⟨-, -, handled⟩ := run.performed member
  obtain ⟨op, performed, result⟩ := bind_eq_ok.mp handled
  obtain rfl : op = step.output := congrArg Prod.snd (Except.ok.inj result)
  obtain ⟨cipher, admitted⟩ := admitted_of_noError encrypts.keyIs performed succeeds
  obtain ⟨aad, authenticates, leaves⟩ :=
    encrypts.leaves lawful inverse admitted performed succeeds
  exact reverses.undoes ctx lawful inverse encrypts admitted authenticates leaves

section Sample

/-- Primitives that agree with AES-128-CBC on the sample below: the pad is the text xor
its ciphertext. -/
def samplePrimitives : Evp.Primitives where
  cbcEncrypt _ _ text := text.mapIdx fun i byte => byte ^^^ pad.getD i 0
  cbcDecrypt _ _ text := text.mapIdx fun i byte => byte ^^^ pad.getD i 0
  gcmEncrypt _ _ text := text
  gcmDecrypt _ _ text := text
  gcmTag _ _ _ _ := List.replicate 16 0
  authenticated aad len := if 0 ≤ len then some aad else none
where
  pad : List UInt8 :=
    [0x1d, 0x88, 0x15, 0x4e, 0xaf, 0x59, 0x2d, 0xd0, 0x27, 0xd4, 0xf0, 0x8a, 0x61, 0x7a, 0x0e,
      0x57]

theorem samplePrimitives_inverse : samplePrimitives.Inverse where
  cbc _ _ text _ := Evp.mapIdx_xor_mapIdx_xor samplePrimitives.pad text
  gcm _ _ _ := rfl
  cbcLength _ _ _ _ := by simp [samplePrimitives]
  gcmLength _ _ _ := ⟨rfl, rfl⟩
  tagLength _ _ _ _ := rfl

def sampleKey : List UInt8 :=
  [0x2b, 0x7e, 0x15, 0x16, 0x28, 0xae, 0xd2, 0xa6, 0xab, 0xf7, 0x15, 0x88, 0x09, 0xcf, 0x4f,
    0x3c]

def sampleIv : List UInt8 := [0, 1, 2, 3, 4, 5, 6, 7, 8, 9, 10, 11, 12, 13, 14, 15]

def sampleText : List UInt8 :=
  [0x6b, 0xc1, 0xbe, 0xe2, 0x2e, 0x40, 0x9f, 0x96, 0xe9, 0x3d, 0x7e, 0x11, 0x73, 0x93, 0x17,
    0x2a]

def sampleCiphertext : List UInt8 :=
  [0x76, 0x49, 0xab, 0xac, 0x81, 0x19, 0xb2, 0x46, 0xce, 0xe9, 0x8e, 0x9b, 0x12, 0xe9, 0x19,
    0x7d]

def sampleArgs (encrypt : Bool) (text : List UInt8) : Args where
  padding := .noPadding
  keyType := .other
  mode := .cbc
  encrypt
  key := .pointer sampleKey
  iv := .pointer sampleIv
  textIn := .pointer text
  textOut := .pointer (List.replicate 16 0)
  aad := .null 0
  tagIn := .null 0
  tagOut := .null 0

def sampleClient : HwkeyClient := ⟨false, fun _ _ => none⟩

def sampleSession : Evp.Session := ⟨.aes128 .cbc, true, sampleKey, sampleIv, [], none⟩

def sampleStep : Step samplePrimitives.implementation.Ctx Event
    (Op samplePrimitives.implementation) where
  pre := Evp.Phase.initial
  event := ⟨sampleArgs true sampleText, sampleClient⟩
  output := ⟨.noError, Evp.Phase.completed sampleSession sampleCiphertext,
    .pointer sampleCiphertext, .null 0⟩
  post := Evp.Phase.completed sampleSession sampleCiphertext

theorem sampleStep_performs :
    (service samplePrimitives.implementation ⟨32, 128⟩).Performs sampleStep := by
  constructor
  · trivial
  · rfl

theorem sampleStep_encrypts : Encrypts ⟨32, 128⟩ sampleClient (sampleArgs true sampleText) .cbc
    sampleKey sampleIv sampleText :=
  ⟨rfl, rfl, rfl, rfl, rfl, rfl, rfl, by decide, by decide⟩

theorem sampleStep_reverses : Reverses ⟨32, 128⟩ sampleClient sampleStep.event.args
    (sampleArgs false sampleCiphertext) sampleStep.output sampleKey :=
  ⟨rfl, rfl, rfl, ⟨rfl, rfl⟩, rfl, rfl, rfl, rfl, ⟨_, rfl, rfl⟩, by decide, by decide⟩

theorem decryption_undoes_encryption_sample :
    ∃ undone, hwaesAesOp ⟨32, 128⟩ sampleClient sampleStep.post
        (sampleArgs false sampleCiphertext) = .ok undone ∧ undone.rc = .noError ∧
      undone.textOut = .pointer sampleText :=
  decryption_undoes_encryption samplePrimitives.lawful samplePrimitives_inverse
    (Exec.start.step sampleStep_performs) (List.mem_singleton_self _) sampleStep_encrypts rfl
    sampleStep_reverses

end Sample

end TrustyApp.Hwaes
