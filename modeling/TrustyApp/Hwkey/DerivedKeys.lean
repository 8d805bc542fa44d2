import TrustyApp.Hwkey.Requests
import TrustyApp.Library.Evp

/-!
# Derived keys

`hwkey_get_derived_key` takes the encrypted key as a provisioning file left it.  It
relies on the update call to return as many bytes as it was given, which is so for
whole blocks only, and passes an unsigned size as an `int`.
-/

namespace TrustyApp.Hwkey

open Reactive

variable {prims : Evp.Primitives} {calls : CipherCalls} {outcomes : Outcomes}
  {data : DerivedKeyslotData} {encryptedKeyData keyBytes kbuf : List UInt8} {key : KeyOut}
  {klen : Nat}

def blockSize : Nat := 16

def wholeBlocks (text : List UInt8) : List UInt8 :=
  text.take (text.length - text.length % blockSize)

/-- Decryption without padding, once it is set up.  The update outputs the whole blocks
of its input, the final call fails when a partial block is left, and a length that is
negative as an `int` is an error. -/
structure DecryptsCbc (prims : Evp.Primitives) (calls : CipherCalls) : Prop where
  ctxNew : calls.ctxNew = true
  init : calls.init = true
  initKey : calls.initKey = true
  setPadding : calls.setPadding = true
  update : ∀ key iv text, text.length < 2 ^ 31 →
    (calls.update key (some iv) text).ok = true ∧
      (calls.update key (some iv) text).bytes = prims.cbcDecrypt key iv (wholeBlocks text)
  negative : ∀ key iv text, 2 ^ 31 ≤ text.length → text.length < 2 ^ 32 →
    (calls.update key (some iv) text).ok = false
  final : ∀ key iv text, calls.final key (some iv) text =
    if text.length % blockSize = 0 then some 0 else none

theorem length_wholeBlocks (text : List UInt8) :
    (wholeBlocks text).length = text.length - text.length % blockSize := by
  rw [wholeBlocks, List.length_take]
  omega

theorem wholeBlocks_aligned (text : List UInt8) : (wholeBlocks text).length % blockSize = 0 := by
  rw [length_wholeBlocks, blockSize]
  omega

theorem wholeBlocks_eq {text : List UInt8} (aligned : text.length % blockSize = 0) :
    wholeBlocks text = text := by
  rw [wholeBlocks, aligned, Nat.sub_zero, List.take_length]

theorem length_cbcDecrypt (inverse : prims.Inverse) (key iv text : List UInt8) :
    (prims.cbcDecrypt key iv (wholeBlocks text)).length =
      text.length - text.length % blockSize :=
  ((inverse.cbcLength key iv _ (wholeBlocks_aligned text)).2).trans (length_wholeBlocks text)

theorem decryptKey_spec (inverse : prims.Inverse) (decrypts : DecryptsCbc prims calls)
    (keyBytes : List UInt8) (klen : Nat) (sized : encryptedKeyData.length < 2 ^ 32)
    (room : encryptedKeyData.length - ivLength ≤ kbuf.length) :
    if 2 ^ 31 ≤ encryptedKeyData.length - ivLength then
      ∃ left, decryptKey encryptedKeyData keyBytes calls kbuf klen =
        .ok ⟨.errGeneric, left, klen⟩
    else if (encryptedKeyData.length - ivLength) % blockSize ≠ 0 then
      decryptKey encryptedKeyData keyBytes calls kbuf klen = .error .assertFailed
    else decryptKey encryptedKeyData keyBytes calls kbuf klen =
      .ok ⟨.noError, Bytes.overwrite kbuf (prims.cbcDecrypt keyBytes
        (encryptedKeyData.take ivLength) (encryptedKeyData.drop ivLength)),
        encryptedKeyData.length - ivLength⟩ := by
  have length : (encryptedKeyData.drop ivLength).length = encryptedKeyData.length - ivLength :=
    List.length_drop
  simp only [decryptKey, decrypts.initKey, decrypts.setPadding, not_true_eq_false, if_false]
  generalize encryptedKeyData.take ivLength = iv at *
  generalize encryptedKeyData.drop ivLength = text at *
  rw [← length] at room ⊢
  have stored : store kbuf (calls.update keyBytes (some iv) text).bytes =
      .ok (Bytes.overwrite kbuf (calls.update keyBytes (some iv) text).bytes) :=
    if_pos ((calls.update keyBytes (some iv) text).fits.trans room)
  rw [stored, ok_bind]
  by_cases long : 2 ^ 31 ≤ text.length
  · rw [if_pos long, decrypts.negative keyBytes iv text long (by omega)]
    exact ⟨_, rfl⟩
  obtain ⟨ok, bytes⟩ := decrypts.update keyBytes iv text (by omega)
  have written := length_cbcDecrypt inverse keyBytes iv text
  rw [if_neg long, ok, bytes, written, decrypts.final]
  by_cases aligned : text.length % blockSize = 0
  · simp [aligned, wholeBlocks_eq aligned]
  · have short : text.length - text.length % blockSize ≠ text.length := by
      have := Nat.mod_le text.length blockSize
      omega
    simp [aligned, short]

structure Decryptable (encryptedKeyData : List UInt8) (key : KeyOut) (kbufLen : Nat) : Prop where
  status : key.status = .noError
  keyLen : key.klen = 16 ∨ key.klen = 32
  long : ivLength < encryptedKeyData.length
  room : encryptedKeyData.length - ivLength ≤ kbufLen

theorem deriveFrom_of_decryptable (decrypts : DecryptsCbc prims calls)
    (decryptable : Decryptable encryptedKeyData key kbuf.length) :
    deriveFrom encryptedKeyData key calls kbuf klen =
      decryptKey encryptedKeyData (key.kbuf.take key.klen) calls kbuf klen := by
  obtain ⟨status, keyLen, long, room⟩ := decryptable
  rw [deriveFrom, if_neg (not_not.mpr status), if_neg (by omega),
    if_neg (not_not.mpr decrypts.ctxNew), if_neg (not_not.mpr decrypts.init),
    if_neg (by omega), if_neg (by omega)]

theorem deriveFrom_of_not_decryptable (calls : CipherCalls) (klen : Nat)
    (refused : ¬ Decryptable encryptedKeyData key kbuf.length) :
    ∃ status, status ≠ .noError ∧
      deriveFrom encryptedKeyData key calls kbuf klen = .ok ⟨status, kbuf, klen⟩ := by
  unfold deriveFrom
  split
  next failed => exact ⟨_, failed, rfl⟩
  next status =>
  split
  next => exact ⟨_, by decide, rfl⟩
  next keyLen =>
  split
  next => exact ⟨_, by decide, rfl⟩
  next =>
  split
  next => exact ⟨_, by decide, rfl⟩
  next =>
  split
  next => exact ⟨_, by decide, rfl⟩
  next long =>
  split
  next => exact ⟨_, by decide, rfl⟩
  next room =>
    exact absurd ⟨not_not.mp status, by omega, by omega, by omega⟩ refused

/-- A slot that yields a key: one that can be decrypted, in whole blocks. -/
def Yields (encryptedKeyData : List UInt8) (key : KeyOut) (kbufLen : Nat) : Prop :=
  Decryptable encryptedKeyData key kbufLen ∧
    (encryptedKeyData.length - ivLength) % blockSize = 0

/-- The function returns a key for a slot that yields one and an error otherwise, which
leaves `*klen` as it was. -/
structure TotalOver (prims : Evp.Primitives) (encryptedKeyData : List UInt8) (key : KeyOut)
    (kbuf : List UInt8) (klen : Nat) (called : Except Crash KeyOut) : Prop where
  returns : ∃ out, called = .ok out
  succeeds : ∀ out, called = .ok out →
    (out.status = .noError ↔ Yields encryptedKeyData key kbuf.length)
  decrypted : ∀ out, called = .ok out → out.status = .noError →
    out.klen = encryptedKeyData.length - ivLength ∧
      out.kbuf.take out.klen = prims.cbcDecrypt (key.kbuf.take key.klen)
        (encryptedKeyData.take ivLength) (encryptedKeyData.drop ivLength)
  kept : ∀ out, called = .ok out → out.status ≠ .noError → out.klen = klen
  /-- A wrapped key is recovered. -/
  recovers : ∀ iv plaintext : List UInt8, iv.length = ivLength → plaintext ≠ [] →
    plaintext.length % blockSize = 0 → plaintext.length ≤ kbuf.length →
    key.status = .noError → key.klen = 16 ∨ key.klen = 32 →
    encryptedKeyData = iv ++ prims.cbcEncrypt (key.kbuf.take key.klen) iv plaintext →
    ∃ out, called = .ok out ∧ out.status = .noError ∧ out.klen = plaintext.length ∧
      out.kbuf.take out.klen = plaintext

/-- The encrypted key has a partial block, or whole blocks of a size that is negative as
an `int`. -/
def Misshapen (encryptedKeyData : List UInt8) : Prop :=
  if encryptedKeyData.length - ivLength < 2 ^ 31 then
    (encryptedKeyData.length - ivLength) % blockSize ≠ 0
  else (encryptedKeyData.length - ivLength) % blockSize = 0

theorem TotalOver.of_success (inverse : prims.Inverse) {called : Except Crash KeyOut}
    (yields : Yields encryptedKeyData key kbuf.length)
    (returned : called = .ok ⟨.noError, Bytes.overwrite kbuf (prims.cbcDecrypt
      (key.kbuf.take key.klen) (encryptedKeyData.take ivLength)
      (encryptedKeyData.drop ivLength)), encryptedKeyData.length - ivLength⟩) :
    TotalOver prims encryptedKeyData key kbuf klen called := by
  subst returned
  have aligned : (encryptedKeyData.drop ivLength).length % blockSize = 0 := by
    rw [List.length_drop]
    exact yields.2
  have written : (Bytes.overwrite kbuf (prims.cbcDecrypt (key.kbuf.take key.klen)
      (encryptedKeyData.take ivLength) (encryptedKeyData.drop ivLength))).take
        (encryptedKeyData.length - ivLength) = prims.cbcDecrypt (key.kbuf.take key.klen)
          (encryptedKeyData.take ivLength) (encryptedKeyData.drop ivLength) := by
    have length := (inverse.cbcLength (key.kbuf.take key.klen)
      (encryptedKeyData.take ivLength) _ aligned).2
    rw [List.length_drop] at length
    rw [← length]
    exact Bytes.take_overwrite _ _
  constructor
  case returns => exact ⟨_, rfl⟩
  case succeeds =>
    intro out result
    cases result
    exact iff_of_true rfl yields
  case decrypted =>
    intro out result _
    cases result
    exact ⟨rfl, written⟩
  case kept =>
    intro out result failed
    cases result
    exact absurd rfl failed
  case recovers =>
    rintro iv plaintext ivLen - alignedText - - - rfl
    have taken : (iv ++ prims.cbcEncrypt (key.kbuf.take key.klen) iv plaintext).take ivLength =
        iv := List.take_left' ivLen
    have dropped : (iv ++ prims.cbcEncrypt (key.kbuf.take key.klen) iv plaintext).drop ivLength =
        prims.cbcEncrypt (key.kbuf.take key.klen) iv plaintext := List.drop_left' ivLen
    have undone := inverse.cbc (key.kbuf.take key.klen) iv plaintext alignedText
    have length := (inverse.cbcLength (key.kbuf.take key.klen) iv plaintext alignedText).1
    refine ⟨_, rfl, rfl, ?_, ?_⟩
    · simp only [List.length_append, length, ivLen]
      omega
    · rw [written, taken, dropped, undone]

theorem TotalOver.of_refusal {called : Except Crash KeyOut} {status : Status}
    (failed : status ≠ .noError) (refused : ¬ Yields encryptedKeyData key kbuf.length)
    {left : List UInt8} (returned : called = .ok ⟨status, left, klen⟩)
    (unrecovered : ∀ iv plaintext : List UInt8, iv.length = ivLength → plaintext ≠ [] →
      plaintext.length % blockSize = 0 → plaintext.length ≤ kbuf.length →
      key.status = .noError → key.klen = 16 ∨ key.klen = 32 →
      encryptedKeyData ≠ iv ++ prims.cbcEncrypt (key.kbuf.take key.klen) iv plaintext) :
    TotalOver prims encryptedKeyData key kbuf klen called := by
  subst returned
  constructor
  case returns => exact ⟨_, rfl⟩
  case succeeds =>
    intro out result
    cases result
    exact iff_of_false failed refused
  case decrypted =>
    intro out result succeeded
    cases result
    exact absurd succeeded failed
  case kept =>
    intro out result _
    cases result
    rfl
  case recovers =>
    intro iv plaintext ivLen notEmpty aligned fits keyStatus keyLen wrapped
    exact absurd wrapped (unrecovered iv plaintext ivLen notEmpty aligned fits keyStatus keyLen)

theorem decryptable_of_wrapped (inverse : prims.Inverse) {iv plaintext : List UInt8}
    (ivLen : iv.length = ivLength) (notEmpty : plaintext ≠ [])
    (aligned : plaintext.length % blockSize = 0) {kbufLen : Nat} (fits : plaintext.length ≤ kbufLen)
    (status : key.status = .noError) (keyLen : key.klen = 16 ∨ key.klen = 32) :
    Decryptable (iv ++ prims.cbcEncrypt (key.kbuf.take key.klen) iv plaintext) key kbufLen := by
  have length := (inverse.cbcLength (key.kbuf.take key.klen) iv plaintext aligned).1
  have positive := List.length_pos_of_ne_nil notEmpty
  refine ⟨status, keyLen, ?_, ?_⟩
  · rw [List.length_append, length, ivLen]
    omega
  · rw [List.length_append, length, ivLen]
    omega

/-- A derived slot is total over its data exactly when it has nothing to decrypt or its
encrypted key is not misshapen. -/
theorem derived_key_total_iff {key : KeyOut} (kbuf : List UInt8) (klen : Nat)
    (inverse : prims.Inverse) (decrypts : DecryptsCbc prims outcomes.decrypt)
    (sized : data.encryptedKeyData.length < 2 ^ 32)
    (retrieved : data.retriever.run outcomes (List.replicate hwkeyDerivedKeyMaxSize 0)
      outcomes.indeterminate = .ok key) :
    TotalOver prims data.encryptedKeyData key kbuf klen
        ((hwkeyGetDerivedKey data).run outcomes kbuf klen) ↔
      ¬ (Decryptable data.encryptedKeyData key kbuf.length ∧ Misshapen data.encryptedKeyData) := by
  have runs : (hwkeyGetDerivedKey data).run outcomes kbuf klen =
      deriveFrom data.encryptedKeyData key outcomes.decrypt kbuf klen := by
    simp only [hwkeyGetDerivedKey, retrieved, ok_bind]
  rw [runs]
  by_cases decryptable : Decryptable data.encryptedKeyData key kbuf.length
  · have spec := decryptKey_spec inverse decrypts (key.kbuf.take key.klen) klen sized
      decryptable.room
    rw [← deriveFrom_of_decryptable decrypts decryptable] at spec
    simp only [decryptable, true_and]
    by_cases long : 2 ^ 31 ≤ data.encryptedKeyData.length - ivLength
    · rw [if_pos long] at spec
      obtain ⟨left, result⟩ := spec
      rw [Misshapen, if_neg (not_lt.mpr long)]
      constructor
      · intro total aligned
        have succeeded := (total.succeeds _ result).mpr ⟨decryptable, aligned⟩
        cases succeeded
      · intro unaligned
        refine .of_refusal (by decide) (fun yields => unaligned yields.2) result ?_
        rintro iv plaintext ivLen - aligned - - - wrapped
        apply unaligned
        rw [wrapped, List.length_append, ivLen, Nat.add_sub_cancel_left,
          (inverse.cbcLength (key.kbuf.take key.klen) iv plaintext aligned).1]
        exact aligned
    rw [if_neg long] at spec
    rw [Misshapen, if_pos (not_le.mp long), not_not]
    constructor
    · intro total
      by_contra unaligned
      obtain ⟨out, returned⟩ := total.returns
      rw [if_pos unaligned] at spec
      rw [spec] at returned
      cases returned
    · intro aligned
      rw [if_neg (not_not.mpr aligned)] at spec
      exact .of_success inverse ⟨decryptable, aligned⟩ spec
  · obtain ⟨status, failed, result⟩ :=
      deriveFrom_of_not_decryptable outcomes.decrypt klen decryptable
    refine iff_of_true (.of_refusal failed (fun yields => decryptable yields.1) result ?_)
      fun both => decryptable both.1
    intro iv plaintext ivLen notEmpty aligned fits keyStatus keyLen wrapped
    apply decryptable
    rw [wrapped]
    exact decryptable_of_wrapped inverse ivLen notEmpty aligned fits keyStatus keyLen

def cbcCalls (prims : Evp.Primitives) (inverse : prims.Inverse) : CipherCalls where
  ctxNew := true
  init := true
  initKey := true
  setPadding := true
  update key iv text :=
    if text.length < 2 ^ 31 then
      ⟨true, prims.cbcDecrypt key (iv.getD []) (wholeBlocks text),
        (length_cbcDecrypt inverse key (iv.getD []) text).trans_le (Nat.sub_le _ _)⟩
    else ⟨false, [], Nat.zero_le _⟩
  final _ _ text := if text.length % blockSize = 0 then some 0 else none

theorem cbcCalls_decrypts (inverse : prims.Inverse) :
    DecryptsCbc prims (cbcCalls prims inverse) where
  ctxNew := rfl
  init := rfl
  initKey := rfl
  setPadding := rfl
  update key iv text short := by
    simp only [cbcCalls, if_pos short]
    exact ⟨trivial, rfl⟩
  negative key iv text long _ := by simp only [cbcCalls, if_neg (not_lt.mpr long)]
  final _ _ _ := rfl

/-- `unittestEncryptedKey32`, behind its IV, xor the key of the unit test. -/
def unittestPad : List UInt8 :=
  [0x4b, 0x45, 0x6b, 0x20, 0x20, 0xe9, 0xd4, 0xcc, 0xc7, 0x9f, 0x87, 0xb9, 0xca, 0x78, 0x24,
    0x7a, 0xc9, 0x11, 0xc8, 0x9c, 0x3a, 0xd7, 0xb0, 0x27, 0x57, 0x03, 0x3e, 0xee, 0x4c, 0x47,
    0x32, 0x62]

-- "unittestderivedkeyslotunittestde"
def unittestDerivedKey : List UInt8 :=
  [0x75, 0x6e, 0x69, 0x74, 0x74, 0x65, 0x73, 0x74, 0x64, 0x65, 0x72, 0x69, 0x76, 0x65, 0x64,
    0x6b, 0x65, 0x79, 0x73, 0x6c, 0x6f, 0x74, 0x75, 0x6e, 0x69, 0x74, 0x74, 0x65, 0x73, 0x74,
    0x64, 0x65]

def unittestPrimitives : Evp.Primitives :=
  Evp.padPrimitives unittestPad [] fun _ _ _ _ => List.replicate 16 0

theorem unittestPrimitives_inverse : unittestPrimitives.Inverse :=
  Evp.padPrimitives_inverse unittestPad [] fun _ _ _ _ => List.length_replicate

def unittestOutcomes : Outcomes :=
  { successfulOutcomes with decrypt := cbcCalls unittestPrimitives unittestPrimitives_inverse }

theorem derived_key_total_iff_unittest :
    ∃ out, (hwkeyGetDerivedKey hwcryptoUnittestDerivedData).run unittestOutcomes
        (List.replicate 32 0) 0 = .ok out ∧
      out.status = .noError ∧ out.kbuf.take out.klen = unittestDerivedKey := by
  have retrieved : hwcryptoUnittestDerivedData.retriever.run unittestOutcomes
      (List.replicate hwkeyDerivedKeyMaxSize 0) unittestOutcomes.indeterminate =
        .ok ⟨.noError, unittestKey32, 32⟩ := rfl
  have total := (derived_key_total_iff (List.replicate 32 0) 0 unittestPrimitives_inverse
    (cbcCalls_decrypts unittestPrimitives_inverse) (by decide) retrieved).mpr
      fun misshapen => absurd misshapen.2 (by simp [Misshapen]; decide)
  obtain ⟨out, returned⟩ := total.returns
  have succeeded := (total.succeeds out returned).mpr
    ⟨⟨rfl, .inr rfl, by decide, by decide⟩, by decide⟩
  exact ⟨out, returned, succeeded, (total.decrypted out returned succeeded).2.trans (by decide)⟩

/-- An IV and one more byte: a size that passes the checks, and the assertion fails. -/
theorem partial_block_fails_assert :
    ¬ ∀ (prims : Evp.Primitives) (outcomes : Outcomes) (data : DerivedKeyslotData) (key : KeyOut)
        (kbuf : List UInt8) (klen : Nat), prims.Inverse → DecryptsCbc prims outcomes.decrypt →
        data.encryptedKeyData.length < 2 ^ 32 →
        data.retriever.run outcomes (List.replicate hwkeyDerivedKeyMaxSize 0)
          outcomes.indeterminate = .ok key →
        TotalOver prims data.encryptedKeyData key kbuf klen
          ((hwkeyGetDerivedKey data).run outcomes kbuf klen) := by
  intro claim
  have total := claim unittestPrimitives unittestOutcomes
    ⟨List.replicate 17 0, getUnittestKey32Derived⟩ ⟨.noError, unittestKey32, 32⟩
    (List.replicate 32 0) 0 unittestPrimitives_inverse
    (cbcCalls_decrypts unittestPrimitives_inverse) (by decide) rfl
  obtain ⟨out, returned⟩ := total.returns
  have stops : (hwkeyGetDerivedKey ⟨List.replicate 17 0, getUnittestKey32Derived⟩).run
      unittestOutcomes (List.replicate 32 0) 0 = .error .assertFailed := rfl
  rw [stops] at returned
  cases returned

end TrustyApp.Hwkey
