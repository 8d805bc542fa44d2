import Mathlib.Data.UInt

/-!
# The EVP cipher interface

The calls on a cipher context as a parameter, with lengths as the `int` they are
passed as, and what is documented about them for valid arguments: a context goes
through a few phases, and in the last ones the calls compute the mode's primitives.
-/

namespace Evp

inductive Mode
  | cbc
  | gcm
  deriving DecidableEq

inductive Cipher
  | aes128 (mode : Mode)
  | aes256 (mode : Mode)
  deriving DecidableEq

def Cipher.mode : Cipher → Mode
  | .aes128 mode => mode
  | .aes256 mode => mode

def Cipher.keyLength : Cipher → Nat
  | .aes128 _ => 16
  | .aes256 _ => 32

def Mode.blockSize : Mode → Nat
  | .cbc => 16
  | .gcm => 1

def Mode.ivLength : Mode → Nat
  | .cbc => 16
  | .gcm => 12

/-- What `EVP_CipherUpdate` returns, writes and reports as written. -/
structure Update where
  ok : Bool
  written : List UInt8
  outLen : Int

/-- The calls; a call that can fail returns whether it succeeded. -/
structure Library where
  Ctx : Type
  new : Ctx
  reset : Ctx → Ctx
  cipherInit : Ctx → Cipher → (encrypt : Bool) → Ctx × Bool
  blockSize : Ctx → Nat
  ivLength : Ctx → Nat
  cipherInitKey : Ctx → Cipher → (key : List UInt8) → (iv : Option (List UInt8)) →
    (encrypt : Bool) → Ctx × Bool
  setPadding : Ctx → (pad : Bool) → Ctx × Bool
  updateAad : Ctx → (aad : List UInt8) → (len : Int) → Ctx × Bool
  setTag : Ctx → (tag : List UInt8) → (len : Int) → Ctx × Bool
  update : Ctx → (text : List UInt8) → (len : Int) → Ctx × Update
  final : Ctx → Ctx × Bool
  /-- Whether the tag is delivered, and the bytes written. -/
  getTag : Ctx → (len : Int) → Ctx × Bool × List UInt8

/-- The primitives of the modes.  `authenticated` is what a call with additional data
and a length authenticates, if it succeeds. -/
structure Primitives where
  cbcEncrypt : (key iv text : List UInt8) → List UInt8
  cbcDecrypt : (key iv text : List UInt8) → List UInt8
  gcmEncrypt : (key iv text : List UInt8) → List UInt8
  gcmDecrypt : (key iv text : List UInt8) → List UInt8
  gcmTag : (key iv aad ciphertext : List UInt8) → List UInt8
  authenticated : (aad : List UInt8) → (len : Int) → Option (List UInt8)

structure Primitives.Inverse (prims : Primitives) : Prop where
  cbc : ∀ key iv text, text.length % Mode.cbc.blockSize = 0 →
    prims.cbcDecrypt key iv (prims.cbcEncrypt key iv text) = text
  gcm : ∀ key iv text, prims.gcmDecrypt key iv (prims.gcmEncrypt key iv text) = text
  cbcLength : ∀ key iv text, text.length % Mode.cbc.blockSize = 0 →
    (prims.cbcEncrypt key iv text).length = text.length ∧
      (prims.cbcDecrypt key iv text).length = text.length
  gcmLength : ∀ key iv text, (prims.gcmEncrypt key iv text).length = text.length ∧
    (prims.gcmDecrypt key iv text).length = text.length
  tagLength : ∀ key iv aad ciphertext, (prims.gcmTag key iv aad ciphertext).length = 16

/-- Modes that combine the text with a fixed pad.  They agree with AES on one text when
the pad is that text xor its ciphertext. -/
def padPrimitives (cbcPad gcmPad : List UInt8)
    (gcmTag : (key iv aad ciphertext : List UInt8) → List UInt8) : Primitives where
  cbcEncrypt _ _ text := text.mapIdx fun i byte => byte ^^^ cbcPad.getD i 0
  cbcDecrypt _ _ text := text.mapIdx fun i byte => byte ^^^ cbcPad.getD i 0
  gcmEncrypt _ _ text := text.mapIdx fun i byte => byte ^^^ gcmPad.getD i 0
  gcmDecrypt _ _ text := text.mapIdx fun i byte => byte ^^^ gcmPad.getD i 0
  gcmTag := gcmTag
  authenticated aad len := if 0 ≤ len then some (aad.take len.toNat) else none

theorem mapIdx_xor_mapIdx_xor (pad text : List UInt8) :
    (text.mapIdx fun i byte => byte ^^^ pad.getD i 0).mapIdx
      (fun i byte => byte ^^^ pad.getD i 0) = text := by
  apply List.ext_getElem
  · simp
  · intro i _ _
    simp only [List.getElem_mapIdx, UInt8.xor_assoc, UInt8.xor_self, UInt8.xor_zero]

theorem padPrimitives_inverse (cbcPad gcmPad : List UInt8)
    {gcmTag : (key iv aad ciphertext : List UInt8) → List UInt8}
    (tagLength : ∀ key iv aad ciphertext, (gcmTag key iv aad ciphertext).length = 16) :
    (padPrimitives cbcPad gcmPad gcmTag).Inverse where
  cbc _ _ text _ := mapIdx_xor_mapIdx_xor cbcPad text
  gcm _ _ text := mapIdx_xor_mapIdx_xor gcmPad text
  cbcLength _ _ _ _ := ⟨List.length_mapIdx, List.length_mapIdx⟩
  gcmLength _ _ _ := ⟨List.length_mapIdx, List.length_mapIdx⟩
  tagLength := tagLength

structure Session where
  cipher : Cipher
  encrypt : Bool
  key : List UInt8
  iv : List UInt8
  aad : List UInt8
  tag : Option (List UInt8)

inductive Phase
  | initial
  | selected (cipher : Cipher) (encrypt : Bool)
  | ready (session : Session)
  /-- A text was processed; its ciphertext is the input or the output. -/
  | processed (session : Session) (ciphertext : List UInt8)
  | completed (session : Session) (ciphertext : List UInt8)
  /-- Anything else, such as after a call that failed. -/
  | unknown

def Session.transform (prims : Primitives) (session : Session) (text : List UInt8) :
    List UInt8 :=
  match session.cipher.mode, session.encrypt with
  | .cbc, true => prims.cbcEncrypt session.key session.iv text
  | .cbc, false => prims.cbcDecrypt session.key session.iv text
  | .gcm, true => prims.gcmEncrypt session.key session.iv text
  | .gcm, false => prims.gcmDecrypt session.key session.iv text

def Session.ciphertext (prims : Primitives) (session : Session) (text : List UInt8) :
    List UInt8 :=
  if session.encrypt then session.transform prims text else text

def Session.computedTag (prims : Primitives) (session : Session) (ciphertext : List UInt8) :
    List UInt8 :=
  prims.gcmTag session.key session.iv session.aad ciphertext

/-- What the calls do with valid arguments. -/
structure Lawful (evp : Library) (prims : Primitives) (phase : evp.Ctx → Phase) : Prop where
  reset : ∀ ctx, evp.reset ctx = evp.new
  new : phase evp.new = .initial
  cipherInit : ∀ ctx cipher encrypt, phase ctx = .initial →
    (evp.cipherInit ctx cipher encrypt).2 = true ∧
      phase (evp.cipherInit ctx cipher encrypt).1 = .selected cipher encrypt
  blockSize : ∀ ctx cipher encrypt, phase ctx = .selected cipher encrypt →
    evp.blockSize ctx = cipher.mode.blockSize
  ivLength : ∀ ctx cipher encrypt, phase ctx = .selected cipher encrypt →
    evp.ivLength ctx = cipher.mode.ivLength
  cipherInitKey : ∀ ctx cipher encrypt key iv, phase ctx = .selected cipher encrypt →
    key.length = cipher.keyLength → iv.length = cipher.mode.ivLength →
    (evp.cipherInitKey ctx cipher key (some iv) encrypt).2 = true ∧
      phase (evp.cipherInitKey ctx cipher key (some iv) encrypt).1 =
        .ready ⟨cipher, encrypt, key, iv, [], none⟩
  setPadding : ∀ ctx session, phase ctx = .ready session →
    (evp.setPadding ctx false).2 = true ∧ phase (evp.setPadding ctx false).1 = .ready session
  updateAad : ∀ ctx session aad len, phase ctx = .ready session → session.cipher.mode = .gcm →
    match prims.authenticated aad len with
    | none => (evp.updateAad ctx aad len).2 = false
    | some authenticated => (evp.updateAad ctx aad len).2 = true ∧
        phase (evp.updateAad ctx aad len).1 = .ready { session with aad := authenticated }
  setTag : ∀ ctx session (tag : List UInt8), phase ctx = .ready session →
    session.cipher.mode = .gcm → session.encrypt = false → 1 ≤ tag.length → tag.length ≤ 16 →
    (evp.setTag ctx tag tag.length).2 = true ∧
      phase (evp.setTag ctx tag tag.length).1 = .ready { session with tag := some tag }
  update : ∀ ctx session (text : List UInt8), phase ctx = .ready session →
    text.length % session.cipher.mode.blockSize = 0 → text.length < 2 ^ 31 →
    (evp.update ctx text text.length).2 =
        ⟨true, session.transform prims text, text.length⟩ ∧
      phase (evp.update ctx text text.length).1 =
        .processed session (session.ciphertext prims text)
  /-- Only a decryption in GCM mode has a tag to check. -/
  final : ∀ ctx session ciphertext, phase ctx = .processed session ciphertext →
    (session.cipher.mode = .gcm → session.encrypt = false → ∃ tag, session.tag = some tag ∧
      tag = (session.computedTag prims ciphertext).take tag.length) →
    (evp.final ctx).2 = true ∧ phase (evp.final ctx).1 = .completed session ciphertext
  getTag : ∀ ctx session ciphertext (len : Nat), phase ctx = .completed session ciphertext →
    session.cipher.mode = .gcm → session.encrypt = true → 1 ≤ len → len ≤ 16 →
    (evp.getTag ctx len).2 = (true, (session.computedTag prims ciphertext).take len)

def Session.accepts (prims : Primitives) (session : Session) (ciphertext : List UInt8) : Bool :=
  match session.cipher.mode, session.encrypt, session.tag with
  | .gcm, false, none => false
  | .gcm, false, some tag => tag = (session.computedTag prims ciphertext).take tag.length
  | _, _, _ => true

/-- The context is its own phase; a call out of order, or with other arguments than those
of `Lawful`, fails. -/
def Primitives.implementation (prims : Primitives) : Library where
  Ctx := Phase
  new := .initial
  reset _ := .initial
  cipherInit _ cipher encrypt := (.selected cipher encrypt, true)
  blockSize ctx :=
    match ctx with
    | .selected cipher _ => cipher.mode.blockSize
    | _ => 1
  ivLength ctx :=
    match ctx with
    | .selected cipher _ => cipher.mode.ivLength
    | _ => 0
  cipherInitKey _ cipher key iv encrypt :=
    match iv with
    | some iv => (.ready ⟨cipher, encrypt, key, iv, [], none⟩, true)
    | none => (.unknown, false)
  setPadding ctx _ := (ctx, true)
  updateAad ctx aad len :=
    match ctx, prims.authenticated aad len with
    | .ready session, some aad => (.ready { session with aad }, true)
    | _, _ => (.unknown, false)
  setTag ctx tag _ :=
    match ctx with
    | .ready session => (.ready { session with tag := some tag }, true)
    | _ => (.unknown, false)
  update ctx text len :=
    match ctx with
    | .ready session => (.processed session (session.ciphertext prims text),
        ⟨true, session.transform prims text, len⟩)
    | _ => (.unknown, ⟨false, [], 0⟩)
  final ctx :=
    match ctx with
    | .processed session ciphertext =>
        if session.accepts prims ciphertext then (.completed session ciphertext, true)
        else (.unknown, false)
    | _ => (.unknown, false)
  getTag ctx len :=
    match ctx with
    | .completed session ciphertext =>
        (ctx, true, (session.computedTag prims ciphertext).take len.toNat)
    | _ => (.unknown, false, [])

theorem Session.accepts_of {prims : Primitives} {session : Session} {ciphertext : List UInt8}
    (checks : session.cipher.mode = .gcm → session.encrypt = false → ∃ tag,
      session.tag = some tag ∧ tag = (session.computedTag prims ciphertext).take tag.length) :
    session.accepts prims ciphertext = true := by
  unfold Session.accepts
  split
  next gcm decrypts missing =>
    obtain ⟨tag, given, -⟩ := checks gcm decrypts
    rw [missing] at given
    cases given
  next gcm decrypts given =>
    obtain ⟨tag, tagIs, correct⟩ := checks gcm decrypts
    rw [given] at tagIs
    obtain rfl := Option.some.inj tagIs
    exact decide_eq_true correct
  next => rfl

theorem Primitives.lawful (prims : Primitives) : Lawful prims.implementation prims id where
  reset _ := rfl
  new := rfl
  cipherInit _ _ _ _ := ⟨rfl, rfl⟩
  blockSize := by rintro _ _ _ rfl; rfl
  ivLength := by rintro _ _ _ rfl; rfl
  cipherInitKey _ _ _ _ _ _ _ _ := ⟨rfl, rfl⟩
  setPadding _ _ ready := ⟨rfl, ready⟩
  updateAad := by
    rintro _ session aad len rfl -
    simp only [implementation]
    cases prims.authenticated aad len with
    | none => rfl
    | some authenticated => exact ⟨rfl, rfl⟩
  setTag := by
    rintro _ _ _ rfl - - - -
    exact ⟨rfl, rfl⟩
  update := by
    rintro _ _ _ rfl - -
    exact ⟨rfl, rfl⟩
  final := by
    rintro _ session ciphertext rfl checks
    simp only [implementation, Session.accepts_of checks, if_true]
    exact ⟨trivial, rfl⟩
  getTag := by
    rintro _ _ _ _ rfl - - - -
    rfl

def TagLength (len : Int) : Prop := 1 ≤ len ∧ len ≤ 16

instance (len : Int) : Decidable (TagLength len) := inferInstanceAs (Decidable (_ ∧ _))

def Session.Verified (prims : Primitives) (session : Session) (ciphertext : List UInt8) : Prop :=
  session.cipher.mode = .gcm → session.encrypt = false → ∃ tag, session.tag = some tag ∧
    tag = (session.computedTag prims ciphertext).take tag.length

/-- What the calls do with every length, and that they fail on invalid arguments and on a
wrong tag. -/
structure Exact (evp : Library) (prims : Primitives) (phase : evp.Ctx → Phase) : Prop
    extends Lawful evp prims phase where
  authenticated : ∀ (aad : List UInt8) (len : Int), len ≤ aad.length →
    prims.authenticated aad len = if 0 ≤ len then some (aad.take len.toNat) else none
  setTagPart : ∀ ctx session (tag : List UInt8) (len : Int), phase ctx = .ready session →
    session.cipher.mode = .gcm → session.encrypt = false → TagLength len → len ≤ tag.length →
    (evp.setTag ctx tag len).2 = true ∧
      phase (evp.setTag ctx tag len).1 = .ready { session with tag := some (tag.take len.toNat) }
  setTagFails : ∀ ctx session (tag : List UInt8) (len : Int), phase ctx = .ready session →
    session.cipher.mode = .gcm → session.encrypt = false → ¬ TagLength len →
    (evp.setTag ctx tag len).2 = false
  updatePart : ∀ ctx session (text : List UInt8) (len : Int), phase ctx = .ready session →
    0 ≤ len → len ≤ text.length → len.toNat % session.cipher.mode.blockSize = 0 →
    (evp.update ctx text len).2 = ⟨true, session.transform prims (text.take len.toNat), len⟩ ∧
      phase (evp.update ctx text len).1 =
        .processed session (session.ciphertext prims (text.take len.toNat))
  updateFails : ∀ ctx session (text : List UInt8) (len : Int), phase ctx = .ready session →
    len < 0 → (evp.update ctx text len).2 = ⟨false, [], 0⟩
  finalFails : ∀ ctx session ciphertext, phase ctx = .processed session ciphertext →
    ¬ session.Verified prims ciphertext → (evp.final ctx).2 = false
  getTagFails : ∀ ctx session ciphertext (len : Int), phase ctx = .completed session ciphertext →
    session.cipher.mode = .gcm → session.encrypt = true → ¬ TagLength len →
    (evp.getTag ctx len).2 = (false, [])

/-- The implementation, with the lengths it is given. -/
def Primitives.exactImplementation (prims : Primitives) : Library :=
  { prims.implementation with
    setTag := fun (ctx : Phase) tag len =>
      match ctx with
      | .ready session =>
          if TagLength len then (.ready { session with tag := some (tag.take len.toNat) }, true)
          else (.unknown, false)
      | _ => (.unknown, false)
    update := fun (ctx : Phase) text len =>
      match ctx with
      | .ready session =>
          if 0 ≤ len then
            (.processed session (session.ciphertext prims (text.take len.toNat)),
              ⟨true, session.transform prims (text.take len.toNat), len⟩)
          else (.unknown, ⟨false, [], 0⟩)
      | _ => (.unknown, ⟨false, [], 0⟩)
    getTag := fun (ctx : Phase) len =>
      match ctx with
      | .completed session ciphertext =>
          if TagLength len then
            (ctx, true, (session.computedTag prims ciphertext).take len.toNat)
          else (ctx, false, [])
      | _ => (.unknown, false, []) }

theorem Session.accepts_eq_true {prims : Primitives} {session : Session}
    {ciphertext : List UInt8} (accepts : session.accepts prims ciphertext = true) :
    session.Verified prims ciphertext := by
  intro gcm decrypts
  cases given : session.tag with
  | none => simp [Session.accepts, gcm, decrypts, given] at accepts
  | some tag =>
      refine ⟨tag, rfl, ?_⟩
      simpa [Session.accepts, gcm, decrypts, given] using accepts

theorem Primitives.exact_setTag (prims : Primitives) (session : Session) (tag : List UInt8)
    {len : Int} (valid : TagLength len) :
    prims.exactImplementation.setTag (Phase.ready session) tag len =
      (Phase.ready { session with tag := some (tag.take len.toNat) }, true) :=
  if_pos valid

theorem Primitives.exact_update (prims : Primitives) (session : Session) (text : List UInt8)
    {len : Int} (nonneg : 0 ≤ len) :
    prims.exactImplementation.update (Phase.ready session) text len =
      (Phase.processed session (session.ciphertext prims (text.take len.toNat)),
        ⟨true, session.transform prims (text.take len.toNat), len⟩) :=
  if_pos nonneg

theorem Primitives.exact_lawful (prims : Primitives) :
    Lawful prims.exactImplementation prims id where
  reset := prims.lawful.reset
  new := prims.lawful.new
  cipherInit := prims.lawful.cipherInit
  blockSize := prims.lawful.blockSize
  ivLength := prims.lawful.ivLength
  cipherInitKey := prims.lawful.cipherInitKey
  setPadding := prims.lawful.setPadding
  updateAad := prims.lawful.updateAad
  setTag := by
    rintro _ session tag rfl - - nonempty short
    have valid : TagLength tag.length := ⟨by omega, by omega⟩
    rw [prims.exact_setTag session tag valid, Int.toNat_natCast, List.take_length]
    exact ⟨rfl, rfl⟩
  update := by
    rintro _ session text rfl - -
    rw [prims.exact_update session text (Int.natCast_nonneg _), Int.toNat_natCast,
      List.take_length]
    exact ⟨rfl, rfl⟩
  final := prims.lawful.final
  getTag := by
    rintro _ session ciphertext len rfl - - positive short
    have valid : TagLength len := ⟨by omega, by omega⟩
    simp [exactImplementation, valid]

theorem padPrimitives_exact (cbcPad gcmPad : List UInt8)
    (gcmTag : (key iv aad ciphertext : List UInt8) → List UInt8) :
    Exact (padPrimitives cbcPad gcmPad gcmTag).exactImplementation
      (padPrimitives cbcPad gcmPad gcmTag) id where
  toLawful := Primitives.exact_lawful _
  authenticated _ _ _ := rfl
  setTagPart := by
    rintro _ session tag len rfl - - valid -
    rw [Primitives.exact_setTag _ session tag valid]
    exact ⟨rfl, rfl⟩
  setTagFails := by
    rintro _ session tag len rfl - - invalid
    simp [Primitives.exactImplementation, invalid]
  updatePart := by
    rintro _ session text len rfl nonneg - -
    rw [Primitives.exact_update _ session text nonneg]
    exact ⟨rfl, rfl⟩
  updateFails := by
    rintro _ session text len rfl negative
    simp [Primitives.exactImplementation, Int.not_le.mpr negative]
  finalFails := by
    rintro _ session ciphertext rfl wrong
    have refuses : session.accepts (padPrimitives cbcPad gcmPad gcmTag) ciphertext = false :=
      Bool.eq_false_iff.mpr fun accepts => wrong (Session.accepts_eq_true accepts)
    simp [Primitives.exactImplementation, Primitives.implementation, refuses]
  getTagFails := by
    rintro _ session ciphertext len rfl - - invalid
    simp [Primitives.exactImplementation, invalid]

end Evp
