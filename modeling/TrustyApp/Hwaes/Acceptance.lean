import TrustyApp.Hwaes.Outcomes

/-!
# The requests that are accepted

`hwaes_aes_op` succeeds on the well-formed requests and on no others, as long as the
lengths are ones that an `int` holds.  A decryption in GCM mode is authenticated by as
many bytes of the tag as the client sends.
-/

namespace TrustyApp.Hwaes

open Reactive

variable {evp : Evp.Library} {prims : Evp.Primitives} {phase : evp.Ctx → Evp.Phase}
  {ctx : evp.Ctx} {args : Args} {cipher : Evp.Cipher} {key : List UInt8}
  {ifc : Interface} {client : HwkeyClient}

/-- The key of a request: the one it carries, or the one behind its handle. -/
inductive EffectiveKey (ifc : Interface) (client : HwkeyClient) (args : Args) :
    List UInt8 → Prop
  | plain : args.keyType ≠ .opaqueHandle → EffectiveKey ifc client args args.key.bytes
  | fetched {key : List UInt8} : args.keyType = .opaqueHandle →
      args.key.len ≤ ifc.opaqueHandleMaxSize → args.key.bytes.getLast? = some 0 →
      client.hwkeyOpen = true →
      client.hwkeyGetKeyslotData (Bytes.cstr args.key.bytes) ifc.aesKeyMaxSize = some key →
      EffectiveKey ifc client args key

structure WellFormedCbc (args : Args) : Prop where
  mode : args.mode = .cbc
  aligned : args.textIn.len % 16 = 0
  ivLength : args.iv.len = 16
  aad : ¬ args.aad.Present
  tagIn : ¬ args.tagIn.Present
  tagOut : ¬ args.tagOut.Present

/-- In GCM mode the tag is delivered or checked, in the length that the client asks for. -/
structure WellFormedGcm (prims : Evp.Primitives) (args : Args) (key : List UInt8) : Prop where
  mode : args.mode = .gcm
  ivLength : args.iv.len = 12
  encrypting : args.encrypt = true →
    ¬ args.tagIn.Present ∧ args.tagOut.Present ∧ args.tagOut.len ≤ 16
  decrypting : args.encrypt = false →
    ¬ args.tagOut.Present ∧ args.tagIn.Present ∧ args.tagIn.len ≤ 16 ∧
      args.tagIn.bytes =
        (prims.gcmTag key args.iv.bytes args.aad.bytes args.textIn.bytes).take args.tagIn.len

structure WellFormed (prims : Evp.Primitives) (ifc : Interface) (client : HwkeyClient)
    (args : Args) : Prop where
  padding : args.padding = .noPadding
  keyGiven : args.key.Present
  textIn : args.textIn.Present
  textOut : args.textOut.Present
  sameLength : args.textIn.len = args.textOut.len
  keyed : ∃ key, EffectiveKey ifc client args key ∧ (key.length = 16 ∨ key.length = 32) ∧
    (WellFormedCbc args ∨ WellFormedGcm prims args key)

/-- The lengths of the inputs that are passed as an `int` fit. -/
structure InputLengths (args : Args) : Prop where
  textIn : args.textIn.len < 2 ^ 31
  aad : args.aad.len < 2 ^ 31
  tagIn : args.tagIn.len < 2 ^ 31

structure IntLengths (args : Args) : Prop extends InputLengths args where
  tagOut : args.tagOut.len < 2 ^ 31

/-- The lengths of the inputs lose no bits when they are passed as an `int`, but may
become negative. -/
structure NarrowLengths (args : Args) : Prop where
  textIn : args.textIn.len < 2 ^ 32
  aad : args.aad.len < 2 ^ 32
  tagIn : args.tagIn.len < 2 ^ 32

structure SeenWhole (args : Args) : Prop where
  textIn : args.textIn.seen = args.textIn.bytes
  aad : args.aad.seen = args.aad.bytes
  tagIn : args.tagIn.seen = args.tagIn.bytes

theorem fetchKey_eq_ok (given : args.key.Present) :
    fetchKey ifc client args = .ok key ↔ EffectiveKey ifc client args key := by
  have last : args.key.bytes[args.key.len - 1]? = args.key.bytes.getLast? := by
    rw [List.getLast?_eq_getElem?, given.length_bytes]
  unfold fetchKey
  rw [last]
  constructor
  · intro fetched
    split at fetched
    next opaqueKey =>
      split at fetched
      · cases fetched
      next fits =>
      split at fetched
      · cases fetched
      next terminated =>
      split at fetched
      · cases fetched
      next opened =>
      split at fetched
      · cases fetched
      next found =>
        obtain rfl := Except.ok.inj fetched
        exact .fetched opaqueKey (Nat.not_lt.mp fits) (not_not.mp terminated)
          (not_not.mp opened) found
    next plainKey =>
      obtain rfl := Except.ok.inj fetched
      exact .plain plainKey
  · intro effective
    cases effective with
    | plain plainKey => exact if_neg plainKey
    | fetched opaqueKey fits terminated opened found =>
        simp [opaqueKey, Nat.not_lt.mpr fits, terminated, opened, found]

theorem keyLength_cases (cipher : Evp.Cipher) :
    cipher.keyLength = 16 ∨ cipher.keyLength = 32 := by
  cases cipher with
  | aes128 mode => exact .inl rfl
  | aes256 mode => exact .inr rfl

theorem exists_cipher (mode : Evp.Mode) (keyLength : key.length = 16 ∨ key.length = 32) :
    ∃ cipher : Evp.Cipher, cipher.mode = mode ∧ key.length = cipher.keyLength := by
  rcases keyLength with short | long
  · exact ⟨.aes128 mode, rfl, short⟩
  · exact ⟨.aes256 mode, rfl, long⟩

theorem InputLengths.seen (lengths : InputLengths args) : SeenWhole args :=
  ⟨Arg.seen_of_lt lengths.textIn, Arg.seen_of_lt lengths.aad, Arg.seen_of_lt lengths.tagIn⟩

theorem Arg.seen_of_nonneg {arg : Arg} (narrow : arg.len < 2 ^ 32)
    (valid : arg.Present → 0 ≤ toInt arg.len) : arg.seen = arg.bytes := by
  by_cases given : arg.Present
  · exact Arg.seen_of_lt (lt_of_toInt_nonneg (valid given) narrow)
  · rw [Arg.seen, Arg.bytes_of_not_present given, List.take_nil]

theorem Accepted.seen (accepted : Accepted prims ifc client args cipher key)
    (lengths : NarrowLengths args) : SeenWhole args where
  textIn := Arg.seen_of_nonneg lengths.textIn fun _ => accepted.nonneg
  aad := Arg.seen_of_nonneg lengths.aad accepted.ready.aad
  tagIn := Arg.seen_of_nonneg lengths.tagIn fun given =>
    (zero_le_one' Int).trans (accepted.ready.tagIn given).1

theorem SeenWhole.setUp_aad (seen : SeenWhole args) :
    (setUp args cipher key).aad = args.aad.bytes := by
  by_cases given : args.aad.Present
  · exact (if_pos given).trans seen.aad
  · exact (if_neg given).trans (Arg.bytes_of_not_present given).symm

theorem tagLength_iff {arg : Arg} (given : arg.Present) (small : arg.len < 2 ^ 31) :
    Evp.TagLength (toInt arg.len) ↔ arg.len ≤ 16 := by
  obtain ⟨data, rfl, nonempty⟩ := present_iff.mp given
  have positive := List.length_pos_of_ne_nil nonempty
  rw [toInt_of_lt small, Evp.TagLength, Arg.len]
  omega

theorem SeenWhole.verified_iff (seen : SeenWhole args) (mode : cipher.mode = .gcm)
    (decrypts : args.encrypt = false) (given : args.tagIn.Present) :
    TagVerified prims args (setUp args cipher key) ↔
      args.tagIn.bytes =
        (prims.gcmTag key args.iv.bytes args.aad.bytes args.textIn.bytes).take args.tagIn.len := by
  have tag : (setUp args cipher key).tag = some args.tagIn.bytes := by
    rw [← seen.tagIn]
    exact if_pos given
  have computed : (setUp args cipher key).computedTag prims
      ((setUp args cipher key).ciphertext prims args.textIn.seen) =
        prims.gcmTag key args.iv.bytes args.aad.bytes args.textIn.bytes := by
    rw [Evp.Session.computedTag, seen.setUp_aad, Evp.Session.ciphertext, seen.textIn, if_neg (by simp [setUp, decrypts])]
    rfl
  rw [← given.length_bytes, ← computed]
  constructor
  · intro verified
    obtain ⟨checked, isTag, correct⟩ := verified mode decrypts
    obtain rfl := Option.some.inj (tag.symm.trans isTag)
    exact correct
  · intro correct _ _
    exact ⟨_, tag, correct⟩

theorem verified_of_not_gcm (other : cipher.mode ≠ .gcm ∨ args.encrypt = true) :
    TagVerified prims args (setUp args cipher key) := by
  intro mode decrypts
  rcases other with notGcm | encrypts
  · exact absurd mode notGcm
  · exact Bool.noConfusion (encrypts.symm.trans decrypts)

theorem Accepted.wellFormedCbc (accepted : Accepted prims ifc client args cipher key)
    (mode : cipher.mode = .cbc) : WellFormedCbc args := by
  obtain ⟨modeIs, noAad, noTagIn, noTagOut⟩ := mode ▸ accepted.admitted.fits
  have ready := mode ▸ accepted.ready
  exact ⟨modeIs, ready.aligned, ready.ivLength, noAad, noTagIn, noTagOut⟩

theorem Accepted.wellFormedGcm (lengths : IntLengths args)
    (accepted : Accepted prims ifc client args cipher key) (mode : cipher.mode = .gcm) :
    WellFormedGcm prims args key := by
  obtain ⟨modeIs, tagIn, tagOut⟩ := mode ▸ accepted.admitted.fits
  have ready := mode ▸ accepted.ready
  refine ⟨modeIs, ready.ivLength, ?_, ?_⟩
  · intro encrypts
    have wanted := tagOut.mpr encrypts
    refine ⟨?_, wanted, (tagLength_iff wanted lengths.tagOut).mp (accepted.tagOut wanted)⟩
    intro given
    exact Bool.noConfusion (encrypts.symm.trans (tagIn.mp given))
  · intro decrypts
    have given := tagIn.mpr decrypts
    refine ⟨?_, given, (tagLength_iff given lengths.tagIn).mp (ready.tagIn given),
      (lengths.seen.verified_iff mode decrypts given).mp accepted.verified⟩
    intro wanted
    exact Bool.noConfusion ((tagOut.mp wanted).symm.trans decrypts)

theorem Accepted.wellFormed (lengths : IntLengths args)
    (accepted : Accepted prims ifc client args cipher key) :
    WellFormed prims ifc client args := by
  obtain ⟨padding, keyGiven, textIn, textOut, sameLength⟩ :=
    checkArgs_eq_noError.mp accepted.admitted.checks
  refine ⟨padding, keyGiven, textIn, textOut, sameLength, key,
    (fetchKey_eq_ok keyGiven).mp accepted.admitted.keyIs, ?_, ?_⟩
  · rw [accepted.admitted.keyLength]
    exact keyLength_cases cipher
  · cases mode : cipher.mode with
    | cbc => exact .inl (accepted.wellFormedCbc mode)
    | gcm => exact .inr (accepted.wellFormedGcm lengths mode)

theorem WellFormedCbc.accepted (lengths : IntLengths args) (wellFormed : WellFormedCbc args)
    (checks : checkArgs args = .noError) (keyIs : fetchKey ifc client args = .ok key)
    (mode : cipher.mode = .cbc) (keyLength : key.length = cipher.keyLength) :
    Accepted prims ifc client args cipher key where
  admitted := {
    checks
    keyIs
    keyLength
    fits := by
      rw [mode]
      exact ⟨wellFormed.mode, wellFormed.aad, wellFormed.tagIn, wellFormed.tagOut⟩ }
  ready := by
    rw [mode]
    exact ⟨wellFormed.aligned, wellFormed.ivLength, fun given => absurd given wellFormed.aad,
      fun given => absurd given wellFormed.tagIn⟩
  nonneg := by
    rw [toInt_of_lt lengths.textIn]
    exact Int.natCast_nonneg _
  verified := verified_of_not_gcm (.inl (by simp [mode]))
  tagOut wanted := absurd wanted wellFormed.tagOut

theorem WellFormedGcm.tagIn_iff (wellFormed : WellFormedGcm prims args key) :
    args.tagIn.Present ↔ args.encrypt = false := by
  cases direction : args.encrypt with
  | true => simp [(wellFormed.encrypting direction).1]
  | false => simp [(wellFormed.decrypting direction).2.1]

theorem WellFormedGcm.tagOut_iff (wellFormed : WellFormedGcm prims args key) :
    args.tagOut.Present ↔ args.encrypt = true := by
  cases direction : args.encrypt with
  | true => simp [(wellFormed.encrypting direction).2.1]
  | false => simp [(wellFormed.decrypting direction).1]

theorem WellFormedGcm.accepted (lengths : IntLengths args)
    (wellFormed : WellFormedGcm prims args key)
    (checks : checkArgs args = .noError) (keyIs : fetchKey ifc client args = .ok key)
    (mode : cipher.mode = .gcm) (keyLength : key.length = cipher.keyLength) :
    Accepted prims ifc client args cipher key where
  admitted := {
    checks
    keyIs
    keyLength
    fits := by
      rw [mode]
      exact ⟨wellFormed.mode, wellFormed.tagIn_iff, wellFormed.tagOut_iff⟩ }
  ready := by
    rw [mode]
    refine ⟨Nat.mod_one _, wellFormed.ivLength, ?_, ?_⟩
    · intro _
      rw [toInt_of_lt lengths.aad]
      exact Int.natCast_nonneg _
    · intro given
      obtain ⟨-, -, short, -⟩ := wellFormed.decrypting (wellFormed.tagIn_iff.mp given)
      exact (tagLength_iff given lengths.tagIn).mpr short
  nonneg := by
    rw [toInt_of_lt lengths.textIn]
    exact Int.natCast_nonneg _
  verified := by
    cases direction : args.encrypt with
    | true => exact verified_of_not_gcm (.inr direction)
    | false =>
        obtain ⟨-, given, -, correct⟩ := wellFormed.decrypting direction
        exact (lengths.seen.verified_iff mode direction given).mpr correct
  tagOut wanted := by
    obtain ⟨-, -, short⟩ := wellFormed.encrypting (wellFormed.tagOut_iff.mp wanted)
    exact (tagLength_iff wanted lengths.tagOut).mpr short

theorem WellFormed.accepted (lengths : IntLengths args)
    (wellFormed : WellFormed prims ifc client args) :
    ∃ cipher key, Accepted prims ifc client args cipher key := by
  have checks : checkArgs args = .noError := checkArgs_eq_noError.mpr
    ⟨wellFormed.padding, wellFormed.keyGiven, wellFormed.textIn, wellFormed.textOut,
      wellFormed.sameLength⟩
  obtain ⟨key, effective, keyLength, byMode⟩ := wellFormed.keyed
  have keyIs := (fetchKey_eq_ok wellFormed.keyGiven).mpr effective
  rcases byMode with cbc | gcm
  · obtain ⟨cipher, mode, chosenLength⟩ := exists_cipher .cbc keyLength
    exact ⟨cipher, key, cbc.accepted lengths checks keyIs mode chosenLength⟩
  · obtain ⟨cipher, mode, chosenLength⟩ := exists_cipher .gcm keyLength
    exact ⟨cipher, key, gcm.accepted lengths checks keyIs mode chosenLength⟩

/-- In any state of the context, a request succeeds exactly when it is well formed. -/
theorem request_accepted_iff_wellFormed (ctx : evp.Ctx) (exact : Evp.Exact evp prims phase)
    (inverse : prims.Inverse) (ivGiven : IvGiven args) (lengths : IntLengths args) :
    (∃ op, hwaesAesOp ifc client ctx args = .ok op ∧ op.rc = .noError) ↔
      WellFormed prims ifc client args := by
  rw [succeeds_iff_accepted ctx exact inverse ivGiven]
  constructor
  · rintro ⟨cipher, key, accepted⟩
    exact accepted.wellFormed lengths
  · exact fun wellFormed => wellFormed.accepted lengths

section Vector

def vectorKey : List UInt8 := List.replicate 16 0

def vectorIv : List UInt8 := List.replicate 12 0

def vectorCiphertext : List UInt8 :=
  [0x03, 0x88, 0xda, 0xce, 0x60, 0xb6, 0xa3, 0x92, 0xf3, 0x28, 0xc2, 0xb9, 0x71, 0xb2, 0xfe,
    0x78]

def vectorTag : List UInt8 :=
  [0xab, 0x6e, 0x47, 0xd4, 0x2c, 0xec, 0x13, 0xbd, 0xf5, 0x3a, 0x67, 0xb2, 0x12, 0x57, 0xbd,
    0xdf]

/-- Primitives that agree with AES-128-GCM on a block of zeros, under a key and an IV of
zeros. -/
def vectorPrimitives : Evp.Primitives :=
  Evp.padPrimitives [] vectorCiphertext fun _ _ _ _ => vectorTag

theorem vectorPrimitives_inverse : vectorPrimitives.Inverse :=
  Evp.padPrimitives_inverse [] vectorCiphertext fun _ _ _ _ => rfl

theorem vectorPrimitives_exact :
    Evp.Exact vectorPrimitives.exactImplementation vectorPrimitives id :=
  Evp.padPrimitives_exact _ _ _

def vectorArgs (tag : List UInt8) : Args where
  padding := .noPadding
  keyType := .other
  mode := .gcm
  encrypt := false
  key := .pointer vectorKey
  iv := .pointer vectorIv
  textIn := .pointer vectorCiphertext
  textOut := .pointer (List.replicate 16 0xff)
  aad := .null 0
  tagIn := .pointer tag
  tagOut := .null 0

theorem vectorArgs_ivGiven (tag : List UInt8) : IvGiven (vectorArgs tag) :=
  fun _ => nofun

theorem vectorArgs_wellFormed :
    WellFormed vectorPrimitives ⟨32, 128⟩ sampleClient (vectorArgs vectorTag) where
  padding := rfl
  keyGiven := by decide
  textIn := by decide
  textOut := by decide
  sameLength := rfl
  keyed := by
    refine ⟨vectorKey, .plain nofun, .inl rfl, .inr ⟨rfl, rfl, nofun, ?_⟩⟩
    intro _
    exact ⟨by decide, by decide, by decide, rfl⟩

theorem request_accepted_iff_wellFormed_vector :
    ∃ op : Op vectorPrimitives.exactImplementation,
      hwaesAesOp ⟨32, 128⟩ sampleClient Evp.Phase.initial (vectorArgs vectorTag) = .ok op ∧
        op.rc = .noError :=
  (request_accepted_iff_wellFormed _ vectorPrimitives_exact vectorPrimitives_inverse
    (vectorArgs_ivGiven vectorTag)
    ⟨⟨by decide, by decide, by decide⟩, by decide⟩).mpr vectorArgs_wellFormed

end Vector

/-- A decryption in GCM mode succeeds only with a tag of 1 to 16 bytes that are the first
ones of the tag of its input: the whole tag, if the client sends one of 16 bytes.  A length
of 2 GiB or more becomes a negative `int`, with which the decryption fails. -/
theorem gcm_decryption_authenticated {op : Op evp} (exact : Evp.Exact evp prims phase)
    (inverse : prims.Inverse) (ivGiven : IvGiven args) (lengths : NarrowLengths args)
    (mode : args.mode = .gcm) (decrypts : args.encrypt = false)
    (performed : hwaesAesOp ifc client ctx args = .ok op) (succeeds : op.rc = .noError) :
    ∃ key, EffectiveKey ifc client args key ∧ 1 ≤ args.tagIn.len ∧ args.tagIn.len ≤ 16 ∧
      args.tagIn.bytes =
        (prims.gcmTag key args.iv.bytes args.aad.bytes args.textIn.bytes).take args.tagIn.len ∧
      (args.tagIn.len = 16 → args.tagIn.bytes =
        prims.gcmTag key args.iv.bytes args.aad.bytes args.textIn.bytes) := by
  obtain ⟨cipher, key, accepted⟩ :=
    (succeeds_iff_accepted ctx exact inverse ivGiven).mp ⟨op, performed, succeeds⟩
  have cipherMode : cipher.mode = .gcm := mode_of_matches accepted.admitted.fits mode
  have given : args.tagIn.Present :=
    (cipherMode ▸ accepted.admitted.fits).2.1.mpr decrypts
  have correct :=
    ((accepted.seen lengths).verified_iff cipherMode decrypts given).mp accepted.verified
  have valid := accepted.ready.tagIn given
  have small := lt_of_toInt_nonneg ((zero_le_one' Int).trans valid.1) lengths.tagIn
  have keyGiven := (checkArgs_eq_noError.mp accepted.admitted.checks).2.1
  refine ⟨key, (fetchKey_eq_ok keyGiven).mp accepted.admitted.keyIs, ?_,
    (tagLength_iff given small).mp valid, correct, ?_⟩
  · obtain ⟨data, tagIs, nonempty⟩ := present_iff.mp given
    rw [tagIs]
    exact List.length_pos_of_ne_nil nonempty
  · intro complete
    rw [correct, complete]
    exact List.take_of_length_le (inverse.tagLength _ _ _ _).le

theorem gcm_decryption_authenticated_vector :
    ∃ key, EffectiveKey ⟨32, 128⟩ sampleClient (vectorArgs vectorTag) key ∧
      1 ≤ vectorTag.length ∧ vectorTag.length ≤ 16 ∧
      vectorTag = (vectorPrimitives.gcmTag key vectorIv [] vectorCiphertext).take
        vectorTag.length ∧
      (vectorTag.length = 16 →
        vectorTag = vectorPrimitives.gcmTag key vectorIv [] vectorCiphertext) := by
  obtain ⟨op, performed, succeeds⟩ : ∃ op : Op vectorPrimitives.exactImplementation,
      hwaesAesOp ⟨32, 128⟩ sampleClient Evp.Phase.initial (vectorArgs vectorTag) = .ok op ∧
        op.rc = .noError := ⟨_, rfl, rfl⟩
  exact gcm_decryption_authenticated vectorPrimitives_exact vectorPrimitives_inverse
    (vectorArgs_ivGiven vectorTag) ⟨by decide, by decide, by decide⟩ rfl rfl performed succeeds

theorem one_byte_tag_accepted :
    (∃ op : Op vectorPrimitives.exactImplementation,
      hwaesAesOp ⟨32, 128⟩ sampleClient Evp.Phase.initial (vectorArgs [0xab]) = .ok op ∧
        op.rc = .noError) ∧
      ∀ key, (vectorArgs [0xab]).tagIn.bytes ≠
        vectorPrimitives.gcmTag key vectorIv [] vectorCiphertext := by
  constructor
  · exact ⟨_, rfl, rfl⟩
  · intro key
    have short : ([0xab] : List UInt8) ≠ vectorTag := by decide
    exact short

end TrustyApp.Hwaes
