import TrustyApp.Hwkey.Types

/-!
# The key slots of the fake provider

`hwkey_get_derived_key` of `hwkey_srv.c` and the handlers and tables of
`hwkey_srv_fake_provider.c`.  The build configuration decides which apploader and
unit test slots there are.
-/

namespace TrustyApp.Hwkey

open Reactive

/-- `HWKEY_DERIVED_KEY_MAX_SIZE` -/
def hwkeyDerivedKeyMaxSize : Nat := 32

/-- `EVP_CIPHER_CTX_iv_length` for AES in CBC mode. -/
def ivLength : Nat := 16

/-- `struct hwkey_derived_keyslot_data`: the IV and the encrypted key, and where the
key that decrypts it comes from. -/
structure DerivedKeyslotData where
  encryptedKeyData : List UInt8
  retriever : KeyFn

/-- `hwkey_get_derived_key` from the second initialisation on. -/
def decryptKey (encryptedKeyData key : List UInt8) (calls : CipherCalls) (kbuf : List UInt8)
    (klen : Nat) : Except Crash KeyOut :=
  if ¬ calls.initKey then .ok ⟨.errGeneric, kbuf, klen⟩
  else if ¬ calls.setPadding then .ok ⟨.errGeneric, kbuf, klen⟩
  else do
    let iv := some (encryptedKeyData.take ivLength)
    let text := encryptedKeyData.drop ivLength
    let written := calls.update key iv text
    let kbuf ← store kbuf written.bytes
    if ¬ written.ok then .ok ⟨.errGeneric, kbuf, klen⟩
    else if written.bytes.length ≠ encryptedKeyData.length - ivLength then .error .assertFailed
    else
      match calls.final key iv text with
      | none => .ok ⟨.errGeneric, kbuf, klen⟩
      | some outLen =>
          if outLen ≠ 0 then .error .assertFailed
          else .ok ⟨.noError, kbuf, encryptedKeyData.length - ivLength⟩

theorem decryptKey_keepsSize (encryptedKeyData key : List UInt8) (calls : CipherCalls)
    (kbuf : List UInt8) (klen : Nat) :
    KeepsSize kbuf.length (decryptKey encryptedKeyData key calls kbuf klen) := by
  unfold decryptKey
  split
  · exact .returned rfl
  split
  · exact .returned rfl
  apply KeepsSize.stored
  intro written size
  split
  · exact .returned size
  split
  · exact .crashed _
  split
  · exact .returned size
  split
  · exact .crashed _
  · exact .returned size

/-- `hwkey_get_derived_key` for the key of its retriever. -/
def deriveFrom (encryptedKeyData : List UInt8) (key : KeyOut) (calls : CipherCalls)
    (kbuf : List UInt8) (klen : Nat) : Except Crash KeyOut :=
  if key.status ≠ .noError then .ok ⟨key.status, kbuf, klen⟩
  else if key.klen ≠ 16 ∧ key.klen ≠ 32 then .ok ⟨.errGeneric, kbuf, klen⟩
  else if ¬ calls.ctxNew then .ok ⟨.errGeneric, kbuf, klen⟩
  else if ¬ calls.init then .ok ⟨.errGeneric, kbuf, klen⟩
  else if ivLength ≥ encryptedKeyData.length then .ok ⟨.errGeneric, kbuf, klen⟩
  else if kbuf.length < encryptedKeyData.length - ivLength then .ok ⟨.errBadLen, kbuf, klen⟩
  else decryptKey encryptedKeyData (key.kbuf.take key.klen) calls kbuf klen

theorem deriveFrom_keepsSize (encryptedKeyData : List UInt8) (key : KeyOut)
    (calls : CipherCalls) (kbuf : List UInt8) (klen : Nat) :
    KeepsSize kbuf.length (deriveFrom encryptedKeyData key calls kbuf klen) := by
  unfold deriveFrom
  repeat' split
  all_goals first
    | exact decryptKey_keepsSize _ _ _ _ _
    | exact .returned rfl

def hwkeyGetDerivedKey (data : DerivedKeyslotData) : KeyFn where
  run outcomes kbuf klen := do
    let key ← data.retriever.run outcomes (List.replicate hwkeyDerivedKeyMaxSize 0)
      outcomes.indeterminate
    deriveFrom data.encryptedKeyData key outcomes.decrypt kbuf klen
  keepsSize result := by
    obtain ⟨key, -, result⟩ := bind_eq_ok.mp result
    exact deriveFrom_keepsSize _ _ _ _ _ _ result

-- "this is a fake unique device key"
def fakeDeviceKey : List UInt8 :=
  [0x74, 0x68, 0x69, 0x73, 0x20, 0x69, 0x73, 0x20, 0x61, 0x20, 0x66, 0x61, 0x6b, 0x65, 0x20,
    0x75, 0x6e, 0x69, 0x71, 0x75, 0x65, 0x20, 0x64, 0x65, 0x76, 0x69, 0x63, 0x65, 0x20, 0x6b,
    0x65, 0x79]

def deriveKeyV1 (uuid : Uuid) (ikm : List UInt8) : KeyFn where
  run outcomes kbuf _ :=
    if ikm.length = 0 then .ok ⟨.errBadLen, kbuf, 0⟩
    else do
      let written := outcomes.hkdf fakeDeviceKey uuid.bytes ikm ikm.length
      let kbuf ← store kbuf written.bytes
      if ¬ written.ok then do
        let kbuf ← store kbuf (List.replicate ikm.length 0)
        .ok ⟨.errGeneric, kbuf, 0⟩
      else .ok ⟨.noError, kbuf, ikm.length⟩
  keepsSize {outcomes kbuf klen} := by
    change KeepsSize kbuf.length _
    split
    · exact .returned rfl
    apply KeepsSize.stored
    intro written size
    split
    · apply KeepsSize.stored
      intro cleared sizeAgain
      exact .returned (sizeAgain.trans size)
    · exact .returned size

/-- `RPMB_SS_AUTH_KEY_SIZE` -/
def rpmbSsAuthKeySize : Nat := 32

def rpmbSalt : List UInt8 :=
  [0x42, 0x18, 0xa9, 0xf2, 0xf6, 0xb1, 0xf5, 0x35, 0x06, 0x37, 0x9f, 0xba, 0xcc, 0x1a, 0xc9,
    0x36, 0xf4, 0x83, 0x04, 0xd4, 0xf1, 0x65, 0x91, 0x32, 0xa6, 0xae, 0xda, 0x27, 0x4d, 0x21,
    0xdb, 0x40]

/-- `EVP_CIPHER_CTX_key_length` for AES-256. -/
def aes256KeyLength : Nat := 32

def getRpmbSsAuthKey : KeyFn where
  run outcomes kbuf klen :=
    let calls := outcomes.encrypt
    if ¬ calls.init then .ok ⟨.errGeneric, kbuf, klen⟩
    else if ¬ calls.setPadding then .ok ⟨.errGeneric, kbuf, klen⟩
    else if kbuf.length < rpmbSsAuthKeySize + aes256KeyLength then .ok ⟨.errGeneric, kbuf, klen⟩
    else do
      let written := calls.update fakeDeviceKey none rpmbSalt
      let kbuf ← store kbuf written.bytes
      if ¬ written.ok then .ok ⟨.errGeneric, kbuf, klen⟩
      else if written.bytes.length ≠ rpmbSsAuthKeySize then .ok ⟨.errGeneric, kbuf, klen⟩
      else
        match calls.final fakeDeviceKey none rpmbSalt with
        | none => .ok ⟨.errGeneric, kbuf, klen⟩
        | some _ => .ok ⟨.noError, kbuf, rpmbSsAuthKeySize⟩
  keepsSize {outcomes kbuf klen} := by
    change KeepsSize kbuf.length _
    dsimp only
    split
    · exact .returned rfl
    split
    · exact .returned rfl
    split
    · exact .returned rfl
    apply KeepsSize.stored
    intro written size
    split
    · exact .returned size
    split
    · exact .returned size
    split
    · exact .returned size
    · exact .returned size

/-- `KM_KAK_SIZE` -/
def kmKakSize : Nat := 32

def kakSalt : List UInt8 :=
  [0x70, 0xc4, 0x7c, 0xfa, 0x2c, 0xb1, 0xee, 0xdc, 0xa5, 0xdf, 0xbc, 0x8d, 0xd4, 0xf7, 0x0d,
    0x42, 0x93, 0x3b, 0x7f, 0x7b, 0xc2, 0x9e, 0x6d, 0xa5, 0xb2, 0x92, 0x7a, 0x21, 0x8e, 0xc9,
    0xe6, 0x9a]

def getKmKakKey (uuid : Uuid) : KeyFn where
  run outcomes kbuf klen :=
    if kbuf.length < kmKakSize then .ok ⟨.errBadLen, kbuf, klen⟩
    else (deriveKeyV1 uuid kakSalt).run outcomes kbuf klen
  keepsSize result := by
    split at result
    · cases result
      rfl
    · exact (deriveKeyV1 _ kakSalt).keepsSize result

/-- Copy a constant key; the handlers assert that it fits. -/
def copyKey (key : List UInt8) : KeyFn where
  run _ kbuf _ :=
    if kbuf.length < key.length then .error .assertFailed
    else do
      let kbuf ← store kbuf key
      .ok ⟨.noError, kbuf, key.length⟩
  keepsSize {outcomes kbuf klen} := by
    change KeepsSize kbuf.length _
    split
    · exact .crashed _
    · apply KeepsSize.stored
      intro written size
      exact .returned size

def getApploaderKey (key : List UInt8) : KeyFn := copyKey key

def getApploaderKeyOpaque (key : List UInt8) : KeyFn := getApploaderKey key

def getApploaderSignKey (key : List UInt8) : KeyFn := getApploaderKey key

def getApploaderSignUnlockedKey (key : List UInt8) : KeyFn where
  run outcomes kbuf klen :=
    if outcomes.appLoadingUnlocked then (getApploaderKey key).run outcomes kbuf klen
    else .ok ⟨.errNotFound, kbuf, klen⟩
  keepsSize result := by
    split at result
    · exact (getApploaderKey _).keepsSize result
    · cases result
      rfl

-- "unittestkeyslotunittestkeyslotun"
def unittestKey32 : List UInt8 :=
  [0x75, 0x6e, 0x69, 0x74, 0x74, 0x65, 0x73, 0x74, 0x6b, 0x65, 0x79, 0x73, 0x6c, 0x6f, 0x74,
    0x75, 0x6e, 0x69, 0x74, 0x74, 0x65, 0x73, 0x74, 0x6b, 0x65, 0x79, 0x73, 0x6c, 0x6f, 0x74,
    0x75, 0x6e]

def getUnittestKey32 : KeyFn := copyKey unittestKey32

def getUnittestKey32Handler : KeyFn := getUnittestKey32

def unittestEncryptedKey32 : List UInt8 :=
  [0x00, 0x00, 0x00, 0x00, 0x00, 0x00, 0x00, 0x00, 0x00, 0x00, 0x00, 0x00, 0x00, 0x00, 0x00,
    0x00, 0x3e, 0x2b, 0x02, 0x54, 0x54, 0x8c, 0xa7, 0xb8, 0xa3, 0xfa, 0xf5, 0xd0, 0xbc, 0x1d,
    0x40, 0x11, 0xac, 0x68, 0xbb, 0xf0, 0x55, 0xa3, 0xc5, 0x49, 0x3e, 0x77, 0x4a, 0x8b, 0x3f,
    0x33, 0x56, 0x07]

def getUnittestKey32Derived : KeyFn := getUnittestKey32

def hwcryptoUnittestDerivedData : DerivedKeyslotData :=
  ⟨unittestEncryptedKey32, getUnittestKey32Derived⟩

def derivedKeyslotHandler (data : DerivedKeyslotData) : KeyFn := hwkeyGetDerivedKey data

def getUnittestKey32Opaque : KeyFn := getUnittestKey32

def getDerivedKeyOpaque (data : DerivedKeyslotData) : KeyFn := hwkeyGetDerivedKey data

-- ab742471-d6e6-4806-85f6-0555b024f4da
def hwcryptoUnittestUuid : Uuid :=
  ⟨[0x71, 0x24, 0x74, 0xab, 0xe6, 0xd6, 0x06, 0x48, 0x85, 0xf6, 0x05, 0x55, 0xb0, 0x24, 0xf4,
    0xda], rfl⟩

-- cea8706d-6cb4-49f3-b994-29e0e478bd29
def ssUuid : Uuid :=
  ⟨[0x6d, 0x70, 0xa8, 0xce, 0xb4, 0x6c, 0xf3, 0x49, 0xb9, 0x94, 0x29, 0xe0, 0xe4, 0x78, 0xbd,
    0x29], rfl⟩

-- 5f902ace-5e5c-4cd8-ae54-87b88c22ddaf
def kmUuid : Uuid :=
  ⟨[0xce, 0x2a, 0x90, 0x5f, 0x5c, 0x5e, 0xd8, 0x4c, 0xae, 0x54, 0x87, 0xb8, 0x8c, 0x22, 0xdd,
    0xaf], rfl⟩

-- 081ba88f-f1ee-452e-b5e8-a7e9ef173a97
def apploaderUuid : Uuid :=
  ⟨[0x8f, 0xa8, 0x1b, 0x08, 0xee, 0xf1, 0x2e, 0x45, 0xb5, 0xe8, 0xa7, 0xe9, 0xef, 0x17, 0x3a,
    0x97], rfl⟩

-- 6f4a2303-f4f8-431d-82d1-3ec52aebbb89
def hwaesUuid : Uuid :=
  ⟨[0x03, 0x23, 0x4a, 0x6f, 0xf8, 0xf4, 0x1d, 0x43, 0x82, 0xd1, 0x3e, 0xc5, 0x2a, 0xeb, 0xbb,
    0x89], rfl⟩

-- ab8a6820-1cc2-44d5-bee0-22b51befa835
def hwaesUnittestUuid : Uuid :=
  ⟨[0x20, 0x68, 0x8a, 0xab, 0xc2, 0x1c, 0xd5, 0x44, 0xbe, 0xe0, 0x22, 0xb5, 0x1b, 0xef, 0xa8,
    0x35], rfl⟩

-- 38ba0cdc-df0e-11e4-9869-233fb6ae4795
def gatekeeperUuid : Uuid :=
  ⟨[0xdc, 0x0c, 0xba, 0x38, 0x0e, 0xdf, 0xe4, 0x11, 0x98, 0x69, 0x23, 0x3f, 0xb6, 0xae, 0x47,
    0x95], rfl⟩

-- f758d162-3481-4bb4-ab54-5ed41652f44e
def hwbccUuid : Uuid :=
  ⟨[0x62, 0xd1, 0x58, 0xf7, 0x81, 0x34, 0xb4, 0x4b, 0xab, 0x54, 0x5e, 0xd4, 0x16, 0x52, 0xf4,
    0x4e], rfl⟩

-- 0e109d31-8bbe-47d6-bb47-e1dd08910e16
def hwbccUnittestUuid : Uuid :=
  ⟨[0x31, 0x9d, 0x10, 0x0e, 0xbe, 0x8b, 0xd6, 0x47, 0xbb, 0x47, 0xe1, 0xdd, 0x08, 0x91, 0x0e,
    0x16], rfl⟩

/-- An apploader signing key of the build, and whether only an unlocked device may
read it. -/
structure SignKey where
  key : List UInt8
  unlockedOnly : Bool

/-- Which optional slots are built in, with the contents of their key files. -/
structure BuildConfig where
  signKey0 : Option SignKey
  signKey1 : Option SignKey
  encryptKey0 : Option (List UInt8)
  encryptKey1 : Option (List UInt8)
  withHwcryptoUnittest : Bool

def apploaderSignSlot (keyId : CString) (sign : SignKey) : KeySlot :=
  ⟨keyId, apploaderUuid, some (.other
    (if sign.unlockedOnly then getApploaderSignUnlockedKey sign.key
      else getApploaderSignKey sign.key))⟩

def apploaderAllowedOpaqueKeyUuids : List Uuid := [hwaesUuid]

def apploaderEncryptSlot (keyId : CString) (key : List UInt8) : KeySlot :=
  ⟨keyId, apploaderUuid,
    some (.getKeyHandle ⟨apploaderAllowedOpaqueKeyUuids, getApploaderKeyOpaque key⟩)⟩

def unittestAllowedOpaqueKeyUuids : List Uuid := [hwcryptoUnittestUuid]

def unittestOpaqueHandleData : OpaqueHandleData :=
  ⟨unittestAllowedOpaqueKeyUuids, getUnittestKey32Opaque⟩

def unittestOpaqueHandleData2 : OpaqueHandleData :=
  ⟨unittestAllowedOpaqueKeyUuids, getUnittestKey32Opaque⟩

def unittestOpaqueHandleDataNoaccess : OpaqueHandleData := ⟨[], getUnittestKey32Opaque⟩

def unittestOpaqueDerivedData : OpaqueHandleData :=
  ⟨unittestAllowedOpaqueKeyUuids, getDerivedKeyOpaque hwcryptoUnittestDerivedData⟩

def hwaesUnittestAllowedOpaqueKeyUuids : List Uuid := [hwaesUuid]

def hwaesUnittestOpaqueHandleData : OpaqueHandleData :=
  ⟨hwaesUnittestAllowedOpaqueKeyUuids, getUnittestKey32Opaque⟩

def unittestSlots : List KeySlot :=
  [⟨.ofString "com.android.trusty.hwcrypto.unittest.key32", hwcryptoUnittestUuid,
      some (.other getUnittestKey32Handler)⟩,
    ⟨.ofString "com.android.trusty.hwcrypto.unittest.derived_key32", hwcryptoUnittestUuid,
      some (.other (derivedKeyslotHandler hwcryptoUnittestDerivedData))⟩,
    ⟨.ofString "com.android.trusty.hwcrypto.unittest.opaque_handle", hwcryptoUnittestUuid,
      some (.getKeyHandle unittestOpaqueHandleData)⟩,
    ⟨.ofString "com.android.trusty.hwcrypto.unittest.opaque_handle2", hwcryptoUnittestUuid,
      some (.getKeyHandle unittestOpaqueHandleData2)⟩,
    ⟨.ofString "com.android.trusty.hwcrypto.unittest.opaque_handle_noaccess",
      hwcryptoUnittestUuid, some (.getKeyHandle unittestOpaqueHandleDataNoaccess)⟩,
    ⟨.ofString "com.android.trusty.hwcrypto.unittest.opaque_derived", hwcryptoUnittestUuid,
      some (.getKeyHandle unittestOpaqueDerivedData)⟩,
    ⟨.ofString "com.android.trusty.hwaes.unittest.opaque_handle", hwaesUnittestUuid,
      some (.getKeyHandle hwaesUnittestOpaqueHandleData)⟩]

/-- `_keys` -/
def keys (cfg : BuildConfig) : List KeySlot :=
  [⟨.ofString "com.android.trusty.storage_auth.rpmb", ssUuid, some (.other getRpmbSsAuthKey)⟩,
    ⟨.ofString "com.android.trusty.keymint.kak", kmUuid, some (.other (getKmKakKey kmUuid))⟩] ++
  (cfg.signKey0.map (apploaderSignSlot
    (.ofString "com.android.trusty.apploader.sign.key.0"))).toList ++
  (cfg.signKey1.map (apploaderSignSlot
    (.ofString "com.android.trusty.apploader.sign.key.1"))).toList ++
  (cfg.encryptKey0.map (apploaderEncryptSlot
    (.ofString "com.android.trusty.apploader.encrypt.key.0"))).toList ++
  (cfg.encryptKey1.map (apploaderEncryptSlot
    (.ofString "com.android.trusty.apploader.encrypt.key.1"))).toList ++
  if cfg.withHwcryptoUnittest then unittestSlots else []

def BuildConfig.hasApploaderKeys (cfg : BuildConfig) : Bool :=
  cfg.signKey0.isSome || cfg.signKey1.isSome || cfg.encryptKey0.isSome || cfg.encryptKey1.isSome

def allowedClients (cfg : BuildConfig) : List Uuid :=
  [ssUuid, kmUuid, hwaesUuid, gatekeeperUuid] ++
  (if cfg.hasApploaderKeys then [apploaderUuid] else []) ++
  [hwcryptoUnittestUuid] ++
  (if cfg.withHwcryptoUnittest then [hwaesUnittestUuid] else []) ++
  [hwbccUuid, hwbccUnittestUuid]

def hwkeyClientAllowed (cfg : BuildConfig) (uuid : Uuid) : Bool :=
  (allowedClients cfg).any (· = uuid)

def fakeProvider (cfg : BuildConfig) : Provider :=
  ⟨keys cfg, hwkeyClientAllowed cfg, deriveKeyV1⟩

end TrustyApp.Hwkey
