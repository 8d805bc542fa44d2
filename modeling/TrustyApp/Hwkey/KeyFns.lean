import TrustyApp.Hwkey.Buffers

/-!
# What a key function leaves behind

A handler writes into the key buffer before it knows whether it will succeed, and
the caller clears as many bytes as the handler reports.  One specification for each
handler of this repository says what it reports and what it has written, and under
which outcomes of the cryptographic calls bytes stay behind that it does not report.
-/

namespace TrustyApp.Hwkey

open Reactive

/-- What a call that returns leaves: an error with the length zero, and possibly what
it had written by then, or a key and its length. -/
inductive Delivered (leaks : Prop) (kbuf : List UInt8) : KeyOut → Prop
  | refused {status : Status} {left : List UInt8} : status ≠ .noError →
      left.length ≤ kbuf.length → (¬ Bytes.Clear left ↔ leaks) →
      Delivered leaks kbuf ⟨status, Bytes.overwrite kbuf left, 0⟩
  | delivered {key : List UInt8} : key.length ≤ kbuf.length → ¬ leaks →
      Delivered leaks kbuf ⟨.noError, Bytes.overwrite kbuf key, key.length⟩

def Delivers (leaks : Prop) (kbuf : List UInt8) (called : Except Crash KeyOut) : Prop :=
  ∀ out, called = .ok out → Delivered leaks kbuf out

section Delivers

variable {leaks : Prop} {kbuf : List UInt8}

theorem Delivers.crashed (crash : Crash) : Delivers leaks kbuf (.error crash) := by
  intro out result
  cases result

theorem Delivers.left {status : Status} {left : List UInt8} (failed : status ≠ .noError)
    (fits : left.length ≤ kbuf.length) (leaksIff : ¬ Bytes.Clear left ↔ leaks) :
    Delivers leaks kbuf (.ok ⟨status, Bytes.overwrite kbuf left, 0⟩) := by
  intro out result
  cases result
  exact .refused failed fits leaksIff

theorem Delivers.untouched {status : Status} (failed : status ≠ .noError) (safe : ¬ leaks) :
    Delivers leaks kbuf (.ok ⟨status, kbuf, 0⟩) := by
  have unwritten : ¬ Bytes.Clear [] ↔ leaks :=
    iff_of_false (not_not.mpr fun _ member => by cases member) safe
  exact Delivers.left failed (Nat.zero_le _) unwritten

theorem Delivers.key {key : List UInt8} {len : Nat} (fits : key.length ≤ kbuf.length)
    (full : key.length = len) (safe : ¬ leaks) :
    Delivers leaks kbuf (.ok ⟨.noError, Bytes.overwrite kbuf key, len⟩) := by
  intro out result
  cases result
  subst full
  exact .delivered fits safe

theorem Delivers.stored {data : List UInt8} {next : List UInt8 → Except Crash KeyOut}
    (continues : data.length ≤ kbuf.length →
      Delivers leaks kbuf (next (Bytes.overwrite kbuf data))) :
    Delivers leaks kbuf (store kbuf data >>= next) := by
  intro out result
  obtain ⟨written, stored, result⟩ := bind_eq_ok.mp result
  obtain ⟨fits, rfl⟩ := store_eq_ok stored
  exact continues fits out result

/-- What the caller clears is all there was, unless the call leaks. -/
theorem Delivered.clear_iff {out : KeyOut} (delivered : Delivered leaks kbuf out)
    (clear : Bytes.Clear kbuf) :
    Bytes.Clear (sanitize out.kbuf out.klen) ↔ ¬ leaks := by
  cases delivered with
  | refused _ _ leaksIff =>
      rw [sanitize, if_neg (by simp), Bytes.clear_overwrite_iff clear, ← leaksIff, not_not]
  | @delivered key _ safe =>
      refine iff_of_true ?_ safe
      unfold sanitize
      split
      · rw [Bytes.overwrite_overwrite (by simp), Bytes.clear_overwrite_iff clear]
        exact Bytes.clear_replicate _
      next empty =>
        have nothing : key = [] := List.length_eq_zero_iff.mp (not_not.mp empty)
        simpa [nothing, Bytes.overwrite] using clear

theorem Delivered.reported {out : KeyOut} (delivered : Delivered leaks kbuf out) :
    out.klen ≤ kbuf.length ∧ (out.status ≠ .noError → out.klen = 0) := by
  cases delivered with
  | refused => exact ⟨Nat.zero_le _, fun _ => rfl⟩
  | delivered fits => exact ⟨fits, fun failed => absurd rfl failed⟩

end Delivers

variable {outcomes : Outcomes} {kbuf : List UInt8}

theorem copyKey_delivers (key : List UInt8) (klen : Nat) :
    Delivers False kbuf ((copyKey key).run outcomes kbuf klen) := by
  simp only [copyKey]
  split
  · exact .crashed _
  · exact .stored fun fits => .key fits rfl not_false

theorem getApploaderSignUnlockedKey_delivers (key : List UInt8) :
    Delivers False kbuf ((getApploaderSignUnlockedKey key).run outcomes kbuf 0) := by
  simp only [getApploaderSignUnlockedKey]
  split
  · exact copyKey_delivers key 0
  · exact .untouched (by decide) not_false

/-- `derive_key_v1` clears what a failed HKDF call has written. -/
theorem deriveKeyV1_delivers (uuid : Uuid) (ikm : List UInt8) (klen : Nat) :
    Delivers False kbuf ((deriveKeyV1 uuid ikm).run outcomes kbuf klen) := by
  simp only [deriveKeyV1]
  split
  · exact .untouched (by decide) not_false
  apply Delivers.stored
  intro fits
  split
  · intro out result
    obtain ⟨cleared, stored, result⟩ := bind_eq_ok.mp result
    obtain ⟨room, rfl⟩ := store_eq_ok stored
    rw [Bytes.overwrite_overwrite
      (by simpa using (outcomes.hkdf fakeDeviceKey uuid.bytes ikm ikm.length).fits)] at result
    rw [Bytes.length_overwrite fits] at room
    exact Delivers.left (by decide) room
      (iff_of_false (not_not.mpr (Bytes.clear_replicate _)) not_false) out result
  next succeeded =>
    exact .key fits (outcomes.hkdfFull _ _ _ _ (not_not.mp succeeded)) not_false

theorem getKmKakKey_delivers (uuid : Uuid) :
    Delivers False kbuf ((getKmKakKey uuid).run outcomes kbuf 0) := by
  simp only [getKmKakKey]
  split
  · exact .untouched (by decide) not_false
  · exact deriveKeyV1_delivers uuid kakSalt 0

/-- `get_rpmb_ss_auth_key` fails at or after the update that wrote the key. -/
structure RpmbLeaks (calls : CipherCalls) : Prop where
  init : calls.init = true
  setPadding : calls.setPadding = true
  written : ¬ Bytes.Clear (calls.update fakeDeviceKey none rpmbSalt).bytes
  fails : (calls.update fakeDeviceKey none rpmbSalt).ok = false ∨
    (calls.update fakeDeviceKey none rpmbSalt).bytes.length ≠ rpmbSsAuthKeySize ∨
    calls.final fakeDeviceKey none rpmbSalt = none

theorem getRpmbSsAuthKey_delivers (size : kbuf.length = hwkeyMaxPayloadSize) :
    Delivers (RpmbLeaks outcomes.encrypt) kbuf (getRpmbSsAuthKey.run outcomes kbuf 0) := by
  simp only [getRpmbSsAuthKey]
  split
  next noInit => exact .untouched (by decide) fun leaks => noInit leaks.init
  next init =>
  split
  next noPadding => exact .untouched (by decide) fun leaks => noPadding leaks.setPadding
  next setPadding =>
  split
  next small =>
    exact absurd small (by rw [size]; decide)
  next =>
  apply Delivers.stored
  intro fits
  split
  next failed =>
    exact .left (by decide) fits ⟨fun written => ⟨not_not.mp init, not_not.mp setPadding, written,
      .inl (by simpa using failed)⟩, fun leaks => leaks.written⟩
  next succeeded =>
  split
  next mismatch =>
    exact .left (by decide) fits ⟨fun written => ⟨not_not.mp init, not_not.mp setPadding, written,
      .inr (.inl mismatch)⟩, fun leaks => leaks.written⟩
  next full =>
  split
  next noFinal =>
    exact .left (by decide) fits ⟨fun written => ⟨not_not.mp init, not_not.mp setPadding, written,
      .inr (.inr noFinal)⟩, fun leaks => leaks.written⟩
  next final =>
    apply Delivers.key fits (not_not.mp full)
    intro leaks
    rcases leaks.fails with failed | mismatch | noFinal
    · exact succeeded (by simp [failed])
    · exact full mismatch
    · rw [final] at noFinal
      cases noFinal

/-- `hwkey_get_derived_key` fails at or after the update that wrote the key. -/
structure DecryptLeaks (encryptedKeyData key : List UInt8) (calls : CipherCalls) : Prop where
  initKey : calls.initKey = true
  setPadding : calls.setPadding = true
  written : ¬ Bytes.Clear (calls.update key (some (encryptedKeyData.take ivLength))
    (encryptedKeyData.drop ivLength)).bytes
  fails : (calls.update key (some (encryptedKeyData.take ivLength))
      (encryptedKeyData.drop ivLength)).ok = false ∨
    calls.final key (some (encryptedKeyData.take ivLength))
      (encryptedKeyData.drop ivLength) = none

theorem decryptKey_delivers (encryptedKeyData key : List UInt8) (calls : CipherCalls) :
    Delivers (DecryptLeaks encryptedKeyData key calls) kbuf
      (decryptKey encryptedKeyData key calls kbuf 0) := by
  simp only [decryptKey]
  split
  next noInit => exact .untouched (by decide) fun leaks => noInit leaks.initKey
  next initKey =>
  split
  next noPadding => exact .untouched (by decide) fun leaks => noPadding leaks.setPadding
  next setPadding =>
  apply Delivers.stored
  intro fits
  split
  next failed =>
    exact .left (by decide) fits ⟨fun written => ⟨not_not.mp initKey, not_not.mp setPadding,
      written, .inl (by simpa using failed)⟩, fun leaks => leaks.written⟩
  next succeeded =>
  split
  · exact .crashed _
  next full =>
  split
  next noFinal =>
    exact .left (by decide) fits ⟨fun written => ⟨not_not.mp initKey, not_not.mp setPadding,
      written, .inr noFinal⟩, fun leaks => leaks.written⟩
  next final =>
    split
    · exact .crashed _
    · apply Delivers.key fits (not_not.mp full)
      intro leaks
      rcases leaks.fails with failed | noFinal
      · exact succeeded (by simp [failed])
      · rw [final] at noFinal
        cases noFinal

/-- The retriever gave a key, the first initialisation succeeded and the encrypted key
fits the key buffer; then the decryption leaks. -/
structure DerivedLeaks (data : DerivedKeyslotData) (outcomes : Outcomes) (key : KeyOut) :
    Prop where
  retrieved : data.retriever.run outcomes (List.replicate hwkeyDerivedKeyMaxSize 0)
    outcomes.indeterminate = .ok key
  status : key.status = .noError
  keyLen : key.klen = 16 ∨ key.klen = 32
  ctxNew : outcomes.decrypt.ctxNew = true
  init : outcomes.decrypt.init = true
  long : ivLength < data.encryptedKeyData.length
  room : data.encryptedKeyData.length - ivLength ≤ hwkeyMaxPayloadSize
  decrypt : DecryptLeaks data.encryptedKeyData (key.kbuf.take key.klen) outcomes.decrypt

theorem hwkeyGetDerivedKey_delivers (data : DerivedKeyslotData)
    (size : kbuf.length = hwkeyMaxPayloadSize) :
    Delivers (∃ key, DerivedLeaks data outcomes key) kbuf
      ((hwkeyGetDerivedKey data).run outcomes kbuf 0) := by
  intro out result
  obtain ⟨key, retrieved, result⟩ := bind_eq_ok.mp result
  have only {other : KeyOut} (leaks : DerivedLeaks data outcomes other) : other = key := by
    have same := leaks.retrieved
    rw [retrieved] at same
    exact (Except.ok.inj same).symm
  apply (show Delivers (∃ key, DerivedLeaks data outcomes key) kbuf
    (deriveFrom data.encryptedKeyData key outcomes.decrypt kbuf 0) from ?_) out result
  unfold deriveFrom
  split
  next failed =>
    exact .untouched failed fun ⟨_, leaks⟩ => failed (only leaks ▸ leaks.status)
  next status =>
  split
  next badLen =>
    exact .untouched (by decide) fun ⟨_, leaks⟩ => by
      have keyLen := only leaks ▸ leaks.keyLen
      omega
  next keyLen =>
  split
  next noCtx => exact .untouched (by decide) fun ⟨_, leaks⟩ => noCtx leaks.ctxNew
  next ctxNew =>
  split
  next noInit => exact .untouched (by decide) fun ⟨_, leaks⟩ => noInit leaks.init
  next init =>
  split
  next short => exact .untouched (by decide) fun ⟨_, leaks⟩ => by have := leaks.long; omega
  next long =>
  split
  next small => exact .untouched (by decide) fun ⟨_, leaks⟩ => by have := leaks.room; omega
  next room =>
    have exactly : DecryptLeaks data.encryptedKeyData (key.kbuf.take key.klen)
        outcomes.decrypt ↔ ∃ key, DerivedLeaks data outcomes key := by
      constructor
      · intro decrypt
        exact ⟨key, retrieved, not_not.mp status, by omega, not_not.mp ctxNew, not_not.mp init,
          by omega, by omega, decrypt⟩
      · rintro ⟨other, leaks⟩
        exact only leaks ▸ leaks.decrypt
    rw [← exactly]
    exact decryptKey_delivers _ _ _

/-- Outcomes under which a key function reports an error after key bytes went into the
buffer of its caller. -/
inductive Leaks (outcomes : Outcomes) : KeyFn → Prop
  | rpmbSsAuthKey : RpmbLeaks outcomes.encrypt → Leaks outcomes getRpmbSsAuthKey
  | derivedKey {data : DerivedKeyslotData} : (∃ key, DerivedLeaks data outcomes key) →
      Leaks outcomes (hwkeyGetDerivedKey data)

theorem RepositoryFn.delivered {fn : KeyFn} {out : KeyOut} (fromRepository : RepositoryFn fn)
    (size : kbuf.length = hwkeyMaxPayloadSize) (result : fn.run outcomes kbuf 0 = .ok out) :
    ∃ leaks, (leaks → Leaks outcomes fn) ∧ Delivered leaks kbuf out := by
  cases fromRepository with
  | rpmbSsAuthKey => exact ⟨_, .rpmbSsAuthKey, getRpmbSsAuthKey_delivers size _ result⟩
  | kmKakKey uuid => exact ⟨False, False.elim, getKmKakKey_delivers uuid _ result⟩
  | apploaderKey key | apploaderSignKey key =>
      exact ⟨False, False.elim, copyKey_delivers key 0 _ result⟩
  | apploaderSignUnlockedKey key =>
      exact ⟨False, False.elim, getApploaderSignUnlockedKey_delivers key _ result⟩
  | unittestKey32 => exact ⟨False, False.elim, copyKey_delivers _ 0 _ result⟩
  | derivedKey data => exact ⟨_, .derivedKey, hwkeyGetDerivedKey_delivers data size _ result⟩

theorem Leaks.delivered {fn : KeyFn} {out : KeyOut} (leaks : Leaks outcomes fn)
    (size : kbuf.length = hwkeyMaxPayloadSize) (result : fn.run outcomes kbuf 0 = .ok out) :
    Delivered True kbuf out := by
  cases leaks with
  | rpmbSsAuthKey leaks => exact eq_true leaks ▸ getRpmbSsAuthKey_delivers size _ result
  | derivedKey leaks => exact eq_true leaks ▸ hwkeyGetDerivedKey_delivers _ size _ result

theorem RepositoryFn.clear_iff {fn : KeyFn} {out : KeyOut} (fromRepository : RepositoryFn fn)
    (size : kbuf.length = hwkeyMaxPayloadSize) (clear : Bytes.Clear kbuf)
    (result : fn.run outcomes kbuf 0 = .ok out) :
    Bytes.Clear (sanitize out.kbuf out.klen) ↔ ¬ Leaks outcomes fn := by
  constructor
  · intro cleared leaks
    exact ((leaks.delivered size result).clear_iff clear).mp cleared trivial
  · intro safe
    obtain ⟨leaks, leaky, delivered⟩ := fromRepository.delivered size result
    exact (delivered.clear_iff clear).mpr fun leaks => safe (leaky leaks)

def KeyFn.InBounds (fn : KeyFn) : Prop :=
  ∀ outcomes kbuf klen, fn.run outcomes kbuf klen ≠ .error .outOfBounds

theorem store_bind_ne {data : List UInt8} {next : List UInt8 → Except Crash KeyOut}
    {crash : Crash} (fits : data.length ≤ kbuf.length)
    (continues : next (Bytes.overwrite kbuf data) ≠ .error crash) :
    (store kbuf data >>= next) ≠ .error crash := by
  rw [store, if_pos fits]
  exact continues

theorem copyKey_inBounds (key : List UInt8) : (copyKey key).InBounds := by
  intro outcomes kbuf klen
  simp only [copyKey]
  split
  · simp
  · exact store_bind_ne (by omega) (by simp)

theorem getApploaderSignUnlockedKey_inBounds (key : List UInt8) :
    (getApploaderSignUnlockedKey key).InBounds := by
  intro outcomes kbuf klen
  simp only [getApploaderSignUnlockedKey]
  split
  · exact copyKey_inBounds key outcomes kbuf klen
  · simp

theorem deriveKeyV1_returns (uuid : Uuid) {ikm : List UInt8} (klen : Nat)
    (room : ikm.length ≤ kbuf.length) (crash : Crash) :
    (deriveKeyV1 uuid ikm).run outcomes kbuf klen ≠ .error crash := by
  have fits := (outcomes.hkdf fakeDeviceKey uuid.bytes ikm ikm.length).fits.trans room
  simp only [deriveKeyV1]
  split
  · simp
  apply store_bind_ne fits
  split
  · refine store_bind_ne ?_ (by simp)
    simpa [Bytes.length_overwrite fits] using room
  · simp

theorem getKmKakKey_inBounds (uuid : Uuid) : (getKmKakKey uuid).InBounds := by
  intro outcomes kbuf klen
  simp only [getKmKakKey]
  split
  · simp
  next room => exact deriveKeyV1_returns uuid klen (not_lt.mp room) .outOfBounds

theorem getRpmbSsAuthKey_inBounds : getRpmbSsAuthKey.InBounds := by
  intro outcomes kbuf klen
  simp only [getRpmbSsAuthKey]
  split
  · simp
  split
  · simp
  split
  · simp
  next room =>
    have fits := (outcomes.encrypt.update fakeDeviceKey none rpmbSalt).fits
    have saltSize : rpmbSalt.length = rpmbSsAuthKeySize := rfl
    apply store_bind_ne (by omega)
    split
    · simp
    split
    · simp
    split <;> simp

theorem decryptKey_inBounds {encryptedKeyData : List UInt8} (key : List UInt8)
    (calls : CipherCalls) (klen : Nat)
    (room : encryptedKeyData.length - ivLength ≤ kbuf.length) :
    decryptKey encryptedKeyData key calls kbuf klen ≠ .error .outOfBounds := by
  have text : (encryptedKeyData.drop ivLength).length ≤ kbuf.length := by
    rwa [List.length_drop]
  have fits := (calls.update key (some (encryptedKeyData.take ivLength))
    (encryptedKeyData.drop ivLength)).fits.trans text
  simp only [decryptKey]
  split
  · simp
  split
  · simp
  apply store_bind_ne fits
  split
  · simp
  split
  · simp
  split
  · simp
  split <;> simp

theorem hwkeyGetDerivedKey_inBounds {data : DerivedKeyslotData}
    (retriever : data.retriever.InBounds) : (hwkeyGetDerivedKey data).InBounds := by
  intro outcomes kbuf klen stopped
  rcases bind_eq_error.mp stopped with stopped | ⟨key, -, stopped⟩
  · exact retriever _ _ _ stopped
  · revert stopped
    unfold deriveFrom
    split
    · simp
    split
    · simp
    split
    · simp
    split
    · simp
    split
    · simp
    split
    · simp
    next room => exact decryptKey_inBounds _ _ klen (not_lt.mp room)

theorem keys_inBounds (cfg : BuildConfig) {slot : KeySlot} {handler : Handler}
    (member : slot ∈ keys cfg) (handles : slot.handler = some handler) :
    handler.keyFn.InBounds :=
  keys_rule getRpmbSsAuthKey_inBounds (getKmKakKey_inBounds kmUuid) copyKey_inBounds
    getApploaderSignUnlockedKey_inBounds (hwkeyGetDerivedKey_inBounds (copyKey_inBounds _)) cfg
    member handles

end TrustyApp.Hwkey
