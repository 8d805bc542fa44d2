import TrustyApp.Library.Bytes
import TrustyApp.Library.Reactive

/-!
# Key slots

The data model of `hwkey_srv_priv.h`.  A handler or retriever is given as the
function it computes for its slot; what it learns from the cryptographic library
and from the system state is an argument of it.
-/

namespace TrustyApp.Hwkey

/-- `uuid_t`, compared bytewise. -/
structure Uuid where
  bytes : List UInt8
  size : bytes.length = 16
  deriving DecidableEq

structure CString where
  chars : List UInt8
  noNul : 0 ∉ chars
  deriving DecidableEq

def CString.ofString (text : String) : CString :=
  ⟨Bytes.cstr (text.toList.map fun char => UInt8.ofNat char.toNat), Bytes.zero_notMem_cstr _⟩

abbrev KernelError := { rc : Int // rc < 0 }

/-- The status of a response.  `get_key_handle` passes the error code of the RNG
device on as a status. -/
inductive Status
  | noError
  | errGeneric
  | errBadLen
  | errNotImplemented
  | errNotFound
  | errAlreadyExists
  | kernel (rc : KernelError)
  deriving DecidableEq

inductive Crash
  | assertFailed
  | outOfBounds
  deriving DecidableEq

structure Written (limit : Nat) where
  ok : Bool
  bytes : List UInt8
  fits : bytes.length ≤ limit

/-- Outcomes of the EVP calls of one cipher operation without padding.  The result
of the update depends on key, IV and text; the final call reports the number of
bytes it wrote, or fails. -/
structure CipherCalls where
  ctxNew : Bool
  init : Bool
  initKey : Bool
  setPadding : Bool
  update : (key : List UInt8) → (iv : Option (List UInt8)) → (text : List UInt8) →
    Written text.length
  final : (key : List UInt8) → (iv : Option (List UInt8)) → (text : List UInt8) → Option Nat

structure Outcomes where
  hkdf : (key salt info : List UInt8) → (len : Nat) → Written len
  hkdfFull : ∀ key salt info len, (hkdf key salt info len).ok = true →
    (hkdf key salt info len).bytes.length = len
  encrypt : CipherCalls
  decrypt : CipherCalls
  appLoadingUnlocked : Bool
  /-- The value of a local variable that was not initialised. -/
  indeterminate : Nat

/-- What a handler leaves: its status, the key buffer and `*klen`. -/
structure KeyOut where
  status : Status
  kbuf : List UInt8
  klen : Nat
  deriving DecidableEq

/-- A handler, retriever or derivation applied to its slot.  The length of `kbuf`
is `kbuf_len`, and the callee cannot change it. -/
structure KeyFn where
  run : Outcomes → (kbuf : List UInt8) → (klen : Nat) → Except Crash KeyOut
  keepsSize : ∀ {outcomes kbuf klen out}, run outcomes kbuf klen = .ok out →
    out.kbuf.length = kbuf.length

def store (buf data : List UInt8) : Except Crash (List UInt8) :=
  if data.length ≤ buf.length then .ok (Bytes.overwrite buf data) else .error .outOfBounds

theorem store_eq_ok {buf data result : List UInt8} (stored : store buf data = .ok result) :
    data.length ≤ buf.length ∧ result = Bytes.overwrite buf data := by
  unfold store at stored
  split at stored
  · exact ⟨by assumption, (Except.ok.inj stored).symm⟩
  · cases stored

def KeepsSize (size : Nat) (called : Except Crash KeyOut) : Prop :=
  ∀ out, called = .ok out → out.kbuf.length = size

theorem KeepsSize.returned {size klen : Nat} {status : Status} {kbuf : List UInt8}
    (length : kbuf.length = size) : KeepsSize size (.ok ⟨status, kbuf, klen⟩) := by
  intro out result
  cases result
  exact length

theorem KeepsSize.crashed {size : Nat} (crash : Crash) : KeepsSize size (.error crash) := by
  intro out result
  cases result

theorem KeepsSize.stored {size : Nat} {buf data : List UInt8}
    {next : List UInt8 → Except Crash KeyOut}
    (continues : ∀ written, written.length = buf.length → KeepsSize size (next written)) :
    KeepsSize size (store buf data >>= next) := by
  intro out result
  obtain ⟨written, stored, result⟩ := Reactive.bind_eq_ok.mp result
  obtain ⟨fits, rfl⟩ := store_eq_ok stored
  exact continues _ (Bytes.length_overwrite fits) out result

structure OpaqueHandleData where
  allowedUuids : List Uuid
  retriever : KeyFn

/-- The handler of a slot.  For `get_key_handle` the `priv` field of the slot points
to its handle data. -/
inductive Handler
  | getKeyHandle (handle : OpaqueHandleData)
  | other (fn : KeyFn)

/-- `struct hwkey_keyslot`; a null handler is `none`. -/
structure KeySlot where
  keyId : CString
  uuid : Uuid
  handler : Option Handler

def opaqueData (slots : List KeySlot) (slot : Nat) : Option OpaqueHandleData :=
  match slots[slot]? with
  | some ⟨_, _, some (.getKeyHandle handle)⟩ => some handle
  | _ => none

structure Provider where
  keySlots : List KeySlot
  hwkeyClientAllowed : Uuid → Bool
  deriveKeyV1 : Uuid → (ikm : List UInt8) → KeyFn

end TrustyApp.Hwkey
