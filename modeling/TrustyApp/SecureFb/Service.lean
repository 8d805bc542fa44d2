import Mathlib.Data.List.AList
import TrustyApp.Library.Ipc
import TrustyApp.Library.Ledger
import TrustyApp.Library.Reactive

/-!
# The secure framebuffer mock

The operations that `main.cpp` hands to the secure framebuffer service.  Every session is
an object of the class `SecureFbMockImpl`, and its pointer is the handle the service
passes back.  The display driver and the system calls are not part of the repository:
what they return is a parameter of each call, and the ledger records what was acquired
and released through them.
-/

namespace TrustyApp.SecureFb

open Ipc Ledger Reactive

def kDeviceWidth : UInt32 := 400

def kDeviceHeight : UInt32 := 800

abbrev kFbCount : Nat := 1

def kFbId : UInt32 := 0xdeadbeef

def invalidIpcHandle : Int := -1

inductive Code
  | ok
  | uninitialized
  | memoryAllocation
  | sharedMemory
  | invalidRequest
  deriving DecidableEq

/-- `TTUI_PF_RGBA8`, or what zeroed memory holds. -/
inductive PixelFormat
  | zeroed
  | rgba8
  deriving DecidableEq

structure FbInfo where
  buffer : Addr
  size : UInt32
  pixelStride : UInt32
  lineStride : UInt32
  width : UInt32
  height : UInt32
  pixelFormat : PixelFormat
  deriving DecidableEq

/-- `secure_dpu_buf_info`, of which only the handle is read here. -/
structure BufInfo where
  handle : Int
  deriving DecidableEq

structure FbDbEntry where
  fbInfo : FbInfo
  bufInfo : BufInfo
  handle : Int
  deriving DecidableEq

structure SecureFbMockImpl where
  fbDb : Vector FbDbEntry kFbCount
  deriving DecidableEq

/-- `fb_db_[0]` -/
def SecureFbMockImpl.entry (sfb : SecureFbMockImpl) : FbDbEntry := sfb.fbDb[0]

/-- `new SecureFbMockImpl()`: zeroed, but for the handle that has an initialiser. -/
def SecureFbMockImpl.new : SecureFbMockImpl :=
  ⟨#v[⟨⟨0, 0, 0, 0, 0, 0, .zeroed⟩, ⟨0⟩, invalidIpcHandle⟩]⟩

inductive Resource
  | display
  | buffer (info : BufInfo)
  | mapping (base : Addr) (size : UInt32)
  | memref (handle : Int)
  deriving DecidableEq

structure Io where
  /-- The pointer to the new object. -/
  sfb : Addr
  startSecureDisplay : Int
  allocateBuffer : Int × BufInfo
  /-- `none` stands for `MAP_FAILED`. -/
  mmap : Option Addr
  memrefCreate : Int
  deriving DecidableEq

def roundUp (n multiple : Nat) : Nat := (n + multiple - 1) / multiple * multiple

def fbSize (pageSize : Nat) (width height : UInt32) : UInt32 :=
  UInt32.ofNat (roundUp (4 * width.toNat * height.toNat) pageSize)

/-- What `Init` stores once everything is acquired. -/
def fbDbEntry (pageSize : Nat) (width height : UInt32) (io : Io) (base : Addr) : FbDbEntry where
  fbInfo :=
    { buffer := base
      size := fbSize pageSize width height
      pixelStride := 4
      lineStride := 4 * width
      width := width
      height := height
      pixelFormat := .rgba8 }
  bufInfo := io.allocateBuffer.2
  handle := io.memrefCreate

def SecureFbMockImpl.init (pageSize : Nat) (sfb : SecureFbMockImpl) (width height : UInt32)
    (io : Io) : Code × SecureFbMockImpl × List (Entry Resource) :=
  if io.startSecureDisplay < 0 then (.uninitialized, sfb, [])
  else
    let started := [.acquire .display]
    if io.allocateBuffer.1 < 0 then (.memoryAllocation, sfb, started)
    else
      let allocated := .acquire (.buffer io.allocateBuffer.2) :: started
      match io.mmap with
      | none => (.sharedMemory, sfb, allocated)
      | some base =>
          let mapped := .acquire (.mapping base (fbSize pageSize width height)) :: allocated
          if io.memrefCreate < 0 then (.sharedMemory, sfb, mapped)
          else
            (.ok, ⟨sfb.fbDb.set 0 (fbDbEntry pageSize width height io base)⟩,
              .acquire (.memref io.memrefCreate) :: mapped)

/-- The destructor.  What the releasing calls return is only logged. -/
def SecureFbMockImpl.destroy (sfb : SecureFbMockImpl) : List (Entry Resource) :=
  let entry := sfb.entry
  let closed := if entry.handle ≠ invalidIpcHandle then [.release (.memref entry.handle)] else []
  [.release .display, .release (.buffer entry.bufInfo),
    .release (.mapping entry.fbInfo.buffer entry.fbInfo.size)] ++ closed

structure Fb where
  bufferId : UInt32
  handleIndex : Nat
  fbInfo : FbInfo
  deriving DecidableEq

structure Buffers where
  fbs : List Fb
  handles : List Int
  deriving DecidableEq

def SecureFbMockImpl.getFbs (sfb : SecureFbMockImpl) : Code × Buffers :=
  (.ok, ⟨[⟨kFbId, 0, sfb.entry.fbInfo⟩], [sfb.entry.handle]⟩)

def SecureFbMockImpl.display (bufferId : UInt32) : Code :=
  if bufferId ≠ kFbId then .invalidRequest else .ok

structure State where
  sessions : AList fun _ : Addr => SecureFbMockImpl

inductive Event
  | init (io : Io)
  | getFbs (sfb : Addr)
  | displayFb (sfb : Addr) (bufferId : UInt32)
  | release (sfb : Addr)
  deriving DecidableEq

inductive Halt
  | useAfterFree (sfb : Addr)
  deriving DecidableEq

inductive Returned
  /-- The handle of `secure_fb_impl_init`; `0` is `NULL`. -/
  | handle (sfb : Addr)
  | buffers (code : Code) (buffers : Buffers)
  | code (code : Code)
  deriving DecidableEq

structure Output where
  returned : Returned
  ledger : List (Entry Resource)
  deriving DecidableEq

def secureFbImplInit (pageSize : Nat) (state : State) (io : Io) : State × Output :=
  match SecureFbMockImpl.init pageSize .new kDeviceWidth kDeviceHeight io with
  | (rc, sfb, ledger) =>
      if rc ≠ .ok then (state, ⟨.handle 0, sfb.destroy ++ ledger⟩)
      else (⟨state.sessions.insert io.sfb sfb⟩, ⟨.handle io.sfb, ledger⟩)

def State.object (state : State) (sfb : Addr) : Except Halt SecureFbMockImpl :=
  match state.sessions.lookup sfb with
  | none => .error (.useAfterFree sfb)
  | some object => .ok object

def secureFbImplGetFbs (state : State) (sfb : Addr) : Except Halt (State × Output) := do
  let object ← state.object sfb
  let (code, buffers) := object.getFbs
  return (state, ⟨.buffers code buffers, []⟩)

def secureFbImplDisplayFb (state : State) (sfb : Addr) (bufferId : UInt32) :
    Except Halt (State × Output) := do
  let _ ← state.object sfb
  return (state, ⟨.code (SecureFbMockImpl.display bufferId), []⟩)

def secureFbImplRelease (state : State) (sfb : Addr) : Except Halt (State × Output) := do
  let object ← state.object sfb
  return (⟨state.sessions.erase sfb⟩, ⟨.code .ok, object.destroy⟩)

def dispatch (pageSize : Nat) (state : State) : Event → Except Halt (State × Output)
  | .init io => .ok (secureFbImplInit pageSize state io)
  | .getFbs sfb => secureFbImplGetFbs state sfb
  | .displayFb sfb bufferId => secureFbImplDisplayFb state sfb bufferId
  | .release sfb => secureFbImplRelease state sfb

/-- A new object is none of the live ones, nothing is mapped at the null pointer, and
the service passes only handles of live sessions. -/
def Enabled (state : State) : Event → Prop
  | .init io => io.sfb ≠ 0 ∧ io.sfb ∉ state.sessions ∧ io.mmap ≠ some 0
  | .getFbs sfb | .displayFb sfb _ | .release sfb => sfb ∈ state.sessions

def secureFb (pageSize : Nat) : System State Event Output Halt where
  initial := ⟨∅⟩
  enabled := Enabled
  handle := dispatch pageSize

end TrustyApp.SecureFb
