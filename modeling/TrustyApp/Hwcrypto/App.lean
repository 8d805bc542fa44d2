import TrustyApp.Hwkey.Service
import TrustyApp.Hwrng.Service
import TrustyApp.Keybox.Service
import TrustyApp.Library.Provenance

/-!
# The hwcrypto application

`main.c`: one event loop dispatches to the HWRNG, HWKEY and keybox services, and the
first two draw from one RNG device.  The device is a stream of bytes; each call of
`hwrng_dev_get_rng_data` takes the next bytes of it.  Beside the bytes the model
keeps the positions they come from, through the same copies as the code makes.
-/

namespace TrustyApp.Hwcrypto

open Hwkey Ipc Provenance

abbrev TaggedByte := Tagged UInt8

inductive Released
  | message (chan : Handle) (bytes : List TaggedByte)
  | token (slot : Nat) (bytes : List TaggedByte)

def Released.bytes : Released → List TaggedByte
  | .message _ bytes => bytes
  | .token _ bytes => bytes

/-- The position of the device, and `rng_data` with the positions of its bytes. -/
structure Device where
  next : Nat
  rngData : List TaggedByte

/-- What a list of actions, newest first, does to the device and hands out.  `lost`
is what a failing call takes from the stream. -/
def observe (stream : Nat → UInt8) (lost : Addr → Nat) :
    List Hwrng.Action → Device → Device × List Released
  | [], device => (device, [])
  | action :: earlier, device =>
      let (device, released) := observe stream lost earlier device
      match action with
      | .drew _ data =>
          (⟨device.next + data.length,
            overwrite device.rngData (draw stream device.next data.length)⟩, released)
      | .drawFailed ctx => ({ device with next := device.next + lost ctx }, released)
      | .sent chan data =>
          (device, .message chan (device.rngData.take data.length) :: released)
      | _ => (device, released)

def Answered (stream : Nat → UInt8) (lost : Addr → Nat) : List Hwrng.Action → Device → Prop
  | [], _ => True
  | .drew _ data :: earlier, device =>
      data = values (draw stream (observe stream lost earlier device).1.next data.length) ∧
        Answered stream lost earlier device
  | _ :: earlier, device => Answered stream lost earlier device

/-- `fillToken` with positions. -/
def fillTagged : List TaggedByte → List TaggedByte → Nat → List TaggedByte × Nat
  | [], token, offset => (token, offset)
  | byte :: rest, token, offset =>
      if offset < hwkeyOpaqueHandleSize - 1 then
        if byte.value ≠ 0 then fillTagged rest (token.set offset byte) (offset + 1)
        else fillTagged rest token offset
      else (token, offset)

/-- `drawToken` with positions, for draws from position `next` on. -/
def drawTagged (stream : Nat → UInt8) :
    Nat → List (Except KernelError RandomBuf) → List TaggedByte → Option (List TaggedByte)
  | _, [], _ => none
  | _, .error _ :: _, _ => none
  | next, .ok buf :: draws, token =>
      let (token, offset) := fillTagged (draw stream next buf.bytes.length) token 0
      if offset = hwkeyOpaqueHandleSize - 1 then some token
      else drawTagged stream (next + buf.bytes.length) draws token

def emptyToken : List TaggedByte := List.replicate hwkeyOpaqueHandleSize ⟨0, none⟩

def AnsweredDraws (stream : Nat → UInt8) : Nat → List (Except KernelError RandomBuf) → Prop
  | _, [] => True
  | next, .error _ :: draws => AnsweredDraws stream next draws
  | next, .ok buf :: draws =>
      buf.bytes = values (draw stream next buf.bytes.length) ∧
        AnsweredDraws stream (next + buf.bytes.length) draws

def consumed : List (Except KernelError RandomBuf) → Nat
  | [] => 0
  | .error _ :: draws => consumed draws
  | .ok buf :: draws => buf.bytes.length + consumed draws

/-- The answers of the device that come with an event.  Those that the request does
not ask for are discarded. -/
def eventDraws : Hwkey.Event → List (Except KernelError RandomBuf)
  | .port _ => []
  | .chan _ _ io => io.env.draws

def releasedTokens (stream : Nat → UInt8) (next : Nat)
    (draws : List (Except KernelError RandomBuf)) (actions : List Hwkey.Action) :
    List Released :=
  actions.filterMap fun action =>
    match action with
    | .issued slot _ => (drawTagged stream next draws emptyToken).map (.token slot)
    | _ => none

structure Setup where
  width : Nat
  provider : Provider
  hwkey : Hwkey.Interface
  keybox : Keybox.Interface
  stream : Nat → UInt8

structure State where
  hwrng : Hwrng.State
  hwkey : Hwkey.State
  keybox : Table Keybox.ChanCtx
  device : Device

/-- An event of one of the services, with what failing calls of the device take from
the stream. -/
inductive Event
  | hwrng (event : Hwrng.Event) (lost : Addr → Nat)
  | hwkey (event : Hwkey.Event) (lost : Nat)
  | keybox (event : Keybox.Event)

inductive Halt
  | hwrng (halt : Hwrng.Halt)
  | hwkey (halt : Hwkey.Halt)
  | keybox (halt : Keybox.Halt)

structure Output where
  hwrng : List Hwrng.Action
  hwkey : List Hwkey.Action
  keybox : List Keybox.Action
  released : List Released

variable (setup : Setup)

def dispatchEvent (state : State) : Event → Except Halt (State × Output)
  | .hwrng event lost =>
      match Hwrng.dispatchEvent setup.width state.hwrng event with
      | .error halt => .error (.hwrng halt)
      | .ok (hwrng, actions) =>
          let (device, released) := observe setup.stream lost actions state.device
          .ok ({ state with hwrng := hwrng, device := device }, ⟨actions, [], [], released⟩)
  | .hwkey event lost =>
      match Hwkey.dispatchEvent setup.provider setup.hwkey state.hwkey event with
      | .error halt => .error (.hwkey halt)
      | .ok (hwkey, actions) =>
          let draws := eventDraws event
          .ok ({ state with
              hwkey := hwkey
              device := { state.device with
                next := state.device.next + consumed draws + lost } },
            ⟨[], actions, [],
              releasedTokens setup.stream state.device.next draws actions⟩)
  | .keybox event =>
      match Keybox.dispatchEvent setup.keybox setup.width state.keybox event with
      | .error halt => .error (.keybox halt)
      | .ok (keybox, actions) => .ok ({ state with keybox := keybox }, ⟨[], [], actions, []⟩)

/-- What the kernel promises each service, and what the device answers. -/
def Enabled (state : State) : Event → Prop
  | .hwrng event lost => Hwrng.Enabled state.hwrng event ∧
      ∀ hwrng actions, Hwrng.dispatchEvent setup.width state.hwrng event = .ok (hwrng, actions) →
        Answered setup.stream lost actions state.device
  | .hwkey event _ => Hwkey.Enabled state.hwkey event ∧
      AnsweredDraws setup.stream state.device.next (eventDraws event)
  | .keybox event => Keybox.Enabled setup.keybox state.keybox event

def app : Reactive.System State Event Output Halt where
  initial := ⟨(Hwrng.service setup.width).initial,
    (Hwkey.service setup.provider setup.hwkey).initial,
    (Keybox.service setup.keybox setup.width).initial,
    ⟨0, List.replicate Hwrng.maxHwrngMsgSize ⟨0, none⟩⟩⟩
  enabled := Enabled setup
  handle := dispatchEvent setup

end TrustyApp.Hwcrypto
