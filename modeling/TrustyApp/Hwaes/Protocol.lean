import TrustyApp.Hwaes.OpaqueKeys
import TrustyApp.Library.Refinement

/-!
# Requests with handles, call by call

While `hwaes_aes_op` waits for the HWKEY service, that service goes on serving its other
clients.  Here the function is taken apart at its calls of the client library; anything
the HWKEY service does may come in between.
-/

namespace TrustyApp.Hwaes.Protocol

open Reactive
open Hwkey (Action BuildConfig Response fakeProvider hwaesUuid)
open Ipc (Addr Connect Handle)

structure Setup where
  evp : Evp.Library
  ifc : Interface
  build : BuildConfig
  hwkeyIfc : Hwkey.Interface

def Setup.hwkey (setup : Setup) : System Hwkey.State Hwkey.Event (List Action) Hwkey.Halt :=
  Hwkey.service (fakeProvider setup.build) setup.hwkeyIfc

/-- The call that `hwaes_aes_op` is in. -/
inductive Phase
  | idle
  /-- `hwkey_open` -/
  | opening (args : Args)
  /-- `hwkey_get_keyslot_data` over the session on `chan` -/
  | asking (args : Args) (chan : Handle)
  /-- `hwkey_close`, with the key if there is one -/
  | closing (args : Args) (key : Option (List UInt8))

inductive Event
  | request (args : Args)
  | openFailed
  | connect (conn : Connect Hwkey.Uuid)
  /-- The session fails before the HWKEY service has seen the request. -/
  | lost
  /-- The HWKEY service handles the request; whether its response is sent and read. -/
  | ask (opId arg1 : UInt32) (env : Hwkey.Env) (sent read : Bool)
  | close
  | hwkey (event : Hwkey.Event)

/-- The message of `hwkey_get_keyslot_data`; a message that is too long is not received. -/
def askIo (ifc : Hwkey.Interface) (id : List UInt8) (opId arg1 : UInt32) (env : Hwkey.Env)
    (sent : Bool) : Hwkey.Io :=
  ⟨if fits : id.length ≤ Hwkey.hwkeyMaxPayloadSize then
      some ⟨ifc.getKeyslot, opId, arg1, id, fits⟩
    else none, ⟨[], Nat.zero_le _⟩, env, sent⟩

def hwkeyEvent? (setup : Setup) : Phase → Event → Option Hwkey.Event
  | _, .connect conn => some (.port conn)
  | .asking args chan, .ask opId arg1 env sent _ =>
      some (.chan chan ⟨false, true⟩ (askIo setup.hwkeyIfc args.handle opId arg1 env sent))
  | _, .hwkey event => some event
  | _, _ => none

def openedChan? : Action → Option Handle
  | .opened chan => some chan
  | _ => none

def delivered? : Action → Option Response
  | .responded _ rsp sent => if sent then some rsp else none
  | _ => none

def keyIn (room : Nat) (rsp : Response) : Option (List UInt8) :=
  if rsp.status = .noError ∧ rsp.payload.length ≤ room then some rsp.payload else none

def answer (room : Nat) (actions : List Action) (read : Bool) : Option (List UInt8) :=
  if read then (actions.findSome? delivered?).bind (keyIn room) else none

inductive Progress
  | wait (phase : Phase)
  | finish (args : Args) (client : HwkeyClient)

structure AsksForKey (ifc : Interface) (args : Args) : Prop where
  checked : checkArgs args = .noError
  holds : HoldsHandle ifc args

instance (ifc : Interface) (args : Args) : Decidable (HoldsHandle ifc args) :=
  decidable_of_iff (args.keyType = .opaqueHandle ∧ args.key.len ≤ ifc.opaqueHandleMaxSize ∧
    args.key.bytes.getLast? = some 0)
    ⟨fun ⟨keyType, short, terminated⟩ => ⟨keyType, short, terminated⟩,
      fun holds => ⟨holds.keyType, holds.short, holds.terminated⟩⟩

instance (ifc : Interface) (args : Args) : Decidable (AsksForKey ifc args) :=
  decidable_of_iff (checkArgs args = .noError ∧ HoldsHandle ifc args)
    ⟨fun both => ⟨both.1, both.2⟩, fun asks => ⟨asks.checked, asks.holds⟩⟩

/-- The client library when a call of it failed, or is not made. -/
def noSession : HwkeyClient := ⟨false, fun _ _ => none⟩

def advance (ifc : Interface) (actions : List Action) : Phase → Event → Progress
  | .idle, .request args =>
      if AsksForKey ifc args then .wait (.opening args) else .finish args noSession
  | .opening args, .openFailed => .finish args noSession
  | .opening args, .connect _ =>
      match actions.findSome? openedChan? with
      | some chan => .wait (.asking args chan)
      | none => .wait (.opening args)
  | .opening args, .lost => .wait (.closing args none)
  | .asking args _, .lost => .wait (.closing args none)
  | .asking args _, .ask _ _ _ _ read =>
      .wait (.closing args (answer ifc.aesKeyMaxSize actions read))
  | .closing args key, .close => .finish args ⟨true, fun _ _ => key⟩
  | phase, _ => .wait phase

structure State (setup : Setup) where
  hwkey : Hwkey.State
  phase : Phase
  ctx : setup.evp.Ctx

inductive Halt
  | hwkey (halt : Hwkey.Halt)
  | hwaes (halt : Hwaes.Halt)

structure Output (setup : Setup) where
  hwkey : List Action
  op : Option (Op setup.evp)

variable (setup : Setup)

/-- The channel of the session belongs to the HWAES service alone. -/
def Enabled (state : State setup) : Event → Prop
  | .request _ => state.phase = .idle
  | .openFailed => ∃ args, state.phase = .opening args
  | .connect conn => (∃ args, state.phase = .opening args) ∧ conn.peer = hwaesUuid ∧
      conn.Offered state.hwkey.conns
  | .lost => ∃ args, state.phase = .opening args ∨ ∃ chan, state.phase = .asking args chan
  | .ask _ _ _ _ _ => ∃ args chan, state.phase = .asking args chan
  | .close => ∃ args key, state.phase = .closing args key
  | .hwkey event => Hwkey.Enabled state.hwkey event ∧ ∀ args chan bits io,
      state.phase = .asking args chan → event ≠ .chan chan bits io

def serve (state : State setup) (event : Event) : Except Halt (Hwkey.State × List Action) :=
  match hwkeyEvent? setup state.phase event with
  | none => .ok (state.hwkey, [])
  | some hwkeyEvent =>
      match setup.hwkey.handle state.hwkey hwkeyEvent with
      | .error halt => .error (.hwkey halt)
      | .ok served => .ok served

def resume (ctx : setup.evp.Ctx) (hwkey : Hwkey.State) (actions : List Action) :
    Progress → Except Halt (State setup × Output setup)
  | .wait phase => .ok (⟨hwkey, phase, ctx⟩, ⟨actions, none⟩)
  | .finish args client =>
      match hwaesAesOp setup.ifc client ctx args with
      | .error halt => .error (.hwaes halt)
      | .ok op => .ok (⟨hwkey, .idle, op.ctx⟩, ⟨actions, some op⟩)

def dispatch (state : State setup) (event : Event) :
    Except Halt (State setup × Output setup) := do
  let (hwkey, actions) ← serve setup state event
  resume setup state.ctx hwkey actions (advance setup.ifc actions state.phase event)

def services : System (State setup) Event (Output setup) Halt where
  initial := ⟨setup.hwkey.initial, .idle, setup.evp.new⟩
  enabled := Enabled setup
  handle := dispatch setup

end TrustyApp.Hwaes.Protocol
