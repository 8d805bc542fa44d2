import TrustyApp.Hwcrypto.Randomness
import TrustyApp.Keybox.Contexts
import TrustyApp.Library.Refinement

/-!
# The main loop

`main.c` starts the three services and dispatches each event through the cookie of its
handle.  The services share one space of handles and one heap, and a cookie is only a
pointer: which service an event reaches is decided by what lies at that address.
-/

namespace TrustyApp.Hwcrypto.Main

open Ipc Reactive

inductive Service
  | hwrng
  | hwkey
  | keybox
  deriving DecidableEq

def Service.all : List Service := [.hwrng, .hwkey, .keybox]

/-- A pointer to a `struct tipc_event_handler`: the static one of a port, or the one a
channel context starts with. -/
inductive Cookie
  | port (service : Service)
  | ctx (addr : Addr)

inductive PortState
  | closed
  /-- `set_cookie` has failed, which was ignored. -/
  | bare
  | registered (service : Service)
  deriving DecidableEq

structure Process where
  services : Hwcrypto.State
  ports : Handle → PortState

structure PortCalls where
  created : Option Handle
  cookieSet : Bool

def register (ports : Handle → PortState) (service : Service) (port : Handle)
    (cookieSet : Bool) : Handle → PortState :=
  Function.update ports port (if cookieSet then .registered service else .bare)

/-- `hwrng_start_service`; there is no result if it fails. -/
def hwrngStartService (ports : Handle → PortState) (calls : PortCalls) (devInit : Bool) :
    Option (Handle → PortState) :=
  match calls.created with
  | none => none
  | some port => if devInit then some (register ports .hwrng port calls.cookieSet) else none

/-- `hwkey_start_service`, which closes its port if the cookie cannot be set. -/
def hwkeyStartService (ports : Handle → PortState) (calls : PortCalls) :
    Option (Handle → PortState) :=
  match calls.created with
  | none => none
  | some port => if calls.cookieSet then some (register ports .hwkey port true) else none

/-- `hwkey_init_srv_provider`: a failed self test aborts, a service that cannot be
started does not stop the others. -/
def hwkeyInitSrvProvider (ports : Handle → PortState) (selfTest : Bool) (calls : PortCalls) :
    Option (Handle → PortState) :=
  if selfTest then some ((hwkeyStartService ports calls).getD ports) else none

def keyboxStartService (ports : Handle → PortState) (calls : PortCalls) :
    Option (Handle → PortState) :=
  match calls.created with
  | none => none
  | some port => some (register ports .keybox port calls.cookieSet)

structure StartCalls where
  hwrng : PortCalls
  devInit : Bool
  selfTest : Bool
  hwkey : PortCalls
  keybox : PortCalls

/-- `main` up to the event loop. -/
def start (calls : StartCalls) : Option (Handle → PortState) := do
  let ports ← hwrngStartService (fun _ => .closed) calls.hwrng calls.devInit
  let ports ← hwkeyInitSrvProvider ports calls.selfTest calls.hwkey
  keyboxStartService ports calls.keybox

def chanState (state : Hwcrypto.State) : Service → Handle → ChanState
  | .hwrng => state.hwrng.conns.chans
  | .hwkey => state.hwkey.conns.chans
  | .keybox => state.keybox.chans

def hasCtx (state : Hwcrypto.State) : Service → Addr → Bool
  | .hwrng, a => (state.hwrng.conns.ctxs a).isSome
  | .hwkey, a => (state.hwkey.conns.ctxs a).isSome
  | .keybox, a => (state.keybox.ctxs a).isSome

def attachedCtx : ChanState → Option Addr
  | .attached a => some a
  | _ => none

/-- The cookie that the kernel reports with an event. -/
def cookie (process : Process) (handle : Handle) : Option Cookie :=
  match process.ports handle with
  | .registered service => some (.port service)
  | .bare => none
  | .closed =>
      (Service.all.findSome? fun service =>
        attachedCtx (chanState process.services service handle)).map .ctx

/-- The service whose handler stands in the context at an address. -/
def owner (state : Hwcrypto.State) (a : Addr) : Option Service :=
  Service.all.find? fun service => hasCtx state service a

structure Poll where
  ready : Bool
  hup : Bool
  sendUnblocked : Bool
  msg : Bool
  deriving DecidableEq

def Poll.none : Poll := ⟨false, false, false, false⟩

structure Uevent where
  handle : Handle
  poll : Poll
  conn : Connect Hwkey.Uuid
  hwrng : Hwrng.Io
  hwkey : Hwkey.Io
  keybox : Keybox.Io
  /-- What failing calls of the device take from its stream. -/
  lost : Addr → Nat
  lostForToken : Nat

/-- The HWRNG and keybox services do not look at the peer. -/
def anonymous (conn : Connect Hwkey.Uuid) : Connect Unit :=
  ⟨conn.chan, (), conn.ctx, conn.cookieSet⟩

inductive Halt
  | service (halt : Hwcrypto.Halt)
  | useAfterFree (cookie : Addr)

structure Output where
  services : Hwcrypto.Output
  closed : Option Handle

def noOutput : Output := ⟨⟨[], [], [], []⟩, none⟩

variable (setup : Setup)

def callPort (state : Hwcrypto.State) (event : Uevent) :
    Service → Except Hwcrypto.Halt (Hwcrypto.State × Hwcrypto.Output)
  | .hwrng =>
      let (hwrng, actions) := Hwrng.hwrngPortHandler state.hwrng (anonymous event.conn)
      let (device, released) := observe setup.stream event.lost actions state.device
      .ok ({ state with hwrng := hwrng, device := device }, ⟨actions, [], [], released⟩)
  | .hwkey =>
      match Hwkey.hwkeyPortHandler setup.provider state.hwkey event.conn with
      | .error halt => .error (.hwkey halt)
      | .ok (hwkey, actions) => .ok ({ state with hwkey := hwkey }, ⟨[], actions, [], []⟩)
  | .keybox =>
      let (keybox, actions) := Keybox.keyboxPortHandler state.keybox (anonymous event.conn)
      .ok ({ state with keybox := keybox }, ⟨[], [], actions, []⟩)

def callChan (state : Hwcrypto.State) (event : Uevent) (ctx : Addr) :
    Service → Except Hwcrypto.Halt (Hwcrypto.State × Hwcrypto.Output)
  | .hwrng =>
      match Hwrng.hwrngChanHandler setup.width state.hwrng ctx event.handle
          ⟨event.poll.hup, event.poll.sendUnblocked, event.poll.msg⟩ event.hwrng with
      | .error halt => .error (.hwrng halt)
      | .ok (hwrng, actions) =>
          let (device, released) := observe setup.stream event.lost actions state.device
          .ok ({ state with hwrng := hwrng, device := device }, ⟨actions, [], [], released⟩)
  | .hwkey =>
      match Hwkey.hwkeyChanHandler setup.provider setup.hwkey state.hwkey ctx event.handle
          ⟨event.poll.hup, event.poll.msg⟩ event.hwkey with
      | .error halt => .error (.hwkey halt)
      | .ok (hwkey, actions) =>
          let draws := event.hwkey.env.draws
          .ok ({ state with
              hwkey := hwkey
              device := { state.device with
                next := state.device.next + consumed draws + event.lostForToken } },
            ⟨[], actions, [],
              releasedTokens setup.stream state.device.next draws actions⟩)
  | .keybox =>
      match Keybox.keyboxChanHandler setup.keybox setup.width state.keybox ctx event.handle
          event.poll.msg event.poll.hup event.keybox with
      | .error halt => .error (.keybox halt)
      | .ok (keybox, actions) => .ok ({ state with keybox := keybox }, ⟨[], [], actions, []⟩)

def done (process : Process) :
    Except Hwcrypto.Halt (Hwcrypto.State × Hwcrypto.Output) → Except Halt (Process × Output)
  | .error halt => .error (.service halt)
  | .ok (services, output) => .ok ({ process with services := services }, ⟨output, none⟩)

def closePort (process : Process) (handle : Handle) : Process :=
  { process with ports := Function.update process.ports handle .closed }

def dispatchEvent (process : Process) (event : Uevent) : Except Halt (Process × Output) :=
  if event.poll = .none then .ok (process, noOutput)
  else
    match cookie process event.handle with
    | some (.port service) =>
        if event.poll.ready then done process (callPort setup process.services event service)
        else .ok (process, noOutput)
    | some (.ctx a) =>
        match owner process.services a with
        | none => .error (.useAfterFree a)
        | some service => done process (callChan setup process.services event a service)
    | none => .ok (closePort process event.handle, { noOutput with closed := some event.handle })

/-- What the kernel promises about an event, whichever handler it may reach: new handles
and addresses are not in use by any service, and the device delivers its stream. -/
structure Enabled (process : Process) (event : Uevent) : Prop where
  chan : ∀ h, event.conn.chan = some h → process.ports h = .closed ∧
    ∀ service, chanState process.services service h = .closed
  ctx : ∀ a, event.conn.ctx = some a → ∀ service, hasCtx process.services service a = false
  rng : ∀ post output, dispatchEvent setup process event = .ok (post, output) →
    Answered setup.stream event.lost output.services.hwrng process.services.device
  draws : AnsweredDraws setup.stream process.services.device.next event.hwkey.env.draws
  keybox : event.keybox.Fits setup.keybox

def main (ports : Handle → PortState) : System Process Uevent Output Halt where
  initial := ⟨(app setup).initial, ports⟩
  enabled := Enabled setup
  handle := dispatchEvent setup

end TrustyApp.Hwcrypto.Main
