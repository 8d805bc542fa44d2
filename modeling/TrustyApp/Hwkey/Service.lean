import TrustyApp.Hwkey.Handles

/-!
# The HWKEY service

`hwkey_srv.c`: sessions, requests and the two static buffers they share.  The
constants of `interface/hwkey` are parameters.
-/

namespace TrustyApp.Hwkey

open Ipc

structure Interface where
  getKeyslot : UInt32
  derive : UInt32
  respBit : UInt32
  kdfVersionBest : UInt32
  kdfVersion1 : UInt32

def hwkeyMaxPayloadSize : Nat := 2048

structure ChanCtx where
  chan : Handle
  uuid : Uuid
  deriving DecidableEq

structure State where
  conns : Table ChanCtx
  opaqueHandles : List OpaqueHandleNode
  reqData : List UInt8
  keyData : List UInt8

/-- A received message; its payload fits into the space offered to it. -/
structure Request where
  cmd : UInt32
  opId : UInt32
  arg1 : UInt32
  payload : List UInt8
  fits : payload.length ≤ hwkeyMaxPayloadSize

/-- Outcomes of the calls made while one channel event is handled. -/
structure Io where
  recv : Option Request
  /-- What a receive that fails leaves at the start of `req_data`. -/
  stray : { bytes : List UInt8 // bytes.length ≤ hwkeyMaxPayloadSize }
  env : Env
  /-- `tipc_send2` returns no error. -/
  sent : Bool

/-- What handling a message leaves; `sent` is false for a negative `rc`. -/
structure Handled where
  state : State
  actions : List Action
  sent : Bool

def hwkeySendRsp (ifc : Interface) (request : Request) (status : Status) (arg1 : UInt32)
    (data : List UInt8) (len : Nat) : Except Halt Response :=
  if data.length < len then .error .outOfBounds
  else .ok ⟨request.cmd ||| ifc.respBit, request.opId, status, arg1, data.take len⟩

/-- `memset(buf, 0, len)` for a `len` that is not zero. -/
def sanitize (buf : List UInt8) (len : Nat) : List UInt8 :=
  if len ≠ 0 then Bytes.overwrite buf (List.replicate len 0) else buf

variable (provider : Provider) (ifc : Interface)

def hwkeyHandleGetKeyslotCmd (state : State) (ctx : Addr) (chanCtx : ChanCtx)
    (request : Request) (io : Io) : Except Halt Handled := do
  let found ← handleSlots (some provider.keySlots) io.env state.opaqueHandles ctx chanCtx.uuid
    state.reqData state.keyData 0
  let rsp ← hwkeySendRsp ifc request found.out.status request.arg1 found.out.kbuf found.out.klen
  .ok ⟨{ state with
      opaqueHandles := found.handles
      keyData := sanitize found.out.kbuf found.out.klen },
    .responded chanCtx.chan rsp io.sent :: found.actions, io.sent⟩

/-- The derivation function that a request asks for; best is version 1. -/
def kdfVersion (request : Request) : UInt32 :=
  if request.arg1 = ifc.kdfVersionBest then ifc.kdfVersion1 else request.arg1

def deriveKey (state : State) (uuid : Uuid) (request : Request) (ikm : List UInt8) (env : Env) :
    Except Halt KeyOut :=
  if kdfVersion ifc request = ifc.kdfVersion1 then
    (provider.deriveKeyV1 uuid ikm).call env state.keyData state.keyData.length
  else .ok ⟨.errNotImplemented, state.keyData, 0⟩

def hwkeyHandleDeriveKeyCmd (state : State) (chanCtx : ChanCtx) (request : Request)
    (ikm : List UInt8) (io : Io) : Except Halt Handled := do
  let out ← deriveKey provider ifc state chanCtx.uuid request ikm io.env
  let rsp ← hwkeySendRsp ifc request out.status (kdfVersion ifc request) out.kbuf out.klen
  .ok ⟨{ state with keyData := sanitize out.kbuf out.klen },
    [.responded chanCtx.chan rsp io.sent], io.sent⟩

def receiveInto (reqData : List UInt8) (request : Request) : List UInt8 :=
  Bytes.overwrite reqData request.payload

def terminate (reqData : List UInt8) (request : Request) : List UInt8 :=
  reqData.set request.payload.length 0

def hwkeyChanHandleMsg (state : State) (ctx : Addr) (chanCtx : ChanCtx) (io : Io) :
    Except Halt Handled :=
  match io.recv with
  | none =>
      .ok ⟨{ state with reqData := Bytes.overwrite state.reqData io.stray.val }, [], false⟩
  | some request =>
      let received := receiveInto state.reqData request
      if request.cmd = ifc.getKeyslot then
        hwkeyHandleGetKeyslotCmd provider ifc
          { state with reqData := terminate received request } ctx chanCtx request io
      else if request.cmd = ifc.derive then do
        let handled ← hwkeyHandleDeriveKeyCmd provider ifc { state with reqData := received }
          chanCtx request (received.take request.payload.length) io
        .ok { handled with
          state := { handled.state with
            reqData := sanitize handled.state.reqData request.payload.length } }
      else do
        let rsp ← hwkeySendRsp ifc request .errNotImplemented request.arg1 [] 0
        .ok ⟨{ state with reqData := received }, [.responded chanCtx.chan rsp io.sent], io.sent⟩

def load (state : State) (ctx : Addr) : Except Halt ChanCtx :=
  match state.conns.ctxs ctx with
  | none => .error (.useAfterFree ctx)
  | some chanCtx => .ok chanCtx

def hwkeyCtxClose (state : State) (ctx : Addr) : Except Halt (State × List Action) := do
  let chanCtx ← load state ctx
  .ok ({ state with
      conns := (state.conns.close chanCtx.chan).free ctx
      opaqueHandles := deleteHandlesOf ctx state.opaqueHandles },
    [.closed chanCtx.chan])

structure Bits where
  hup : Bool
  msg : Bool

def hwkeyChanHandler (state : State) (ctx : Addr) (handle : Handle) (bits : Bits) (io : Io) :
    Except Halt (State × List Action) := do
  let chanCtx ← load state ctx
  if handle ≠ chanCtx.chan then .error (.assertFailed .chanHandle)
  else if bits.hup then hwkeyCtxClose state ctx
  else if bits.msg then do
    let handled ← hwkeyChanHandleMsg provider ifc state ctx chanCtx io
    if handled.sent then .ok (handled.state, handled.actions)
    else do
      let (closed, actions) ← hwkeyCtxClose handled.state ctx
      .ok (closed, actions ++ handled.actions)
  else .ok (state, [])

def hwkeyPortHandler (state : State) (conn : Connect Uuid) : Except Halt (State × List Action) :=
  match conn.chan with
  | none => .ok (state, [])
  | some chan =>
      let accepted := { state with conns := state.conns.setChan chan .accepted }
      let refused := { accepted with conns := accepted.conns.close chan }
      if ¬ provider.hwkeyClientAllowed conn.peer then .ok (refused, [.closed chan])
      else
        match conn.ctx with
        | none => .ok (refused, [.closed chan])
        | some ctx =>
            let allocated :=
              { accepted with conns := accepted.conns.put ctx ⟨chan, conn.peer⟩ }
            if conn.cookieSet then
              .ok ({ allocated with conns := allocated.conns.setChan chan (.attached ctx) },
                [.opened chan])
            else hwkeyCtxClose allocated ctx

inductive Event
  | port (conn : Connect Uuid)
  | chan (handle : Handle) (bits : Bits) (io : Io)

def Enabled (state : State) : Event → Prop
  | .port conn => conn.Offered state.conns
  | .chan handle _ _ => ∃ ctx, state.conns.chans handle = .attached ctx

def dispatchEvent (state : State) : Event → Except Halt (State × List Action)
  | .port conn => hwkeyPortHandler provider state conn
  | .chan handle bits io =>
      match state.conns.chans handle with
      | .attached ctx => hwkeyChanHandler provider ifc state ctx handle bits io
      | _ => .ok ({ state with conns := state.conns.close handle }, [.closed handle])

/-- The HWKEY service as an event-driven system, started with its keys installed. -/
def service : Reactive.System State Event (List Action) Halt where
  initial := ⟨.empty, [], List.replicate (hwkeyMaxPayloadSize + 1) 0,
    List.replicate hwkeyMaxPayloadSize 0⟩
  enabled := Enabled
  handle := dispatchEvent provider ifc

end TrustyApp.Hwkey
