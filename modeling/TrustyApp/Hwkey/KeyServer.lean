import TrustyApp.Hwkey.Access
import TrustyApp.Hwkey.TokenDraws

/-!
# A key server

What the HWKEY service is for, without its memory: sessions of clients, and the tokens
they were granted.  There are no contexts, no list that is walked, no buffers that
requests share, and no token that is filled byte by byte.
-/

namespace TrustyApp.Hwkey

open Ipc Reactive

structure Grant where
  slot : Nat
  holder : Handle
  token : AccessToken
  deriving DecidableEq

/-- The clients by their channels, and their grants, the oldest first. -/
structure KeyServer where
  sessions : Handle → Option Uuid
  grants : List Grant

structure Reply where
  status : Status
  payload : List UInt8
  deriving DecidableEq

structure Served where
  reply : Reply
  grants : List Grant
  actions : List Action

def mayUse (slots : List KeySlot) (uuid : Uuid) (slot : Nat) : Bool :=
  match opaqueData slots slot with
  | none => false
  | some handle => decide (uuid ∈ handle.allowedUuids)

/-- The key that a function yields, in a buffer of its own. -/
def KeyFn.reply (fn : KeyFn) (env : Env) (klen : Nat) : Except Halt Reply := do
  let out ← fn.call env (List.replicate hwkeyMaxPayloadSize 0) klen
  .ok ⟨out.status, out.kbuf.take out.klen⟩

/-- The token of the first draw that has enough for one. -/
def firstToken : List (Except KernelError RandomBuf) → Except Halt (Except KernelError AccessToken)
  | [] => .error .drawing
  | .error rc :: _ => .ok (.error rc)
  | .ok buf :: draws =>
      if sufficient : buf.Sufficient then .ok (.ok (buf.accessToken sufficient))
      else firstToken draws

variable (provider : Provider) (ifc : Interface)

def KeyServer.redeem (server : KeyServer) (uuid : Uuid) (id : List UInt8) :
    Option (Nat × KeyFn) :=
  (Grants.redeem (fun grant => mayUse provider.keySlots uuid grant.slot)
      (fun grant => grant.token.chars) id server.grants).bind fun grant =>
    (opaqueData provider.keySlots grant.slot).map fun handle => (grant.slot, handle.retriever)

def KeyServer.grant (server : KeyServer) (chan : Handle) (slot : Nat) (env : Env) :
    Except Halt Served :=
  if server.grants.any (·.slot = slot) then
    .ok ⟨⟨.errAlreadyExists, []⟩, server.grants, []⟩
  else if ¬ env.calloc then .ok ⟨⟨.errGeneric, []⟩, server.grants, []⟩
  else do
    match ← firstToken env.draws with
    | .error rc => .ok ⟨⟨.kernel rc, []⟩, server.grants, []⟩
    | .ok token =>
        .ok ⟨⟨.noError, token.bytes⟩, server.grants ++ [⟨slot, chan, token⟩],
          [.issued slot token]⟩

/-- A key by its id: the slot of that name, or else what a token stands for. -/
def KeyServer.getKeyslot (server : KeyServer) (chan : Handle) (uuid : Uuid) (id : List UInt8)
    (env : Env) : Except Halt Served :=
  match namedSlot provider.keySlots uuid id with
  | some (slot, .getKeyHandle _) => server.grant chan slot env
  | some (_, .other fn) => do
      let reply ← fn.reply env 0
      .ok ⟨reply, server.grants, []⟩
  | none =>
      match server.redeem provider uuid id with
      | some (slot, retriever) => do
          let reply ← retriever.reply env 0
          .ok ⟨reply, server.grants, [.retrieved slot]⟩
      | none => .ok ⟨⟨.errNotFound, []⟩, server.grants, []⟩

def KeyServer.derive (server : KeyServer) (uuid : Uuid) (request : Request) (env : Env) :
    Except Halt Served :=
  if kdfVersion ifc request = ifc.kdfVersion1 then do
    let reply ← (provider.deriveKeyV1 uuid request.payload).reply env hwkeyMaxPayloadSize
    .ok ⟨reply, server.grants, []⟩
  else .ok ⟨⟨.errNotImplemented, []⟩, server.grants, []⟩

def KeyServer.serve (server : KeyServer) (chan : Handle) (uuid : Uuid) (request : Request)
    (env : Env) : Except Halt (Served × UInt32) :=
  if request.cmd = ifc.getKeyslot then do
    let served ← server.getKeyslot provider chan uuid request.id env
    .ok (served, request.arg1)
  else if request.cmd = ifc.derive then do
    let served ← server.derive provider ifc uuid request env
    .ok (served, kdfVersion ifc request)
  else .ok (⟨⟨.errNotImplemented, []⟩, server.grants, []⟩, request.arg1)

def KeyServer.open (server : KeyServer) (chan : Handle) (uuid : Uuid) : KeyServer :=
  { server with sessions := Function.update server.sessions chan (some uuid) }

/-- The grants of a session end with it. -/
def KeyServer.close (server : KeyServer) (chan : Handle) : KeyServer where
  sessions := Function.update server.sessions chan none
  grants := Grants.revoke Grant.holder chan server.grants

def Request.respond (request : Request) (reply : Reply) (arg1 : UInt32) : Response :=
  ⟨request.cmd ||| ifc.respBit, request.opId, reply.status, arg1, reply.payload⟩

/-- A client whose request cannot be received, or who does not get its response, loses
its session. -/
def KeyServer.message (server : KeyServer) (chan : Handle) (uuid : Uuid) (io : Io) :
    Except Halt (KeyServer × List Action) :=
  match io.recv with
  | none => .ok (server.close chan, [.closed chan])
  | some request => do
      let (served, arg1) ← server.serve provider ifc chan uuid request io.env
      let answered : KeyServer := { server with grants := served.grants }
      let actions := .responded chan (request.respond ifc served.reply arg1) io.sent ::
        served.actions
      if io.sent then .ok (answered, actions)
      else .ok (answered.close chan, .closed chan :: actions)

/-- A connection becomes a session if everything it needs can be set up. -/
def KeyServer.connect (server : KeyServer) (conn : Connect Uuid) : KeyServer × List Action :=
  match conn.chan with
  | none => (server, [])
  | some chan =>
      if provider.hwkeyClientAllowed conn.peer ∧ conn.ctx.isSome ∧ conn.cookieSet then
        (server.open chan conn.peer, [.opened chan])
      else (server, [.closed chan])

def KeyServer.react (server : KeyServer) : Event → Except Halt (KeyServer × List Action)
  | .port conn => .ok (server.connect provider conn)
  | .chan chan bits io =>
      match server.sessions chan with
      | none => .ok (server, [.closed chan])
      | some uuid =>
          if bits.hup then .ok (server.close chan, [.closed chan])
          else if bits.msg then server.message provider ifc chan uuid io
          else .ok (server, [])

def KeyServer.Enabled (server : KeyServer) : Event → Prop
  | .port conn => ∀ chan, conn.chan = some chan → server.sessions chan = none
  | .chan chan _ _ => server.sessions chan ≠ none

def keyServer : System KeyServer Event (List Action) Halt where
  initial := ⟨fun _ => none, []⟩
  enabled := KeyServer.Enabled
  handle server event := server.react provider ifc event

end TrustyApp.Hwkey
