import TrustyApp.Library.Bytes
import TrustyApp.Library.Ipc
import TrustyApp.Library.Reactive
import TrustyApp.Library.SafeWalk

/-!
# The HWRNG service

`hwrng_srv.c`: every channel has at most one pending request, which later requests
of the channel extend, and each event ends with one pass over the pending
requests.  A pass serves a request with at most one message; the random bytes of
all channels go through one static buffer.
-/

namespace TrustyApp.Hwrng

open Ipc

def maxHwrngMsgSize : Nat := 4096

/-- `struct hwrng_chan_ctx`; membership in the request list stands for its node. -/
structure ChanCtx where
  chan : Handle
  reqSize : Nat
  sendBlocked : Bool
  deriving DecidableEq

structure State where
  conns : Table ChanCtx
  hwrngReqList : List Addr
  rngData : List UInt8

inductive Halt
  | useAfterFree (ctx : Addr)
  | unlinkedNode (ctx : Addr)
  | assertFailed
  deriving DecidableEq

inductive Action
  | opened (chan : Handle)
  | received (chan : Handle) (len : Nat)
  | drew (ctx : Addr) (data : List UInt8)
  | drawFailed (ctx : Addr)
  | sent (chan : Handle) (data : List UInt8)
  | sendBlocked (chan : Handle)
  | closed (chan : Handle)
  deriving DecidableEq

/-- Result of `tipc_send1`: `rc >= 0`, `ERR_NOT_ENOUGH_BUFFER`, or another error. -/
inductive SendResult
  | sent
  | notEnoughBuffer
  | failed
  deriving DecidableEq

/-- Outcomes of the calls made while one channel event is handled.  A pass calls
the RNG device and the channel at most once for a context, so their outcomes are
given by context; the device delivers a stream of bytes or fails. -/
structure Io where
  recv : Option UInt32
  rng : Addr → Option (Nat → UInt8)
  send : Addr → SendResult

def load (state : State) (ctx : Addr) : Except Halt ChanCtx :=
  match state.conns.ctxs ctx with
  | none => .error (.useAfterFree ctx)
  | some chanCtx => .ok chanCtx

def State.store (state : State) (ctx : Addr) (chanCtx : ChanCtx) : State :=
  { state with conns := state.conns.put ctx chanCtx }

/-- `list_delete`; nothing changes for a node that is not linked. -/
def State.unlink (state : State) (ctx : Addr) : State :=
  { state with hwrngReqList := state.hwrngReqList.erase ctx }

def hwrngCloseChan (state : State) (ctx : Addr) : Except Halt (State × List Action) := do
  let chanCtx ← load state ctx
  let closed := { state with conns := state.conns.close chanCtx.chan }
  let unlinked := if ctx ∈ closed.hwrngReqList then closed.unlink ctx else closed
  .ok ({ unlinked with conns := unlinked.conns.free ctx }, [.closed chanCtx.chan])

def ChanCtx.replyLen (chanCtx : ChanCtx) : Nat :=
  if chanCtx.reqSize > maxHwrngMsgSize then maxHwrngMsgSize else chanCtx.reqSize

/-- One round of the loop in `hwrng_handle_req_queue`: the state, what was done
(newest first) and whether the context needs more. -/
def serveRequest (io : Io) (state : State) (ctx : Addr) :
    Except Halt (State × List Action × Bool) := do
  let chanCtx ← load state ctx
  if chanCtx.sendBlocked then .ok (state, [], false)
  else
    let len := chanCtx.replyLen
    match io.rng ctx with
    | none => do
        let (state, closed) ← hwrngCloseChan state ctx
        .ok (state, closed ++ [.drawFailed ctx], false)
    | some stream =>
        let drawn := (List.range len).map stream
        let state := { state with rngData := Bytes.overwrite state.rngData drawn }
        match io.send ctx with
        | .notEnoughBuffer =>
            .ok (state.store ctx { chanCtx with sendBlocked := true },
              [.sendBlocked chanCtx.chan, .drew ctx drawn], false)
        | .failed => do
            let (state, closed) ← hwrngCloseChan state ctx
            .ok (state, closed ++ [.drew ctx drawn], false)
        | .sent =>
            -- `len` is at most `req_size`, the subtraction does not wrap
            let served := { chanCtx with reqSize := chanCtx.reqSize - len }
            let actions := [.sent chanCtx.chan (state.rngData.take len), .drew ctx drawn]
            if served.reqSize = 0 then
              .ok ((state.store ctx served).unlink ctx, actions, false)
            else .ok (state.store ctx served, actions, true)

structure Pass where
  state : State
  actions : List Action
  needMore : Bool

def Pass.serve (io : Io) (pass : Pass) (ctx : Addr) : Except Halt Pass := do
  let (state, actions, more) ← serveRequest io pass.state ctx
  .ok ⟨state, actions ++ pass.actions, more || pass.needMore⟩

def hwrngHandleReqQueue (io : Io) (state : State) (actions : List Action) : Except Halt Pass :=
  SafeWalk.forEverySafe (fun pass => pass.state.hwrngReqList) .unlinkedNode (Pass.serve io)
    ⟨state, actions, false⟩

/-- The result of the pass, `need_more`, is dropped. -/
def hwrngKickReqQueue (io : Io) (state : State) (actions : List Action) :
    Except Halt (State × List Action) := do
  let pass ← hwrngHandleReqQueue io state actions
  .ok (pass.state, pass.actions)

/-- `hwrng_chan_handle_msg` after a successful receive.  `width` is the size of
`size_t` in bits. -/
def queueRequest (width : Nat) (state : State) (ctx : Addr) (chanCtx : ChanCtx) (len : UInt32) :
    State :=
  if ctx ∈ state.hwrngReqList then
    state.store ctx { chanCtx with reqSize := (chanCtx.reqSize + len.toNat) % 2 ^ width }
  else
    { state.store ctx { chanCtx with reqSize := len.toNat % 2 ^ width } with
      hwrngReqList := state.hwrngReqList ++ [ctx] }

structure Bits where
  hup : Bool
  sendUnblocked : Bool
  msg : Bool

def hwrngChanHandleMsg (width : Nat) (state : State) (ctx : Addr) (io : Io) :
    Except Halt (Option (State × List Action)) := do
  let chanCtx ← load state ctx
  match io.recv with
  | none => .ok none
  | some len =>
      .ok (some (queueRequest width state ctx chanCtx len,
        [.received chanCtx.chan len.toNat]))

/-- `hwrng_chan_handler` up to the kick of the request queue. -/
def prepareChan (width : Nat) (state : State) (ctx : Addr) (handle : Handle) (bits : Bits)
    (io : Io) : Except Halt (State × List Action) := do
  let chanCtx ← load state ctx
  if handle ≠ chanCtx.chan then .error .assertFailed
  else if bits.hup then hwrngCloseChan state ctx
  else
    let state :=
      if bits.sendUnblocked then state.store ctx { chanCtx with sendBlocked := false } else state
    if bits.msg then
      match ← hwrngChanHandleMsg width state ctx io with
      | none => hwrngCloseChan state ctx
      | some queued => .ok queued
    else .ok (state, [])

def hwrngChanHandler (width : Nat) (state : State) (ctx : Addr) (handle : Handle) (bits : Bits)
    (io : Io) : Except Halt (State × List Action) := do
  let (state, actions) ← prepareChan width state ctx handle bits io
  hwrngKickReqQueue io state actions

def hwrngPortHandler (state : State) (conn : Connect Unit) : State × List Action :=
  ({ state with conns := state.conns.connect (⟨·, 0, false⟩) conn },
    match conn.established with
    | none => []
    | some (chan, _) => [.opened chan])

inductive Event
  | port (conn : Connect Unit)
  | chan (handle : Handle) (bits : Bits) (io : Io)

def Enabled (state : State) : Event → Prop
  | .port conn => conn.Offered state.conns
  | .chan handle _ _ => ∃ ctx, state.conns.chans handle = .attached ctx

def dispatchEvent (width : Nat) (state : State) : Event → Except Halt (State × List Action)
  | .port conn => .ok (hwrngPortHandler state conn)
  | .chan handle bits io =>
      match state.conns.chans handle with
      | .attached ctx => hwrngChanHandler width state ctx handle bits io
      | _ => .ok ({ state with conns := state.conns.close handle }, [.closed handle])

def service (width : Nat) : Reactive.System State Event (List Action) Halt where
  initial := ⟨.empty, [], List.replicate maxHwrngMsgSize 0⟩
  enabled := Enabled
  handle := dispatchEvent width

end TrustyApp.Hwrng
