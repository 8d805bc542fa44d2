import TrustyApp.Library.Bytes
import TrustyApp.Library.Ipc
import TrustyApp.Library.Reactive

/-!
# The keybox service

`keybox.c` unwraps a keybox, `srv.c` serves it over a channel.  The constants and
structures of `interface/keybox` are not part of the repository: the constants
are parameters, and a received message is given as its header and the bytes that
follow.
-/

namespace TrustyApp.Keybox

open Ipc

/-- `enum keybox_status`; only `KEYBOX_STATUS_SUCCESS` is zero. -/
inductive Status
  | success
  | invalidRequest
  | unwrapFail
  | internalError
  deriving DecidableEq

structure Interface where
  cmdUnwrap : UInt32
  cmdRspBit : UInt32
  /-- `KEYBOX_MAX_SIZE` -/
  maxSize : Nat

inductive Halt
  | useAfterFree (ctx : Addr)
  | assertFailed
  | outOfBounds
  deriving DecidableEq

/-- `keybox_unwrap`: the status, the plaintext buffer and `*keybox_plaintext_len`
afterwards.  `wrapped` is the memory behind the pointer, of which `len` bytes are
to be read. -/
def keyboxUnwrap (wrapped : List UInt8) (len : Nat) (plaintext : List UInt8)
    (plaintextLen : Nat) : Except Halt (Status × List UInt8 × Nat) :=
  if len < 1 then .ok (.invalidRequest, plaintext, plaintextLen)
  else if plaintext.length < len - 1 then .ok (.invalidRequest, plaintext, plaintextLen)
  else if wrapped.length < len then .error .outOfBounds
  else
    let checksum := (wrapped.take (len - 1)).foldl (· ^^^ ·) 0
    if wrapped[len - 1]? ≠ some checksum then .ok (.unwrapFail, plaintext, plaintextLen)
    else
      .ok (.success,
        Bytes.overwrite plaintext ((wrapped.take (len - 1)).map (· ^^^ 0x42)), len - 1)

def unwrapHeaderSize : Nat := 8

def le : List UInt8 → Nat
  | [] => 0
  | byte :: rest => byte.toNat + 256 * le rest

/-- A response: the header, and for a success the unwrap header with the payload. -/
structure Rsp where
  cmd : UInt32
  status : Status
  unwrapped : Option (Nat × List UInt8)
  deriving DecidableEq

/-- `keybox_handle_unwrap` up to the send.  `width` is the size of `size_t` in
bits; the unwrapped length is stored through a `size_t` pointer into a zeroed
64-bit field. -/
def keyboxHandleUnwrap (ifc : Interface) (width : Nat) (req : List UInt8) (reqSize : Nat)
    (output : List UInt8) : Except Halt Rsp :=
  let rsp (status : Status) : Rsp := ⟨ifc.cmdUnwrap ||| ifc.cmdRspBit, status, none⟩
  if reqSize < unwrapHeaderSize then .ok (rsp .invalidRequest)
  else
    let wrappedKeyboxLen := le (req.take unwrapHeaderSize)
    let computedSize := wrappedKeyboxLen + unwrapHeaderSize
    if 2 ^ 64 ≤ computedSize then .ok (rsp .invalidRequest)
    else if computedSize ≠ reqSize then .ok (rsp .invalidRequest)
    else
      match keyboxUnwrap (req.drop unwrapHeaderSize) (wrappedKeyboxLen % 2 ^ width) output 0 with
      | .error halt => .error halt
      | .ok (status, output, len) =>
          if status ≠ .success then .ok (rsp status)
          else if output.length < len then .error .outOfBounds
          else .ok { rsp status with unwrapped := some (len % 2 ^ width, output.take len) }

structure Request where
  cmd : UInt32
  body : List UInt8

/-- Outcomes of the calls made while one message is handled, and the indeterminate
contents of the two local buffers. -/
structure Io where
  /-- `tipc_recv1`: the message, or an error. -/
  recv : Option Request
  /-- `cmd_header` of the uninitialised `struct full_keybox_req`. -/
  req : List UInt8
  output : List UInt8
  /-- `tipc_send1` or `tipc_send2` did not fail. -/
  sent : Bool

/-- The local buffers have the declared sizes and the message was received into
the request buffer. -/
structure Io.Fits (ifc : Interface) (io : Io) : Prop where
  req : io.req.length = unwrapHeaderSize + ifc.maxSize
  output : io.output.length = ifc.maxSize
  recv : ∀ request, io.recv = some request →
    request.body.length ≤ unwrapHeaderSize + ifc.maxSize

inductive Action
  | created (ctx : Addr)
  | sent (chan : Handle) (rsp : Rsp)
  | shutdown (ctx : Addr)
  deriving DecidableEq

/-- The `switch` of `keybox_handle_msg`. -/
def keyboxResponse (ifc : Interface) (width : Nat) (request : Request) (io : Io) :
    Except Halt Rsp :=
  if request.cmd = ifc.cmdUnwrap then
    keyboxHandleUnwrap ifc width (Bytes.overwrite io.req request.body) request.body.length
      io.output
  else .ok ⟨request.cmd ||| ifc.cmdRspBit, .invalidRequest, none⟩

def keyboxHandleMsg (ifc : Interface) (width : Nat) (chan : Handle) (io : Io) :
    Except Halt (Status × List Action) :=
  match io.recv with
  | none => .ok (.internalError, [])
  | some request => do
      let rsp ← keyboxResponse ifc width request io
      if io.sent then .ok (.success, [.sent chan rsp]) else .ok (.internalError, [])

structure ChanCtx where
  chan : Handle
  deriving DecidableEq

def load (table : Table ChanCtx) (ctx : Addr) : Except Halt ChanCtx :=
  match table.ctxs ctx with
  | none => .error (.useAfterFree ctx)
  | some chanCtx => .ok chanCtx

def keyboxShutdown (table : Table ChanCtx) (ctx : Addr) :
    Except Halt (Table ChanCtx × List Action) := do
  let chanCtx ← load table ctx
  .ok ((table.close chanCtx.chan).free ctx, [.shutdown ctx])

def keyboxChanHandler (ifc : Interface) (width : Nat) (table : Table ChanCtx) (ctx : Addr)
    (handle : Handle) (msg hup : Bool) (io : Io) :
    Except Halt (Table ChanCtx × List Action) := do
  let chanCtx ← load table ctx
  if handle ≠ chanCtx.chan then .error .assertFailed
  else
    let (rc, answered) ←
      if msg then keyboxHandleMsg ifc width chanCtx.chan io else .ok (.success, [])
    let (table, closed) ← if hup then keyboxShutdown table ctx else .ok (table, [])
    let (table, failed) ←
      if rc ≠ .success then keyboxShutdown table ctx else .ok (table, [])
    .ok (table, failed ++ closed ++ answered)

def keyboxPortHandler (table : Table ChanCtx) (conn : Connect Unit) :
    Table ChanCtx × List Action :=
  (table.connect ChanCtx.mk conn,
    match conn.established with
    | none => []
    | some (_, ctx) => [.created ctx])

inductive Event
  | port (conn : Connect Unit)
  | chan (handle : Handle) (msg hup : Bool) (io : Io)

/-- The kernel offers fresh handles and delivers events of open channels only,
with the cookie the service registered. -/
def Enabled (ifc : Interface) (table : Table ChanCtx) : Event → Prop
  | .port conn => conn.Offered table
  | .chan handle _ _ io => (∃ ctx, table.chans handle = .attached ctx) ∧ io.Fits ifc

def dispatchEvent (ifc : Interface) (width : Nat) (table : Table ChanCtx) :
    Event → Except Halt (Table ChanCtx × List Action)
  | .port conn => .ok (keyboxPortHandler table conn)
  | .chan handle msg hup io =>
      match table.chans handle with
      | .attached ctx => keyboxChanHandler ifc width table ctx handle msg hup io
      | _ => .ok (table.close handle, [])

def service (ifc : Interface) (width : Nat) :
    Reactive.System (Table ChanCtx) Event (List Action) Halt where
  initial := .empty
  enabled := Enabled ifc
  handle := dispatchEvent ifc width

end TrustyApp.Keybox
