import TrustyApp.Hwkey.Types
import TrustyApp.Library.Ipc

/-!
# Opaque handles

The global list `opaque_handles` of `hwkey_srv.c` and the two lookups of a
`HWKEY_GET_KEYSLOT` request: by key id in the table of slots, then by access token
in the list.
-/

namespace TrustyApp.Hwkey

open Ipc

def hwkeyOpaqueHandleSize : Nat := 32

inductive Assertion
  | chanHandle
  | kbufLen
  | entryExists
  | tokenLength
  | tokenTerminated
  | tokenNotEmpty
  deriving DecidableEq

/-- Why the service does not return to the event loop. -/
inductive Halt
  | assertFailed (assertion : Assertion)
  | useAfterFree (ctx : Addr)
  | notOpaque (slot : Nat)
  | outOfBounds
  /-- The RNG has not delivered enough yet to make up a token. -/
  | drawing
  | provider (crash : Crash)
  deriving DecidableEq

structure AccessToken where
  bytes : List UInt8
  size : bytes.length = hwkeyOpaqueHandleSize
  deriving DecidableEq

def AccessToken.empty : AccessToken :=
  ⟨List.replicate hwkeyOpaqueHandleSize 0, List.length_replicate⟩

def AccessToken.write (token : AccessToken) (offset : Nat) (byte : UInt8) : AccessToken :=
  ⟨token.bytes.set offset byte, by rw [List.length_set, token.size]⟩

/-- `struct opaque_handle_node`; a slot is given by its index in the table. -/
structure OpaqueHandleNode where
  keySlot : Nat
  owner : Addr
  token : AccessToken
  deriving DecidableEq

structure Cursor where
  before : List OpaqueHandleNode
  entry : OpaqueHandleNode
  after : List OpaqueHandleNode

def Cursor.setToken (cursor : Cursor) (token : AccessToken) : List OpaqueHandleNode :=
  cursor.before ++ { cursor.entry with token := token } :: cursor.after

def deleteOpaqueHandle (cursor : Cursor) : List OpaqueHandleNode :=
  cursor.before ++ cursor.after

def findOpaqueHandleForSlot (slot : Nat) : List OpaqueHandleNode → Option Cursor
  | [] => none
  | entry :: rest =>
      if entry.keySlot = slot then some ⟨[], entry, rest⟩
      else (findOpaqueHandleForSlot slot rest).map fun cursor =>
        { cursor with before := entry :: cursor.before }

/-- The loop of `hwkey_ctx_close`: the walk has read the next entry before it deletes
the current one. -/
def deleteHandlesOf (ctx : Addr) : List OpaqueHandleNode → List OpaqueHandleNode
  | [] => []
  | entry :: rest =>
      if entry.owner = ctx then deleteHandlesOf ctx rest else entry :: deleteHandlesOf ctx rest

structure RandomBuf where
  bytes : List UInt8
  size : bytes.length = hwkeyOpaqueHandleSize + 2

/-- Outcomes of the calls made for one request: whether `calloc` gives a node, what
successive calls of the RNG device return, and what the handlers see. -/
structure Env where
  calloc : Bool
  draws : List (Except KernelError RandomBuf)
  outcomes : Outcomes

def insertHandleNode (env : Env) (handles : List OpaqueHandleNode) (ctx : Addr) (slot : Nat) :
    Status × List OpaqueHandleNode :=
  match findOpaqueHandleForSlot slot handles with
  | some _ => (.noError, handles)
  | none =>
      if env.calloc then (.noError, handles ++ [⟨slot, ctx, .empty⟩])
      else (.errGeneric, handles)

def isEmptyToken (token : AccessToken) : Except Halt Bool :=
  if token.bytes.any (· ≠ 0) then
    if (Bytes.cstr token.bytes).length = hwkeyOpaqueHandleSize - 1 then .ok false
    else .error (.assertFailed .tokenLength)
  else .ok true

/-- Copy the non-zero bytes of a draw into the token, as far as it goes.  The result
is the token and `token_offset`. -/
def fillToken : List UInt8 → AccessToken → Nat → AccessToken × Nat
  | [], token, offset => (token, offset)
  | byte :: rest, token, offset =>
      if offset < hwkeyOpaqueHandleSize - 1 then
        if byte ≠ 0 then fillToken rest (token.write offset byte) (offset + 1)
        else fillToken rest token offset
      else (token, offset)

/-- The loop of `get_key_handle`: a draw with too few non-zero bytes is repeated over
the token it has partly written. -/
def drawToken : List (Except KernelError RandomBuf) → AccessToken →
    Except Halt (Except KernelError AccessToken)
  | [], _ => .error .drawing
  | .error rc :: _, _ => .ok (.error rc)
  | .ok buf :: draws, token =>
      let (token, offset) := fillToken buf.bytes token 0
      if offset = hwkeyOpaqueHandleSize - 1 then .ok (.ok token) else drawToken draws token

/-- `struct hwkey_msg` of a response, with its payload. -/
structure Response where
  cmd : UInt32
  opId : UInt32
  status : Status
  arg1 : UInt32
  payload : List UInt8
  deriving DecidableEq

inductive Action
  | opened (chan : Handle)
  | issued (slot : Nat) (token : AccessToken)
  | retrieved (slot : Nat)
  | responded (chan : Handle) (rsp : Response) (sent : Bool)
  | closed (chan : Handle)
  deriving DecidableEq

structure Lookup where
  out : KeyOut
  handles : List OpaqueHandleNode
  actions : List Action
  deriving DecidableEq

def getKeyHandle (env : Env) (handles : List OpaqueHandleNode) (slot : Nat)
    (kbuf : List UInt8) (klen : Nat) : Except Halt Lookup :=
  if kbuf.length < hwkeyOpaqueHandleSize then .error (.assertFailed .kbufLen)
  else
    match findOpaqueHandleForSlot slot handles with
    | none => .error (.assertFailed .entryExists)
    | some cursor => do
        if ¬ (← isEmptyToken cursor.entry.token) then
          .ok ⟨⟨.errAlreadyExists, kbuf, klen⟩, handles, []⟩
        else
          match ← drawToken env.draws cursor.entry.token with
          | .error rc => .ok ⟨⟨.kernel rc, kbuf, klen⟩, deleteOpaqueHandle cursor, []⟩
          | .ok token =>
              if token.bytes[hwkeyOpaqueHandleSize - 1]? ≠ some 0 then
                .error (.assertFailed .tokenTerminated)
              else
                .ok ⟨⟨.noError, Bytes.overwrite kbuf token.bytes, hwkeyOpaqueHandleSize⟩,
                  cursor.setToken token, [.issued slot token]⟩

def KeyFn.call (fn : KeyFn) (env : Env) (kbuf : List UInt8) (klen : Nat) :
    Except Halt KeyOut :=
  match fn.run env.outcomes kbuf klen with
  | .ok out => .ok out
  | .error crash => .error (.provider crash)

def isAllowedToReadOpaqueKey (uuid : Uuid) (handle : OpaqueHandleData) : Bool :=
  handle.allowedUuids.any (· = uuid)

/-- The loop of `get_opaque_key` over the entries still to come; `handles` is the
whole list. -/
def getOpaqueKey (slots : List KeySlot) (env : Env) (handles : List OpaqueHandleNode)
    (uuid : Uuid) (accessToken kbuf : List UInt8) (klen : Nat) :
    List OpaqueHandleNode → Except Halt Lookup
  | [] => .ok ⟨⟨.errNotFound, kbuf, klen⟩, handles, []⟩
  | entry :: rest => do
      if ← isEmptyToken entry.token then .error (.assertFailed .tokenNotEmpty)
      else
        match opaqueData slots entry.keySlot with
        | none => .error (.notOpaque entry.keySlot)
        | some handle =>
            if ¬ isAllowedToReadOpaqueKey uuid handle then
              getOpaqueKey slots env handles uuid accessToken kbuf klen rest
            else if accessToken.take hwkeyOpaqueHandleSize = entry.token.bytes then do
              let out ← handle.retriever.call env kbuf klen
              .ok ⟨out, handles, [.retrieved entry.keySlot]⟩
            else getOpaqueKey slots env handles uuid accessToken kbuf klen rest

def callHandler (env : Env) (handles : List OpaqueHandleNode) (ctx : Addr) (slot : Nat)
    (handler : Handler) (kbuf : List UInt8) (klen : Nat) : Except Halt Lookup :=
  match handler with
  | .getKeyHandle _ =>
      let (rc, inserted) := insertHandleNode env handles ctx slot
      if rc ≠ .noError then .ok ⟨⟨rc, kbuf, klen⟩, inserted, []⟩
      else getKeyHandle env inserted slot kbuf klen
  | .other fn => do
      let out ← fn.call env kbuf klen
      .ok ⟨out, handles, []⟩

/-- The loop of `_handle_slots` over the slots from index `i` on; `keySlots` is the
whole table. -/
def scanSlots (keySlots : List KeySlot) (env : Env) (handles : List OpaqueHandleNode)
    (ctx : Addr) (uuid : Uuid) (slotId kbuf : List UInt8) (klen : Nat) :
    Nat → List KeySlot → Except Halt Lookup
  | _, [] => getOpaqueKey keySlots env handles uuid slotId kbuf klen handles
  | i, slot :: slots =>
      if slot.keyId.chars ≠ Bytes.cstr slotId then
        scanSlots keySlots env handles ctx uuid slotId kbuf klen (i + 1) slots
      else if uuid = slot.uuid then
        match slot.handler with
        | some handler => callHandler env handles ctx i handler kbuf klen
        | none => scanSlots keySlots env handles ctx uuid slotId kbuf klen (i + 1) slots
      else scanSlots keySlots env handles ctx uuid slotId kbuf klen (i + 1) slots

/-- `_handle_slots`; there is no table before `hwkey_install_keys`. -/
def handleSlots (installed : Option (List KeySlot)) (env : Env)
    (handles : List OpaqueHandleNode) (ctx : Addr) (uuid : Uuid) (slotId kbuf : List UInt8)
    (klen : Nat) : Except Halt Lookup :=
  match installed with
  | none => .ok ⟨⟨.errNotFound, kbuf, klen⟩, handles, []⟩
  | some keySlots => scanSlots keySlots env handles ctx uuid slotId kbuf klen 0 keySlots

end TrustyApp.Hwkey
