import TrustyApp.Library.Memory
import TrustyApp.Library.Reactive
import Mathlib.Data.BitVec

/-!
# The lender of memory references

`memref-test/lender`: a server that lends references to three of its pages and reads and
writes one of them on request.  Whoever has mapped a lent reference accesses the page
directly, so a run interleaves messages with the stores of other processes.
-/

namespace TrustyApp.MemrefTest

open Memory Reactive

abbrev Handle := Nat

def pageSize : Nat := 0x1000

def maxWrite : Nat := 0x800

inductive Halt
  | outOfBounds
  /-- A read of bytes that were never written. -/
  | uninitialised
  | exit
  deriving DecidableEq

structure Page where
  bytes : List UInt8
  size : bytes.length = pageSize

def Page.read (page : Page) (offset len : Nat) : Except Halt (List UInt8) :=
  if offset + len ≤ pageSize then .ok ((page.bytes.drop offset).take len)
  else .error .outOfBounds

def spliced (bytes data : List UInt8) (offset : Nat) : List UInt8 :=
  bytes.take offset ++ data ++ bytes.drop (offset + data.length)

theorem length_spliced {bytes data : List UInt8} {offset : Nat}
    (inside : offset + data.length ≤ bytes.length) :
    (spliced bytes data offset).length = bytes.length := by
  simp only [spliced, List.length_append, List.length_take, List.length_drop]
  omega

def Page.write (page : Page) (offset : Nat) (data : List UInt8) : Except Halt Page :=
  if inside : offset + data.length ≤ pageSize then
    .ok ⟨spliced page.bytes data offset, by
      rw [length_spliced (page.size ▸ inside), page.size]⟩
  else .error .outOfBounds

inductive PageName
  | bss
  | ro
  | rw
  deriving DecidableEq

def zeroPage : Page := ⟨List.replicate pageSize 0, List.length_replicate⟩

def onePage : Page := ⟨1 :: List.replicate (pageSize - 1) 0, by
  rw [List.length_cons, List.length_replicate]
  rfl⟩

def initialPage : PageName → Page
  | .bss => zeroPage
  | .ro | .rw => onePage

inductive Prot
  | readOnly
  | readWrite
  deriving DecidableEq

structure Memref where
  page : PageName
  prot : Prot
  deriving DecidableEq

structure State where
  pages : PageName → Page
  bssMemref : Option Memref
  roMemref : Option Memref
  rwMemref : Option Memref
  lent : List Memref

/-- `init`, by which calls of `memref_create` succeed; it aborts without the references
to the two writable pages. -/
def init (bssCreated roCreated rwCreated : Bool) : Option State :=
  if ¬ bssCreated then none
  else
    let roMemref := if roCreated then some ⟨.ro, .readOnly⟩ else none
    if ¬ rwCreated then none
    else some ⟨initialPage, some ⟨.bss, .readWrite⟩, roMemref, some ⟨.rw, .readWrite⟩, []⟩

/-- `enum lender_command`; `other` stands for the remaining values. -/
inductive LenderCommand
  | lendBss
  | lendRo
  | lendRw
  | suicide
  | readBss
  | writeBss
  | other
  deriving DecidableEq

/-- `struct lender_region`, with a `size_t` of `width` bits. -/
structure LenderRegion (width : Nat) where
  offset : BitVec width
  size : BitVec width

structure LenderMsg (width : Nat) where
  cmd : LenderCommand
  region : LenderRegion width

structure Received (width : Nat) where
  msg : LenderMsg width
  data : List UInt8
  fits : data.length ≤ maxWrite

/-- Outcomes of the calls made for one message; a failing call returns a negative code. -/
structure Io (width : Nat) where
  recv : Except Int (Received width)
  send : Except Int Unit

inductive Action
  | sent (chan : Handle) (data : List UInt8)
  | lent (chan : Handle) (memref : Memref)
  deriving DecidableEq

structure Handled where
  rc : Int
  state : State
  actions : List Action

variable {width : Nat}

/-- `tipc_send1` or `send_msg`: the return code, and the message if it was sent. -/
def Io.sendMsg (io : Io width) (len : Int) (action : Action) : Int × List Action :=
  match io.send with
  | .error rc => (rc, [])
  | .ok _ => (len, [action])

/-- The part of `lender_lend` behind the `switch`; an uninitialized handle is refused. -/
def sendReference (state : State) (chan : Handle) (io : Io width) : Option Memref → Handled
  | none => ⟨-1, state, []⟩
  | some memref =>
      let (rc, actions) := io.sendMsg 0 (.lent chan memref)
      ⟨rc, if actions = [] then state else { state with lent := memref :: state.lent }, actions⟩

def lenderLend (state : State) (chan : Handle) (cmd : LenderCommand) (io : Io width) : Handled :=
  match cmd with
  | .lendBss => sendReference state chan io state.bssMemref
  | .lendRo => sendReference state chan io state.roMemref
  | .lendRw => sendReference state chan io state.rwMemref
  | _ => ⟨-1, state, []⟩

def lenderCheckRegion (region : LenderRegion width) (size : Nat) : Int :=
  if region.offset.uaddOverflow region.size then -1
  else if (region.offset + region.size).toNat > size then -1
  else 0

def toInt (size : BitVec width) : Int := (BitVec.ofNat 32 size.toNat).toInt

def lenderReadBss (state : State) (chan : Handle) (region : LenderRegion width) (io : Io width) :
    Except Halt Handled :=
  if lenderCheckRegion region pageSize ≠ 0 then .ok ⟨-1, state, []⟩
  else do
    let data ← (state.pages .bss).read region.offset.toNat region.size.toNat
    let (rc, actions) := io.sendMsg data.length (.sent chan data)
    .ok ⟨if rc ≠ toInt region.size then -1 else 0, state, actions⟩

def lenderWriteBss (state : State) (chan : Handle) (region : LenderRegion width)
    (data : List UInt8) (io : Io width) : Except Halt Handled :=
  if lenderCheckRegion region pageSize ≠ 0 then .ok ⟨-1, state, []⟩
  else if data.length < region.size.toNat then .error .uninitialised
  else do
    let page ← (state.pages .bss).write region.offset.toNat (data.take region.size.toNat)
    let (rc, actions) := io.sendMsg 0 (.sent chan [])
    .ok ⟨rc, { state with pages := Function.update state.pages .bss page }, actions⟩

/-- The result of the `switch`: a negative code is returned, any other becomes 0. -/
def Handled.finish (handled : Handled) : Handled :=
  if handled.rc < 0 then handled else { handled with rc := 0 }

/-- `lender_on_message`.  `msgSize` is `sizeof(struct lender_msg)`; the receive returns
the length of the whole message. -/
def lenderOnMessage (msgSize : Nat) (state : State) (chan : Handle) (io : Io width) :
    Except Halt Handled :=
  match io.recv with
  | .error rc => .ok ⟨rc, state, []⟩
  | .ok ⟨msg, data, _⟩ =>
      let rc : BitVec width := BitVec.ofNat width (msgSize + data.length)
      match msg.cmd with
      | .lendBss | .lendRo | .lendRw => .ok (lenderLend state chan msg.cmd io).finish
      | .suicide => .error .exit
      | .readBss => do
          let handled ← lenderReadBss state chan msg.region io
          .ok handled.finish
      | .writeBss =>
          if rc - BitVec.ofNat width msgSize ≠ msg.region.size then .ok ⟨-1, state, []⟩
          else do
            let handled ← lenderWriteBss state chan msg.region data io
            .ok handled.finish
      | .other => .ok ⟨-1, state, []⟩

inductive Event (width : Nat)
  | message (chan : Handle) (io : Io width)
  | store (memref : Memref) (offset : Nat) (bytes : List UInt8)

/-- Calls fail with negative codes, and pages are stored to only through references that
were lent and allow it. -/
def Enabled (state : State) : Event width → Prop
  | .message _ io => (∀ rc, io.recv = .error rc → rc < 0) ∧ ∀ rc, io.send = .error rc → rc < 0
  | .store memref offset bytes => memref ∈ state.lent ∧ memref.prot = .readWrite ∧
      offset + bytes.length ≤ pageSize

structure Output where
  rc : Int
  actions : List Action

def dispatch (msgSize : Nat) (state : State) : Event width → Except Halt (State × Output)
  | .message chan io => do
      let handled ← lenderOnMessage msgSize state chan io
      .ok (handled.state, ⟨handled.rc, handled.actions⟩)
  | .store memref offset bytes => do
      let page ← (state.pages memref.page).write offset bytes
      .ok ({ state with pages := Function.update state.pages memref.page page }, ⟨0, []⟩)

/-- The lender from the end of `init` on. -/
def lender (width msgSize : Nat) (started : State) :
    System State (Event width) Output Halt where
  initial := started
  enabled := Enabled
  handle := dispatch msgSize

end TrustyApp.MemrefTest
