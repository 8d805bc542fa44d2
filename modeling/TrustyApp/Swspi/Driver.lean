import TrustyApp.Library.Memory
import TrustyApp.Library.Reactive

/-!
# The software SPI driver

`swspi-srv/driver/swspi.c`: requests of a sequence are recorded as pairs of a function
and a pointer to its arguments, and run when the sequence is committed.  The argument
blocks live in the heap, the buffers of the transfers in a byte memory.
-/

namespace TrustyApp.Swspi

open Memory Reactive

inductive ExecFn
  | setClk
  | csAssert
  | csDeassert
  | xfer
  | delay
  deriving DecidableEq

/-- `struct spi_seq_entry`; a null pointer is `none`. -/
structure SeqEntry where
  exec : Option ExecFn
  priv : Option Addr
  deriving DecidableEq

/-- A block from `malloc`: `struct spi_req_xfer_args`, or the time of a delay. -/
inductive Block
  | xferArgs (tx rx : Option Nat) (len : Nat)
  | delayNs (delayNs : UInt64)
  deriving DecidableEq

/-- `struct spi_dev_ctx`, up to its wiring. -/
structure DevCtx where
  cmds : Option (List SeqEntry)
  numCmds : Nat
  currCmd : Nat
  deriving DecidableEq

/-- Which bus a device is attached to, whether it is a loopback device, and the `i`-th
value of `rand` after a call of `srand`. -/
structure Board (Dev Bus : Type) where
  bus : Dev → Bus
  loopback : Dev → Bool
  rand : (seed : UInt8) → (i : Nat) → Nat

structure State (Dev Bus : Type) where
  devs : Dev → DevCtx
  owner : Bus → Option Dev
  heap : Heap Block
  mem : Store

inductive Assertion
  | clkHz
  | seqActive
  | seqNotActive
  | cmdLeft
  | seqComplete
  | busFree
  | busOwned
  deriving DecidableEq

inductive Halt
  | assertFailed (assertion : Assertion)
  /-- An access to `cmds` outside the array. -/
  | outOfBounds
  | nullCall
  /-- A block that is not live, or has other contents than expected. -/
  | badBlock
  deriving DecidableEq

inductive Rc
  | noError
  | errNoMemory
  deriving DecidableEq

structure Output where
  rc : Rc
  allocated : List Addr
  freed : List Addr
  deriving DecidableEq

def assert (condition : Prop) [Decidable condition] (assertion : Assertion) : Except Halt Unit :=
  if condition then .ok () else .error (.assertFailed assertion)

variable {Dev Bus : Type} [DecidableEq Dev] [DecidableEq Bus]

def State.setDev (state : State Dev Bus) (dev : Dev) (ctx : DevCtx) : State Dev Bus :=
  { state with devs := Function.update state.devs dev ctx }

def spiDevSeqActive (ctx : DevCtx) : Bool := ctx.cmds.isSome

/-- Write the entry at `curr_cmd` and go on to the next one; `priv` is written only
where the request has one. -/
def DevCtx.record (ctx : DevCtx) (exec : ExecFn) (priv : Option Addr) : Except Halt DevCtx :=
  match ctx.cmds with
  | none => .error .outOfBounds
  | some cmds =>
      match cmds[ctx.currCmd]? with
      | none => .error .outOfBounds
      | some entry =>
          .ok { ctx with
            cmds := some (cmds.set ctx.currCmd ⟨some exec, priv.or entry.priv⟩)
            currCmd := ctx.currCmd + 1 }

def recordPlain (state : State Dev Bus) (dev : Dev) (exec : ExecFn) :
    Except Halt (State Dev Bus × Output) := do
  let ctx ← (state.devs dev).record exec none
  .ok (state.setDev dev ctx, ⟨.noError, [], []⟩)

def recordWith (state : State Dev Bus) (dev : Dev) (exec : ExecFn) (block : Block)
    (malloc : Option Addr) : Except Halt (State Dev Bus × Output) :=
  match malloc with
  | none => .ok (state, ⟨.errNoMemory, [], []⟩)
  | some addr => do
      let ctx ← (state.devs dev).record exec (some addr)
      .ok ({ state.setDev dev ctx with heap := state.heap.alloc addr block },
        ⟨.noError, [addr], []⟩)

def spiReqSetClk (state : State Dev Bus) (dev : Dev) (clkHz : Option Nat) :
    Except Halt (State Dev Bus × Output) := do
  assert (clkHz ≠ none) .clkHz
  recordPlain state dev .setClk

def spiReqCsAssert (state : State Dev Bus) (dev : Dev) :
    Except Halt (State Dev Bus × Output) := do
  assert (spiDevSeqActive (state.devs dev)) .seqActive
  assert ((state.devs dev).currCmd < (state.devs dev).numCmds) .cmdLeft
  recordPlain state dev .csAssert

def spiReqCsDeassert (state : State Dev Bus) (dev : Dev) :
    Except Halt (State Dev Bus × Output) := do
  assert (spiDevSeqActive (state.devs dev)) .seqActive
  assert ((state.devs dev).currCmd < (state.devs dev).numCmds) .cmdLeft
  recordPlain state dev .csDeassert

def spiReqXfer (state : State Dev Bus) (dev : Dev) (tx rx : Option Nat) (len : Nat)
    (malloc : Option Addr) : Except Halt (State Dev Bus × Output) := do
  assert (spiDevSeqActive (state.devs dev)) .seqActive
  assert ((state.devs dev).currCmd < (state.devs dev).numCmds) .cmdLeft
  recordWith state dev .xfer (.xferArgs tx rx len) malloc

def spiReqDelay (state : State Dev Bus) (dev : Dev) (delayNs : UInt64) (malloc : Option Addr) :
    Except Halt (State Dev Bus × Output) :=
  recordWith state dev .delay (.delayNs delayNs) malloc

def spiSeqBegin (state : State Dev Bus) (dev : Dev) (numCmds : Nat) (calloc : Bool) :
    Except Halt (State Dev Bus × Output) := do
  assert (¬ spiDevSeqActive (state.devs dev)) .seqNotActive
  if ¬ calloc then
    .ok (state.setDev dev { state.devs dev with cmds := none }, ⟨.errNoMemory, [], []⟩)
  else
    .ok (state.setDev dev { state.devs dev with
        cmds := some (List.replicate numCmds ⟨none, none⟩)
        numCmds }, ⟨.noError, [], []⟩)

def rotateRight (byte : UInt8) : UInt8 := byte >>> 1 ||| (byte &&& 0x1) <<< 7

def digest (mem : Store) (buf sz : Nat) : UInt8 :=
  (List.range sz).foldl (fun digest i => rotateRight digest ^^^ mem (buf + i)) 0

def randBuf (board : Board Dev Bus) (mem : Store) (buf sz : Nat) (seed : UInt8) : Store :=
  (List.range sz).foldl
    (fun mem i => Function.update mem (buf + i) (UInt8.ofNat (board.rand seed i % 0xff))) mem

/-- `memcpy`; the buffers are the same or do not overlap. -/
def memcpy (mem : Store) (dst src len : Nat) : Store := mem.write dst (mem.read src len)

def memset (mem : Store) (dst : Nat) (byte : UInt8) (len : Nat) : Store :=
  mem.write dst (List.replicate len byte)

variable (board : Board Dev Bus)

def spiReqExecCsAssert (state : State Dev Bus) (dev : Dev) : Except Halt (State Dev Bus) := do
  assert (state.owner (board.bus dev) = none) .busFree
  .ok { state with owner := Function.update state.owner (board.bus dev) (some dev) }

def spiReqExecCsDeassert (state : State Dev Bus) (dev : Dev) : Except Halt (State Dev Bus) := do
  assert (state.owner (board.bus dev) = some dev) .busOwned
  .ok { state with owner := Function.update state.owner (board.bus dev) none }

def xferMem (dev : Dev) (mem : Store) (tx rx : Option Nat) (len : Nat) : Store :=
  if board.loopback dev then
    match rx, tx with
    | none, _ => mem
    | some rx, some tx => memcpy mem rx tx len
    | some rx, none => memset mem rx 0 len
  else
    let seed := match tx with
      | some tx => digest mem tx len
      | none => 0
    match rx with
    | none => mem
    | some rx => randBuf board mem rx len seed

def loadBlock (state : State Dev Bus) (priv : Option Addr) : Except Halt Block :=
  match priv.bind state.heap with
  | none => .error .badBlock
  | some block => .ok block

def spiReqExecXfer (state : State Dev Bus) (dev : Dev) (priv : Option Addr) :
    Except Halt (State Dev Bus) := do
  match ← loadBlock state priv with
  | .xferArgs tx rx len => .ok { state with mem := xferMem board dev state.mem tx rx len }
  | .delayNs _ => .error .badBlock

/-- The delay itself is not modelled. -/
def spiReqExecDelay (state : State Dev Bus) (priv : Option Addr) :
    Except Halt (State Dev Bus) := do
  match ← loadBlock state priv with
  | .delayNs _ => .ok state
  | .xferArgs .. => .error .badBlock

def execEntry (state : State Dev Bus) (dev : Dev) (entry : SeqEntry) :
    Except Halt (State Dev Bus) :=
  match entry.exec with
  | none => .error .nullCall
  | some .setClk => .ok state
  | some .csAssert => spiReqExecCsAssert board state dev
  | some .csDeassert => spiReqExecCsDeassert board state dev
  | some .xfer => spiReqExecXfer board state dev entry.priv
  | some .delay => spiReqExecDelay state entry.priv

def DevCtx.load (ctx : DevCtx) (i : Nat) : Except Halt SeqEntry :=
  match ctx.cmds.bind fun cmds => cmds[i]? with
  | none => .error .outOfBounds
  | some entry => .ok entry

/-- The loop of `spi_seq_commit` over the entries from index `i` on. -/
def execCmds (dev : Dev) : (remaining i : Nat) → State Dev Bus → Except Halt (State Dev Bus)
  | 0, _, state => .ok state
  | remaining + 1, i, state => do
      let entry ← (state.devs dev).load i
      let state ← execEntry board state dev entry
      execCmds dev remaining (i + 1) state

/-- The loop of `spi_seq_free`, with the blocks it frees. -/
def freePrivs (ctx : DevCtx) :
    (remaining i : Nat) → Heap Block → Except Halt (Heap Block × List Addr)
  | 0, _, heap => .ok (heap, [])
  | remaining + 1, i, heap => do
      let entry ← ctx.load i
      match entry.priv with
      | none => freePrivs ctx remaining (i + 1) heap
      | some addr =>
          match heap.free addr with
          | none => .error .badBlock
          | some heap => do
              let (heap, freed) ← freePrivs ctx remaining (i + 1) heap
              .ok (heap, addr :: freed)

def DevCtx.idle : DevCtx := ⟨none, 0, 0⟩

def spiSeqFree (state : State Dev Bus) (dev : Dev) : Except Halt (State Dev Bus × Output) := do
  let (heap, freed) ← freePrivs (state.devs dev) (state.devs dev).numCmds 0 state.heap
  .ok ({ state.setDev dev .idle with heap }, ⟨.noError, [], freed⟩)

def spiSeqCommit (state : State Dev Bus) (dev : Dev) : Except Halt (State Dev Bus × Output) := do
  assert (spiDevSeqActive (state.devs dev)) .seqActive
  assert ((state.devs dev).currCmd = (state.devs dev).numCmds) .seqComplete
  let state ← execCmds board dev (state.devs dev).numCmds 0 state
  spiSeqFree state dev

def spiSeqAbort (state : State Dev Bus) (dev : Dev) : Except Halt (State Dev Bus × Output) := do
  assert (spiDevSeqActive (state.devs dev)) .seqActive
  spiSeqFree state dev

inductive Request
  | setClk (clkHz : Option Nat)
  | csAssert
  | csDeassert
  | xfer (tx rx : Option Nat) (len : Nat)
  | delay (delayNs : UInt64)
  deriving DecidableEq

inductive Call
  | seqBegin (numCmds : Nat) (calloc : Bool)
  | request (request : Request) (malloc : Option Addr)
  | seqCommit
  | seqAbort

def spiReq (state : State Dev Bus) (dev : Dev) (request : Request) (malloc : Option Addr) :
    Except Halt (State Dev Bus × Output) :=
  match request with
  | .setClk clkHz => spiReqSetClk state dev clkHz
  | .csAssert => spiReqCsAssert state dev
  | .csDeassert => spiReqCsDeassert state dev
  | .xfer tx rx len => spiReqXfer state dev tx rx len malloc
  | .delay delayNs => spiReqDelay state dev delayNs malloc

structure Event (Dev : Type) where
  dev : Dev
  call : Call

def perform (state : State Dev Bus) (event : Event Dev) : Except Halt (State Dev Bus × Output) :=
  match event.call with
  | .seqBegin numCmds calloc => spiSeqBegin state event.dev numCmds calloc
  | .request request malloc => spiReq state event.dev request malloc
  | .seqCommit => spiSeqCommit board state event.dev
  | .seqAbort => spiSeqAbort state event.dev

/-- `malloc` does not return a block that is live. -/
def Enabled (state : State Dev Bus) (event : Event Dev) : Prop :=
  ∀ request addr, event.call = .request request (some addr) → state.heap addr = none

/-- The driver with all its devices, whose calls may come in any order. -/
def driver (mem : Store) : System (State Dev Bus) (Event Dev) Output Halt where
  initial := ⟨fun _ => .idle, fun _ => none, fun _ => none, mem⟩
  enabled := Enabled
  handle := perform board

end TrustyApp.Swspi
