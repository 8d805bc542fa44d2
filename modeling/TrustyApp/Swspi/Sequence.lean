import TrustyApp.Swspi.Driver

/-!
# Sequences

What the driver is for: a device collects requests, and committing them runs one after
another on the bus and the buffers.  The context of a device represents the requests
it has collected, as entries of its array and blocks of the heap.
-/

namespace TrustyApp.Swspi

open Memory Reactive

variable {Dev Bus : Type} [DecidableEq Dev] [DecidableEq Bus]

structure World (Dev Bus : Type) where
  owner : Bus → Option Dev
  mem : Store

def digestOf (bytes : List UInt8) : UInt8 :=
  bytes.foldl (fun digest byte => rotateRight digest ^^^ byte) 0

/-- What the device sends back for `len` bytes: the same bytes from a loopback device, or
else a pattern that depends on their digest. -/
def reply (board : Board Dev Bus) (dev : Dev) (sent : Option (List UInt8)) (len : Nat) :
    List UInt8 :=
  if board.loopback dev then sent.getD (List.replicate len 0)
  else
    (List.range len).map fun i =>
      UInt8.ofNat (board.rand ((sent.map digestOf).getD 0) i % 0xff)

def Request.run (board : Board Dev Bus) (dev : Dev) (world : World Dev Bus) :
    Request → Except Assertion (World Dev Bus)
  | .setClk _ => .ok world
  | .csAssert =>
      if world.owner (board.bus dev) = none then
        .ok { world with owner := Function.update world.owner (board.bus dev) (some dev) }
      else .error .busFree
  | .csDeassert =>
      if world.owner (board.bus dev) = some dev then
        .ok { world with owner := Function.update world.owner (board.bus dev) none }
      else .error .busOwned
  | .xfer _ none _ => .ok world
  | .xfer tx (some rx) len =>
      .ok { world with
        mem := world.mem.write rx (reply board dev (tx.map fun tx => world.mem.read tx len) len) }
  | .delay _ => .ok world

def runAll (board : Board Dev Bus) (dev : Dev) :
    List Request → World Dev Bus → Except Assertion (World Dev Bus)
  | [], world => .ok world
  | request :: requests, world => do
      let world ← request.run board dev world
      runAll board dev requests world

def State.world (state : State Dev Bus) : World Dev Bus := ⟨state.owner, state.mem⟩

def State.withWorld (state : State Dev Bus) (world : World Dev Bus) : State Dev Bus :=
  { state with owner := world.owner, mem := world.mem }

theorem digest_eq (mem : Store) (buf sz : Nat) :
    digest mem buf sz = digestOf (mem.read buf sz) := by
  rw [digest, digestOf, Store.read, List.foldl_map]

omit [DecidableEq Dev] [DecidableEq Bus] in
theorem randBuf_eq (board : Board Dev Bus) (mem : Store) (buf sz : Nat) (seed : UInt8) :
    randBuf board mem buf sz seed =
      mem.write buf ((List.range sz).map fun i => UInt8.ofNat (board.rand seed i % 0xff)) :=
  Store.write_loop _ sz

omit [DecidableEq Dev] [DecidableEq Bus] in
theorem xferMem_eq (board : Board Dev Bus) (dev : Dev) (mem : Store) (tx : Option Nat)
    (rx len : Nat) :
    xferMem board dev mem tx (some rx) len =
      mem.write rx (reply board dev (tx.map fun tx => mem.read tx len) len) := by
  unfold xferMem reply
  cases board.loopback dev with
  | true => cases tx <;> rfl
  | false =>
      cases tx with
      | none => exact randBuf_eq board mem rx len 0
      | some tx =>
          simp only [Bool.false_eq_true, if_false, digest_eq]
          exact randBuf_eq board mem rx len _

omit [DecidableEq Dev] [DecidableEq Bus] in
theorem xferMem_none (board : Board Dev Bus) (dev : Dev) (mem : Store) (tx : Option Nat)
    (len : Nat) :
    xferMem board dev mem tx none len = mem := by
  unfold xferMem
  cases board.loopback dev <;> rfl

inductive Holds (heap : Heap Block) : SeqEntry → Request → Prop
  | setClk (clkHz : Option Nat) : Holds heap ⟨some .setClk, none⟩ (.setClk clkHz)
  | csAssert : Holds heap ⟨some .csAssert, none⟩ .csAssert
  | csDeassert : Holds heap ⟨some .csDeassert, none⟩ .csDeassert
  | xfer {addr : Addr} {tx rx : Option Nat} {len : Nat} :
      heap addr = some (.xferArgs tx rx len) →
      Holds heap ⟨some .xfer, some addr⟩ (.xfer tx rx len)
  | delay {addr : Addr} {delayNs : UInt64} : heap addr = some (.delayNs delayNs) →
      Holds heap ⟨some .delay, some addr⟩ (.delay delayNs)

def blocks (entries : List SeqEntry) : List Addr := entries.filterMap SeqEntry.priv

section Entries

variable {board : Board Dev Bus} {state : State Dev Bus} {dev : Dev} {heap heap' : Heap Block}
  {entry : SeqEntry} {entries before after : List SeqEntry} {request : Request}
  {requests : List Request}

theorem Holds.of_agree (holds : Holds heap entry request)
    (agree : ∀ addr, entry.priv = some addr → heap' addr = heap addr) :
    Holds heap' entry request := by
  cases holds with
  | setClk clkHz => exact .setClk clkHz
  | csAssert => exact .csAssert
  | csDeassert => exact .csDeassert
  | xfer live => exact .xfer ((agree _ rfl).trans live)
  | delay live => exact .delay ((agree _ rfl).trans live)

theorem Holds.live (holds : Holds heap entry request) {addr : Addr}
    (priv : entry.priv = some addr) : (heap addr).isSome := by
  cases holds with
  | setClk | csAssert | csDeassert => cases priv
  | xfer live | delay live =>
      obtain rfl := Option.some.inj priv
      rw [live]
      rfl

theorem Holds.exec_ne_none (holds : Holds heap entry request) : entry.exec ≠ none := by
  cases holds <;> simp

theorem forall₂_of_agree (holds : List.Forall₂ (Holds heap) entries requests)
    (agree : ∀ addr ∈ blocks entries, heap' addr = heap addr) :
    List.Forall₂ (Holds heap') entries requests := by
  induction holds with
  | nil => exact .nil
  | @cons entry request entries requests holds rest inductionHypothesis =>
      constructor
      · apply holds.of_agree
        intro addr priv
        exact agree addr (by simp [blocks, priv])
      · apply inductionHypothesis
        intro addr member
        apply agree addr
        obtain ⟨other, isEntry, priv⟩ := List.mem_filterMap.mp member
        exact List.mem_filterMap.mpr ⟨other, List.mem_cons_of_mem _ isEntry, priv⟩

theorem live_of_forall₂ (holds : List.Forall₂ (Holds heap) entries requests) {addr : Addr}
    (member : addr ∈ blocks entries) : (heap addr).isSome := by
  induction holds with
  | nil => cases member
  | @cons entry request entries requests holds rest inductionHypothesis =>
      obtain ⟨other, isEntry, priv⟩ := List.mem_filterMap.mp member
      rcases List.mem_cons.mp isEntry with rfl | later
      · exact holds.live priv
      · exact inductionHypothesis (List.mem_filterMap.mpr ⟨other, later, priv⟩)

/-- The state after requests were run, or the assertion that failed. -/
def settle (state : State Dev Bus) :
    Except Assertion (World Dev Bus) → Except Halt (State Dev Bus)
  | .ok world => .ok (state.withWorld world)
  | .error assertion => .error (.assertFailed assertion)

omit [DecidableEq Dev] [DecidableEq Bus] in
theorem loadBlock_of_live {addr : Addr} {block : Block} (live : state.heap addr = some block) :
    loadBlock state (some addr) = .ok block := by
  have found : (some addr).bind state.heap = some block := live
  rw [loadBlock, found]

theorem execEntry_eq (holds : Holds state.heap entry request) :
    execEntry board state dev entry = settle state (request.run board dev state.world) := by
  cases holds with
  | setClk clkHz => rfl
  | csAssert =>
      by_cases free : state.owner (board.bus dev) = none
      · simp [execEntry, spiReqExecCsAssert, assert, Request.run, State.world, free, settle,
          State.withWorld]
      · simp [execEntry, spiReqExecCsAssert, assert, Request.run, State.world, free, settle]
  | csDeassert =>
      by_cases own : state.owner (board.bus dev) = some dev
      · simp [execEntry, spiReqExecCsDeassert, assert, Request.run, State.world, own, settle,
          State.withWorld]
      · simp [execEntry, spiReqExecCsDeassert, assert, Request.run, State.world, own, settle]
  | @xfer addr tx rx len live =>
      cases rx with
      | none =>
          simp [execEntry, spiReqExecXfer, loadBlock_of_live live, xferMem_none, Request.run,
            settle, State.withWorld, State.world]
      | some rx =>
          simp [execEntry, spiReqExecXfer, loadBlock_of_live live, xferMem_eq, Request.run, settle,
            State.withWorld, State.world]
  | delay live =>
      simp [execEntry, spiReqExecDelay, loadBlock_of_live live, Request.run, settle,
        State.withWorld, State.world]

theorem load_eq {ctx : DevCtx} (cmds : ctx.cmds = some (before ++ entry :: after)) :
    ctx.load before.length = .ok entry := by
  simp [DevCtx.load, cmds]

/-- The loop of the commit runs the requests that its entries hold. -/
theorem execCmds_eq (cmds : (state.devs dev).cmds = some (before ++ entries))
    (same : state.heap = heap) (holds : List.Forall₂ (Holds heap) entries requests) :
    execCmds board dev entries.length before.length state =
      settle state (runAll board dev requests state.world) := by
  induction holds generalizing before state with
  | nil => rfl
  | @cons entry request entries requests holds rest inductionHypothesis =>
      rw [List.length_cons, execCmds, load_eq cmds, ok_bind,
        execEntry_eq (same ▸ holds), runAll]
      cases ran : request.run board dev state.world with
      | error assertion => rfl
      | ok world =>
          have later : ((state.withWorld world).devs dev).cmds =
              some ((before ++ [entry]) ++ entries) := by
            simpa [State.withWorld] using cmds
          have continues := inductionHypothesis later same
          rw [List.length_append] at continues
          exact continues

theorem freePrivs_eq {ctx : DevCtx} (cmds : ctx.cmds = some (before ++ entries))
    (live : ∀ addr ∈ blocks entries, (heap addr).isSome) (distinct : (blocks entries).Nodup) :
    freePrivs ctx entries.length before.length heap =
      .ok (heap.without (blocks entries), blocks entries) := by
  induction entries generalizing before heap with
  | nil => simp [freePrivs, blocks]
  | cons entry entries inductionHypothesis =>
      have later : ctx.cmds = some ((before ++ [entry]) ++ entries) := by simpa using cmds
      rw [List.length_cons, freePrivs, load_eq cmds, ok_bind]
      cases priv : entry.priv with
      | none =>
          have same : blocks (entry :: entries) = blocks entries := by simp [blocks, priv]
          rw [same] at live distinct ⊢
          have continues := inductionHypothesis later live distinct
          rw [List.length_append] at continues
          exact continues
      | some addr =>
          have more : blocks (entry :: entries) = addr :: blocks entries := by
            simp [blocks, priv]
          rw [more] at live distinct ⊢
          obtain ⟨notLater, distinct⟩ := List.nodup_cons.mp distinct
          have stillLive : ∀ other ∈ blocks entries, (heap.without [addr] other).isSome := by
            intro other member
            rw [Heap.without_of_notMem]
            · exact live other (List.mem_cons_of_mem _ member)
            · rw [List.mem_singleton]
              rintro rfl
              exact notLater member
          have continues := inductionHypothesis later stillLive distinct
          rw [List.length_append] at continues
          simp only [Heap.free_of_live (live addr (by simp))]
          rw [show before.length + 1 = before.length + [entry].length from rfl, continues,
            ok_bind, Heap.without_cons]

end Entries

/-- The context of a device that has announced `n` requests and recorded entries. -/
def DevCtx.recording (n : Nat) (entries : List SeqEntry) : DevCtx :=
  ⟨some (entries ++ List.replicate (n - entries.length) ⟨none, none⟩), n, entries.length⟩

structure Represents (heap : Heap Block) (ctx : DevCtx) (n : Nat) (entries : List SeqEntry)
    (requests : List Request) : Prop where
  ctxIs : ctx = .recording n entries
  room : entries.length ≤ n
  holds : List.Forall₂ (Holds heap) entries requests

def Request.exec : Request → ExecFn
  | .setClk _ => .setClk
  | .csAssert => .csAssert
  | .csDeassert => .csDeassert
  | .xfer .. => .xfer
  | .delay _ => .delay

def Request.block : Request → Option Block
  | .xfer tx rx len => some (.xferArgs tx rx len)
  | .delay delayNs => some (.delayNs delayNs)
  | _ => none

/-- The entry of a request, unless its block could not be allocated. -/
def Request.entry (request : Request) (malloc : Option Addr) : Option SeqEntry :=
  match request.block, malloc with
  | none, _ => some ⟨some request.exec, none⟩
  | some _, none => none
  | some _, some addr => some ⟨some request.exec, some addr⟩

def Request.allocate (request : Request) (malloc : Option Addr) (heap : Heap Block) :
    Heap Block :=
  match request.block, malloc with
  | some block, some addr => heap.alloc addr block
  | _, _ => heap

section Contexts

variable {state : State Dev Bus} {dev : Dev} {heap : Heap Block} {ctx : DevCtx} {n : Nat}
  {entry : SeqEntry} {entries : List SeqEntry} {request : Request} {requests : List Request}
  {malloc : Option Addr}

theorem record_eq (exec : ExecFn) (priv : Option Addr) (room : entries.length ≤ n) :
    (DevCtx.recording n entries).record exec priv =
      if entries.length < n then .ok (.recording n (entries ++ [⟨some exec, priv⟩]))
      else .error .outOfBounds := by
  by_cases left : entries.length < n
  · obtain ⟨rest, more⟩ : ∃ rest, n - entries.length = rest + 1 :=
      ⟨n - entries.length - 1, by omega⟩
    have fewer : n - (entries.length + 1) = rest := by omega
    simp [DevCtx.record, DevCtx.recording, left, more, fewer, List.replicate_succ]
  · have full : n - entries.length = 0 := by omega
    simp [DevCtx.record, DevCtx.recording, left, full]

theorem blocks_recording (n : Nat) (entries : List SeqEntry) :
    blocks ((DevCtx.recording n entries).cmds.getD []) = blocks entries := by
  simp [DevCtx.recording, blocks, List.filterMap_append]

omit [DecidableEq Bus] in
theorem spiReq_of_room (ctxIs : state.devs dev = .recording n entries)
    (room : entries.length < n) (valid : request ≠ .setClk none) :
    spiReq state dev request malloc =
      match request.entry malloc with
      | none => .ok (state, ⟨.errNoMemory, [], []⟩)
      | some entry =>
          .ok ({ state.setDev dev (.recording n (entries ++ [entry])) with
              heap := request.allocate malloc state.heap },
            ⟨.noError, blocks [entry], []⟩) := by
  have recorded (exec : ExecFn) (priv : Option Addr) :
      (state.devs dev).record exec priv = .ok (.recording n (entries ++ [⟨some exec, priv⟩])) := by
    rw [ctxIs, record_eq exec priv room.le, if_pos room]
  have active : spiDevSeqActive (state.devs dev) = true := by
    rw [ctxIs]
    rfl
  have left : (state.devs dev).currCmd < (state.devs dev).numCmds := by
    rw [ctxIs]
    exact room
  cases request with
  | setClk clkHz =>
      have given : clkHz ≠ none := by
        rintro rfl
        exact valid rfl
      simp [spiReq, spiReqSetClk, assert, given, recordPlain, recorded, Request.entry,
        Request.block, Request.exec, Request.allocate, State.setDev, blocks]
  | csAssert | csDeassert =>
      simp [spiReq, spiReqCsAssert, spiReqCsDeassert, assert, active, left, recordPlain, recorded,
        Request.entry, Request.block, Request.exec, Request.allocate, State.setDev, blocks]
  | xfer tx rx len =>
      cases malloc with
      | none =>
          simp [spiReq, spiReqXfer, assert, active, left, recordWith, Request.entry, Request.block]
      | some addr =>
          simp [spiReq, spiReqXfer, assert, active, left, recordWith, recorded, Request.entry,
            Request.block, Request.exec, Request.allocate, State.setDev, blocks]
  | delay delayNs =>
      cases malloc with
      | none => simp [spiReq, spiReqDelay, recordWith, Request.entry, Request.block]
      | some addr =>
          simp [spiReq, spiReqDelay, recordWith, recorded, Request.entry, Request.block,
            Request.exec, Request.allocate, State.setDev, blocks]

omit [DecidableEq Bus] in
theorem spiSeqBegin_eq (idle : state.devs dev = .idle) (n : Nat) :
    spiSeqBegin state dev n true =
      .ok (state.setDev dev (.recording n []), ⟨.noError, [], []⟩) := by
  simp [spiSeqBegin, assert, idle, DevCtx.idle, spiDevSeqActive, DevCtx.recording]

theorem entry_holds (entryIs : request.entry malloc = some entry) :
    Holds (request.allocate malloc heap) entry request := by
  cases request with
  | setClk clkHz =>
      obtain rfl := Option.some.inj entryIs
      exact .setClk clkHz
  | csAssert =>
      obtain rfl := Option.some.inj entryIs
      exact .csAssert
  | csDeassert =>
      obtain rfl := Option.some.inj entryIs
      exact .csDeassert
  | xfer tx rx len =>
      cases malloc with
      | none => cases entryIs
      | some addr =>
          obtain rfl := Option.some.inj entryIs
          exact .xfer Heap.alloc_self
  | delay delayNs =>
      cases malloc with
      | none => cases entryIs
      | some addr =>
          obtain rfl := Option.some.inj entryIs
          exact .delay Heap.alloc_self

/-- Only a failed allocation leaves a request without an entry. -/
theorem entry_eq_none (missing : request.entry malloc = none) : malloc = none := by
  unfold Request.entry at missing
  split at missing
  · cases missing
  · rfl
  · cases missing

theorem entry_block (entryIs : request.entry malloc = some entry) {addr : Addr}
    (member : addr ∈ blocks [entry]) : malloc = some addr := by
  unfold Request.entry at entryIs
  split at entryIs
  · obtain rfl := Option.some.inj entryIs
    simp [blocks] at member
  · cases entryIs
  next allocated _ =>
    obtain rfl := Option.some.inj entryIs
    have same : addr = allocated := by simpa [blocks] using member
    rw [same]

theorem nodup_blocks_singleton (entry : SeqEntry) : (blocks [entry]).Nodup := by
  cases priv : entry.priv <;> simp [blocks, priv]

theorem allocate_of_notMem (entryIs : request.entry malloc = some entry) {addr : Addr}
    (other : addr ∉ blocks [entry]) : request.allocate malloc heap addr = heap addr := by
  unfold Request.entry at entryIs
  unfold Request.allocate
  split at entryIs
  next none => simp [none]
  next => cases entryIs
  next allocated blockIs =>
    obtain rfl := Option.some.inj entryIs
    have ne : addr ≠ allocated := by simpa [blocks] using other
    simp only [blockIs]
    exact Heap.alloc_of_ne ne

theorem Represents.extend (represents : Represents heap ctx n entries requests)
    (room : entries.length < n) (entryIs : request.entry malloc = some entry)
    (fresh : ∀ addr ∈ blocks [entry], heap addr = none) :
    Represents (request.allocate malloc heap) (.recording n (entries ++ [entry])) n
      (entries ++ [entry]) (requests ++ [request]) where
  ctxIs := rfl
  room := by
    rw [List.length_append]
    exact room
  holds := by
    apply List.rel_append
    · apply forall₂_of_agree represents.holds
      intro addr member
      apply allocate_of_notMem entryIs
      intro isNew
      have live := live_of_forall₂ represents.holds member
      rw [fresh addr isNew] at live
      cases live
    · exact .cons (entry_holds entryIs) .nil

omit [DecidableEq Bus] in
/-- Clearing up a sequence frees the blocks of its entries and nothing else. -/
theorem spiSeqFree_eq (represents : Represents state.heap (state.devs dev) n entries requests)
    (distinct : (blocks entries).Nodup) :
    spiSeqFree state dev =
      .ok ({ state.setDev dev .idle with heap := state.heap.without (blocks entries) },
        ⟨.noError, [], blocks entries⟩) := by
  have cmds : (state.devs dev).cmds =
      some ([] ++ (entries ++ List.replicate (n - entries.length) ⟨none, none⟩)) := by
    rw [represents.ctxIs]
    rfl
  have size : (state.devs dev).numCmds =
      (entries ++ List.replicate (n - entries.length) (⟨none, none⟩ : SeqEntry)).length := by
    have room := represents.room
    rw [represents.ctxIs, List.length_append, List.length_replicate]
    simp only [DevCtx.recording]
    omega
  have same : blocks (entries ++ List.replicate (n - entries.length) ⟨none, none⟩) =
      blocks entries := blocks_recording n entries
  have freed := freePrivs_eq cmds
    (fun addr member => live_of_forall₂ represents.holds (same ▸ member)) (same.symm ▸ distinct)
  rw [same, ← size] at freed
  simp only [spiSeqFree]
  rw [show (0 : Nat) = ([] : List SeqEntry).length from rfl, freed]
  rfl

omit [DecidableEq Bus] in
theorem spiSeqAbort_eq (represents : Represents state.heap (state.devs dev) n entries requests)
    (distinct : (blocks entries).Nodup) :
    spiSeqAbort state dev =
      .ok ({ state.setDev dev .idle with heap := state.heap.without (blocks entries) },
        ⟨.noError, [], blocks entries⟩) := by
  have active : spiDevSeqActive (state.devs dev) = true := by
    rw [represents.ctxIs]
    rfl
  simp [spiSeqAbort, assert, active, spiSeqFree_eq represents distinct]

/-- Committing a complete sequence runs its requests and clears it up. -/
theorem spiSeqCommit_eq {board : Board Dev Bus}
    (represents : Represents state.heap (state.devs dev) n entries requests)
    (distinct : (blocks entries).Nodup) (complete : entries.length = n) :
    spiSeqCommit board state dev =
      match runAll board dev requests state.world with
      | .error assertion => .error (.assertFailed assertion)
      | .ok world =>
          .ok ({ (state.withWorld world).setDev dev .idle with
              heap := state.heap.without (blocks entries) },
            ⟨.noError, [], blocks entries⟩) := by
  have active : spiDevSeqActive (state.devs dev) = true := by
    rw [represents.ctxIs]
    rfl
  have done : (state.devs dev).currCmd = (state.devs dev).numCmds := by
    rw [represents.ctxIs]
    exact complete
  have size : (state.devs dev).numCmds = entries.length := by
    rw [represents.ctxIs]
    exact complete.symm
  have cmds : (state.devs dev).cmds = some ([] ++ entries) := by
    simp [represents.ctxIs, DevCtx.recording, complete]
  have ran : execCmds board _ _ _ _ = _ := execCmds_eq cmds rfl represents.holds
  simp only [spiSeqCommit, assert, active, done, if_true, ok_bind]
  rw [size, show (0 : Nat) = ([] : List SeqEntry).length from rfl, ran]
  cases runAll board dev requests state.world with
  | error assertion => rfl
  | ok world =>
      have kept : Represents (state.withWorld world).heap ((state.withWorld world).devs dev) n
        entries requests := represents
      exact spiSeqFree_eq kept distinct

end Contexts

end TrustyApp.Swspi
