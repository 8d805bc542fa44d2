import TrustyApp.Library.Refinement
import TrustyApp.Swspi.Bounds

/-!
# Sequences as transactions

The driver with the clients of all its devices, who write to their buffers at any time
between its calls.  It refines a machine without an array and without a heap, in which a
sequence is a list of requests that takes effect as a whole when it is committed.
-/

namespace TrustyApp.Swspi

open Memory Reactive Refinement

variable {Dev Bus : Type} [DecidableEq Dev] [DecidableEq Bus]

/-- A call of the driver, or a client that writes to a buffer. -/
inductive Action (Dev : Type)
  | call (event : Event Dev)
  | store (write : Write)

def Action.Enabled (state : State Dev Bus) : Action Dev → Prop
  | .call event => Swspi.Enabled state event
  | .store _ => True

def State.act (board : Board Dev Bus) (state : State Dev Bus) :
    Action Dev → Except Halt (State Dev Bus × Option Output)
  | .call event => do
      let (state, output) ← perform board state event
      .ok (state, some output)
  | .store write => .ok ({ state with mem := state.mem.write write.addr write.bytes }, none)

/-- The driver, and clients that share its byte memory. -/
def driverWithClients (board : Board Dev Bus) (mem : Store) :
    System (State Dev Bus) (Action Dev) (Option Output) Halt where
  initial := (driver board mem).initial
  enabled state action := action.Enabled state
  handle := State.act board

/-- The requests that a device has announced and those it has made. -/
structure Sequence where
  numCmds : Nat
  requests : List Request
  room : requests.length ≤ numCmds

def Sequence.begun (numCmds : Nat) : Sequence := ⟨numCmds, [], Nat.zero_le numCmds⟩

def Sequence.append (sequence : Sequence) (request : Request)
    (left : sequence.requests.length < sequence.numCmds) : Sequence where
  numCmds := sequence.numCmds
  requests := sequence.requests ++ [request]
  room := by
    rw [List.length_append]
    exact left

def Sequence.Complete (sequence : Sequence) : Prop := sequence.requests.length = sequence.numCmds

instance (sequence : Sequence) : Decidable sequence.Complete :=
  inferInstanceAs (Decidable (_ = _))

def Request.Starved (request : Request) (malloc : Option Addr) : Prop :=
  request.block ≠ none ∧ malloc = none

instance (request : Request) (malloc : Option Addr) : Decidable (request.Starved malloc) :=
  inferInstanceAs (Decidable (_ ∧ _))

def Request.checksRoom : Request → Bool
  | .csAssert | .csDeassert | .xfer .. => true
  | .setClk _ | .delay _ => false

/-- A master of the buses, and the memory its clients have access to. -/
structure Master (Dev Bus : Type) where
  sequences : Dev → Option Sequence
  world : World Dev Bus

def Master.set (master : Master Dev Bus) (dev : Dev) (sequence : Option Sequence) :
    Master Dev Bus :=
  { master with sequences := Function.update master.sequences dev sequence }

def Master.begin (master : Master Dev Bus) (dev : Dev) (numCmds : Nat) (calloc : Bool) :
    Except Halt (Master Dev Bus × Rc) :=
  match master.sequences dev with
  | some _ => .error (.assertFailed .seqNotActive)
  | none =>
      if calloc then
        .ok (master.set dev (some (.begun numCmds)), .noError)
      else .ok (master, .errNoMemory)

def Master.refuse (master : Master Dev Bus) (request : Request) (malloc : Option Addr)
    (assertion : Assertion) : Except Halt (Master Dev Bus × Rc) :=
  if request.checksRoom then .error (.assertFailed assertion)
  else if request.Starved malloc then .ok (master, .errNoMemory)
  else .error .outOfBounds

def Master.request (master : Master Dev Bus) (dev : Dev) (request : Request)
    (malloc : Option Addr) : Except Halt (Master Dev Bus × Rc) :=
  if request = .setClk none then .error (.assertFailed .clkHz)
  else
    match master.sequences dev with
    | none => master.refuse request malloc .seqActive
    | some sequence =>
        if left : sequence.requests.length < sequence.numCmds then
          if request.Starved malloc then .ok (master, .errNoMemory)
          else .ok (master.set dev (some (sequence.append request left)), .noError)
        else master.refuse request malloc .cmdLeft

/-- All requests of the sequence at once. -/
def Master.commit (board : Board Dev Bus) (master : Master Dev Bus) (dev : Dev) :
    Except Halt (Master Dev Bus × Rc) :=
  match master.sequences dev with
  | none => .error (.assertFailed .seqActive)
  | some sequence =>
      if sequence.Complete then
        match runAll board dev sequence.requests master.world with
        | .error assertion => .error (.assertFailed assertion)
        | .ok world => .ok ({ master.set dev none with world }, .noError)
      else .error (.assertFailed .seqComplete)

def Master.abort (master : Master Dev Bus) (dev : Dev) : Except Halt (Master Dev Bus × Rc) :=
  match master.sequences dev with
  | none => .error (.assertFailed .seqActive)
  | some _ => .ok (master.set dev none, .noError)

def Master.perform (board : Board Dev Bus) (master : Master Dev Bus) (event : Event Dev) :
    Except Halt (Master Dev Bus × Rc) :=
  match event.call with
  | .seqBegin numCmds calloc => master.begin event.dev numCmds calloc
  | .request request malloc => master.request event.dev request malloc
  | .seqCommit => master.commit board event.dev
  | .seqAbort => master.abort event.dev

def Master.act (board : Board Dev Bus) (master : Master Dev Bus) :
    Action Dev → Except Halt (Master Dev Bus × Option Rc)
  | .call event => do
      let (master, rc) ← master.perform board event
      .ok (master, some rc)
  | .store write =>
      .ok ({ master with world :=
        { master.world with mem := master.world.mem.write write.addr write.bytes } }, none)

def masterWithClients (board : Board Dev Bus) (mem : Store) :
    System (Master Dev Bus) (Action Dev) (Option Rc) Halt where
  initial := ⟨fun _ => none, fun _ => none, mem⟩
  enabled _ _ := True
  handle := Master.act board

variable {board : Board Dev Bus} {state post : State Dev Bus} {master : Master Dev Bus}
  {dev : Dev} {heap heap' : Heap Block} {ctx : DevCtx}

inductive Shows (heap : Heap Block) (ctx : DevCtx) : Option Sequence → Prop
  | idle : ctx = .idle → Shows heap ctx none
  | active {entries : List SeqEntry} (sequence : Sequence) :
      Represents heap ctx sequence.numCmds entries sequence.requests →
      Shows heap ctx (some sequence)

theorem Shows.of_agree {shown : Option Sequence} (shows : Shows heap ctx shown)
    (agree : ∀ addr ∈ ctx.privs, heap' addr = heap addr) : Shows heap' ctx shown := by
  cases shows with
  | idle idle => exact .idle idle
  | active sequence represents =>
      rw [represents.privs_eq] at agree
      exact .active sequence ⟨represents.ctxIs, represents.room,
        forall₂_of_agree represents.holds agree⟩

theorem Shows.represents {sequence : Sequence} (shows : Shows heap ctx (some sequence)) :
    ∃ entries, Represents heap ctx sequence.numCmds entries sequence.requests := by
  cases shows with
  | active sequence represents => exact ⟨_, represents⟩

theorem Shows.isIdle (shows : Shows heap ctx none) : ctx = .idle := by
  cases shows with
  | idle idle => exact idle

theorem Shows.active_eq {shown : Option Sequence} (shows : Shows heap ctx shown) :
    spiDevSeqActive ctx = shown.isSome := by
  cases shows with
  | idle idle =>
      rw [idle]
      rfl
  | active sequence represents =>
      rw [represents.ctxIs]
      rfl

structure Abs (state : State Dev Bus) (master : Master Dev Bus) : Prop where
  invariant : Invariant state
  sequences : ∀ dev, Shows state.heap (state.devs dev) (master.sequences dev)
  world : state.world = master.world

def Matches (result : State Dev Bus × Output) (followed : Master Dev Bus × Rc) : Prop :=
  Abs result.1 followed.1 ∧ result.2.rc = followed.2

omit [DecidableEq Bus] in
theorem Abs.change (abs : Abs state master) {owner : Bus → Option Dev} {mem : Store}
    {sequence : Option Sequence}
    (invariant : Invariant ⟨Function.update state.devs dev ctx, owner, heap, mem⟩)
    (shows : Shows heap ctx sequence)
    (agree : ∀ other, other ≠ dev → ∀ addr ∈ (state.devs other).privs,
      heap addr = state.heap addr) :
    Abs ⟨Function.update state.devs dev ctx, owner, heap, mem⟩
      { master.set dev sequence with world := ⟨owner, mem⟩ } where
  invariant := invariant
  sequences other := by
    by_cases same : other = dev
    · subst same
      simpa [Master.set] using shows
    · simpa [Master.set, same] using (abs.sequences other).of_agree (agree other same)
  world := rfl

omit [DecidableEq Bus] in
theorem Abs.setDev (abs : Abs state master) {sequence : Option Sequence}
    (invariant : Invariant { state.setDev dev ctx with heap }) (shows : Shows heap ctx sequence)
    (agree : ∀ other, other ≠ dev → ∀ addr ∈ (state.devs other).privs,
      heap addr = state.heap addr) :
    Abs { state.setDev dev ctx with heap } (master.set dev sequence) := by
  have changed := abs.change invariant shows agree
  have same : ({ master.set dev sequence with world := state.world } : Master Dev Bus) =
      master.set dev sequence := by rw [abs.world]; rfl
  exact same ▸ changed

theorem entry_eq_none_iff {request : Request} {malloc : Option Addr} :
    request.entry malloc = none ↔ request.Starved malloc := by
  cases request <;> cases malloc <;> simp [Request.entry, Request.block, Request.Starved]

omit [DecidableEq Bus] in
theorem checked_of_noRoom {request : Request} (checks : request.checksRoom = true)
    (noRoom : NoRoom (state.devs dev)) (malloc : Option Addr) :
    spiReq state dev request malloc =
      .error (.assertFailed (if spiDevSeqActive (state.devs dev) then .cmdLeft
        else .seqActive)) := by
  have asserted (next : Except Halt (State Dev Bus × Output)) :
      (do
        assert (spiDevSeqActive (state.devs dev)) .seqActive
        assert ((state.devs dev).currCmd < (state.devs dev).numCmds) .cmdLeft
        next) = .error (.assertFailed (if spiDevSeqActive (state.devs dev) then .cmdLeft
          else .seqActive)) := by
    cases active : spiDevSeqActive (state.devs dev) with
    | false => rfl
    | true =>
        have full : (state.devs dev).numCmds ≤ (state.devs dev).currCmd := by
          rcases noRoom with inactive | full
          · rw [active] at inactive
            cases inactive
          · exact full
        simp [assert, not_lt.mpr full]
  cases request with
  | setClk | delay => cases checks
  | csAssert | csDeassert | xfer => exact asserted _

omit [DecidableEq Bus] in
theorem refuse_agrees (abs : Abs state master) (noRoom : NoRoom (state.devs dev))
    {request : Request} (valid : request ≠ .setClk none) (malloc : Option Addr) :
    Agrees Matches (spiReq state dev request malloc)
      (master.refuse request malloc
        (if spiDevSeqActive (state.devs dev) then .cmdLeft else .seqActive)) := by
  cases checks : request.checksRoom with
  | true =>
      rw [checked_of_noRoom checks noRoom, Master.refuse, checks]
      exact .halts _
  | false =>
      have unchecked : request.Unchecked := by
        cases request with
        | csAssert | csDeassert | xfer => cases checks
        | delay => trivial
        | setClk clkHz =>
            rintro rfl
            exact valid rfl
      rw [spiReq_of_unchecked (abs.invariant.consistent dev) noRoom unchecked, Master.refuse,
        checks]
      simp only [entry_eq_none_iff, Bool.false_eq_true, if_false]
      split
      · exact .returns ⟨abs, rfl⟩
      · exact .halts _

omit [DecidableEq Bus] in
theorem request_agrees (abs : Abs state master) (request : Request) (malloc : Option Addr)
    (enabled : Enabled state ⟨dev, .request request malloc⟩) :
    Agrees Matches (spiReq state dev request malloc) (master.request dev request malloc) := by
  by_cases invalid : request = .setClk none
  · subst invalid
    exact .halts _
  rw [Master.request, if_neg invalid]
  have shows := abs.sequences dev
  cases sequenceIs : master.sequences dev with
  | none =>
      rw [sequenceIs] at shows
      have inactive : spiDevSeqActive (state.devs dev) = false := shows.active_eq
      have refused := refuse_agrees abs (.inl inactive) invalid malloc
      rwa [inactive] at refused
  | some sequence =>
      rw [sequenceIs] at shows
      have active : spiDevSeqActive (state.devs dev) = true := shows.active_eq
      obtain ⟨entries, represents⟩ := shows.represents
      have length := represents.holds.length_eq
      by_cases left : sequence.requests.length < sequence.numCmds
      · have room : entries.length < sequence.numCmds := by omega
        simp only [left, dif_pos, ← entry_eq_none_iff]
        rw [spiReq_of_room represents.ctxIs room invalid]
        cases entryIs : request.entry malloc with
        | none => exact .returns ⟨abs, rfl⟩
        | some entry =>
            have fresh : ∀ addr ∈ blocks [entry], state.heap addr = none := by
              intro addr member
              obtain rfl := entry_block entryIs member
              exact enabled request addr rfl
            have extended := represents.extend room entryIs fresh
            have recorded := abs.invariant.recorded represents room entryIs fresh
            refine .returns ⟨?_, rfl⟩
            apply abs.setDev recorded (.active (sequence.append request left) extended)
            intro other ne addr member
            apply allocate_of_notMem entryIs
            intro new
            have live := (abs.invariant.consistent other).live member
            rw [fresh addr new] at live
            cases live
      · have full : NoRoom (state.devs dev) := by
          rw [noRoom_iff represents.ctxIs]
          omega
        have refused := refuse_agrees abs full invalid malloc
        rw [active, if_pos rfl] at refused
        simpa only [left, dif_neg, not_false_eq_true] using refused

omit [DecidableEq Bus] in
theorem begin_agrees (abs : Abs state master) (numCmds : Nat) (calloc : Bool) :
    Agrees Matches (spiSeqBegin state dev numCmds calloc) (master.begin dev numCmds calloc) := by
  have shows := abs.sequences dev
  cases sequenceIs : master.sequences dev with
  | some sequence =>
      rw [sequenceIs] at shows
      have active : spiDevSeqActive (state.devs dev) = true := shows.active_eq
      simp only [spiSeqBegin, Master.begin, sequenceIs, assert, active]
      exact .halts _
  | none =>
      rw [sequenceIs] at shows
      have idle := shows.isIdle
      cases calloc with
      | true =>
          simp only [Master.begin, sequenceIs, if_true]
          rw [spiSeqBegin_eq idle]
          refine .returns ⟨?_, rfl⟩
          have begun : Represents state.heap (.recording numCmds []) numCmds [] [] :=
            ⟨rfl, Nat.zero_le numCmds, .nil⟩
          exact abs.setDev (abs.invariant.begun numCmds) (.active (.begun numCmds) begun)
            fun _ _ _ _ => rfl
      | false =>
          have unchanged : state.setDev dev .idle = state := by
            rw [State.setDev, ← idle, Function.update_eq_self]
          have returned : spiSeqBegin state dev numCmds false =
              .ok (state, ⟨.errNoMemory, [], []⟩) := by
            nth_rewrite 2 [← unchanged]
            simp [spiSeqBegin, assert, idle, DevCtx.idle, spiDevSeqActive]
          rw [returned]
          simp only [Master.begin, sequenceIs]
          exact .returns ⟨abs, rfl⟩

omit [DecidableEq Dev] [DecidableEq Bus] in
theorem without_of_other (invariant : Invariant state) {n : Nat} {entries : List SeqEntry}
    {requests : List Request}
    (represents : Represents state.heap (state.devs dev) n entries requests) {other : Dev}
    (ne : other ≠ dev) {addr : Addr} (member : addr ∈ (state.devs other).privs) :
    state.heap.without (blocks entries) addr = state.heap addr := by
  apply Heap.without_of_notMem
  rw [← represents.privs_eq]
  exact invariant.separate other dev ne addr member

theorem commit_agrees (abs : Abs state master) :
    Agrees Matches (spiSeqCommit board state dev) (master.commit board dev) := by
  have shows := abs.sequences dev
  cases sequenceIs : master.sequences dev with
  | none =>
      rw [sequenceIs] at shows
      have inactive : spiDevSeqActive (state.devs dev) = false := shows.active_eq
      simp only [spiSeqCommit, Master.commit, sequenceIs, assert, inactive]
      exact .halts _
  | some sequence =>
      rw [sequenceIs] at shows
      obtain ⟨entries, represents⟩ := shows.represents
      have length := represents.holds.length_eq
      have distinct := represents.privs_eq ▸ abs.invariant.distinct dev
      by_cases complete : sequence.Complete
      · have full : entries.length = sequence.numCmds := length.trans complete
        simp only [Master.commit, sequenceIs, complete, if_true]
        rw [spiSeqCommit_eq represents distinct full, abs.world]
        cases runAll board dev sequence.requests master.world with
        | error assertion => exact .halts _
        | ok world =>
            refine .returns ⟨?_, rfl⟩
            exact abs.change (abs.invariant.freed represents) (.idle rfl)
              fun other ne addr member => without_of_other abs.invariant represents ne member
      · have partly : ¬ (state.devs dev).currCmd = (state.devs dev).numCmds := by
          rw [represents.ctxIs]
          exact fun full => complete (length.symm.trans full)
        have active : spiDevSeqActive (state.devs dev) = true := shows.active_eq
        simp only [spiSeqCommit, Master.commit, sequenceIs, assert, active, partly, complete]
        exact .halts _

omit [DecidableEq Bus] in
theorem abort_agrees (abs : Abs state master) :
    Agrees Matches (spiSeqAbort state dev) (master.abort dev) := by
  have shows := abs.sequences dev
  cases sequenceIs : master.sequences dev with
  | none =>
      rw [sequenceIs] at shows
      have inactive : spiDevSeqActive (state.devs dev) = false := shows.active_eq
      simp only [spiSeqAbort, Master.abort, sequenceIs, assert, inactive]
      exact .halts _
  | some sequence =>
      rw [sequenceIs] at shows
      obtain ⟨entries, represents⟩ := shows.represents
      have distinct := represents.privs_eq ▸ abs.invariant.distinct dev
      simp only [Master.abort, sequenceIs]
      rw [spiSeqAbort_eq represents distinct]
      refine .returns ⟨?_, rfl⟩
      exact abs.setDev (abs.invariant.freed represents) (.idle rfl)
        fun other ne addr member => without_of_other abs.invariant represents ne member

/-- Every call does the same to the driver and to the master, and stops both of them for
the same reason. -/
theorem perform_agrees (abs : Abs state master) {event : Event Dev}
    (enabled : Enabled state event) :
    Agrees Matches (perform board state event) (master.perform board event) := by
  obtain ⟨dev, call⟩ := event
  cases call with
  | seqBegin numCmds calloc => exact begin_agrees abs numCmds calloc
  | request request malloc => exact request_agrees abs request malloc enabled
  | seqCommit => exact commit_agrees abs
  | seqAbort => exact abort_agrees abs

section Runs

variable {mem : Store}

theorem abs_initial :
    Abs (driverWithClients board mem).initial (masterWithClients board mem).initial where
  invariant := by
    have start : Reachable (driver board mem) _ := .start
    exact invariant_of_reachable start
  sequences _ := .idle rfl
  world := rfl

theorem lockStep : LockStep (driverWithClients board mem) (masterWithClients board mem) Abs
    (Option.map Output.rc) where
  initially := abs_initial
  enabled _ _ := trivial
  agrees := by
    intro state master action abs enabled
    cases action with
    | store write =>
        refine .returns ⟨⟨?_, abs.sequences, ?_⟩, rfl⟩
        · exact ⟨abs.invariant.consistent, abs.invariant.distinct, abs.invariant.separate⟩
        · simp [← abs.world, State.world]
    | call event =>
        simp only [driverWithClients, State.act, masterWithClients, Master.act]
        have agrees : Agrees Matches (perform board state event) _ := perform_agrees abs enabled
        generalize perform board state event = performed at agrees ⊢
        generalize master.perform board event = followed at agrees ⊢
        cases agrees with
        | halts halt => exact .halts halt
        | returns both => exact .returns ⟨both.1, congrArg some both.2⟩

def seen (step : Step (State Dev Bus) (Action Dev) (Option Output)) : Action Dev × Option Rc :=
  (step.event, step.output.map Output.rc)

theorem exists_master {history : List (Step (State Dev Bus) (Action Dev) (Option Output))}
    (run : Exec (driverWithClients board mem) history state) :
    ∃ followed master, Exec (masterWithClients board mem) followed master ∧
      followed.map (fun step => (step.event, step.output)) = history.map seen ∧
      Abs state master := by
  obtain ⟨followed, master, followedRun, abs, same⟩ := lockStep.simulation.run run
  refine ⟨followed, master, followedRun, ?_, abs⟩
  rw [same]
  exact congrFun List.filterMap_eq_map' history

/-- However the calls for different devices and the writes of their clients alternate, the
driver does what the master does, who runs the requests of a sequence at once when it is
committed: calls return the same and stop for the same reasons, and the buses and the
buffers are the same after each of them. -/
theorem sequences_run_at_commit
    {history : List (Step (State Dev Bus) (Action Dev) (Option Output))}
    (run : Exec (driverWithClients board mem) history state) :
    ∃ followed master, Exec (masterWithClients board mem) followed master ∧
      followed.map (fun step => (step.event, step.output)) = history.map seen ∧
      master.world = state.world ∧
      (∀ dev, (master.sequences dev).isSome = spiDevSeqActive (state.devs dev)) ∧
      ∀ action, action.Enabled state →
        (state.act board action).map (fun result => result.2.map Output.rc) =
          (master.act board action).map Prod.snd := by
  obtain ⟨followed, master, followedRun, same, abs⟩ := exists_master run
  refine ⟨followed, master, followedRun, same, abs.world.symm, ?_, ?_⟩
  · intro dev
    exact (abs.sequences dev).active_eq.symm
  · intro action enabled
    have inStep : LockStep (driverWithClients board mem) (masterWithClients board mem) Abs _ :=
      lockStep
    exact inStep.answer_eq abs enabled

end Runs

def pairBoard : Board Bool Bool := ⟨id, fun _ => true, fun _ _ => 0⟩

def pairSystem : System (State Bool Bool) (Action Bool) (Option Output) Halt :=
  driverWithClients pairBoard fun _ => 0

def pairStep (pre : State Bool Bool) (action : Action Bool) :
    Step (State Bool Bool) (Action Bool) (Option Output) :=
  match pre.act pairBoard action with
  | .ok (post, output) => ⟨pre, action, output, post⟩
  | .error _ => ⟨pre, action, none, pre⟩

/-- The second device begins a sequence, and the first one a transfer of two bytes from
address 7 to address 20. -/
def beginOther : Step (State Bool Bool) (Action Bool) (Option Output) :=
  pairStep pairSystem.initial (.call ⟨true, .seqBegin 1 true⟩)

def beginFirst : Step (State Bool Bool) (Action Bool) (Option Output) :=
  pairStep beginOther.post (.call ⟨false, .seqBegin 1 true⟩)

def requestFirst : Step (State Bool Bool) (Action Bool) (Option Output) :=
  pairStep beginFirst.post (.call ⟨false, .request (.xfer (some 7) (some 20) 2) (some 64)⟩)

/-- Its client fills the buffer in only now. -/
def storeFirst : Step (State Bool Bool) (Action Bool) (Option Output) :=
  pairStep requestFirst.post (.store ⟨7, [1, 2]⟩)

def commitFirst : Step (State Bool Bool) (Action Bool) (Option Output) :=
  pairStep storeFirst.post (.call ⟨false, .seqCommit⟩)

theorem requestFirst_exec :
    Exec pairSystem [requestFirst, beginFirst, beginOther] requestFirst.post := by
  have other : pairSystem.Performs beginOther := ⟨nofun, rfl⟩
  have first : pairSystem.Performs beginFirst := ⟨nofun, rfl⟩
  have requested : pairSystem.Performs requestFirst := by
    refine ⟨?_, rfl⟩
    intro request addr callIs
    rfl
  exact ((Exec.start.step other).step first).step requested

theorem commitFirst_exec :
    Exec pairSystem [commitFirst, storeFirst, requestFirst, beginFirst, beginOther]
      commitFirst.post := by
  have stored : pairSystem.Performs storeFirst := ⟨trivial, rfl⟩
  have committed : pairSystem.Performs commitFirst := ⟨nofun, rfl⟩
  exact (requestFirst_exec.step stored).step committed

theorem sequences_run_at_commit_pair : ∃ master : Master Bool Bool,
    Reachable (masterWithClients pairBoard fun _ => 0) master ∧
      master.world.mem.read 20 2 = [1, 2] ∧ (master.sequences true).isSome ∧
      master.sequences false = none := by
  obtain ⟨followed, master, run, -, world, active, -⟩ := sequences_run_at_commit commitFirst_exec
  refine ⟨master, run.reachable, ?_, active true, ?_⟩
  · rw [world]
    rfl
  · exact Option.not_isSome_iff_eq_none.mp (ne_true_of_eq_false (active false))

end TrustyApp.Swspi
