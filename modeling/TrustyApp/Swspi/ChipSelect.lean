import TrustyApp.Library.Ownership
import TrustyApp.Swspi.Bounds

/-!
# Ownership of a bus

Chip-select requests acquire and release the bus of their device.  Whether a device may
do so is only checked when its sequence is committed, at which time the bus may have
another owner than when the sequence was recorded.
-/

namespace TrustyApp.Swspi

open Memory Ownership Reactive

variable {Dev Bus : Type} [DecidableEq Dev] [DecidableEq Bus] {board : Board Dev Bus}
  {state : State Dev Bus} {dev : Dev}

/-- What a function of the driver does to the ownership of the bus. -/
def ExecFn.turn : ExecFn → Option Turn
  | .csAssert => some .acquire
  | .csDeassert => some .release
  | _ => none

def DevCtx.chipSelects (ctx : DevCtx) : List Turn :=
  (ctx.cmds.getD []).filterMap fun entry => entry.exec.bind ExecFn.turn

/-- An assertion of `spi_req_exec_cs_assert` or `spi_req_exec_cs_deassert` fails. -/
def BusAssertFails (board : Board Dev Bus) (state : State Dev Bus) (dev : Dev) : Prop :=
  spiSeqCommit board state dev = .error (.assertFailed .busFree) ∨
    spiSeqCommit board state dev = .error (.assertFailed .busOwned)

section Requests

variable {request : Request} {world : World Dev Bus}

def turns (requests : List Request) : List Turn :=
  requests.filterMap fun request => request.exec.turn

theorem run_of_no_turn (board : Board Dev Bus) (dev : Dev) (world : World Dev Bus)
    (noTurn : request.exec.turn = none) :
    ∃ mem, request.run board dev world = .ok ⟨world.owner, mem⟩ := by
  cases request with
  | setClk | delay => exact ⟨world.mem, rfl⟩
  | csAssert | csDeassert => cases noTurn
  | xfer tx rx len =>
      cases rx with
      | none => exact ⟨world.mem, rfl⟩
      | some rx => exact ⟨_, rfl⟩

theorem run_of_turn {turn : Turn} (turnIs : request.exec.turn = some turn) :
    request.run board dev world =
      match turn.take dev (world.owner (board.bus dev)) with
      | some owner => .ok ⟨Function.update world.owner (board.bus dev) owner, world.mem⟩
      | none => .error (if turn = .acquire then .busFree else .busOwned) := by
  cases request with
  | setClk | xfer | delay => cases turnIs
  | csAssert =>
      obtain rfl := Option.some.inj turnIs
      by_cases free : world.owner (board.bus dev) = none
      · simp [Request.run, Turn.take, free]
      · simp [Request.run, Turn.take, free]
  | csDeassert =>
      obtain rfl := Option.some.inj turnIs
      by_cases own : world.owner (board.bus dev) = some dev
      · simp [Request.run, Turn.take, own]
      · simp [Request.run, Turn.take, own]

/-- Running requests succeeds if the device may take all their turns, and leaves the
owner after these turns. -/
theorem runAll_eq (board : Board Dev Bus) (dev : Dev) (requests : List Request)
    (world : World Dev Bus) :
    match takeAll dev (turns requests) (world.owner (board.bus dev)) with
    | some after => ∃ mem, runAll board dev requests world =
        .ok ⟨Function.update world.owner (board.bus dev) after, mem⟩
    | none => runAll board dev requests world = .error .busFree ∨
        runAll board dev requests world = .error .busOwned := by
  induction requests generalizing world with
  | nil =>
      refine ⟨world.mem, ?_⟩
      simp [runAll]
  | cons request requests inductionHypothesis =>
      cases turnIs : request.exec.turn with
      | none =>
          obtain ⟨mem, ran⟩ := run_of_no_turn board dev world turnIs
          have same : turns (request :: requests) = turns requests := by simp [turns, turnIs]
          rw [same, runAll, ran]
          exact inductionHypothesis ⟨world.owner, mem⟩
      | some turn =>
          have more : turns (request :: requests) = turn :: turns requests := by
            simp [turns, turnIs]
          rw [more, takeAll, runAll, run_of_turn turnIs]
          cases taken : turn.take dev (world.owner (board.bus dev)) with
          | none =>
              cases turn with
              | acquire => exact .inl rfl
              | release => exact .inr rfl
          | some owner =>
              have later := inductionHypothesis
                ⟨Function.update world.owner (board.bus dev) owner, world.mem⟩
              simpa using later

end Requests

theorem Holds.turn_eq {heap : Heap Block} {entry : SeqEntry} {request : Request}
    (holds : Holds heap entry request) : entry.exec.bind ExecFn.turn = request.exec.turn := by
  cases holds <;> rfl

theorem filterMap_turn_eq {heap : Heap Block} {entries : List SeqEntry}
    {requests : List Request} (holds : List.Forall₂ (Holds heap) entries requests) :
    entries.filterMap (fun entry => entry.exec.bind ExecFn.turn) = turns requests := by
  induction holds with
  | nil => rfl
  | cons held _ inductionHypothesis =>
      rw [turns, List.filterMap_cons, List.filterMap_cons, held.turn_eq, inductionHypothesis]
      rfl

theorem Represents.chipSelects_eq {heap : Heap Block} {ctx : DevCtx} {n : Nat}
    {entries : List SeqEntry} {requests : List Request}
    (represents : Represents heap ctx n entries requests) : ctx.chipSelects = turns requests := by
  rw [represents.ctxIs, ← filterMap_turn_eq represents.holds]
  simp [DevCtx.chipSelects, DevCtx.recording, List.filterMap_append]

structure DevCtx.Complete (ctx : DevCtx) : Prop where
  active : spiDevSeqActive ctx = true
  full : ctx.currCmd = ctx.numCmds

theorem spiSeqCommit_takeAll (board : Board Dev Bus) (invariant : Invariant state)
    (complete : (state.devs dev).Complete) :
    match takeAll dev (state.devs dev).chipSelects (state.owner (board.bus dev)) with
    | some after => ∃ post output, spiSeqCommit board state dev = .ok (post, output) ∧
        post.owner = Function.update state.owner (board.bus dev) after
    | none => BusAssertFails board state dev := by
  rcases invariant.consistent dev with idle | ⟨n, entries, requests, represents⟩
  · have active := complete.active
    rw [idle] at active
    cases active
  have full : entries.length = n := by
    have full := complete.full
    rw [represents.ctxIs] at full
    exact full
  have distinct := represents.privs_eq ▸ invariant.distinct dev
  have ran := runAll_eq board dev requests state.world
  have sameOwner : state.world.owner = state.owner := rfl
  rw [represents.chipSelects_eq, BusAssertFails, spiSeqCommit_eq represents distinct full]
  rw [sameOwner] at ran
  cases taken : takeAll dev (turns requests) (state.owner (board.bus dev)) with
  | none =>
      simp only [taken] at ran
      rcases ran with fails | fails
      · simp [fails]
      · simp [fails]
  | some after =>
      simp only [taken] at ran
      obtain ⟨mem, ran⟩ := ran
      rw [ran]
      exact ⟨_, _, rfl, rfl⟩

theorem BusAssertFails.complete (fails : BusAssertFails board state dev) :
    (state.devs dev).Complete := by
  have active : spiDevSeqActive (state.devs dev) = true := by
    by_contra inactive
    simp [BusAssertFails, spiSeqCommit, assert, inactive] at fails
  refine ⟨active, ?_⟩
  by_contra partly
  simp [BusAssertFails, spiSeqCommit, assert, active, partly] at fails

theorem not_busAssertFails_iff (board : Board Dev Bus) (invariant : Invariant state)
    (complete : (state.devs dev).Complete) :
    ¬ BusAssertFails board state dev ↔
      Fits dev (state.owner (board.bus dev)) (state.devs dev).chipSelects := by
  have commits := spiSeqCommit_takeAll board invariant complete
  cases taken : takeAll dev (state.devs dev).chipSelects (state.owner (board.bus dev)) with
  | none =>
      simp only [taken] at commits
      refine iff_of_false (not_not.mpr commits) ?_
      intro fits
      rw [takeAll_eq_some.mpr ⟨fits, rfl⟩] at taken
      cases taken
  | some after =>
      simp only [taken] at commits
      obtain ⟨post, output, commits, -⟩ := commits
      refine iff_of_true ?_ (takeAll_eq_some.mp taken).1
      rintro (fails | fails)
      · rw [commits] at fails
        cases fails
      · rw [commits] at fails
        cases fails

theorem owner_of_fits (board : Board Dev Bus) (invariant : Invariant state)
    (complete : (state.devs dev).Complete)
    (fits : Fits dev (state.owner (board.bus dev)) (state.devs dev).chipSelects) :
    ∃ post output, spiSeqCommit board state dev = .ok (post, output) ∧
      post.owner = Function.update state.owner (board.bus dev)
        (ownerAfter dev (state.owner (board.bus dev)) (state.devs dev).chipSelects) := by
  have commits := spiSeqCommit_takeAll board invariant complete
  rw [takeAll_eq_some.mpr ⟨fits, rfl⟩] at commits
  exact commits

theorem Outcome.owner {event : Event Dev} {post : State Dev Bus} {output : Output}
    (outcome : Outcome board state event (.ok (post, output)))
    (free : ∀ bus, state.owner bus = none)
    (paired : event.call = .seqCommit → Paired (state.devs event.dev).chipSelects) (bus : Bus) :
    post.owner bus = none := by
  cases outcome with
  | notBegun | begun | notRecorded | recorded | aborted => exact free bus
  | @committed dev n entries requests world represents _ ran =>
      have turnsPaired := represents.chipSelects_eq ▸ paired rfl
      have ends := runAll_eq board dev requests state.world
      rw [show state.world.owner (board.bus dev) = none from free _,
        takeAll_of_paired turnsPaired] at ends
      obtain ⟨mem, ends⟩ := ends
      obtain rfl := Except.ok.inj (ran.symm.trans ends)
      change Function.update state.owner (board.bus dev) none bus = none
      by_cases own : bus = board.bus dev
      · rw [own, Function.update_self]
      · rw [Function.update_of_ne own]
        exact free bus

/-- Sequences whose chip-select requests are paired leave every bus without an owner. -/
theorem owner_eq_none {mem : Store} {history : List (Step (State Dev Bus) (Event Dev) Output)}
    (run : Exec (driver board mem) history state)
    (paired : ∀ step ∈ history, step.event.call = .seqCommit →
      Paired (step.pre.devs step.event.dev).chipSelects) :
    ∀ bus, state.owner bus = none := by
  induction run with
  | start =>
      intro bus
      rfl
  | @step history step run performs inductionHypothesis =>
      have before := inductionHypothesis fun other member =>
        paired other (List.mem_cons_of_mem _ member)
      have outcome : Outcome board step.pre step.event _ :=
        perform_outcome (invariant_of_reachable run.reachable) step.event
      rw [show perform board step.pre step.event = _ from performs.2] at outcome
      exact outcome.owner before (paired step (by simp))

/-- A bus has no owner between calls, and no assertion about its owner fails, as long as
all committed sequences pair their chip-select requests.  In general these assertions
hold in a commit exactly when the requests alternate and the first of them goes with the
owner of the bus. -/
theorem chip_select_ownership {mem : Store}
    {history : List (Step (State Dev Bus) (Event Dev) Output)}
    (run : Exec (driver board mem) history state) :
    ((∀ step ∈ history, step.event.call = .seqCommit →
        Paired (step.pre.devs step.event.dev).chipSelects) →
      (∀ bus, state.owner bus = none) ∧
        ∀ dev, Paired (state.devs dev).chipSelects → ¬ BusAssertFails board state dev) ∧
    ∀ dev, (state.devs dev).Complete →
      (¬ BusAssertFails board state dev ↔
        Fits dev (state.owner (board.bus dev)) (state.devs dev).chipSelects) ∧
      (¬ BusAssertFails board state dev → ∃ post output,
        spiSeqCommit board state dev = .ok (post, output) ∧
        post.owner = Function.update state.owner (board.bus dev)
          (ownerAfter dev (state.owner (board.bus dev)) (state.devs dev).chipSelects)) := by
  have invariant := invariant_of_reachable run.reachable
  constructor
  · intro paired
    have free := owner_eq_none run paired
    refine ⟨free, ?_⟩
    intro dev pairedNow fails
    apply (not_busAssertFails_iff board invariant fails.complete).mpr _ fails
    rw [free]
    exact (takeAll_eq_some.mp (takeAll_of_paired pairedNow)).1
  · intro dev complete
    have holds := not_busAssertFails_iff board invariant complete
    exact ⟨holds, fun passes => owner_of_fits board invariant complete (holds.mp passes)⟩

def sharedBoard : Board Bool Unit := ⟨fun _ => (), fun _ => false, fun _ _ => 0⟩

def sharedDriver : System (State Bool Unit) (Event Bool) Output Halt :=
  driver sharedBoard fun _ => 0

def sharedStep (pre : State Bool Unit) (call : Call) (entries : List SeqEntry) :
    Step (State Bool Unit) (Event Bool) Output :=
  ⟨pre, ⟨false, call⟩, ⟨.noError, [], []⟩, pre.setDev false (.recording 2 entries)⟩

def announceStep : Step (State Bool Unit) (Event Bool) Output :=
  sharedStep sharedDriver.initial (.seqBegin 2 true) []

def assertStep : Step (State Bool Unit) (Event Bool) Output :=
  sharedStep announceStep.post (.request .csAssert none) [⟨some .csAssert, none⟩]

def deassertStep : Step (State Bool Unit) (Event Bool) Output :=
  sharedStep assertStep.post (.request .csDeassert none)
    [⟨some .csAssert, none⟩, ⟨some .csDeassert, none⟩]

theorem deassertStep_exec :
    Exec sharedDriver [deassertStep, assertStep, announceStep] deassertStep.post := by
  have announced : sharedDriver.Performs announceStep := ⟨nofun, rfl⟩
  have asserted : sharedDriver.Performs assertStep := ⟨nofun, rfl⟩
  have deasserted : sharedDriver.Performs deassertStep := ⟨nofun, rfl⟩
  exact ((Exec.start.step announced).step asserted).step deasserted

/-- The first device can commit its sequence, and gives the bus back. -/
theorem chip_select_ownership_shared :
    deassertStep.post.owner () = none ∧ ¬ BusAssertFails sharedBoard deassertStep.post false ∧
      ∃ post output, spiSeqCommit sharedBoard deassertStep.post false = .ok (post, output) ∧
        post.owner () = none := by
  obtain ⟨pairedRun, commit⟩ := chip_select_ownership deassertStep_exec
  have noCommit : ∀ step ∈ [deassertStep, assertStep, announceStep],
      step.event.call = .seqCommit → Paired (step.pre.devs step.event.dev).chipSelects := by
    intro step member isCommit
    simp only [List.mem_cons, List.not_mem_nil, or_false] at member
    rcases member with rfl | rfl | rfl
    · cases isCommit
    · cases isCommit
    · cases isCommit
  obtain ⟨free, passes⟩ := pairedRun noCommit
  have holds := passes false ⟨1, rfl⟩
  obtain ⟨post, output, commits, owner⟩ := (commit false ⟨rfl, rfl⟩).2 holds
  refine ⟨free (), holds, post, output, commits, ?_⟩
  rw [owner]
  rfl

end TrustyApp.Swspi
