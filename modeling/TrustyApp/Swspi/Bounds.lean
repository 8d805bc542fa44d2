import TrustyApp.Swspi.Sequence

/-!
# The array of a sequence

What a call can do is said once (`Outcome`), for all orders of calls of all devices.
Two of the requests do not check that there is room for them, and these are the only
ones that can leave the array.
-/

namespace TrustyApp.Swspi

open Memory Reactive

variable {Dev Bus : Type} [DecidableEq Dev] [DecidableEq Bus] {board : Board Dev Bus}
  {state : State Dev Bus} {dev : Dev}

def DevCtx.privs (ctx : DevCtx) : List Addr := blocks (ctx.cmds.getD [])

/-- The device is idle, or its context represents requests. -/
def Consistent (heap : Heap Block) (ctx : DevCtx) : Prop :=
  ctx = .idle ∨ ∃ n entries requests, Represents heap ctx n entries requests

/-- Every block belongs to one entry of one device. -/
structure Invariant (state : State Dev Bus) : Prop where
  consistent : ∀ dev, Consistent state.heap (state.devs dev)
  distinct : ∀ dev, (state.devs dev).privs.Nodup
  separate : ∀ dev other, dev ≠ other → ∀ addr ∈ (state.devs dev).privs,
    addr ∉ (state.devs other).privs

theorem Represents.privs_eq {heap : Heap Block} {ctx : DevCtx} {n : Nat}
    {entries : List SeqEntry} {requests : List Request}
    (represents : Represents heap ctx n entries requests) : ctx.privs = blocks entries := by
  rw [represents.ctxIs]
  exact blocks_recording n entries

theorem Consistent.live {heap : Heap Block} {ctx : DevCtx} (consistent : Consistent heap ctx)
    {addr : Addr} (member : addr ∈ ctx.privs) : (heap addr).isSome := by
  rcases consistent with rfl | ⟨n, entries, requests, represents⟩
  · cases member
  · rw [represents.privs_eq] at member
    exact live_of_forall₂ represents.holds member

theorem Consistent.of_agree {heap heap' : Heap Block} {ctx : DevCtx}
    (consistent : Consistent heap ctx) (agree : ∀ addr ∈ ctx.privs, heap' addr = heap addr) :
    Consistent heap' ctx := by
  rcases consistent with idle | ⟨n, entries, requests, represents⟩
  · exact .inl idle
  · rw [represents.privs_eq] at agree
    exact .inr ⟨n, entries, requests, represents.ctxIs, represents.room,
      forall₂_of_agree represents.holds agree⟩

omit [DecidableEq Bus] in
theorem Invariant.change (invariant : Invariant state) {heap : Heap Block} {ctx : DevCtx}
    {owner : Bus → Option Dev} {mem : Store} (consistent : Consistent heap ctx)
    (distinct : ctx.privs.Nodup)
    (separate : ∀ other, other ≠ dev → ∀ addr ∈ ctx.privs, addr ∉ (state.devs other).privs)
    (agree : ∀ other, other ≠ dev → ∀ addr ∈ (state.devs other).privs,
      heap addr = state.heap addr) :
    Invariant ⟨Function.update state.devs dev ctx, owner, heap, mem⟩ where
  consistent other := by
    by_cases same : other = dev
    · subst same
      simpa using consistent
    · simpa [same] using (invariant.consistent other).of_agree (agree other same)
  distinct other := by
    by_cases same : other = dev
    · subst same
      simpa using distinct
    · simpa [same] using invariant.distinct other
  separate first second ne addr member := by
    by_cases isFirst : first = dev
    · subst isFirst
      simp only [Function.update_self] at member
      simpa [Ne.symm ne] using separate second (Ne.symm ne) addr member
    · simp only [Function.update_of_ne isFirst] at member
      by_cases isSecond : second = dev
      · subst isSecond
        simp only [Function.update_self]
        intro own
        exact separate first isFirst addr own member
      · simpa [isSecond] using invariant.separate first second ne addr member

/-- No sequence is active, or its array is full. -/
def NoRoom (ctx : DevCtx) : Prop := spiDevSeqActive ctx = false ∨ ctx.numCmds ≤ ctx.currCmd

/-- The requests that do not check that there is room. -/
def Request.Unchecked : Request → Prop
  | .setClk clkHz => clkHz ≠ none
  | .delay _ => True
  | _ => False

inductive Outcome (board : Board Dev Bus) (state : State Dev Bus) :
    Event Dev → Except Halt (State Dev Bus × Output) → Prop
  | asserted {event : Event Dev} (assertion : Assertion) :
      Outcome board state event (.error (.assertFailed assertion))
  | escaped {dev : Dev} {request : Request} {malloc : Option Addr} :
      NoRoom (state.devs dev) → request.Unchecked →
      Outcome board state ⟨dev, .request request malloc⟩ (.error .outOfBounds)
  | notBegun {dev : Dev} {n : Nat} :
      Outcome board state ⟨dev, .seqBegin n false⟩ (.ok (state, ⟨.errNoMemory, [], []⟩))
  | begun {dev : Dev} {n : Nat} : state.devs dev = .idle →
      Outcome board state ⟨dev, .seqBegin n true⟩
        (.ok (state.setDev dev (.recording n []), ⟨.noError, [], []⟩))
  | notRecorded {dev : Dev} {request : Request} :
      request.entry none = none → (NoRoom (state.devs dev) → request.Unchecked) →
      Outcome board state ⟨dev, .request request none⟩ (.ok (state, ⟨.errNoMemory, [], []⟩))
  | recorded {dev : Dev} {request : Request} {malloc : Option Addr} {n : Nat}
      {entries : List SeqEntry} {requests : List Request} {entry : SeqEntry} :
      Represents state.heap (state.devs dev) n entries requests → entries.length < n →
      request.entry malloc = some entry →
      Outcome board state ⟨dev, .request request malloc⟩
        (.ok ({ state.setDev dev (.recording n (entries ++ [entry])) with
            heap := request.allocate malloc state.heap },
          ⟨.noError, blocks [entry], []⟩))
  | committed {dev : Dev} {n : Nat} {entries : List SeqEntry} {requests : List Request}
      {world : World Dev Bus} :
      Represents state.heap (state.devs dev) n entries requests → entries.length = n →
      runAll board dev requests state.world = .ok world →
      Outcome board state ⟨dev, .seqCommit⟩
        (.ok ({ (state.withWorld world).setDev dev .idle with
            heap := state.heap.without (blocks entries) },
          ⟨.noError, [], blocks entries⟩))
  | aborted {dev : Dev} {n : Nat} {entries : List SeqEntry} {requests : List Request} :
      Represents state.heap (state.devs dev) n entries requests →
      Outcome board state ⟨dev, .seqAbort⟩
        (.ok ({ state.setDev dev .idle with heap := state.heap.without (blocks entries) },
          ⟨.noError, [], blocks entries⟩))

omit [DecidableEq Dev] [DecidableEq Bus] in
theorem noRoom_iff {n : Nat} {entries : List SeqEntry}
    (ctxIs : state.devs dev = .recording n entries) :
    NoRoom (state.devs dev) ↔ ¬ entries.length < n := by
  simp [NoRoom, ctxIs, spiDevSeqActive, DevCtx.recording]

theorem Consistent.record_of_noRoom {heap : Heap Block} {ctx : DevCtx}
    (consistent : Consistent heap ctx) (noRoom : NoRoom ctx) (exec : ExecFn)
    (priv : Option Addr) : ctx.record exec priv = .error .outOfBounds := by
  rcases consistent with rfl | ⟨n, entries, requests, represents⟩
  · rfl
  · obtain ⟨rfl, room, -⟩ := represents
    have full : ¬ entries.length < n := by
      simpa [NoRoom, spiDevSeqActive, DevCtx.recording] using noRoom
    rw [record_eq exec priv room, if_neg full]

omit [DecidableEq Dev] [DecidableEq Bus] in
theorem asserts_of_noRoom (noRoom : NoRoom (state.devs dev))
    (next : Except Halt (State Dev Bus × Output)) : ∃ assertion,
    (do
      assert (spiDevSeqActive (state.devs dev)) .seqActive
      assert ((state.devs dev).currCmd < (state.devs dev).numCmds) .cmdLeft
      next) = .error (.assertFailed assertion) := by
  cases active : spiDevSeqActive (state.devs dev) with
  | false => exact ⟨.seqActive, rfl⟩
  | true =>
      rcases noRoom with inactive | full
      · rw [active] at inactive
        cases inactive
      · refine ⟨.cmdLeft, ?_⟩
        simp [assert, not_lt.mpr full]

omit [DecidableEq Bus] in
theorem asserts_of_checked {request : Request} (noRoom : NoRoom (state.devs dev))
    (checked : ¬ request.Unchecked) (malloc : Option Addr) :
    ∃ assertion, spiReq state dev request malloc = .error (.assertFailed assertion) := by
  cases request with
  | setClk clkHz =>
      obtain rfl : clkHz = none := not_not.mp checked
      exact ⟨.clkHz, rfl⟩
  | csAssert | csDeassert | xfer => exact asserts_of_noRoom noRoom _
  | delay => exact absurd trivial checked

omit [DecidableEq Bus] in
/-- An unchecked request goes ahead without room, if its arguments can be allocated. -/
theorem spiReq_of_unchecked {request : Request}
    (consistent : Consistent state.heap (state.devs dev)) (noRoom : NoRoom (state.devs dev))
    (unchecked : request.Unchecked) (malloc : Option Addr) :
    spiReq state dev request malloc =
      if request.entry malloc = none then .ok (state, ⟨.errNoMemory, [], []⟩)
      else .error .outOfBounds := by
  have refused := consistent.record_of_noRoom noRoom
  cases request with
  | csAssert | csDeassert | xfer => cases unchecked
  | setClk clkHz =>
      have given : clkHz ≠ none := unchecked
      simp [spiReq, spiReqSetClk, assert, given, recordPlain, refused, Request.entry,
        Request.block]
  | delay delayNs =>
      cases malloc with
      | none => rfl
      | some addr =>
          simp [spiReq, spiReqDelay, recordWith, refused, Request.entry, Request.block]

theorem spiReq_outcome (invariant : Invariant state) (request : Request)
    (malloc : Option Addr) :
    Outcome board state ⟨dev, .request request malloc⟩ (spiReq state dev request malloc) := by
  by_cases noRoom : NoRoom (state.devs dev)
  · by_cases unchecked : request.Unchecked
    · rw [spiReq_of_unchecked (invariant.consistent dev) noRoom unchecked]
      split
      next missing =>
        obtain rfl := entry_eq_none missing
        exact .notRecorded missing fun _ => unchecked
      next => exact .escaped noRoom unchecked
    · obtain ⟨assertion, fails⟩ := asserts_of_checked noRoom unchecked malloc
      exact fails ▸ .asserted assertion
  · rcases invariant.consistent dev with idle | ⟨n, entries, requests, represents⟩
    · exact absurd (.inl (by rw [idle]; rfl)) noRoom
    by_cases invalid : request = .setClk none
    · subst invalid
      exact .asserted .clkHz
    · have room : entries.length < n := not_not.mp (mt (noRoom_iff represents.ctxIs).mpr noRoom)
      rw [spiReq_of_room represents.ctxIs room invalid]
      cases entryIs : request.entry malloc with
      | some entry => exact .recorded represents room entryIs
      | none =>
          obtain rfl := entry_eq_none entryIs
          exact .notRecorded entryIs fun none => absurd none noRoom

theorem spiSeqBegin_outcome (invariant : Invariant state) (n : Nat) (calloc : Bool) :
    Outcome board state ⟨dev, .seqBegin n calloc⟩ (spiSeqBegin state dev n calloc) := by
  rcases invariant.consistent dev with idle | ⟨m, entries, requests, represents⟩
  · cases calloc with
    | true =>
        rw [spiSeqBegin_eq idle n]
        exact .begun idle
    | false =>
        have unchanged : state.setDev dev .idle = state := by
          rw [State.setDev, ← idle, Function.update_eq_self]
        have fails : spiSeqBegin state dev n false = .ok (state, ⟨.errNoMemory, [], []⟩) := by
          nth_rewrite 2 [← unchanged]
          simp [spiSeqBegin, assert, idle, DevCtx.idle, spiDevSeqActive]
        rw [fails]
        exact .notBegun
  · have fails : spiSeqBegin state dev n calloc = .error (.assertFailed .seqNotActive) := by
      simp [spiSeqBegin, assert, represents.ctxIs, spiDevSeqActive, DevCtx.recording]
    rw [fails]
    exact .asserted .seqNotActive

theorem spiSeqCommit_outcome (invariant : Invariant state) :
    Outcome board state ⟨dev, .seqCommit⟩ (spiSeqCommit board state dev) := by
  rcases invariant.consistent dev with idle | ⟨n, entries, requests, represents⟩
  · have fails : spiSeqCommit board state dev = .error (.assertFailed .seqActive) := by
      simp [spiSeqCommit, assert, idle, DevCtx.idle, spiDevSeqActive]
    rw [fails]
    exact .asserted .seqActive
  · have distinct := represents.privs_eq ▸ invariant.distinct dev
    by_cases complete : entries.length = n
    · rw [spiSeqCommit_eq represents distinct complete]
      cases ran : runAll board dev requests state.world with
      | error assertion => exact .asserted assertion
      | ok world => exact .committed represents complete ran
    · have fails : spiSeqCommit board state dev = .error (.assertFailed .seqComplete) := by
        simp [spiSeqCommit, assert, represents.ctxIs, spiDevSeqActive, DevCtx.recording, complete]
      rw [fails]
      exact .asserted .seqComplete

theorem spiSeqAbort_outcome (invariant : Invariant state) :
    Outcome board state ⟨dev, .seqAbort⟩ (spiSeqAbort state dev) := by
  rcases invariant.consistent dev with idle | ⟨n, entries, requests, represents⟩
  · have fails : spiSeqAbort state dev = .error (.assertFailed .seqActive) := by
      simp [spiSeqAbort, assert, idle, DevCtx.idle, spiDevSeqActive]
    rw [fails]
    exact .asserted .seqActive
  · have distinct := represents.privs_eq ▸ invariant.distinct dev
    rw [spiSeqAbort_eq represents distinct]
    exact .aborted represents

theorem perform_outcome (invariant : Invariant state) (event : Event Dev) :
    Outcome board state event (perform board state event) := by
  obtain ⟨dev, call⟩ := event
  cases call with
  | request request malloc => exact spiReq_outcome invariant request malloc
  | seqBegin n calloc => exact spiSeqBegin_outcome invariant n calloc
  | seqCommit => exact spiSeqCommit_outcome invariant
  | seqAbort => exact spiSeqAbort_outcome invariant

omit [DecidableEq Bus] in
theorem Invariant.begun (invariant : Invariant state) (n : Nat) :
    Invariant (state.setDev dev (.recording n [])) := by
  have begun : Represents state.heap (.recording n []) n [] [] := ⟨rfl, Nat.zero_le _, .nil⟩
  have none : (DevCtx.recording n []).privs = [] := begun.privs_eq
  refine invariant.change (.inr ⟨n, [], [], begun⟩) ?_ ?_ ?_
  · simp [none]
  · simp [none]
  · simp

omit [DecidableEq Bus] in
theorem Invariant.recorded (invariant : Invariant state) {request : Request}
    {malloc : Option Addr} {n : Nat} {entries : List SeqEntry} {requests : List Request}
    {entry : SeqEntry} (represents : Represents state.heap (state.devs dev) n entries requests)
    (room : entries.length < n) (entryIs : request.entry malloc = some entry)
    (fresh : ∀ addr ∈ blocks [entry], state.heap addr = none) :
    Invariant { state.setDev dev (.recording n (entries ++ [entry])) with
      heap := request.allocate malloc state.heap } := by
  have isNew : ∀ addr ∈ blocks [entry], ∀ other, addr ∉ (state.devs other).privs := by
    intro addr member other old
    have live := (invariant.consistent other).live old
    rw [fresh addr member] at live
    cases live
  have extended := represents.extend room entryIs fresh
  have split : (DevCtx.recording n (entries ++ [entry])).privs =
      (state.devs dev).privs ++ blocks [entry] := by
    rw [extended.privs_eq, represents.privs_eq, blocks, List.filterMap_append]
    rfl
  refine invariant.change (.inr ⟨n, _, _, extended⟩) ?_ ?_ ?_
  · rw [split, List.nodup_append]
    refine ⟨invariant.distinct dev, nodup_blocks_singleton entry, ?_⟩
    rintro addr old _ new rfl
    exact isNew addr new dev old
  · intro other ne addr member
    rw [split] at member
    rcases List.mem_append.mp member with old | new
    · exact invariant.separate dev other (Ne.symm ne) addr old
    · exact isNew addr new other
  · intro other ne addr member
    apply allocate_of_notMem entryIs
    intro new
    exact isNew addr new other member

omit [DecidableEq Bus] in
theorem Invariant.freed (invariant : Invariant state) {n : Nat} {entries : List SeqEntry}
    {requests : List Request} {owner : Bus → Option Dev} {mem : Store}
    (represents : Represents state.heap (state.devs dev) n entries requests) :
    Invariant ⟨Function.update state.devs dev .idle, owner, state.heap.without (blocks entries),
      mem⟩ := by
  have none : DevCtx.idle.privs = [] := rfl
  refine invariant.change (.inl rfl) ?_ ?_ ?_
  · simp [none]
  · simp [none]
  · intro other ne addr member
    apply Heap.without_of_notMem
    intro own
    rw [← represents.privs_eq] at own
    exact invariant.separate other dev ne addr member own

theorem Outcome.invariant {event : Event Dev} {post : State Dev Bus} {output : Output}
    (outcome : Outcome board state event (.ok (post, output))) (enabled : Enabled state event)
    (invariant : Invariant state) : Invariant post := by
  cases outcome with
  | notBegun | notRecorded => exact invariant
  | begun => exact invariant.begun _
  | @recorded dev request malloc n entries requests entry represents room entryIs =>
      apply invariant.recorded represents room entryIs
      intro addr member
      obtain rfl := entry_block entryIs member
      exact enabled request addr rfl
  | committed represents | aborted represents => exact invariant.freed represents

theorem invariant_of_reachable {mem : Store} (reached : Reachable (driver board mem) state) :
    Invariant state := by
  apply reached.rule Invariant
  · refine ⟨fun _ => .inl rfl, fun _ => List.nodup_nil, ?_⟩
    rintro dev other - addr member
    cases member
  · intro step invariant performs
    have outcome : Outcome board step.pre step.event _ := perform_outcome invariant step.event
    rw [show perform board step.pre step.event = _ from performs.2] at outcome
    exact outcome.invariant performs.1 invariant

structure DevCtx.Sound (ctx : DevCtx) : Prop where
  idle : spiDevSeqActive ctx = false → ctx.numCmds = 0 ∧ ctx.currCmd = 0
  active : ∀ cmds, ctx.cmds = some cmds → cmds.length = ctx.numCmds ∧
    ctx.currCmd ≤ ctx.numCmds ∧
    ∀ i entry, cmds[i]? = some entry → (entry.exec ≠ none ↔ i < ctx.currCmd)

theorem exec_ne_none_iff {heap : Heap Block} {entries : List SeqEntry}
    {requests : List Request} (holds : List.Forall₂ (Holds heap) entries requests) {rest i : Nat}
    {entry : SeqEntry}
    (at_ : (entries ++ List.replicate rest ⟨none, none⟩)[i]? = some entry) :
    entry.exec ≠ none ↔ i < entries.length := by
  by_cases inside : i < entries.length
  · rw [List.getElem?_append_left inside] at at_
    refine iff_of_true ?_ inside
    obtain ⟨request, -, held⟩ : ∃ request ∈ requests, Holds heap entry request := by
      obtain ⟨bound, rfl⟩ := List.getElem?_eq_some_iff.mp at_
      have bound' : i < requests.length := holds.length_eq ▸ bound
      exact ⟨requests[i], List.getElem_mem _, holds.get bound bound'⟩
    exact held.exec_ne_none
  · rw [List.getElem?_append_right (not_lt.mp inside)] at at_
    obtain rfl := List.eq_of_mem_replicate (List.mem_of_getElem? at_)
    simp [inside]

theorem Consistent.sound {heap : Heap Block} {ctx : DevCtx} (consistent : Consistent heap ctx) :
    ctx.Sound := by
  rcases consistent with rfl | ⟨n, entries, requests, represents⟩
  · exact ⟨fun _ => ⟨rfl, rfl⟩, fun _ none => nomatch none⟩
  · obtain ⟨rfl, room, holds⟩ := represents
    constructor
    · intro inactive
      cases inactive
    · intro cmds cmdsIs
      obtain rfl := Option.some.inj cmdsIs
      refine ⟨?_, room, fun i entry at_ => exec_ne_none_iff holds at_⟩
      simp [DevCtx.recording, room]

/-- A call stops at an assertion or leaves sound contexts. -/
def KeepsSound (board : Board Dev Bus) (state : State Dev Bus) (event : Event Dev) : Prop :=
  (∃ assertion, perform board state event = .error (.assertFailed assertion)) ∨
    ∃ post output, perform board state event = .ok (post, output) ∧
      ∀ dev, (post.devs dev).Sound

/-- A call keeps the contexts sound, and a request for which there is no room stops at an
assertion. -/
structure Safe (board : Board Dev Bus) (state : State Dev Bus) (event : Event Dev) : Prop where
  kept : KeepsSound board state event
  caught : ∀ request malloc, event.call = .request request malloc →
    NoRoom (state.devs event.dev) →
    ∃ assertion, perform board state event = .error (.assertFailed assertion)

theorem keepsSound_iff (invariant : Invariant state) {event : Event Dev}
    (enabled : Enabled state event) :
    KeepsSound board state event ↔ ∀ request malloc, event.call = .request request malloc →
      NoRoom (state.devs event.dev) → request.Unchecked → request.entry malloc = none := by
  constructor
  · intro kept request malloc callIs noRoom unchecked
    by_contra allocated
    obtain ⟨dev, call⟩ := event
    subst callIs
    have escapes : perform board state ⟨dev, .request request malloc⟩ = .error .outOfBounds :=
      (spiReq_of_unchecked (invariant.consistent dev) noRoom unchecked malloc).trans
        (if_neg allocated)
    rcases kept with ⟨assertion, fails⟩ | ⟨post, output, returns, -⟩
    · rw [escapes] at fails
      cases fails
    · rw [escapes] at returns
      cases returns
  · intro missing
    have outcome : Outcome board state event _ := perform_outcome invariant event
    cases result : perform board state event with
    | ok returned =>
        obtain ⟨post, output⟩ := returned
        rw [result] at outcome
        have kept := outcome.invariant enabled invariant
        exact .inr ⟨post, output, result, fun dev => (kept.consistent dev).sound⟩
    | error halt =>
        rw [result] at outcome
        cases outcome with
        | asserted assertion => exact .inl ⟨assertion, result⟩
        | @escaped dev request malloc noRoom unchecked =>
            have returns : perform board state ⟨dev, .request request malloc⟩ =
                .ok (state, ⟨.errNoMemory, [], []⟩) :=
              (spiReq_of_unchecked (invariant.consistent dev) noRoom unchecked malloc).trans
                (if_pos (missing _ _ rfl noRoom unchecked))
            rw [returns] at result
            cases result

/-- In every run the contexts of all devices stay sound.  The next call is safe exactly
when it is not an unchecked request for which there is no room; among those only the ones
whose argument cannot be allocated keep the contexts sound. -/
theorem recorder_safe_iff {mem : Store} {history : List (Step (State Dev Bus) (Event Dev) Output)}
    (run : Exec (driver board mem) history state) :
    (∀ dev, (state.devs dev).Sound) ∧
      ∀ event, Enabled state event →
        (Safe board state event ↔
          ∀ request malloc, event.call = .request request malloc →
            NoRoom (state.devs event.dev) → ¬ request.Unchecked) ∧
        (KeepsSound board state event ↔
          ∀ request malloc, event.call = .request request malloc →
            NoRoom (state.devs event.dev) → request.Unchecked →
            request.entry malloc = none) := by
  have invariant := invariant_of_reachable run.reachable
  refine ⟨fun dev => (invariant.consistent dev).sound,
    fun event enabled => ⟨⟨?_, ?_⟩, keepsSound_iff invariant enabled⟩⟩
  · rintro safe request malloc callIs noRoom unchecked
    obtain ⟨assertion, fails⟩ := safe.caught request malloc callIs noRoom
    obtain ⟨dev, call⟩ := event
    subst callIs
    have goesAhead : perform board state ⟨dev, .request request malloc⟩ = _ :=
      spiReq_of_unchecked (invariant.consistent dev) noRoom unchecked malloc
    rw [goesAhead] at fails
    split at fails
    · cases fails
    · cases fails
  · intro checked
    constructor
    · refine (keepsSound_iff invariant enabled).mpr ?_
      intro request malloc callIs noRoom unchecked
      exact absurd unchecked (checked request malloc callIs noRoom)
    · obtain ⟨dev, call⟩ := event
      rintro request malloc rfl noRoom
      exact asserts_of_checked noRoom (checked request malloc rfl noRoom) malloc

def testBoard : Board Unit Unit := ⟨fun _ => (), fun _ => false, fun _ _ => 0⟩

def testDriver : System (State Unit Unit) (Event Unit) Output Halt := driver testBoard fun _ => 0

def beginStep : Step (State Unit Unit) (Event Unit) Output :=
  ⟨testDriver.initial, ⟨(), .seqBegin 1 true⟩, ⟨.noError, [], []⟩,
    testDriver.initial.setDev () (.recording 1 [])⟩

def setClkStep : Step (State Unit Unit) (Event Unit) Output :=
  ⟨beginStep.post, ⟨(), .request (.setClk (some 0)) none⟩, ⟨.noError, [], []⟩,
    beginStep.post.setDev () (.recording 1 [⟨some .setClk, none⟩])⟩

theorem beginStep_exec : Exec testDriver [beginStep] beginStep.post := by
  refine Exec.start.step ⟨?_, rfl⟩
  intro request addr callIs
  cases callIs

theorem setClkStep_exec : Exec testDriver [setClkStep, beginStep] setClkStep.post := by
  refine beginStep_exec.step ⟨?_, rfl⟩
  intro request addr callIs
  cases callIs

/-- A second request for the clock is written behind the array. -/
theorem set_clk_not_safe : ∃ history state, Exec testDriver history state ∧
    (state.devs ()).numCmds = 1 ∧
    perform testBoard state ⟨(), .request (.setClk (some 0)) none⟩ = .error .outOfBounds ∧
    ¬ Safe testBoard state ⟨(), .request (.setClk (some 0)) none⟩ := by
  have escapes : perform testBoard setClkStep.post ⟨(), .request (.setClk (some 0)) none⟩ =
      .error .outOfBounds := rfl
  refine ⟨_, _, setClkStep_exec, rfl, escapes, ?_⟩
  intro safe
  obtain ⟨assertion, fails⟩ := safe.caught _ _ rfl (.inr le_rfl)
  rw [escapes] at fails
  cases fails

theorem recorder_safe_iff_first :
    Safe testBoard beginStep.post ⟨(), .request (.setClk (some 0)) none⟩ := by
  refine ((recorder_safe_iff beginStep_exec).2 _ ?_).1.mpr ?_
  · intro request addr callIs
    cases callIs
  · rintro request malloc - (inactive | full)
    · cases inactive
    · exact absurd full (by decide)

end TrustyApp.Swspi
