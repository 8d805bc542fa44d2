import TrustyApp.Swspi.Transactions

/-!
# Transfers from end to end

A client fills the buffer of a transfer, and reads the reply after its sequence has been
committed.  What it finds there follows from the actions that clients can see, as long as
nobody writes to its two buffers in the meantime.
-/

namespace TrustyApp.Swspi

open Memory Reactive Refinement

variable {Dev Bus : Type} [DecidableEq Dev] [DecidableEq Bus]

abbrev Trace (Dev : Type) := List (Action Dev × Option Rc)

/-- The requests of a device since it began its sequence. -/
def recorded (dev : Dev) : Trace Dev → List Request
  | [] => []
  | (.store _, _) :: earlier => recorded dev earlier
  | (.call ⟨caller, call⟩, rc) :: earlier =>
      if caller = dev ∧ rc = some .noError then
        match call with
        | .request request _ => recorded dev earlier ++ [request]
        | _ => []
      else recorded dev earlier

def Receives (requests : List Request) (i : Nat) : Prop :=
  ∃ tx rx len, .xfer tx (some rx) len ∈ requests ∧ rx ≤ i ∧ i < rx + len

def Touches (earlier : Trace Dev) (i : Nat) : Action Dev → Prop
  | .store write => write.Covers i
  | .call ⟨dev, .seqCommit⟩ => Receives (recorded dev earlier) i
  | .call _ => False

/-- None of the later actions writes to the range. -/
def LeftAlone (addr len : Nat) (later earlier : Trace Dev) : Prop :=
  match later with
  | [] => True
  | (action, _) :: later =>
      (∀ i, addr ≤ i → i < addr + len → ¬ Touches (later ++ earlier) i action) ∧
        LeftAlone addr len later earlier

section Requests

variable {board : Board Dev Bus} {dev : Dev} {world world' : World Dev Bus}
  {request : Request} {requests before after : List Request}

theorem runAll_append (board : Board Dev Bus) (dev : Dev) (before after : List Request)
    (world : World Dev Bus) :
    runAll board dev (before ++ after) world =
      runAll board dev before world >>= runAll board dev after := by
  induction before generalizing world with
  | nil => rfl
  | cons request before inductionHypothesis =>
      rw [List.cons_append, runAll, runAll]
      cases request.run board dev world with
      | error assertion => rfl
      | ok world => exact inductionHypothesis world

omit [DecidableEq Dev] [DecidableEq Bus] in
theorem length_reply (board : Board Dev Bus) (dev : Dev) {sent : Option (List UInt8)} {len : Nat}
    (length : ∀ bytes ∈ sent, bytes.length = len) :
    (reply board dev sent len).length = len := by
  unfold reply
  cases board.loopback dev with
  | false => simp
  | true =>
      cases sent with
      | none => simp
      | some bytes => exact length bytes rfl

theorem run_mem (ran : request.run board dev world = .ok world') {i : Nat}
    (apart : ¬ Receives [request] i) : world'.mem i = world.mem i := by
  cases request with
  | setClk | delay =>
      obtain rfl := Except.ok.inj ran
      rfl
  | csAssert | csDeassert =>
      rw [Request.run] at ran
      split at ran
      · obtain rfl := Except.ok.inj ran
        rfl
      · cases ran
  | xfer tx rx len =>
      cases rx with
      | none =>
          obtain rfl := Except.ok.inj ran
          rfl
      | some rx =>
          obtain rfl := Except.ok.inj ran
          have length : (reply board dev (tx.map fun tx => world.mem.read tx len) len).length =
              len := by
            apply length_reply
            intro bytes member
            obtain ⟨addr, -, rfl⟩ := Option.map_eq_some_iff.mp member
            exact Store.length_read ..
          apply Store.write_of_outside
          rw [length]
          rintro ⟨above, below⟩
          exact apart ⟨tx, rx, len, List.mem_singleton_self _, above, below⟩

theorem receives_cons {i : Nat} :
    Receives (request :: requests) i ↔ Receives [request] i ∨ Receives requests i := by
  constructor
  · rintro ⟨tx, rx, len, member, above, below⟩
    rcases List.mem_cons.mp member with same | later
    · exact .inl ⟨tx, rx, len, List.mem_singleton.mpr same, above, below⟩
    · exact .inr ⟨tx, rx, len, later, above, below⟩
  · rintro (⟨tx, rx, len, member, above, below⟩ | ⟨tx, rx, len, member, above, below⟩)
    · obtain rfl := List.mem_singleton.mp member
      exact ⟨tx, rx, len, List.mem_cons_self, above, below⟩
    · exact ⟨tx, rx, len, List.mem_cons_of_mem _ member, above, below⟩

theorem runAll_mem (ran : runAll board dev requests world = .ok world') {i : Nat}
    (apart : ¬ Receives requests i) : world'.mem i = world.mem i := by
  induction requests generalizing world with
  | nil =>
      obtain rfl := Except.ok.inj ran
      rfl
  | cons request requests inductionHypothesis =>
      rw [receives_cons, not_or] at apart
      obtain ⟨between, first, rest⟩ := bind_eq_ok.mp ran
      rw [inductionHypothesis rest apart.2, run_mem first apart.1]

theorem runAll_read (ran : runAll board dev requests world = .ok world') {addr len : Nat}
    (apart : ∀ i, addr ≤ i → i < addr + len → ¬ Receives requests i) :
    world'.mem.read addr len = world.mem.read addr len :=
  Store.read_congr fun i above below => runAll_mem ran (apart i above below)

/-- The reply to a transfer is left in its receive buffer, if the transfers before it keep
the bytes that are sent, and those after it the reply. -/
theorem runAll_reply {tx rx len : Nat}
    (ran : runAll board dev (before ++ .xfer (some tx) (some rx) len :: after) world = .ok world')
    (sentApart : ∀ i, tx ≤ i → i < tx + len → ¬ Receives before i)
    (replyApart : ∀ i, rx ≤ i → i < rx + len → ¬ Receives after i) :
    world'.mem.read rx len = reply board dev (some (world.mem.read tx len)) len := by
  rw [runAll_append] at ran
  obtain ⟨ready, ranBefore, ran⟩ := bind_eq_ok.mp ran
  obtain ⟨received, transfer, ranAfter⟩ := bind_eq_ok.mp ran
  obtain rfl := Except.ok.inj transfer
  have sent := runAll_read ranBefore sentApart
  have length : (reply board dev (some (world.mem.read tx len)) len).length = len := by
    apply length_reply
    intro bytes member
    obtain rfl := Option.some.inj member
    exact Store.length_read ..
  rw [runAll_read ranAfter replyApart]
  simp only [Option.map_some, sent]
  rw [Store.read_write _ le_rfl (by omega)]
  simp [length]

end Requests

section Traces

variable {board : Board Dev Bus} {mem : Store} {master : Master Dev Bus} {dev : Dev}
  {trace later earlier : Trace Dev} {action : Action Dev} {rc : Option Rc}

def Followed (board : Board Dev Bus) (mem : Store) (trace : Trace Dev)
    (master : Master Dev Bus) : Prop :=
  ∃ history, Exec (masterWithClients board mem) history master ∧
    history.map (fun step => (step.event, step.output)) = trace

theorem Followed.last (followed : Followed board mem ((action, rc) :: trace) master) :
    ∃ before, Followed board mem trace before ∧ before.act board action = .ok (master, rc) := by
  obtain ⟨history, run, shows⟩ := followed
  cases run with
  | start => cases shows
  | @step history step run performs =>
      obtain ⟨same, rest⟩ := List.cons.inj shows
      obtain ⟨rfl, rfl⟩ := Prod.mk.inj same
      exact ⟨step.pre, ⟨history, run, rest⟩, performs.2⟩

theorem Followed.start (followed : Followed board mem [] master) :
    master = (masterWithClients board mem).initial := by
  obtain ⟨history, run, shows⟩ := followed
  obtain rfl := List.map_eq_nil_iff.mp shows
  cases run with
  | start => rfl

inductive Master.Outcome (board : Board Dev Bus) (master : Master Dev Bus) :
    Action Dev → Master Dev Bus → Option Rc → Prop
  | stored (write : Write) : Outcome board master (.store write)
      { master with world :=
        { master.world with mem := master.world.mem.write write.addr write.bytes } } none
  | failed (event : Event Dev) : event.call ≠ .seqCommit →
      Outcome board master (.call event) master (some .errNoMemory)
  | begun {dev : Dev} (n : Nat) : Outcome board master (.call ⟨dev, .seqBegin n true⟩)
      (master.set dev (some (.begun n))) (some .noError)
  | requested {dev : Dev} {sequence : Sequence} (request : Request) (malloc : Option Addr)
      (left : sequence.requests.length < sequence.numCmds) :
      master.sequences dev = some sequence →
      Outcome board master (.call ⟨dev, .request request malloc⟩)
        (master.set dev (some (sequence.append request left))) (some .noError)
  | committed {dev : Dev} {sequence : Sequence} {world : World Dev Bus} :
      master.sequences dev = some sequence →
      runAll board dev sequence.requests master.world = .ok world →
      Outcome board master (.call ⟨dev, .seqCommit⟩) { master.set dev none with world }
        (some .noError)
  | aborted {dev : Dev} : Outcome board master (.call ⟨dev, .seqAbort⟩) (master.set dev none)
      (some .noError)

theorem Master.outcome_of_request {post : Master Dev Bus} {rc : Rc} (request : Request)
    (malloc : Option Addr) (returns : master.request dev request malloc = .ok (post, rc)) :
    Master.Outcome board master (.call ⟨dev, .request request malloc⟩) post (some rc) := by
  have refused (assertion : Assertion)
      (returns : master.refuse request malloc assertion = .ok (post, rc)) :
      Master.Outcome board master (.call ⟨dev, .request request malloc⟩) post (some rc) := by
    unfold Master.refuse at returns
    split at returns
    · cases returns
    · split at returns
      · obtain ⟨rfl, rfl⟩ := Prod.mk.inj (Except.ok.inj returns)
        exact .failed _ fun commits => by cases commits
      · cases returns
  unfold Master.request at returns
  split at returns
  · cases returns
  · split at returns
    · exact refused _ returns
    next sequence sequenceIs =>
      split at returns
      next left =>
        split at returns
        · obtain ⟨rfl, rfl⟩ := Prod.mk.inj (Except.ok.inj returns)
          exact .failed _ fun commits => by cases commits
        · obtain ⟨rfl, rfl⟩ := Prod.mk.inj (Except.ok.inj returns)
          exact .requested request malloc left sequenceIs
      · exact refused _ returns

theorem Master.outcome_of_act {post : Master Dev Bus}
    (returns : master.act board action = .ok (post, rc)) :
    Master.Outcome board master action post rc := by
  cases action with
  | store write =>
      obtain ⟨rfl, rfl⟩ := Prod.mk.inj (Except.ok.inj returns)
      exact .stored write
  | call event =>
      obtain ⟨⟨post', rc'⟩, performed, same⟩ := bind_eq_ok.mp returns
      obtain ⟨rfl, rfl⟩ := Prod.mk.inj (Except.ok.inj same)
      obtain ⟨dev, call⟩ := event
      cases call with
      | request request malloc => exact Master.outcome_of_request request malloc performed
      | seqBegin n calloc =>
          simp only [Master.perform, Master.begin] at performed
          split at performed
          · cases performed
          · cases calloc with
            | true =>
                obtain ⟨rfl, rfl⟩ := Prod.mk.inj (Except.ok.inj performed)
                exact .begun n
            | false =>
                obtain ⟨rfl, rfl⟩ := Prod.mk.inj (Except.ok.inj performed)
                exact .failed _ fun commits => by cases commits
      | seqCommit =>
          simp only [Master.perform, Master.commit] at performed
          split at performed
          · cases performed
          next sequence sequenceIs =>
            split at performed
            · split at performed
              · cases performed
              next world ran =>
                obtain ⟨rfl, rfl⟩ := Prod.mk.inj (Except.ok.inj performed)
                exact .committed sequenceIs ran
            · cases performed
      | seqAbort =>
          simp only [Master.perform, Master.abort] at performed
          split at performed
          · cases performed
          · obtain ⟨rfl, rfl⟩ := Prod.mk.inj (Except.ok.inj performed)
            exact .aborted

def Master.pending (master : Master Dev Bus) (dev : Dev) : List Request :=
  ((master.sequences dev).map Sequence.requests).getD []

omit [DecidableEq Bus] in
@[simp] theorem Master.pending_set (master : Master Dev Bus) (dev other : Dev)
    (sequence : Option Sequence) :
    (master.set dev sequence).pending other =
      if other = dev then (sequence.map Sequence.requests).getD [] else master.pending other := by
  by_cases same : other = dev
  · subst same
    simp [Master.pending, Master.set]
  · simp [Master.pending, Master.set, same]

/-- Clients know the requests that will be run. -/
theorem Followed.pending_eq (followed : Followed board mem trace master) (dev : Dev) :
    master.pending dev = recorded dev trace := by
  induction trace generalizing master with
  | nil =>
      rw [followed.start]
      rfl
  | cons shown trace inductionHypothesis =>
      obtain ⟨action, rc⟩ := shown
      obtain ⟨before, earlier, returns⟩ := followed.last
      have same := inductionHypothesis earlier
      have cleared (dev' : Dev) :
          (before.set dev' none).pending dev = if dev' = dev then [] else recorded dev trace := by
        rw [Master.pending_set, same]
        simp [eq_comm]
      cases Master.outcome_of_act returns with
      | stored write => exact same
      | failed => simpa [recorded] using same
      | begun n => simp [recorded, same, Sequence.begun, eq_comm]
      | @requested caller sequence request malloc left sequenceIs =>
          have made : before.pending caller = sequence.requests := by
            simp [Master.pending, sequenceIs]
          by_cases own : caller = dev
          · subst own
            simp [recorded, ← same, made, Sequence.append]
          · simp [recorded, same, own, Ne.symm own]
      | @committed caller sequence world sequenceIs ran =>
          simp only [recorded, and_true]
          exact cleared caller
      | @aborted caller =>
          simp only [recorded, and_true]
          exact cleared caller

theorem Followed.mem_eq {before : Master Dev Bus} (followed : Followed board mem trace before)
    (returns : before.act board action = .ok (master, rc)) {i : Nat}
    (apart : ¬ Touches trace i action) : master.world.mem i = before.world.mem i := by
  cases Master.outcome_of_act returns with
  | failed | begun | requested | aborted => rfl
  | stored write => exact Store.write_of_outside apart
  | @committed caller sequence world sequenceIs ran =>
      have made : before.pending caller = sequence.requests := by
        simp [Master.pending, sequenceIs]
      apply runAll_mem ran
      rw [← made, followed.pending_eq]
      exact apart

theorem Followed.read_eq {addr len : Nat} (apart : LeftAlone addr len later earlier)
    (followed : Followed board mem (later ++ earlier) master) :
    ∃ before, Followed board mem earlier before ∧
      master.world.mem.read addr len = before.world.mem.read addr len := by
  induction later generalizing master with
  | nil => exact ⟨master, followed, rfl⟩
  | cons shown later inductionHypothesis =>
      obtain ⟨action, rc⟩ := shown
      obtain ⟨apartLast, apart⟩ := apart
      obtain ⟨between, followedBetween, returns⟩ := followed.last
      obtain ⟨before, followedBefore, same⟩ := inductionHypothesis apart followedBetween
      refine ⟨before, followedBefore, ?_⟩
      rw [← same]
      apply Store.read_congr
      intro i above below
      exact followedBetween.mem_eq returns (apartLast i above below)

theorem Followed.committed {tx rx len : Nat} {before after : List Request}
    (followed : Followed board mem ((.call ⟨dev, .seqCommit⟩, rc) :: trace) master)
    (made : recorded dev trace = before ++ .xfer (some tx) (some rx) len :: after)
    (sentApart : ∀ i, tx ≤ i → i < tx + len → ¬ Receives before i)
    (replyApart : ∀ i, rx ≤ i → i < rx + len → ¬ Receives after i) :
    ∃ ready, Followed board mem trace ready ∧
      master.world.mem.read rx len = reply board dev (some (ready.world.mem.read tx len)) len := by
  obtain ⟨ready, followedReady, returns⟩ := followed.last
  refine ⟨ready, followedReady, ?_⟩
  have pending := followedReady.pending_eq dev
  have outcome : Master.Outcome board ready _ master rc := Master.outcome_of_act returns
  generalize isCommit : Action.call (⟨dev, .seqCommit⟩ : Event Dev) = action at outcome
  cases outcome with
  | failed event ne =>
      cases isCommit
      exact absurd rfl ne
  | stored | begun | requested | aborted => cases isCommit
  | @committed caller sequence world sequenceIs ran =>
      cases isCommit
      have same : ready.pending dev = sequence.requests := by
        simp [Master.pending, sequenceIs]
      rw [← same, pending, made] at ran
      exact runAll_reply ran sentApart replyApart

end Traces

section Clients

variable {board : Board Dev Bus} {mem : Store} {state : State Dev Bus} {dev : Dev}
  {history : List (Step (State Dev Bus) (Action Dev) (Option Output))}
  {later between earlier : Trace Dev} {committed filled : Option Rc} {tx rx : Nat}
  {bytes : List UInt8} {before after : List Request}

/-- A client fills the send buffer of a transfer with bytes and has its sequence committed.
In the receive buffer it finds what the device replies to these bytes.  Other devices and
clients may do anything in between and afterwards that leaves the two buffers alone. -/
theorem reply_received
    (run : Exec (driverWithClients board mem) history state)
    (actions : history.map seen = later ++ (.call ⟨dev, .seqCommit⟩, committed) ::
      (between ++ (.store ⟨tx, bytes⟩, filled) :: earlier))
    (requests : recorded dev (between ++ (.store ⟨tx, bytes⟩, filled) :: earlier) =
      before ++ .xfer (some tx) (some rx) bytes.length :: after)
    (sentKept : LeftAlone tx bytes.length between ((.store ⟨tx, bytes⟩, filled) :: earlier))
    (sentApart : ∀ i, tx ≤ i → i < tx + bytes.length → ¬ Receives before i)
    (replyApart : ∀ i, rx ≤ i → i < rx + bytes.length → ¬ Receives after i)
    (replyKept : LeftAlone rx bytes.length later ((.call ⟨dev, .seqCommit⟩, committed) ::
      (between ++ (.store ⟨tx, bytes⟩, filled) :: earlier))) :
    state.mem.read rx bytes.length = reply board dev (some bytes) bytes.length := by
  obtain ⟨followed, master, followedRun, same, abs⟩ := exists_master run
  have afterwards : Followed board mem (later ++ _) master :=
    ⟨followed, followedRun, same.trans actions⟩
  obtain ⟨served, followedCommit, kept⟩ := afterwards.read_eq replyKept
  obtain ⟨ready, followedReady, replied⟩ := followedCommit.committed requests sentApart replyApart
  obtain ⟨sent, followedSent, unchanged⟩ := followedReady.read_eq sentKept
  obtain ⟨empty, -, returns⟩ := followedSent.last
  obtain ⟨rfl, -⟩ := Prod.mk.inj (Except.ok.inj returns)
  have stored : (empty.world.mem.write tx bytes).read tx bytes.length = bytes := by
    rw [Store.read_write _ le_rfl le_rfl]
    simp
  have sameMem : state.mem = master.world.mem := congrArg World.mem abs.world
  rw [sameMem, kept, replied, unchanged, stored]

/-- The two bytes of the first device come back. -/
theorem reply_received_pair : commitFirst.post.mem.read 20 2 = [1, 2] := by
  have apart (i : Nat) : ¬ Receives [] i := by
    rintro ⟨tx, rx, len, member, -⟩
    cases member
  let before : Trace Bool := [requestFirst, beginFirst, beginOther].map seen
  have actions : [commitFirst, storeFirst, requestFirst, beginFirst, beginOther].map seen =
      [] ++ (.call ⟨false, .seqCommit⟩, some .noError) ::
        ([] ++ (.store ⟨7, [1, 2]⟩, none) :: before) := rfl
  have requests : recorded false ([] ++ (.store ⟨7, [1, 2]⟩, none) :: before) =
      [] ++ .xfer (some 7) (some 20) 2 :: [] := rfl
  exact reply_received commitFirst_exec actions requests trivial (fun i _ _ => apart i)
    (fun i _ _ => apart i) trivial

end Clients

end TrustyApp.Swspi
