import TrustyApp.Swspi.Sequence

/-!
# Recording and committing

Requests that are recorded and then committed do what they would do if they were run
at once, and an aborted sequence leaves nothing behind.
-/

namespace TrustyApp.Swspi

open Memory Reactive

variable {Dev Bus : Type} [DecidableEq Dev] [DecidableEq Bus]

/-- Make requests one after another, each with the outcome of its allocation.  The result
is the state and the blocks that were allocated. -/
def requestAll (dev : Dev) : List (Request × Option Addr) → State Dev Bus →
    Except Halt (State Dev Bus × List Addr)
  | [], state => .ok (state, [])
  | (request, malloc) :: calls, state => do
      let (state, output) ← spiReq state dev request malloc
      let (state, allocated) ← requestAll dev calls state
      .ok (state, output.allocated ++ allocated)

/-- The entries of the requests that are not given up for lack of memory. -/
def entriesOf (calls : List (Request × Option Addr)) : List SeqEntry :=
  calls.filterMap fun call => call.1.entry call.2

def accepted (calls : List (Request × Option Addr)) : List Request :=
  (calls.filter fun call => (call.1.entry call.2).isSome).map Prod.fst

/-- `malloc` returns blocks that are different from each other and from those in use. -/
structure Fresh (heap : Heap Block) (calls : List (Request × Option Addr)) : Prop where
  distinct : (blocks (entriesOf calls)).Nodup
  unused : ∀ addr ∈ blocks (entriesOf calls), heap addr = none

section Record

variable {dev : Dev} {heap : Heap Block} {n : Nat} {entries : List SeqEntry}
  {requests : List Request} {request : Request} {malloc : Option Addr}
  {calls : List (Request × Option Addr)} {entry : SeqEntry}

theorem entriesOf_cons_of_none (calls : List (Request × Option Addr))
    (missing : request.entry malloc = none) :
    entriesOf ((request, malloc) :: calls) = entriesOf calls ∧
      accepted ((request, malloc) :: calls) = accepted calls := by
  simp [entriesOf, accepted, missing]

theorem entriesOf_cons_of_some (calls : List (Request × Option Addr))
    (entryIs : request.entry malloc = some entry) :
    entriesOf ((request, malloc) :: calls) = entry :: entriesOf calls ∧
      accepted ((request, malloc) :: calls) = request :: accepted calls := by
  simp [entriesOf, accepted, entryIs]

theorem blocks_cons (entry : SeqEntry) (entries : List SeqEntry) :
    blocks (entry :: entries) = blocks [entry] ++ blocks entries := by
  rw [← List.singleton_append, blocks, List.filterMap_append]
  rfl

theorem Fresh.tail (fresh : Fresh heap ((request, malloc) :: calls))
    (entryIs : request.entry malloc = some entry) :
    Fresh (request.allocate malloc heap) calls := by
  have split := blocks_cons entry (entriesOf calls)
  have distinct := fresh.distinct
  rw [(entriesOf_cons_of_some calls entryIs).1, split, List.nodup_append] at distinct
  refine ⟨distinct.2.1, ?_⟩
  intro addr member
  have other : addr ∉ blocks [entry] := fun first => distinct.2.2 addr first addr member rfl
  rw [allocate_of_notMem entryIs other]
  apply fresh.unused
  rw [(entriesOf_cons_of_some calls entryIs).1, split]
  exact List.mem_append_right _ member

/-- Recording the requests appends their entries, and allocates only their blocks. -/
structure Records (dev : Dev) (n : Nat) (entries : List SeqEntry) (requests : List Request)
    (calls : List (Request × Option Addr)) (state : State Dev Bus) (heap : Heap Block) : Prop where
  returns : requestAll dev calls state =
    .ok ({ state.setDev dev (.recording n (entries ++ entriesOf calls)) with heap },
      blocks (entriesOf calls))
  represents : Represents heap (.recording n (entries ++ entriesOf calls)) n
    (entries ++ entriesOf calls) (requests ++ accepted calls)
  agree : ∀ addr, addr ∉ blocks (entriesOf calls) → heap addr = state.heap addr

variable {state : State Dev Bus}

omit [DecidableEq Bus] in
theorem Records.nil (represents : Represents state.heap (state.devs dev) n entries requests) :
    Records dev n entries requests [] state state.heap where
  returns := by
    have unchanged : state.setDev dev (.recording n entries) = state := by
      rw [State.setDev, ← represents.ctxIs, Function.update_eq_self]
    simp [requestAll, entriesOf, blocks, unchanged]
  represents := by
    simpa [entriesOf, accepted] using ⟨rfl, represents.room, represents.holds⟩
  agree _ _ := rfl

omit [DecidableEq Bus] in
theorem Records.skip (ctxIs : state.devs dev = .recording n entries) (room : entries.length < n)
    (valid : request ≠ .setClk none) (missing : request.entry malloc = none)
    (records : Records dev n entries requests calls state heap) :
    Records dev n entries requests ((request, malloc) :: calls) state heap := by
  obtain ⟨same, sameAccepted⟩ := entriesOf_cons_of_none calls missing
  constructor
  · rw [requestAll, spiReq_of_room ctxIs room valid, missing, same]
    simp only [ok_bind, records.returns, List.nil_append]
  · rw [same, sameAccepted]
    exact records.represents
  · rw [same]
    exact records.agree

omit [DecidableEq Bus] in
theorem Records.cons (ctxIs : state.devs dev = .recording n entries) (room : entries.length < n)
    (valid : request ≠ .setClk none) (entryIs : request.entry malloc = some entry)
    (records : Records dev n (entries ++ [entry]) (requests ++ [request]) calls
      { state.setDev dev (.recording n (entries ++ [entry])) with
        heap := request.allocate malloc state.heap } heap) :
    Records dev n entries requests ((request, malloc) :: calls) state heap := by
  obtain ⟨more, moreAccepted⟩ := entriesOf_cons_of_some calls entryIs
  obtain ⟨returns, represents, agree⟩ := records
  rw [List.append_assoc] at returns represents
  constructor
  · rw [requestAll, spiReq_of_room ctxIs room valid, entryIs, more, blocks_cons]
    simp only [ok_bind, returns, List.singleton_append]
    simp [State.setDev]
  · rw [more, moreAccepted]
    rw [List.append_assoc] at represents
    exact represents
  · rw [more, blocks_cons]
    intro addr notMem
    rw [agree addr fun later => notMem (List.mem_append_right _ later)]
    exact allocate_of_notMem entryIs fun first => notMem (List.mem_append_left _ first)

omit [DecidableEq Bus] in
theorem requestAll_records
    (represents : Represents state.heap (state.devs dev) n entries requests)
    (within : entries.length + calls.length ≤ n)
    (valid : ∀ call ∈ calls, call.1 ≠ .setClk none) (fresh : Fresh state.heap calls) :
    ∃ heap, Records dev n entries requests calls state heap := by
  induction calls generalizing state entries requests with
  | nil => exact ⟨state.heap, .nil represents⟩
  | cons call calls inductionHypothesis =>
      obtain ⟨request, malloc⟩ := call
      rw [List.length_cons] at within
      have room : entries.length < n := by omega
      have validFirst := valid (request, malloc) List.mem_cons_self
      have validRest : ∀ call ∈ calls, call.1 ≠ .setClk none :=
        fun call member => valid call (List.mem_cons_of_mem _ member)
      cases entryIs : request.entry malloc with
      | none =>
          have same := (entriesOf_cons_of_none calls entryIs).1
          have freshRest : Fresh state.heap calls := ⟨same ▸ fresh.distinct, same ▸ fresh.unused⟩
          obtain ⟨heap, records⟩ := inductionHypothesis represents (by omega) validRest freshRest
          exact ⟨heap, records.skip represents.ctxIs room validFirst entryIs⟩
      | some entry =>
          let next : State Dev Bus := { state.setDev dev (.recording n (entries ++ [entry])) with
            heap := request.allocate malloc state.heap }
          have unused : ∀ addr ∈ blocks [entry], state.heap addr = none := by
            intro addr member
            apply fresh.unused
            rw [(entriesOf_cons_of_some calls entryIs).1, blocks_cons]
            exact List.mem_append_left _ member
          have extended : Represents next.heap (next.devs dev) n (entries ++ [entry])
              (requests ++ [request]) := by
            simpa [next, State.setDev] using represents.extend room entryIs unused
          have withinRest : (entries ++ [entry]).length + calls.length ≤ n := by
            simp only [List.length_append, List.length_singleton]
            omega
          obtain ⟨heap, records⟩ := inductionHypothesis extended withinRest validRest
            (fresh.tail entryIs)
          exact ⟨heap, records.cons represents.ctxIs room validFirst entryIs⟩

theorem without_eq {heap recorded : Heap Block} (fresh : Fresh heap calls)
    (agree : ∀ addr, addr ∉ blocks (entriesOf calls) → recorded addr = heap addr) :
    recorded.without (blocks (entriesOf calls)) = heap := by
  funext addr
  by_cases member : addr ∈ blocks (entriesOf calls)
  · rw [Heap.without, if_pos member, fresh.unused addr member]
  · rw [Heap.without_of_notMem member, agree addr member]

/-- A sequence that is recorded and committed does to the bus and the buffers what its
requests do when they are run at once; one that is aborted does nothing.  Either way the
device is idle again and each block that was allocated has been freed once. -/
theorem commit_runs_requests (board : Board Dev Bus) (state : State Dev Bus)
    (idle : state.devs dev = .idle) (within : calls.length ≤ n)
    (valid : ∀ call ∈ calls, call.1 ≠ .setClk none) (fresh : Fresh state.heap calls) :
    ∃ recorded allocated,
      (do
        let (begun, _) ← spiSeqBegin state dev n true
        requestAll dev calls begun) = .ok (recorded, allocated) ∧
      allocated.Nodup ∧
      ((accepted calls).length = n →
        spiSeqCommit board recorded dev =
          match runAll board dev (accepted calls) state.world with
          | .error assertion => .error (.assertFailed assertion)
          | .ok world => .ok (state.withWorld world, ⟨.noError, [], allocated⟩)) ∧
      spiSeqAbort recorded dev = .ok (state, ⟨.noError, [], allocated⟩) := by
  let begun := state.setDev dev (.recording n [])
  have begins : Represents begun.heap (begun.devs dev) n [] [] := by
    refine ⟨?_, Nat.zero_le n, .nil⟩
    simp [begun, State.setDev]
  obtain ⟨heap, recording, represents, agree⟩ := requestAll_records begins
    (by simpa using within) valid fresh
  rw [List.nil_append] at recording represents
  let recorded : State Dev Bus := { begun.setDev dev (.recording n (entriesOf calls)) with heap }
  have recordedAs : Represents recorded.heap (recorded.devs dev) n (entriesOf calls)
      (accepted calls) := by
    simpa [recorded, State.setDev] using represents
  have cleared (world : World Dev Bus) : { (recorded.withWorld world).setDev dev .idle with
      heap := recorded.heap.without (blocks (entriesOf calls)) } = state.withWorld world := by
    have devs : Function.update (Function.update (Function.update state.devs dev
        (.recording n [])) dev (.recording n (entriesOf calls))) dev .idle = state.devs := by
      simp [← idle]
    simp only [recorded, begun, State.setDev, State.withWorld, devs, without_eq fresh agree]
  refine ⟨recorded, blocks (entriesOf calls), ?_, fresh.distinct, ?_, ?_⟩
  · rw [spiSeqBegin_eq idle, ok_bind]
    exact recording
  · intro complete
    have length : (entriesOf calls).length = n := by
      rw [recordedAs.holds.length_eq, complete]
    rw [spiSeqCommit_eq recordedAs fresh.distinct length]
    have sameWorld : recorded.world = state.world := rfl
    rw [sameWorld]
    cases runAll board dev (accepted calls) state.world with
    | error assertion => rfl
    | ok world => exact congrArg (fun state => Except.ok (state, _)) (cleared world)
  · rw [spiSeqAbort_eq recordedAs fresh.distinct]
    have aborted := cleared state.world
    exact congrArg (fun state => Except.ok (state, _)) aborted

end Record

def loopbackBoard : Board Unit Unit := ⟨fun _ => (), fun _ => true, fun _ _ => 0⟩

def loopbackState : State Unit Unit := ⟨fun _ => .idle, fun _ => none, fun _ => none, UInt8.ofNat⟩

def transferCalls : List (Request × Option Addr) :=
  [(.csAssert, none), (.xfer (some 7) (some 20) 2, some 64), (.csDeassert, none)]

theorem transferCalls_fresh : Fresh loopbackState.heap transferCalls :=
  ⟨by decide, fun _ _ => rfl⟩

theorem commit_runs_requests_transfer : ∃ recorded committed,
    (do
      let (begun, _) ← spiSeqBegin loopbackState () 3 true
      requestAll () transferCalls begun) = .ok (recorded, [64]) ∧
    spiSeqCommit loopbackBoard recorded () = .ok (committed, ⟨.noError, [], [64]⟩) ∧
    committed.devs = loopbackState.devs ∧ committed.heap = loopbackState.heap ∧
    committed.owner () = none ∧ committed.mem.read 20 2 = [7, 8] ∧
    spiSeqAbort recorded () = .ok (loopbackState, ⟨.noError, [], [64]⟩) := by
  obtain ⟨recorded, allocated, recording, -, commits, aborts⟩ :=
    commit_runs_requests loopbackBoard loopbackState (show loopbackState.devs () = .idle from rfl)
      (show transferCalls.length ≤ 3 by decide) (by decide) transferCalls_fresh
  have known : (do
      let (begun, _) ← spiSeqBegin loopbackState () 3 true
      requestAll () transferCalls begun) = .ok (_, [64]) := rfl
  obtain rfl : allocated = [64] :=
    congrArg Prod.snd (Except.ok.inj (recording.symm.trans known))
  exact ⟨recorded, _, recording, commits rfl, rfl, rfl, rfl, rfl, aborts⟩

end TrustyApp.Swspi
