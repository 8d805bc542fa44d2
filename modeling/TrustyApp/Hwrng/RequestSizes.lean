import TrustyApp.Hwrng.Conservation

/-!
# The range of `req_size`

A request that arrives while another one is pending is added to it without a check.
Whether the sum stays within `size_t` can be read off the messages of the run alone:
less than `2 ^ width` bytes have to be requested on the channel and not yet sent.
-/

namespace TrustyApp.Hwrng

open Ipc Reactive

variable {width : Nat} {io : Io} {state : State} {ctx : Addr} {chanCtx : ChanCtx}
  {log : List Action}

/-- The event extends a pending request beyond the range of `size_t`. -/
def Wraps (width : Nat) (state : State) : Event → Prop
  | .port _ => False
  | .chan handle bits io =>
      ∃ ctx chanCtx len, state.conns.chans handle = .attached ctx ∧
        state.conns.ctxs ctx = some chanCtx ∧ bits.hup = false ∧ bits.msg = true ∧
        io.recv = some len ∧ ctx ∈ state.hwrngReqList ∧ 2 ^ width ≤ chanCtx.reqSize + len.toNat

/-- With every request, less than `2 ^ width` bytes were requested on its channel and
not sent. -/
def Covered (width : Nat) (log : List Action) : Prop :=
  ∀ later earlier chan len, log = later ++ .received chan len :: earlier →
    (tally chan earlier).received + len < 2 ^ width + (tally chan earlier).sent

theorem covered_nil : Covered width [] := by
  intro later earlier chan len split
  simp at split

theorem covered_cons_of_ne {action : Action} (other : ∀ chan len, action ≠ .received chan len) :
    Covered width (action :: log) ↔ Covered width log := by
  constructor
  · intro covered later earlier chan len split
    exact covered (action :: later) earlier chan len (by rw [split, List.cons_append])
  · intro covered later earlier chan len split
    cases later with
    | nil => exact absurd (List.cons.inj split).1 (other chan len)
    | cons first later => exact covered later earlier chan len (List.cons.inj split).2

theorem covered_append_of_silent {new : List Action}
    (silent : ∀ chan len, .received chan len ∉ new) :
    Covered width (new ++ log) ↔ Covered width log := by
  induction new with
  | nil => rfl
  | cons action new inductionHypothesis =>
      rw [List.cons_append, covered_cons_of_ne, inductionHypothesis]
      · intro chan len member
        exact silent chan len (List.mem_cons_of_mem action member)
      · rintro chan len rfl
        exact silent chan len List.mem_cons_self

theorem covered_cons_received {chan : Handle} {len : Nat} :
    Covered width (.received chan len :: log) ↔
      (tally chan log).received + len < 2 ^ width + (tally chan log).sent ∧
        Covered width log := by
  constructor
  · intro covered
    refine ⟨covered [] log chan len rfl, ?_⟩
    intro later earlier other size split
    exact covered (.received chan len :: later) earlier other size
      (by rw [split, List.cons_append])
  · rintro ⟨room, covered⟩ later earlier other size split
    cases later with
    | nil =>
        obtain ⟨rfl, rfl⟩ := Action.received.inj (List.cons.inj split).1
        rw [← (List.cons.inj split).2]
        exact room
    | cons first later => exact covered later earlier other size (List.cons.inj split).2

def Tally.Due (width : Nat) (books : Tally) : Prop :=
  books.sent ≤ books.received ∧ books.received < books.sent + 2 ^ width

theorem due_empty : Tally.Due width ⟨0, 0⟩ := by
  refine ⟨le_rfl, ?_⟩
  rw [Nat.zero_add]
  exact Nat.two_pow_pos width

theorem Tally.Due.exact {books : Tally} {pending : Nat} (due : books.Due width)
    (balanced : books.Balanced width pending) (bounded : pending < 2 ^ width) :
    books.sent + pending = books.received := by
  obtain ⟨notMore, inRange⟩ := due
  have split : books.received = books.sent + (books.received - books.sent) := by omega
  rw [Tally.Balanced, split] at balanced
  have same := (Nat.ModEq.add_left_cancel' _ balanced).eq_of_lt_of_lt bounded (by omega)
  omega

/-- Since a message carries at most what is pending, no channel gets more than it
requested. -/
theorem due_of_covered (exact : ExactMessages width log) (covered : Covered width log)
    (chan : Handle) : (tally chan log).Due width := by
  induction log with
  | nil => exact due_empty
  | cons action log inductionHypothesis =>
      have shorter : ExactMessages width log := fun later earlier other data split =>
        exact (action :: later) earlier other data (by rw [split, List.cons_append])
      by_cases other : action.booked = some chan
      · cases action with
        | opened chan' =>
            obtain rfl := Option.some.inj other
            simp only [tally, if_true]
            exact due_empty
        | received chan' len =>
            obtain rfl := Option.some.inj other
            obtain ⟨room, earlier⟩ := covered_cons_received.mp covered
            obtain ⟨notMore, -⟩ := inductionHypothesis shorter earlier
            simp only [tally, if_true, Tally.Due]
            omega
        | sent chan' data =>
            obtain rfl := Option.some.inj other
            have due := inductionHypothesis shorter
              ((covered_cons_of_ne (by simp)).mp covered)
            obtain ⟨pending, bounded, balanced, full⟩ := exact [] log chan' data rfl
            have same := due.exact balanced bounded
            obtain ⟨-, inRange⟩ := due
            simp only [tally, if_true, Tally.Due]
            omega
        | drew | drawFailed | sendBlocked | closed => cases other
      · have earlier : Covered width log := by
          intro later earlier chan' len split
          exact covered (action :: later) earlier chan' len (by rw [split, List.cons_append])
        rw [tally_of_not_booked log other]
        exact inductionHypothesis shorter earlier

theorem outstanding_lt (conserved : Conserved width log state)
    (live : state.conns.ctxs ctx = some chanCtx) : outstanding state ctx < 2 ^ width := by
  by_cases queued : ctx ∈ state.hwrngReqList
  · rw [outstanding_of_queued live queued]
    exact conserved.bounded ctx chanCtx live
  · rw [outstanding_of_not_queued queued]
    exact Nat.two_pow_pos width

theorem sent_add_outstanding (conserved : Conserved width log state)
    (covered : Covered width log) (live : state.conns.ctxs ctx = some chanCtx) :
    (tally chanCtx.chan log).sent + outstanding state ctx = (tally chanCtx.chan log).received :=
  (due_of_covered conserved.exact covered chanCtx.chan).exact
    (conserved.balanced ctx chanCtx live) (outstanding_lt conserved live)

theorem pass_receives_nothing {actions : List Action} {pass : Pass}
    (invariant : QueueInvariant state)
    (passed : hwrngHandleReqQueue io state actions = .ok pass) :
    ∃ new, pass.actions = new ++ actions ∧ ∀ chan len, .received chan len ∉ new := by
  have round : ∀ ctx (rest : List Addr) now chanCtx done now' new more,
      now.conns.ctxs ctx = some chanCtx → ctx ∈ now.hwrngReqList → ctx ∉ rest →
      QueueInvariant now →
      (∃ earlier, done = earlier ++ actions ∧ ∀ chan len, .received chan len ∉ earlier) →
      Served io now ctx chanCtx now' new more →
      ∃ earlier, new ++ done = earlier ++ actions ∧ ∀ chan len, .received chan len ∉ earlier := by
    rintro ctx rest now chanCtx done now' new more - - - - ⟨earlier, rfl, silent⟩ served
    refine ⟨new ++ earlier, by rw [List.append_assoc], ?_⟩
    intro chan len member
    rcases List.mem_append.mp member with member | member
    · cases served <;> simp at member
    · exact silent chan len member
  obtain ⟨again, result, -, held⟩ := pass_rule
    (fun _ _ done => ∃ earlier, done = earlier ++ actions ∧ ∀ chan len,
      .received chan len ∉ earlier) round actions invariant ⟨[], rfl, by simp⟩
  obtain rfl := Except.ok.inj (passed.symm.trans result)
  exact held

theorem unblock_chan (chanCtx : ChanCtx) (bits : Bits) :
    (chanCtx.unblock bits).chan = chanCtx.chan := by
  unfold ChanCtx.unblock
  split
  · rfl
  · rfl

/-- A request wraps `req_size` exactly when it is not covered. -/
theorem step_covered_iff {event : Event} {post : State} {output : List Action}
    (wide : 32 ≤ width) (invariant : QueueInvariant state) (conserved : Conserved width log state)
    (covered : Covered width log) (enabled : Enabled state event)
    (handled : dispatchEvent width state event = .ok (post, output)) :
    ¬ Wraps width state event ↔ Covered width (output ++ log) := by
  cases event with
  | port conn =>
      have connected : hwrngPortHandler state conn = (post, output) := Except.ok.inj handled
      have silent : ∀ chan len, .received chan len ∉ output := by
        intro chan len
        rw [← (Prod.mk.inj connected).2]
        split <;> simp
      rw [covered_append_of_silent silent]
      exact iff_of_true id covered
  | chan handle bits io =>
      obtain ⟨ctx, attached⟩ := enabled
      obtain ⟨chanCtx, middle, before, pass, live, rfl, -, prepared, kept, passed, -, -,
        dispatched⟩ := dispatchEvent_chan width bits io invariant attached
      obtain ⟨rfl, rfl⟩ := Prod.mk.inj (Except.ok.inj (dispatched.symm.trans handled))
      obtain ⟨new, actions, silent⟩ := pass_receives_nothing kept passed
      rw [actions, List.append_assoc, covered_append_of_silent silent]
      have unwrapped (quiet : ∀ len, ¬ (bits.hup = false ∧ bits.msg = true ∧
          io.recv = some len)) : ¬ Wraps width state (.chan chanCtx.chan bits io) := by
        rintro ⟨-, -, len, -, -, hup, msg, recv, -, -⟩
        exact quiet len ⟨hup, msg, recv⟩
      cases prepared with
      | hungUp hup =>
          rw [covered_append_of_silent (by simp)]
          exact iff_of_true (unwrapped (by simp [hup])) covered
      | recvFailed _ _ failed =>
          rw [covered_append_of_silent (by simp)]
          exact iff_of_true (unwrapped (by simp [failed])) covered
      | noMessage _ none =>
          exact iff_of_true (unwrapped (by simp [none])) covered
      | @received len hup msg recv =>
          have exact := sent_add_outstanding conserved covered live
          rw [List.singleton_append, covered_cons_received, unblock_chan]
          constructor
          · intro fits
            refine ⟨?_, covered⟩
            by_cases queued : ctx ∈ state.hwrngReqList
            · rw [outstanding_of_queued live queued] at exact
              by_contra tooMuch
              exact fits ⟨ctx, chanCtx, len, attached, live, hup, msg, recv, queued, by omega⟩
            · rw [outstanding_of_not_queued queued] at exact
              have small : len.toNat < 2 ^ width :=
                lt_of_lt_of_le len.toNat_lt (Nat.pow_le_pow_right (by omega) wide)
              omega
          · rintro ⟨room, -⟩ ⟨ctx', chanCtx', len', attached', live', -, -, recv', queued, tooMuch⟩
            obtain rfl : ctx = ctx' := by simpa [attached] using attached'
            obtain rfl : chanCtx = chanCtx' := Option.some.inj (live.symm.trans live')
            obtain rfl : len = len' := Option.some.inj (recv.symm.trans recv')
            rw [outstanding_of_queued live queued] at exact
            omega

theorem no_wrap_iff_covered {history : List (Step State Event (List Action))}
    (wide : 32 ≤ width) (run : Exec (service width) history state) :
    (∀ step ∈ history, ¬ Wraps width step.pre step.event) ↔
      Covered width (actionLog history) := by
  induction run with
  | start => exact iff_of_true (by simp) covered_nil
  | @step history step before performs inductionHypothesis =>
      obtain ⟨enabled, handled⟩ := performs
      have invariant := queueInvariant_of_reachable before.reachable
      have conserved := conserved_of_exec before
      have log : actionLog (step :: history) = step.output ++ actionLog history :=
        List.flatMap_cons
      rw [List.forall_mem_cons, inductionHypothesis, log]
      constructor
      · rintro ⟨fits, covered⟩
        exact (step_covered_iff wide invariant conserved covered enabled handled).mp fits
      · intro covered
        have earlier : Covered width (actionLog history) := by
          intro later rest chan len split
          exact covered (step.output ++ later) rest chan len (by rw [split, List.append_assoc])
        exact ⟨(step_covered_iff wide invariant conserved earlier enabled handled).mpr covered,
          earlier⟩

/-- In a run `req_size` never wraps exactly when every request is covered, and then
no requested byte is dropped. -/
theorem outstanding_size_never_wraps_iff {history : List (Step State Event (List Action))}
    (sizeT : width = 32 ∨ width = 64) (run : Exec (service width) history state) :
    ((∀ step ∈ history, ¬ Wraps width step.pre step.event) ∧
      ∀ chan ctx, state.conns.chans chan = .attached ctx →
        (tally chan (actionLog history)).sent + outstanding state ctx =
          (tally chan (actionLog history)).received) ↔
      Covered width (actionLog history) := by
  have wide : 32 ≤ width := by omega
  rw [no_wrap_iff_covered wide run]
  constructor
  · exact And.left
  · intro covered
    refine ⟨covered, ?_⟩
    intro chan ctx attached
    obtain ⟨chanCtx, live, rfl⟩ :=
      (queueInvariant_of_reachable run.reachable).wellFormed.attached chan ctx attached
    exact sent_add_outstanding (conserved_of_exec run) covered live

def fullChannelStep (pre : State) (len : UInt32) (result : State × List Action) :
    Step State Event (List Action) :=
  ⟨pre, .chan 3 ⟨false, false, true⟩ (fullChannel len), result.2, result.1⟩

def waitingHistory (result : State × List Action) : List (Step State Event (List Action)) :=
  [fullChannelStep connectStep.post 1 result, connectStep]

theorem waitingHistory_exec :
    ∃ result, Exec (service 32) (waitingHistory result) result.1 ∧
      result.1.conns.chans 3 = .attached 16 ∧ result.1.conns.ctxs 16 = some ⟨3, 1, true⟩ ∧
      16 ∈ result.1.hwrngReqList ∧ Covered 32 (actionLog (waitingHistory result)) := by
  have connects : (service 32).Performs connectStep := ⟨connectStep_performs.1, rfl⟩
  obtain ⟨result, handled, attached, live, queued, actions⟩ :
      ∃ result, dispatchEvent 32 connectStep.post
          (.chan 3 ⟨false, false, true⟩ (fullChannel 1)) = .ok result ∧
        result.1.conns.chans 3 = .attached 16 ∧
        result.1.conns.ctxs 16 = some ⟨3, 1, true⟩ ∧ 16 ∈ result.1.hwrngReqList ∧
        result.2 = [.sendBlocked 3, .drew 16 [7], .received 3 1] :=
    ⟨_, rfl, rfl, rfl, List.mem_singleton_self 16, rfl⟩
  have performs : (service 32).Performs (fullChannelStep connectStep.post 1 result) :=
    ⟨⟨16, rfl⟩, handled⟩
  refine ⟨result, (Exec.start.step connects).step performs, attached, live, queued, ?_⟩
  have log : actionLog (waitingHistory result) =
      [.sendBlocked 3, .drew 16 [7], .received 3 1, .opened 3] := by
    rw [actionLog, waitingHistory, List.flatMap_cons, fullChannelStep, actions]
    rfl
  rw [log, covered_cons_of_ne (by simp), covered_cons_of_ne (by simp), covered_cons_received,
    covered_cons_of_ne (by simp)]
  exact ⟨by decide, covered_nil⟩

theorem outstanding_size_never_wraps_waiting :
    ∃ result, Exec (service 32) (waitingHistory result) result.1 ∧
      ¬ Wraps 32 connectStep.post (.chan 3 ⟨false, false, true⟩ (fullChannel 1)) ∧
      (tally 3 (actionLog (waitingHistory result))).sent + outstanding result.1 16 =
        (tally 3 (actionLog (waitingHistory result))).received := by
  obtain ⟨result, run, attached, -, -, covered⟩ := waitingHistory_exec
  obtain ⟨inRange, exact⟩ := (outstanding_size_never_wraps_iff (.inl rfl) run).mpr covered
  exact ⟨result, run, inRange _ List.mem_cons_self, exact 3 16 attached⟩

/-- A request of one byte waits for the channel when 2^32 - 1 more are requested: in 32
bits nothing is left of them. -/
theorem pending_request_wraps :
    ¬ ∀ (width : Nat) (history : List (Step State Event (List Action))) (state : State),
        width = 32 ∨ width = 64 → Exec (service width) history state →
        ∀ step ∈ history, ¬ Wraps width step.pre step.event := by
  intro claim
  obtain ⟨first, run, attached, live, queued, -⟩ := waitingHistory_exec
  obtain ⟨-, -, -, pass, -, -, -, -, -, -, -, -, handled⟩ :=
    dispatchEvent_chan 32 ⟨false, false, true⟩ (fullChannel 0xffffffff)
      (queueInvariant_of_reachable run.reachable) attached
  have performs : (service 32).Performs
      (fullChannelStep first.1 0xffffffff (pass.state, pass.actions)) :=
    ⟨⟨16, attached⟩, handled⟩
  apply claim 32 _ _ (.inl rfl) (run.step performs) _ List.mem_cons_self
  exact ⟨16, ⟨3, 1, true⟩, 0xffffffff, attached, live, rfl, rfl, rfl, queued, by decide⟩

end TrustyApp.Hwrng
