import TrustyApp.Hwrng.Queue

/-!
# Progress of pending requests

A pending request whose channel is not blocked is only looked at again when some
channel has an event.  `hwrng_handle_req_queue` reports such requests, but its
caller drops the report: a request that does not fit into one message stays behind
after a successful send.
-/

namespace TrustyApp.Hwrng

open Ipc Reactive

variable {width : Nat} {io : Io} {state : State} {ctx : Addr} {chanCtx : ChanCtx}

/-- Every pending request waits for its own channel to become writable. -/
def AllBlocked (state : State) : Prop :=
  ∀ ctx ∈ state.hwrngReqList, ∃ chanCtx, state.conns.ctxs ctx = some chanCtx ∧
    chanCtx.sendBlocked = true

/-- The pass sends this context a message that does not complete its request. -/
def PartlyServed (io : Io) (ctx : Addr) (chanCtx : ChanCtx) : Prop :=
  chanCtx.sendBlocked = false ∧ maxHwrngMsgSize < chanCtx.reqSize ∧
    (io.rng ctx).isSome ∧ io.send ctx = .sent

def Settled (partly : Prop) (state : State) (ctx : Addr) : Prop :=
  (partly → ctx ∈ state.hwrngReqList ∧
      ∃ chanCtx, state.conns.ctxs ctx = some chanCtx ∧ chanCtx.sendBlocked = false) ∧
    (¬ partly → ctx ∈ state.hwrngReqList →
      ∃ chanCtx, state.conns.ctxs ctx = some chanCtx ∧ chanCtx.sendBlocked = true)

theorem Served.settled {state' : State} {actions : List Action} {more : Bool}
    (served : Served io state ctx chanCtx state' actions more)
    (invariant : QueueInvariant state) (live : state.conns.ctxs ctx = some chanCtx)
    (queued : ctx ∈ state.hwrngReqList) :
    Settled (PartlyServed io ctx chanCtx) state' ctx := by
  have gone : ctx ∉ state.hwrngReqList.erase ctx := invariant.nodup.not_mem_erase
  cases served with
  | skipped blocked =>
      exact ⟨fun partly => by simp [partly.1] at blocked, fun _ _ => ⟨chanCtx, live, blocked⟩⟩
  | drawFailed unblocked drew =>
      exact ⟨fun partly => by simp [PartlyServed, drew] at partly,
        fun _ member => absurd member gone⟩
  | sendBlocked unblocked drew result =>
      exact ⟨fun partly => by simp [PartlyServed, result] at partly,
        fun _ _ => ⟨_, Table.put_ctxs_self _ _ _, rfl⟩⟩
  | sendFailed unblocked drew result =>
      exact ⟨fun partly => by simp [PartlyServed, result] at partly,
        fun _ member => absurd member gone⟩
  | finished unblocked drew result small =>
      exact ⟨fun partly => absurd partly.2.1 (Nat.not_lt.mpr small),
        fun _ member => absurd member gone⟩
  | more unblocked drew result large =>
      refine ⟨fun _ => ⟨queued, _, Table.put_ctxs_self _ _ _, unblocked⟩, fun complete => ?_⟩
      exact absurd ⟨unblocked, large, by simp [drew], result⟩ complete

theorem Settled.frame {partly : Prop} {state' : State}
    (sameCtx : state'.conns.ctxs ctx = state.conns.ctxs ctx)
    (sameMember : ctx ∈ state'.hwrngReqList ↔ ctx ∈ state.hwrngReqList)
    (settled : Settled partly state ctx) : Settled partly state' ctx := by
  unfold Settled at settled ⊢
  rw [sameCtx, sameMember]
  exact settled

structure Visited (io : Io) (state : State) (rest : List Addr) (now : State) : Prop where
  untouched : Untouched state rest now
  within : ∀ ctx ∈ now.hwrngReqList, ctx ∈ state.hwrngReqList
  settled : ∀ ctx ∈ state.hwrngReqList, ctx ∈ rest ∨ ∀ chanCtx,
    state.conns.ctxs ctx = some chanCtx → Settled (PartlyServed io ctx chanCtx) now ctx

theorem Visited.served {now now' : State} {new : List Action} {rest : List Addr} {more : Bool}
    (visited : Visited io state (ctx :: rest) now) (live : now.conns.ctxs ctx = some chanCtx)
    (queued : ctx ∈ now.hwrngReqList) (fresh : ctx ∉ rest) (kept : QueueInvariant now)
    (served : Served io now ctx chanCtx now' new more) : Visited io state rest now' := by
  obtain ⟨untouched, within, settled⟩ := visited
  refine ⟨served.untouched fresh untouched, ?_, ?_⟩
  · intro other member
    apply within
    rcases served.frame.2 with unchanged | erased
    · exact unchanged ▸ member
    · exact List.mem_of_mem_erase (erased ▸ member)
  · intro other member
    by_cases isCurrent : other = ctx
    · subst isCurrent
      apply Or.inr
      intro otherCtx atStart
      have same := untouched other List.mem_cons_self
      have equal : chanCtx = otherCtx :=
        Option.some.inj ((live.symm.trans same).trans atStart)
      exact equal ▸ served.settled kept live queued
    · rcases settled other member with inRest | done
      · simp only [List.mem_cons, isCurrent, false_or] at inRest
        exact .inl inRest
      · apply Or.inr
        intro otherCtx atStart
        exact (done otherCtx atStart).frame (served.frame.1 other isCurrent)
          (served.mem_iff isCurrent)

theorem pass_allBlocked_iff (invariant : QueueInvariant state) {actions : List Action}
    {pass : Pass} (passed : hwrngHandleReqQueue io state actions = .ok pass) :
    AllBlocked pass.state ↔ ∀ ctx ∈ state.hwrngReqList, ∀ chanCtx,
      state.conns.ctxs ctx = some chanCtx → ¬ PartlyServed io ctx chanCtx := by
  have start : Visited io state state.hwrngReqList state :=
    ⟨fun _ _ => rfl, fun _ member => member, fun _ member => .inl member⟩
  obtain ⟨pass', result, kept, -, within, settled⟩ :=
    pass_rule (fun rest now _ => Visited io state rest now)
      (fun _ _ _ _ _ _ _ _ live queued fresh kept held served =>
        held.served live queued fresh kept served)
      actions invariant start
  obtain rfl : pass' = pass := Except.ok.inj (result.symm.trans passed)
  have final : ∀ ctx ∈ state.hwrngReqList, ∀ chanCtx, state.conns.ctxs ctx = some chanCtx →
      Settled (PartlyServed io ctx chanCtx) pass'.state ctx := by
    intro ctx member
    simpa using settled ctx member
  constructor
  · intro allBlocked ctx member chanCtx live partly
    obtain ⟨stillQueued, now, nowLive, unblocked⟩ := (final ctx member chanCtx live).1 partly
    obtain ⟨other, otherLive, blocked⟩ := allBlocked ctx stillQueued
    obtain rfl : now = other := Option.some.inj (nowLive.symm.trans otherLive)
    rw [unblocked] at blocked
    cases blocked
  · intro complete ctx member
    have atStart := within ctx member
    obtain ⟨chanCtx, live⟩ := invariant.live ctx atStart
    exact (final ctx atStart chanCtx live).2 (complete ctx atStart chanCtx live) member

def pendingSize (width : Nat) (state : State) (ctx : Addr) (chanCtx : ChanCtx) (bits : Bits)
    (io : Io) : Option Nat :=
  if bits.hup then none
  else
    match bits.msg, io.recv with
    | true, none => none
    | true, some len =>
        some (if ctx ∈ state.hwrngReqList then (chanCtx.reqSize + len.toNat) % 2 ^ width
          else len.toNat % 2 ^ width)
    | false, _ => if ctx ∈ state.hwrngReqList then some chanCtx.reqSize else none

/-- The event leaves its channel writable with a request of more than one message,
and the RNG device and the send succeed. -/
def Overruns (width : Nat) (state : State) : Event → Prop
  | .port _ => False
  | .chan handle bits io =>
      ∃ ctx chanCtx size, state.conns.chans handle = .attached ctx ∧
        state.conns.ctxs ctx = some chanCtx ∧
        (chanCtx.sendBlocked = false ∨ bits.sendUnblocked = true) ∧
        pendingSize width state ctx chanCtx bits io = some size ∧ maxHwrngMsgSize < size ∧
        (io.rng ctx).isSome ∧ io.send ctx = .sent

theorem Prepared.frame {bits : Bits} {middle : State} {actions : List Action}
    (prepared : Prepared width state ctx chanCtx bits io middle actions) {other : Addr}
    (ne : other ≠ ctx) :
    middle.conns.ctxs other = state.conns.ctxs other ∧
      (other ∈ middle.hwrngReqList ↔ other ∈ state.hwrngReqList) := by
  have unblocked : (state.unblock ctx chanCtx bits).conns.ctxs other =
      state.conns.ctxs other ∧
        (state.unblock ctx chanCtx bits).hwrngReqList = state.hwrngReqList := by
    cases set : bits.sendUnblocked <;>
      simp [State.unblock, set, State.store, Table.put_ctxs_of_ne _ _ ne]
  cases prepared with
  | hungUp =>
      exact ⟨Table.free_ctxs_of_ne _ ne, List.mem_erase_of_ne ne⟩
  | recvFailed =>
      refine ⟨(Table.free_ctxs_of_ne _ ne).trans unblocked.1, ?_⟩
      simp [State.shutdown, unblocked.2, List.mem_erase_of_ne ne]
  | received =>
      unfold queueRequest
      split
      · exact ⟨(Table.put_ctxs_of_ne _ _ ne).trans unblocked.1, by simp [State.store, unblocked.2]⟩
      · exact ⟨(Table.put_ctxs_of_ne _ _ ne).trans unblocked.1, by simp [unblocked.2, ne]⟩
  | noMessage => exact ⟨unblocked.1, by rw [unblocked.2]⟩

@[simp] theorem unblock_reqSize (chanCtx : ChanCtx) (bits : Bits) :
    (chanCtx.unblock bits).reqSize = chanCtx.reqSize := by
  unfold ChanCtx.unblock
  split <;> rfl

theorem unblock_sendBlocked_eq_false (chanCtx : ChanCtx) (bits : Bits) :
    (chanCtx.unblock bits).sendBlocked = false ↔
      chanCtx.sendBlocked = false ∨ bits.sendUnblocked = true := by
  cases set : bits.sendUnblocked <;> simp [ChanCtx.unblock, set]

@[simp] theorem unblock_hwrngReqList (state : State) (ctx : Addr) (chanCtx : ChanCtx)
    (bits : Bits) : (state.unblock ctx chanCtx bits).hwrngReqList = state.hwrngReqList := by
  unfold State.unblock
  split <;> rfl

theorem queueRequest_self (width : Nat) (state : State) (ctx : Addr) (chanCtx : ChanCtx)
    (len : UInt32) :
    ctx ∈ (queueRequest width state ctx chanCtx len).hwrngReqList ∧
      (queueRequest width state ctx chanCtx len).conns.ctxs ctx =
        some { chanCtx with
          reqSize := if ctx ∈ state.hwrngReqList then
            (chanCtx.reqSize + len.toNat) % 2 ^ width else len.toNat % 2 ^ width } := by
  unfold queueRequest
  by_cases linked : ctx ∈ state.hwrngReqList
  · simp only [if_pos linked]
    exact ⟨linked, Table.put_ctxs_self _ _ _⟩
  · simp only [if_neg linked]
    exact ⟨by simp, Table.put_ctxs_self _ _ _⟩

/-- Whether the pass serves the event's own request in part can be read off the
state before the event. -/
theorem Prepared.partlyServed_iff {bits : Bits} {middle : State} {actions : List Action}
    (prepared : Prepared width state ctx chanCtx bits io middle actions)
    (invariant : QueueInvariant state) (live : state.conns.ctxs ctx = some chanCtx) :
    (ctx ∈ middle.hwrngReqList ∧ ∃ now, middle.conns.ctxs ctx = some now ∧
        PartlyServed io ctx now) ↔
      ∃ size, (chanCtx.sendBlocked = false ∨ bits.sendUnblocked = true) ∧
        pendingSize width state ctx chanCtx bits io = some size ∧ maxHwrngMsgSize < size ∧
        (io.rng ctx).isSome ∧ io.send ctx = .sent := by
  have gone : ctx ∉ state.hwrngReqList.erase ctx := invariant.nodup.not_mem_erase
  have unblocked := unblock_live live bits
  cases prepared with
  | hungUp hup => simp [State.shutdown, gone, pendingSize, hup]
  | recvFailed hup msg failed =>
      simp [State.shutdown, gone, pendingSize, hup, msg, failed]
  | @received len hup msg received =>
      obtain ⟨queued, self⟩ := queueRequest_self width (state.unblock ctx chanCtx bits) ctx
        (chanCtx.unblock bits) len
      simp only [queued, self, true_and, PartlyServed, pendingSize, hup, msg, received,
        Option.some.injEq, exists_eq_left', unblock_sendBlocked_eq_false, unblock_reqSize,
        unblock_hwrngReqList, Bool.false_eq_true, if_false]
      constructor
      · rintro ⟨writable, large, drew, sent⟩
        exact ⟨_, writable, rfl, large, drew, sent⟩
      · rintro ⟨size, writable, rfl, large, drew, sent⟩
        exact ⟨writable, large, drew, sent⟩
  | noMessage hup msg =>
      simp only [unblocked, PartlyServed, pendingSize, hup, msg, Option.some.injEq,
        exists_eq_left', unblock_sendBlocked_eq_false, unblock_reqSize,
        unblock_hwrngReqList, Bool.false_eq_true, if_false]
      by_cases queued : ctx ∈ state.hwrngReqList
      · simp only [queued, true_and, if_true, Option.some.injEq]
        constructor
        · rintro ⟨writable, large, drew, sent⟩
          exact ⟨_, writable, rfl, large, drew, sent⟩
        · rintro ⟨size, writable, rfl, large, drew, sent⟩
          exact ⟨writable, large, drew, sent⟩
      · simp [queued]

theorem step_allBlocked_iff {event : Event} {post : State} {output : List Action}
    (invariant : QueueInvariant state) (allBlocked : AllBlocked state)
    (enabled : Enabled state event)
    (handled : dispatchEvent width state event = .ok (post, output)) :
    AllBlocked post ↔ ¬ Overruns width state event := by
  cases event with
  | port conn =>
      have connected : hwrngPortHandler state conn = (post, output) := Except.ok.inj handled
      refine iff_of_true ?_ fun overrun => overrun
      intro ctx member
      have post_eq : post = (hwrngPortHandler state conn).1 := by rw [connected]
      rw [post_eq] at member ⊢
      obtain ⟨chanCtx, live, blocked⟩ := allBlocked ctx member
      exact ⟨chanCtx, port_ctxs enabled live, blocked⟩
  | chan handle bits io =>
      obtain ⟨ctx, attached⟩ := enabled
      obtain ⟨chanCtx, middle, before, pass, live, rfl, -, prepared, kept, passed, -, -,
        dispatched⟩ := dispatchEvent_chan width bits io invariant attached
      have same := Except.ok.inj (dispatched.symm.trans handled)
      simp only [Prod.mk.injEq] at same
      rw [← same.1, pass_allBlocked_iff kept passed]
      have own := prepared.partlyServed_iff invariant live
      constructor
      · rintro complete ⟨ctx', chanCtx', size, attached', live', overrun⟩
        obtain rfl : ctx = ctx' := by
          simpa using attached.symm.trans attached'
        obtain rfl : chanCtx = chanCtx' := Option.some.inj (live.symm.trans live')
        obtain ⟨queued, now, nowLive, partly⟩ := own.mpr ⟨size, overrun⟩
        exact complete ctx queued now nowLive partly
      · intro noOverrun other queued now nowLive partly
        by_cases isOwn : other = ctx
        · subst isOwn
          obtain ⟨size, overrun⟩ := own.mp ⟨queued, now, nowLive, partly⟩
          exact noOverrun ⟨other, chanCtx, size, attached, live, overrun⟩
        · obtain ⟨sameCtx, sameMember⟩ := prepared.frame isOwn
          obtain ⟨blockedCtx, blockedLive, blocked⟩ := allBlocked other (sameMember.mp queued)
          obtain rfl : now = blockedCtx :=
            Option.some.inj ((nowLive.symm.trans sameCtx).trans blockedLive)
          rw [partly.1] at blocked
          cases blocked

theorem allBlocked_of_run {history : List (Step State Event (List Action))}
    (run : Exec (service width) history state) :
    ((∀ step ∈ history, AllBlocked step.post) ↔
      ∀ step ∈ history, ¬ Overruns width step.pre step.event) ∧
    ((∀ step ∈ history, AllBlocked step.post) → AllBlocked state) := by
  induction run with
  | start => exact ⟨by simp, fun _ => by simp [AllBlocked, service]⟩
  | @step history step before performs inductionHypothesis =>
      obtain ⟨same, reaches⟩ := inductionHypothesis
      obtain ⟨enabled, handled⟩ := performs
      have invariant := queueInvariant_of_reachable before.reachable
      refine ⟨?_, fun all => all step List.mem_cons_self⟩
      rw [List.forall_mem_cons, List.forall_mem_cons, ← same]
      constructor
      · rintro ⟨last, earlier⟩
        exact ⟨(step_allBlocked_iff invariant (reaches earlier) enabled handled).mp last, earlier⟩
      · rintro ⟨last, earlier⟩
        exact ⟨(step_allBlocked_iff invariant (reaches earlier) enabled handled).mpr last, earlier⟩

/-- No request is left stalled by any event of a run exactly when no event overruns. -/
theorem no_request_stalled_iff {history : List (Step State Event (List Action))}
    (run : Exec (service width) history state) :
    (∀ step ∈ history, AllBlocked step.post) ↔
      ∀ step ∈ history, ¬ Overruns width step.pre step.event :=
  (allBlocked_of_run run).1

def generous (recv : Option UInt32) : Io := ⟨recv, fun _ => some fun _ => 7, fun _ => .sent⟩

def fullChannel (len : UInt32) : Io :=
  ⟨some len, fun _ => some fun _ => 7, fun _ => .notEnoughBuffer⟩

/-- A client connects, its request of five bytes waits for the channel, and is served as
soon as the channel takes messages again. -/
theorem waitingRequest_exec :
    ∃ waiting served : Step State Event (List Action),
      Exec (service 64) [served, waiting, connectStep] served.post ∧
      waiting.event = .chan 3 ⟨false, false, true⟩ (fullChannel 5) ∧
      waiting.post.conns.chans 3 = .attached 16 ∧
      waiting.post.conns.ctxs 16 = some ⟨3, 5, true⟩ ∧ 16 ∈ waiting.post.hwrngReqList ∧
      served.pre = waiting.post ∧
      served.event = .chan 3 ⟨false, true, false⟩ (generous none) ∧
      16 ∉ served.post.hwrngReqList := by
  obtain ⟨waits, serves, waited, wasServed, attached, live, queued, done⟩ :
      ∃ waits serves, dispatchEvent 64 connectStep.post
          (.chan 3 ⟨false, false, true⟩ (fullChannel 5)) = .ok waits ∧
        dispatchEvent 64 waits.1 (.chan 3 ⟨false, true, false⟩ (generous none)) = .ok serves ∧
        waits.1.conns.chans 3 = .attached 16 ∧
        waits.1.conns.ctxs 16 = some ⟨3, 5, true⟩ ∧ waits.1.hwrngReqList = [16] ∧
        serves.1.hwrngReqList = [] :=
    ⟨_, _, rfl, rfl, rfl, rfl, rfl, rfl⟩
  let waiting : Step State Event (List Action) :=
    ⟨connectStep.post, .chan 3 ⟨false, false, true⟩ (fullChannel 5), waits.2, waits.1⟩
  let served : Step State Event (List Action) :=
    ⟨waits.1, .chan 3 ⟨false, true, false⟩ (generous none), serves.2, serves.1⟩
  have before : Exec (service 64) [waiting, connectStep] served.pre :=
    connectStep_exec.step ⟨⟨16, rfl⟩, waited⟩
  exact ⟨waiting, served, before.step ⟨⟨16, attached⟩, wasServed⟩, rfl, attached, live,
    by simp [waiting, queued], rfl, rfl, by simp [served, done]⟩

theorem no_request_stalled_iff_waiting :
    ∃ waiting served : Step State Event (List Action),
      Exec (service 64) [served, waiting, connectStep] served.post ∧
      16 ∈ waiting.post.hwrngReqList ∧ 16 ∉ served.post.hwrngReqList ∧
      ∀ step ∈ [served, waiting, connectStep], AllBlocked step.post := by
  obtain ⟨waiting, served, run, waitingEvent, attached, live, queued, servedPre, servedEvent,
    finished⟩ := waitingRequest_exec
  refine ⟨waiting, served, run, queued, finished, (no_request_stalled_iff run).mpr ?_⟩
  simp only [List.forall_mem_cons, List.not_mem_nil, false_imp_iff, implies_true, and_true]
  refine ⟨?_, ?_, fun overruns => overruns⟩
  · rw [servedPre, servedEvent]
    rintro ⟨ctx, chanCtx, size, handleAttached, ctxLive, -, pending, large, -⟩
    obtain rfl : 16 = ctx := by simpa [attached] using handleAttached
    obtain rfl := Option.some.inj (live.symm.trans ctxLive)
    obtain rfl : 5 = size := by simpa [pendingSize, queued] using pending
    exact absurd large (by decide)
  · rw [waitingEvent]
    rintro ⟨ctx, chanCtx, size, -, -, -, -, -, -, sent⟩
    cases sent

theorem bigRequest_exec :
    ∃ step : Step State Event (List Action), Exec (service 64) [step, connectStep] step.post ∧
      (∃ data drawn, step.output = [.sent 3 data, .drew 16 drawn, .received 3 4097]) ∧
      step.post.conns.chans 3 = .attached 16 ∧
      step.post.conns.ctxs 16 = some ⟨3, 1, false⟩ ∧ step.post.hwrngReqList = [16] := by
  obtain ⟨result, handled, output, attached, live, queued⟩ :
      ∃ result, dispatchEvent 64 connectStep.post
          (.chan 3 ⟨false, false, true⟩ (generous (some 4097))) = .ok result ∧
        (∃ data drawn, result.2 = [.sent 3 data, .drew 16 drawn, .received 3 4097]) ∧
        result.1.conns.chans 3 = .attached 16 ∧
        result.1.conns.ctxs 16 = some ⟨3, 1, false⟩ ∧ result.1.hwrngReqList = [16] :=
    ⟨_, rfl, ⟨_, _, rfl⟩, rfl, rfl, rfl⟩
  let step : Step State Event (List Action) :=
    ⟨connectStep.post, .chan 3 ⟨false, false, true⟩ (generous (some 4097)), result.2, result.1⟩
  exact ⟨step, connectStep_exec.step ⟨⟨16, rfl⟩, handled⟩, output, attached, live, queued⟩

/-- One channel, one request of 4097 bytes, nothing fails: the last byte stays pending
on a channel that is not blocked. -/
theorem oversized_request_stalls :
    ¬ ∀ (width : Nat) (history : List (Step State Event (List Action))) (state : State),
        Exec (service width) history state → AllBlocked state := by
  intro claim
  obtain ⟨step, run, -, -, live, queued⟩ := bigRequest_exec
  obtain ⟨chanCtx, same, blocked⟩ := claim 64 _ _ run 16 (by simp [queued])
  rw [live] at same
  obtain rfl := Option.some.inj same
  cases blocked

end TrustyApp.Hwrng
