import TrustyApp.Hwrng.RequestSizes

/-!
# How fast the queue drains

The queue is only looked at when some channel has an event, and then every pending
request whose channel takes messages is served with one message.  So the number of
events, on whatever channels, determines how much of a request is left.
-/

namespace TrustyApp.Hwrng

open Ipc Reactive

variable {width : Nat} {io : Io} {state middle : State} {ctx : Addr} {chanCtx : ChanCtx}
  {chan : Handle} {log : List Action}

def backlog (state : State) (ctx : Addr) : Option Nat :=
  if ctx ∈ state.hwrngReqList then (state.conns.ctxs ctx).map ChanCtx.reqSize else none

def afterMessage : Option Nat → Option Nat
  | none => none
  | some size => if size ≤ maxHwrngMsgSize then none else some (size - maxHwrngMsgSize)

def nextMessage (pending : Option Nat) : Nat := min (pending.getD 0) maxHwrngMsgSize

/-- The context of the channel takes messages. -/
def Writable (state : State) (ctx : Addr) (chan : Handle) : Prop :=
  ∃ chanCtx, state.conns.ctxs ctx = some chanCtx ∧ chanCtx.chan = chan ∧
    chanCtx.sendBlocked = false

/-- The event brings neither a request nor a hang-up of the channel, and for its
context the RNG device and the send succeed. -/
def Favours (ctx : Addr) (chan : Handle) : Event → Prop
  | .port _ => True
  | .chan handle bits io =>
      (handle = chan → bits.hup = false ∧ bits.msg = false) ∧ (io.rng ctx).isSome ∧
        io.send ctx = .sent

def Event.kicks : Event → Bool
  | .port _ => false
  | .chan .. => true

def passes (history : List (Step State Event (List Action))) : Nat :=
  history.countP fun step => step.event.kicks

theorem backlog_congr {other : State} (sameCtx : other.conns.ctxs ctx = state.conns.ctxs ctx)
    (sameMember : ctx ∈ other.hwrngReqList ↔ ctx ∈ state.hwrngReqList) :
    backlog other ctx = backlog state ctx := by
  simp only [backlog, sameCtx, sameMember]

theorem backlog_of_queued (live : state.conns.ctxs ctx = some chanCtx)
    (queued : ctx ∈ state.hwrngReqList) : backlog state ctx = some chanCtx.reqSize := by
  simp [backlog, live, queued]

theorem backlog_of_not_queued (unqueued : ctx ∉ state.hwrngReqList) :
    backlog state ctx = none := by
  simp [backlog, unqueued]

theorem outstanding_eq_getD (state : State) (ctx : Addr) :
    outstanding state ctx = (backlog state ctx).getD 0 := by
  unfold outstanding backlog
  cases state.conns.ctxs ctx with
  | none => simp
  | some chanCtx =>
      by_cases queued : ctx ∈ state.hwrngReqList
      · simp [queued]
      · simp [queued]

theorem queued_iff_of_live (live : state.conns.ctxs ctx = some chanCtx) :
    ctx ∈ state.hwrngReqList ↔ (backlog state ctx).isSome := by
  simp [backlog, live]

/-- The request of a context after some messages, and what its channel got for it. -/
structure Drained (chan : Handle) (ctx : Addr) (pending : Option Nat) (sent : Nat)
    (log : List Action) (state : State) : Prop where
  writable : Writable state ctx chan
  backlog : backlog state ctx = pending
  sent : (tally chan log).sent = sent

theorem Drained.frame {other : State} {new : List Action} {pending : Option Nat} {sent : Nat}
    (drained : Drained chan ctx pending sent log state)
    (sameCtx : other.conns.ctxs ctx = state.conns.ctxs ctx)
    (sameMember : ctx ∈ other.hwrngReqList ↔ ctx ∈ state.hwrngReqList)
    (notBooked : ∀ action ∈ new, action.booked ≠ some chan) :
    Drained chan ctx pending sent (new ++ log) other where
  writable := by
    obtain ⟨chanCtx, live, own, unblocked⟩ := drained.writable
    exact ⟨chanCtx, sameCtx.trans live, own, unblocked⟩
  backlog := (backlog_congr sameCtx sameMember).trans drained.backlog
  sent := by rw [tally_append_of_not_booked new log notBooked, drained.sent]

theorem Served.drained {state' : State} {new : List Action} {more : Bool}
    {pending : Option Nat} {sent : Nat} (served : Served io state ctx chanCtx state' new more)
    (invariant : QueueInvariant state) (live : state.conns.ctxs ctx = some chanCtx)
    (queued : ctx ∈ state.hwrngReqList) (drew : (io.rng ctx).isSome) (sends : io.send ctx = .sent)
    (drained : Drained chan ctx pending sent log state) :
    Drained chan ctx (afterMessage pending) (sent + nextMessage pending) (new ++ log) state' := by
  obtain ⟨own, ownLive, rfl, writable⟩ := drained.writable
  obtain rfl : chanCtx = own := Option.some.inj (live.symm.trans ownLive)
  have lenEq := replyLen_eq_min chanCtx
  have size : pending = some chanCtx.reqSize :=
    drained.backlog.symm.trans (backlog_of_queued live queued)
  have books := drained.sent
  subst size
  cases served with
  | skipped blocked =>
      rw [writable] at blocked
      cases blocked
  | drawFailed _ failed => simp [failed] at drew
  | sendBlocked _ _ failed | sendFailed _ _ failed => simp [sends] at failed
  | finished _ _ _ small =>
      refine ⟨⟨_, Table.put_ctxs_self _ _ _, rfl, writable⟩, ?_, ?_⟩
      · rw [backlog_of_not_queued invariant.nodup.not_mem_erase]
        simp [afterMessage, small]
      · simp [tally, books, nextMessage, lenEq]
  | @more stream _ _ _ large =>
      let less : ChanCtx := { chanCtx with reqSize := chanCtx.reqSize - chanCtx.replyLen }
      have stored : ((state.fill (chanCtx.drawn stream)).store ctx less).conns.ctxs ctx =
          some less := Table.put_ctxs_self _ _ _
      refine ⟨⟨less, stored, rfl, writable⟩, ?_, ?_⟩
      · rw [backlog_of_queued stored queued]
        have rest : chanCtx.reqSize - chanCtx.replyLen = chanCtx.reqSize - maxHwrngMsgSize := by
          omega
        simp [afterMessage, Nat.not_le.mpr large, less, rest]
      · simp [tally, books, nextMessage, lenEq]

/-- Part way through a pass: the context is still to come, or it has got its message. -/
def Halfway (chan : Handle) (ctx : Addr) (pending : Option Nat) (sent : Nat)
    (log : List Action) (rest : List Addr) (now : State) (done : List Action) : Prop :=
  if ctx ∈ rest then Drained chan ctx pending sent (done ++ log) now
  else Drained chan ctx (afterMessage pending) (sent + nextMessage pending) (done ++ log) now

theorem Halfway.served {now now' : State} {done new : List Action} {rest : List Addr}
    {more : Bool} {other : Addr} {otherCtx : ChanCtx} {pending : Option Nat} {sent : Nat}
    (halfway : Halfway chan ctx pending sent log (other :: rest) now done)
    (live : now.conns.ctxs other = some otherCtx) (queued : other ∈ now.hwrngReqList)
    (fresh : other ∉ rest) (kept : QueueInvariant now) (drew : (io.rng ctx).isSome)
    (sends : io.send ctx = .sent) (served : Served io now other otherCtx now' new more) :
    Halfway chan ctx pending sent log rest now' (new ++ done) := by
  unfold Halfway at halfway ⊢
  rw [List.append_assoc]
  by_cases isCurrent : other = ctx
  · subst isCurrent
    rw [if_pos List.mem_cons_self] at halfway
    rw [if_neg fresh]
    exact served.drained kept live queued drew sends halfway
  · have others {left : Option Nat} {total : Nat}
        (drained : Drained chan ctx left total (done ++ log) now) :
        Drained chan ctx left total (new ++ (done ++ log)) now' := by
      apply drained.frame (served.frame.1 ctx (Ne.symm isCurrent))
        (served.mem_iff (Ne.symm isCurrent))
      intro action member booked
      obtain ⟨chanCtx, ownLive, own, -⟩ := drained.writable
      rcases served.booked action member with none | some
      · rw [none] at booked
        cases booked
      · have sameChan : otherCtx.chan = chanCtx.chan :=
          (Option.some.inj (some.symm.trans booked)).trans own.symm
        exact isCurrent (kept.wellFormed.unique ownLive live sameChan)
    by_cases inRest : ctx ∈ rest
    · rw [if_pos (List.mem_cons_of_mem other inRest)] at halfway
      rw [if_pos inRest]
      exact others halfway
    · have notCurrent : ctx ∉ other :: rest := by simp [Ne.symm isCurrent, inRest]
      rw [if_neg notCurrent] at halfway
      rw [if_neg inRest]
      exact others halfway

theorem pass_drained {actions : List Action} {pass : Pass} {pending : Option Nat} {sent : Nat}
    (invariant : QueueInvariant state) (drew : (io.rng ctx).isSome) (sends : io.send ctx = .sent)
    (drained : Drained chan ctx pending sent (actions ++ log) state)
    (passed : hwrngHandleReqQueue io state actions = .ok pass) :
    Drained chan ctx (afterMessage pending) (sent + nextMessage pending) (pass.actions ++ log)
      pass.state := by
  have start : Halfway chan ctx pending sent log state.hwrngReqList state actions := by
    unfold Halfway
    by_cases queued : ctx ∈ state.hwrngReqList
    · rw [if_pos queued]
      exact drained
    · -- without a request a pass does nothing for the context
      obtain rfl : none = pending := (backlog_of_not_queued queued).symm.trans drained.backlog
      rw [if_neg queued]
      exact drained
  obtain ⟨again, result, -, halfway⟩ := pass_rule (Halfway chan ctx pending sent log)
    (fun _ _ _ _ _ _ _ _ live queued fresh kept held served =>
      held.served live queued fresh kept drew sends served) actions invariant start
  obtain rfl := Except.ok.inj (passed.symm.trans result)
  simpa [Halfway] using halfway

theorem unblock_of_writable (live : state.conns.ctxs ctx = some chanCtx)
    (writable : chanCtx.sendBlocked = false) (bits : Bits) :
    state.unblock ctx chanCtx bits = state := by
  have same : { chanCtx with sendBlocked := false } = chanCtx := by rw [← writable]
  unfold State.unblock
  split
  · rw [same, State.store, Table.put, ← live, Function.update_eq_self]
  · rfl

theorem Prepared.drained {bits : Bits} {actions : List Action} {other : Addr}
    {otherCtx : ChanCtx} {pending : Option Nat} {sent : Nat}
    (prepared : Prepared width state other otherCtx bits io middle actions)
    (invariant : QueueInvariant state) (live : state.conns.ctxs other = some otherCtx)
    (quiet : otherCtx.chan = chan → bits.hup = false ∧ bits.msg = false)
    (drained : Drained chan ctx pending sent log state) :
    Drained chan ctx pending sent (actions ++ log) middle := by
  obtain ⟨chanCtx, ownLive, own, writable⟩ := drained.writable
  by_cases isOwn : other = ctx
  · subst isOwn
    obtain rfl : otherCtx = chanCtx := Option.some.inj (live.symm.trans ownLive)
    obtain ⟨hup, msg⟩ := quiet own
    cases prepared with
    | hungUp isHup => simp [hup] at isHup
    | recvFailed _ isMsg | received _ isMsg => simp [msg] at isMsg
    | noMessage =>
        rw [unblock_of_writable live writable]
        exact drained
  · obtain ⟨sameCtx, sameMember⟩ := prepared.frame (Ne.symm isOwn)
    apply drained.frame sameCtx sameMember
    have ne : otherCtx.chan ≠ chan := by
      rintro rfl
      exact isOwn (invariant.wellFormed.unique ownLive live own.symm)
    cases prepared with
    | hungUp | recvFailed | noMessage => simp [Action.booked]
    | received => simpa [Action.booked, unblock_chan] using ne

theorem dispatchEvent_drained {event : Event} {post : State} {output : List Action}
    {pending : Option Nat} {sent : Nat} (invariant : QueueInvariant state)
    (enabled : Enabled state event)
    (handled : dispatchEvent width state event = .ok (post, output))
    (favourable : Favours ctx chan event) (drained : Drained chan ctx pending sent log state) :
    if event.kicks then
      Drained chan ctx (afterMessage pending) (sent + nextMessage pending) (output ++ log) post
    else Drained chan ctx pending sent (output ++ log) post := by
  cases event with
  | port conn =>
      obtain ⟨chanCtx, live, own, -⟩ := drained.writable
      have connected : hwrngPortHandler state conn = (post, output) := Except.ok.inj handled
      obtain ⟨rfl, rfl⟩ := Prod.mk.inj connected
      have sameCtx := port_ctxs enabled live
      apply drained.frame (sameCtx.trans live.symm) Iff.rfl
      intro action member booked
      cases result : conn.established with
      | none => simp [result] at member
      | some created =>
          obtain ⟨closed, -⟩ := enabled.established result
          obtain rfl : action = .opened created.1 := by simpa [result] using member
          have attached := invariant.wellFormed.owned ctx chanCtx live
          rw [own, ← Option.some.inj booked, closed] at attached
          cases attached
  | chan handle bits io =>
      obtain ⟨other, attached⟩ := enabled
      obtain ⟨otherCtx, middle, before, pass, live, rfl, -, prepared, kept, passed, -, -,
        dispatched⟩ := dispatchEvent_chan width bits io invariant attached
      obtain ⟨rfl, rfl⟩ := Prod.mk.inj (Except.ok.inj (dispatched.symm.trans handled))
      obtain ⟨quiet, drew, sends⟩ := favourable
      exact pass_drained kept drew sends (prepared.drained invariant live quiet drained) passed

/-- What is left of a request after a number of passes; a request for no bytes waits for
its empty message. -/
def afterPasses (size count : Nat) : Option Nat :=
  if 0 < count ∧ size ≤ maxHwrngMsgSize * count then none
  else some (size - maxHwrngMsgSize * count)

theorem getD_afterPasses (size count : Nat) :
    (afterPasses size count).getD 0 = size - maxHwrngMsgSize * count := by
  unfold afterPasses
  split
  next done => exact (Nat.sub_eq_zero_of_le done.2).symm
  next => rfl

theorem isSome_afterPasses (size count : Nat) :
    (afterPasses size count).isSome ↔ count = 0 ∨ maxHwrngMsgSize * count < size := by
  unfold afterPasses
  split
  next done => simp [Nat.ne_of_gt done.1, done.2]
  next pending =>
    simp only [Option.isSome_some, true_iff]
    omega

theorem afterMessage_afterPasses (size count : Nat) :
    afterMessage (afterPasses size count) = afterPasses size (count + 1) := by
  unfold afterPasses
  have next : maxHwrngMsgSize * (count + 1) = maxHwrngMsgSize * count + maxHwrngMsgSize :=
    Nat.mul_succ _ _
  by_cases done : 0 < count ∧ size ≤ maxHwrngMsgSize * count
  · rw [if_pos done, if_pos (by omega)]
    rfl
  rw [if_neg done]
  by_cases last : size ≤ maxHwrngMsgSize * (count + 1)
  · rw [if_pos ⟨Nat.succ_pos count, last⟩]
    exact if_pos (by omega)
  · have rest : size - maxHwrngMsgSize * count - maxHwrngMsgSize =
        size - maxHwrngMsgSize * (count + 1) := by omega
    rw [if_neg fun all => last all.2, ← rest]
    exact if_neg (by omega)

theorem add_nextMessage_afterPasses (size count : Nat) :
    min size (maxHwrngMsgSize * count) + nextMessage (afterPasses size count) =
      min size (maxHwrngMsgSize * (count + 1)) := by
  rw [nextMessage, getD_afterPasses, Nat.mul_succ]
  omega

variable {later earlier : List (Step State Event (List Action))}

theorem actionLog_cons (step : Step State Event (List Action))
    (history : List (Step State Event (List Action))) :
    actionLog (step :: history) = step.output ++ actionLog history := List.flatMap_cons

theorem exec_drained {size sent : Nat} (started : Exec (service width) earlier middle)
    (run : Exec (service width) (later ++ earlier) state)
    (favourable : ∀ step ∈ later, Favours ctx chan step.event)
    (drained : Drained chan ctx (some size) sent (actionLog earlier) middle) :
    Drained chan ctx (afterPasses size (passes later))
      (sent + min size (maxHwrngMsgSize * passes later)) (actionLog (later ++ earlier)) state := by
  induction later generalizing state with
  | nil =>
      obtain rfl := started.unique run
      simpa [afterPasses, passes] using drained
  | cons step later inductionHypothesis =>
      cases run with
      | step run performs =>
          obtain ⟨enabled, handled⟩ := performs
          have invariant := queueInvariant_of_reachable run.reachable
          have before := inductionHypothesis run fun other member =>
            favourable other (List.mem_cons_of_mem step member)
          have after := dispatchEvent_drained invariant enabled handled
            (favourable step List.mem_cons_self) before
          rw [List.cons_append, actionLog_cons]
          cases kicks : step.event.kicks with
          | false =>
              have same : passes (step :: later) = passes later := by simp [passes, kicks]
              rw [same]
              simpa [kicks] using after
          | true =>
              have more : passes (step :: later) = passes later + 1 := by simp [passes, kicks]
              rw [more, ← afterMessage_afterPasses, ← add_nextMessage_afterPasses, ← Nat.add_assoc]
              simpa [kicks] using after

/-- As long as a channel takes messages and brings no further request, every event on
any channel brings each pending request forward by a full message: after `n` of them all
but the first `4096 * n` bytes are left, and these were sent on the channel.  A request
is done as soon as the events outnumber its messages. -/
theorem pending_request_drains {size : Nat} (started : Exec (service width) earlier middle)
    (run : Exec (service width) (later ++ earlier) state)
    (favourable : ∀ step ∈ later, Favours ctx chan step.event)
    (writable : Writable middle ctx chan) (pending : backlog middle ctx = some size) :
    Writable state ctx chan ∧
      outstanding state ctx = size - maxHwrngMsgSize * passes later ∧
      (tally chan (actionLog (later ++ earlier))).sent =
        (tally chan (actionLog earlier)).sent + min size (maxHwrngMsgSize * passes later) ∧
      (ctx ∈ state.hwrngReqList ↔ passes later = 0 ∨ maxHwrngMsgSize * passes later < size) := by
  have drained := exec_drained started run favourable ⟨writable, pending, rfl⟩
  obtain ⟨chanCtx, live, -⟩ := drained.writable
  have rest := drained.backlog
  refine ⟨drained.writable, ?_, drained.sent, ?_⟩
  · rw [outstanding_eq_getD, rest, getD_afterPasses]
  · rw [queued_iff_of_live live, rest, isSome_afterPasses]

/-- The next event on the channel, which brings nothing new, finishes the request. -/
theorem pending_request_drains_last_byte :
    ∃ step request, Exec (service 64) [step, request, connectStep] step.post ∧
      outstanding step.post 16 = 0 ∧ 16 ∉ step.post.hwrngReqList ∧
      (tally 3 (actionLog [step, request, connectStep])).sent =
        (tally 3 (actionLog [request, connectStep])).sent + 1 := by
  obtain ⟨request, started, -, attached, live, queued⟩ := bigRequest_exec
  have writable : Writable request.post 16 3 := ⟨_, live, rfl, rfl⟩
  have pending : backlog request.post 16 = some 1 :=
    backlog_of_queued live (by simp [queued])
  have invariant := queueInvariant_of_reachable started.reachable
  obtain ⟨-, -, -, pass, -, -, -, -, -, -, -, -, handled⟩ :=
    dispatchEvent_chan 64 ⟨false, false, false⟩ (generous none) invariant attached
  let step : Step State Event (List Action) :=
    ⟨request.post, .chan 3 ⟨false, false, false⟩ (generous none), pass.actions, pass.state⟩
  have run : Exec (service 64) ([step] ++ [request, connectStep]) step.post :=
    started.step ⟨⟨16, attached⟩, handled⟩
  have favourable : ∀ other ∈ [step], Favours 16 3 other.event := by
    simp [step, Favours, generous]
  obtain ⟨-, rest, sent, queued⟩ :=
    pending_request_drains started run favourable writable pending
  have one : passes [step] = 1 := rfl
  rw [one] at rest sent queued
  exact ⟨step, request, run, rest, fun member => absurd (queued.mp member) (by decide), sent⟩

end TrustyApp.Hwrng
