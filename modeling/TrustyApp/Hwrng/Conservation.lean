import Mathlib.Data.Nat.ModEq
import TrustyApp.Hwrng.Progress

/-!
# Conservation of requested bytes

For each open channel, what was sent on it and what is still pending add up to what
was requested, modulo the size of `size_t`.  A channel handle may be used again, so
the books of a channel start with its last connection.
-/

namespace TrustyApp.Hwrng

open Ipc Reactive

variable {width : Nat} {io : Io} {state : State} {ctx : Addr} {chanCtx : ChanCtx}

/-- Bytes requested and sent on a channel since it was opened. -/
structure Tally where
  received : Nat
  sent : Nat

def tally (chan : Handle) : List Action → Tally
  | [] => ⟨0, 0⟩
  | .opened other :: log => if other = chan then ⟨0, 0⟩ else tally chan log
  | .received other len :: log =>
      if other = chan then
        { tally chan log with received := (tally chan log).received + len }
      else tally chan log
  | .sent other data :: log =>
      if other = chan then { tally chan log with sent := (tally chan log).sent + data.length }
      else tally chan log
  | _ :: log => tally chan log

def Action.booked : Action → Option Handle
  | .opened chan => some chan
  | .received chan _ => some chan
  | .sent chan _ => some chan
  | _ => none

theorem tally_of_not_booked {chan : Handle} {action : Action} (log : List Action)
    (other : action.booked ≠ some chan) : tally chan (action :: log) = tally chan log := by
  cases action with
  | opened chan' | received chan' len | sent chan' data =>
      have ne : chan' ≠ chan := by simpa [Action.booked] using other
      simp [tally, ne]
  | _ => rfl

theorem tally_append_of_not_booked {chan : Handle} (new log : List Action)
    (other : ∀ action ∈ new, action.booked ≠ some chan) :
    tally chan (new ++ log) = tally chan log := by
  induction new with
  | nil => rfl
  | cons action new inductionHypothesis =>
      rw [List.cons_append, tally_of_not_booked _ (other action (by simp))]
      exact inductionHypothesis fun later member => other later (List.mem_cons_of_mem _ member)

def outstanding (state : State) (ctx : Addr) : Nat :=
  match state.conns.ctxs ctx with
  | none => 0
  | some chanCtx => if ctx ∈ state.hwrngReqList then chanCtx.reqSize else 0

def Tally.Balanced (width : Nat) (books : Tally) (pending : Nat) : Prop :=
  books.sent + pending ≡ books.received [MOD 2 ^ width]

/-- Every message carried all that was pending on its channel, up to the maximal
size of a message. -/
def ExactMessages (width : Nat) (log : List Action) : Prop :=
  ∀ later earlier chan data, log = later ++ .sent chan data :: earlier →
    ∃ pending < 2 ^ width, (tally chan earlier).Balanced width pending ∧
      data.length = min pending maxHwrngMsgSize

structure Conserved (width : Nat) (log : List Action) (state : State) : Prop where
  balanced : ∀ ctx chanCtx, state.conns.ctxs ctx = some chanCtx →
    (tally chanCtx.chan log).Balanced width (outstanding state ctx)
  bounded : ∀ ctx chanCtx, state.conns.ctxs ctx = some chanCtx → chanCtx.reqSize < 2 ^ width
  exact : ExactMessages width log

theorem ExactMessages.silent {log : List Action} (exact : ExactMessages width log)
    (new : List Action) (quiet : ∀ chan data, .sent chan data ∉ new) :
    ExactMessages width (new ++ log) := by
  induction new with
  | nil => exact exact
  | cons action new inductionHypothesis =>
      have shorter := inductionHypothesis fun chan data member =>
        quiet chan data (List.mem_cons_of_mem action member)
      intro later earlier chan data split
      cases later with
      | nil =>
          simp only [List.cons_append, List.nil_append, List.cons.injEq] at split
          exact absurd (split.1 ▸ by simp) (quiet chan data)
      | cons first later =>
          simp only [List.cons_append, List.cons.injEq] at split
          exact shorter later earlier chan data split.2

theorem ExactMessages.message {log : List Action} (exact : ExactMessages width log)
    {chan : Handle} {data : List UInt8} {pending : Nat} (bounded : pending < 2 ^ width)
    (balanced : (tally chan log).Balanced width pending)
    (full : data.length = min pending maxHwrngMsgSize) :
    ExactMessages width (.sent chan data :: log) := by
  intro later earlier chan' data' split
  cases later with
  | nil =>
      simp only [List.nil_append, List.cons.injEq, Action.sent.injEq] at split
      obtain ⟨⟨rfl, rfl⟩, rfl⟩ := split
      exact ⟨pending, bounded, balanced, full⟩
  | cons first later =>
      simp only [List.cons_append, List.cons.injEq] at split
      exact exact later earlier chan' data' split.2

theorem outstanding_of_queued (live : state.conns.ctxs ctx = some chanCtx)
    (queued : ctx ∈ state.hwrngReqList) : outstanding state ctx = chanCtx.reqSize := by
  simp [outstanding, live, queued]

theorem outstanding_of_not_queued (unqueued : ctx ∉ state.hwrngReqList) :
    outstanding state ctx = 0 := by
  unfold outstanding
  split <;> simp [unqueued]

theorem outstanding_congr {state' : State}
    (sameCtx : state'.conns.ctxs ctx = state.conns.ctxs ctx)
    (sameMember : ctx ∈ state'.hwrngReqList ↔ ctx ∈ state.hwrngReqList) :
    outstanding state' ctx = outstanding state ctx := by
  simp only [outstanding, sameCtx, sameMember]

theorem Conserved.own {log : List Action} {state' : State} (new : List Action)
    (conserved : Conserved width log state) (invariant : QueueInvariant state)
    (live : state.conns.ctxs ctx = some chanCtx)
    (frame : ∀ other, other ≠ ctx → state'.conns.ctxs other = state.conns.ctxs other ∧
      (other ∈ state'.hwrngReqList ↔ other ∈ state.hwrngReqList))
    (booked : ∀ action ∈ new, action.booked = none ∨ action.booked = some chanCtx.chan)
    (exact : ExactMessages width (new ++ log))
    (self : ∀ now, state'.conns.ctxs ctx = some now → now.chan = chanCtx.chan ∧
      now.reqSize < 2 ^ width ∧
      (tally chanCtx.chan (new ++ log)).Balanced width (outstanding state' ctx)) :
    Conserved width (new ++ log) state' := by
  refine ⟨?_, ?_, exact⟩
  · intro other now nowLive
    by_cases same : other = ctx
    · subst same
      obtain ⟨sameChan, -, balanced⟩ := self now nowLive
      rw [sameChan]
      exact balanced
    · obtain ⟨sameCtx, sameMember⟩ := frame other same
      have before := sameCtx.symm.trans nowLive
      have ne : now.chan ≠ chanCtx.chan := fun equal =>
        same (invariant.wellFormed.unique live before equal)
      have unchanged : tally now.chan (new ++ log) = tally now.chan log := by
        apply tally_append_of_not_booked
        intro action member
        rcases booked action member with none | own
        · simp [none]
        · simpa [own] using Ne.symm ne
      rw [unchanged, outstanding_congr sameCtx sameMember]
      exact conserved.balanced other now before
  · intro other now nowLive
    by_cases same : other = ctx
    · subst same
      exact (self now nowLive).2.1
    · exact conserved.bounded other now ((frame other same).1.symm.trans nowLive)

theorem Served.booked {state' : State} {actions : List Action} {more : Bool}
    (served : Served io state ctx chanCtx state' actions more) :
    ∀ action ∈ actions, action.booked = none ∨ action.booked = some chanCtx.chan := by
  cases served <;> simp [Action.booked]

theorem sent_balanced {log : List Action} {chan : Handle} {pending : Nat} (ctx : Addr)
    (data : List UInt8)
    (balanced : (tally chan log).Balanced width pending) (full : data.length ≤ pending) :
    (tally chan (.sent chan data :: .drew ctx data :: log)).Balanced width
      (pending - data.length) := by
  simp only [Tally.Balanced, tally, if_true] at balanced ⊢
  have total : (tally chan log).sent + data.length + (pending - data.length) =
      (tally chan log).sent + pending := by omega
  rw [total]
  exact balanced

theorem received_balanced {log : List Action} {chan : Handle} {pending : Nat}
    (balanced : (tally chan log).Balanced width pending) (len : Nat) :
    (tally chan (.received chan len :: log)).Balanced width ((pending + len) % 2 ^ width) := by
  simp only [Tally.Balanced, tally, if_true] at balanced ⊢
  calc (tally chan log).sent + (pending + len) % 2 ^ width
      ≡ (tally chan log).sent + (pending + len) [MOD 2 ^ width] :=
        Nat.ModEq.add_left _ (Nat.mod_modEq _ _)
    _ = (tally chan log).sent + pending + len := by omega
    _ ≡ (tally chan log).received + len [MOD 2 ^ width] := balanced.add_right len

theorem Served.conserved {log : List Action} {state' : State} {actions : List Action}
    {more : Bool} (served : Served io state ctx chanCtx state' actions more)
    (invariant : QueueInvariant state) (live : state.conns.ctxs ctx = some chanCtx)
    (queued : ctx ∈ state.hwrngReqList) (conserved : Conserved width log state) :
    Conserved width (actions ++ log) state' := by
  have frame : ∀ other, other ≠ ctx → state'.conns.ctxs other = state.conns.ctxs other ∧
      (other ∈ state'.hwrngReqList ↔ other ∈ state.hwrngReqList) := fun other ne =>
    ⟨served.frame.1 other ne, served.mem_iff ne⟩
  have pending : outstanding state ctx = chanCtx.reqSize := outstanding_of_queued live queued
  have balanced := conserved.balanced ctx chanCtx live
  have bounded := conserved.bounded ctx chanCtx live
  have lenEq := replyLen_eq_min chanCtx
  apply conserved.own _ invariant live frame served.booked
  · cases served with
    | skipped => exact conserved.exact
    | drawFailed | sendBlocked | sendFailed =>
        exact conserved.exact.silent _ (by simp)
    | finished | more =>
        refine (conserved.exact.silent [_] (by simp)).message bounded ?_ (by simp [lenEq])
        rw [pending] at balanced
        simpa [tally] using balanced
  · intro now nowLive
    cases served with
    | skipped =>
        obtain rfl : chanCtx = now := Option.some.inj (live.symm.trans nowLive)
        exact ⟨rfl, bounded, balanced⟩
    | drawFailed | sendFailed => simp [State.shutdown] at nowLive
    | sendBlocked =>
        obtain rfl := Option.some.inj ((Table.put_ctxs_self _ _ _).symm.trans nowLive)
        refine ⟨rfl, bounded, ?_⟩
        rw [outstanding_of_queued nowLive queued]
        rw [pending] at balanced
        simpa [tally] using balanced
    | @finished stream =>
        obtain rfl := Option.some.inj ((Table.put_ctxs_self _ _ _).symm.trans nowLive)
        have moved := sent_balanced ctx (chanCtx.drawn stream) (pending ▸ balanced)
          (by simp [lenEq])
        have done : chanCtx.reqSize - (chanCtx.drawn stream).length = 0 := by
          rw [length_drawn]
          omega
        refine ⟨rfl, by simp only; omega, ?_⟩
        rw [outstanding_of_not_queued (invariant.nodup.not_mem_erase), ← done]
        exact moved
    | @more stream =>
        obtain rfl := Option.some.inj ((Table.put_ctxs_self _ _ _).symm.trans nowLive)
        have moved := sent_balanced ctx (chanCtx.drawn stream) (pending ▸ balanced)
          (by simp [lenEq])
        refine ⟨rfl, by simp only; omega, ?_⟩
        rw [outstanding_of_queued nowLive queued, ← length_drawn chanCtx stream]
        exact moved

theorem pass_conserved {log actions : List Action} {pass : Pass} (invariant : QueueInvariant state)
    (conserved : Conserved width (actions ++ log) state)
    (passed : hwrngHandleReqQueue io state actions = .ok pass) :
    Conserved width (pass.actions ++ log) pass.state := by
  have round : ∀ ctx (rest : List Addr) now chanCtx done now' new more,
      now.conns.ctxs ctx = some chanCtx → ctx ∈ now.hwrngReqList → ctx ∉ rest →
      QueueInvariant now → Conserved width (done ++ log) now →
      Served io now ctx chanCtx now' new more → Conserved width (new ++ done ++ log) now' := by
    intro ctx rest now chanCtx done now' new more live queued _ kept held served
    rw [List.append_assoc]
    exact served.conserved kept live queued held
  obtain ⟨again, result, -, held⟩ :=
    pass_rule (fun _ now done => Conserved width (done ++ log) now) round actions invariant
      conserved
  obtain rfl := Except.ok.inj (passed.symm.trans result)
  exact held

theorem Conserved.unblock {log : List Action} (conserved : Conserved width log state)
    (invariant : QueueInvariant state) (live : state.conns.ctxs ctx = some chanCtx)
    (bits : Bits) : Conserved width log (state.unblock ctx chanCtx bits) := by
  cases set : bits.sendUnblocked with
  | false =>
      simp only [State.unblock, set]
      exact conserved
  | true =>
      simp only [State.unblock, set, if_true]
      apply conserved.own [] invariant live
      · exact fun other ne => ⟨Table.put_ctxs_of_ne _ _ ne, Iff.rfl⟩
      · simp
      · exact conserved.exact
      · intro now nowLive
        obtain rfl := Option.some.inj ((Table.put_ctxs_self _ _ _).symm.trans nowLive)
        refine ⟨rfl, conserved.bounded ctx chanCtx live, ?_⟩
        have balanced := conserved.balanced ctx chanCtx live
        by_cases queued : ctx ∈ state.hwrngReqList
        · rw [outstanding_of_queued live queued] at balanced
          rw [outstanding_of_queued nowLive queued]
          exact balanced
        · rw [outstanding_of_not_queued queued] at balanced
          rw [outstanding_of_not_queued (by exact queued)]
          exact balanced

theorem Conserved.shutdown {log : List Action} (conserved : Conserved width log state)
    (invariant : QueueInvariant state) (live : state.conns.ctxs ctx = some chanCtx) :
    Conserved width ([.closed chanCtx.chan] ++ log) (state.shutdown ctx chanCtx) := by
  apply conserved.own _ invariant live
  · exact fun other ne => ⟨Table.free_ctxs_of_ne _ ne, List.mem_erase_of_ne ne⟩
  · simp [Action.booked]
  · exact conserved.exact.silent _ (by simp)
  · intro now nowLive
    simp [State.shutdown] at nowLive

theorem Conserved.request {log : List Action} (conserved : Conserved width log state)
    (invariant : QueueInvariant state) (live : state.conns.ctxs ctx = some chanCtx)
    (len : UInt32) :
    Conserved width ([.received chanCtx.chan len.toNat] ++ log)
      (queueRequest width state ctx chanCtx len) := by
  have balanced := conserved.balanced ctx chanCtx live
  have wraps (size : Nat) : size % 2 ^ width < 2 ^ width := Nat.mod_lt _ (Nat.two_pow_pos width)
  apply conserved.own _ invariant live
  · intro other ne
    unfold queueRequest
    split
    · exact ⟨Table.put_ctxs_of_ne _ _ ne, Iff.rfl⟩
    · exact ⟨Table.put_ctxs_of_ne _ _ ne, by simp [ne]⟩
  · simp [Action.booked]
  · exact conserved.exact.silent _ (by simp)
  · intro now nowLive
    obtain ⟨queued, self⟩ := queueRequest_self width state ctx chanCtx len
    obtain rfl := Option.some.inj (self.symm.trans nowLive)
    have added := received_balanced balanced len.toNat
    rw [outstanding_of_queued nowLive queued]
    by_cases before : ctx ∈ state.hwrngReqList
    · rw [outstanding_of_queued live before] at added
      simp only [if_pos before]
      exact ⟨trivial, wraps _, added⟩
    · rw [outstanding_of_not_queued before, Nat.zero_add] at added
      simp only [if_neg before]
      exact ⟨trivial, wraps _, added⟩

theorem Prepared.conserved {log : List Action} {bits : Bits} {state' : State}
    {actions : List Action} (prepared : Prepared width state ctx chanCtx bits io state' actions)
    (invariant : QueueInvariant state) (live : state.conns.ctxs ctx = some chanCtx)
    (conserved : Conserved width log state) : Conserved width (actions ++ log) state' := by
  have kept := invariant.unblock live bits
  have unblocked := unblock_live live bits
  cases prepared with
  | hungUp => exact conserved.shutdown invariant live
  | recvFailed => exact (conserved.unblock invariant live bits).shutdown kept unblocked
  | received => exact (conserved.unblock invariant live bits).request kept unblocked _
  | noMessage => exact conserved.unblock invariant live bits

/-- The books of a new connection start empty; those of the others are not touched,
since the handle of the new channel was closed. -/
theorem Conserved.port {log : List Action} (conserved : Conserved width log state)
    (invariant : QueueInvariant state) {conn : Connect Unit} (offered : conn.Offered state.conns) :
    Conserved width ((hwrngPortHandler state conn).2 ++ log) (hwrngPortHandler state conn).1 := by
  simp only [hwrngPortHandler, Table.connect_eq offered]
  cases result : conn.established with
  | none => exact conserved
  | some created =>
      obtain ⟨chan, new⟩ := created
      obtain ⟨closed, unused⟩ := offered.established result
      have unqueued : new ∉ state.hwrngReqList := by
        intro member
        obtain ⟨chanCtx, live⟩ := invariant.live new member
        rw [unused] at live
        cases live
      let connected : State :=
        { state with
          conns := (state.conns.put new ⟨chan, 0, false⟩).setChan chan (.attached new) }
      change Conserved width ([.opened chan] ++ log) connected
      refine ⟨?_, ?_, conserved.exact.silent [.opened chan] (by simp)⟩
      · intro other now nowLive
        by_cases isNew : other = new
        · subst isNew
          obtain rfl : ⟨chan, 0, false⟩ = now := by simpa [connected] using nowLive
          rw [outstanding_of_not_queued (by exact unqueued)]
          simp [Tally.Balanced, tally]
          rfl
        · have before := (Table.put_ctxs_of_ne _ _ isNew).symm.trans nowLive
          have ne : chan ≠ now.chan := by
            rintro rfl
            rw [invariant.wellFormed.owned other now before] at closed
            cases closed
          have pending : outstanding connected other = outstanding state other :=
            outstanding_congr (Table.put_ctxs_of_ne _ _ isNew) Iff.rfl
          rw [pending, tally_append_of_not_booked _ _ (by simpa [Action.booked] using ne)]
          exact conserved.balanced other now before
      · intro other now nowLive
        by_cases isNew : other = new
        · subst isNew
          obtain rfl : ⟨chan, 0, false⟩ = now := by simpa [connected] using nowLive
          exact Nat.two_pow_pos width
        · exact conserved.bounded other now ((Table.put_ctxs_of_ne _ _ isNew).symm.trans nowLive)

def actionLog (history : List (Step State Event (List Action))) : List Action :=
  history.flatMap Step.output

theorem conserved_of_exec {history : List (Step State Event (List Action))}
    (run : Exec (service width) history state) : Conserved width (actionLog history) state := by
  apply run.rule fun history state => Conserved width (actionLog history) state
  · refine ⟨by simp [service, Table.empty], by simp [service, Table.empty], ?_⟩
    simp [ExactMessages, actionLog]
  · rintro history ⟨pre, event, output, post⟩ before conserved ⟨enabled, handled⟩
    have invariant := queueInvariant_of_reachable before.reachable
    cases event with
    | port conn =>
        have connected : hwrngPortHandler pre conn = (post, output) := Except.ok.inj handled
        have kept := conserved.port invariant enabled
        simp only [connected] at kept
        exact kept
    | chan handle bits io =>
        obtain ⟨ctx, attached⟩ := enabled
        obtain ⟨chanCtx, middle, new, pass, live, -, -, prepared, kept, passed, -, -,
          dispatched⟩ := dispatchEvent_chan width bits io invariant attached
        obtain ⟨rfl, rfl⟩ := Prod.mk.inj (Except.ok.inj (dispatched.symm.trans handled))
        exact pass_conserved kept (prepared.conserved invariant live conserved) passed

/-- A round sends all that is pending, up to the maximal size of a message, and
keeps every pending request when the channel is full. -/
theorem Served.outstanding {state' : State} {actions : List Action} {more : Bool}
    (served : Served io state ctx chanCtx state' actions more)
    (live : state.conns.ctxs ctx = some chanCtx) (queued : ctx ∈ state.hwrngReqList) :
    (∀ chan data, .sent chan data ∈ actions →
        data.length = min (outstanding state ctx) maxHwrngMsgSize) ∧
      ∀ chan, .sendBlocked chan ∈ actions →
        ∀ other, Hwrng.outstanding state' other = Hwrng.outstanding state other := by
  have lenEq := replyLen_eq_min chanCtx
  have pending := outstanding_of_queued live queued
  cases served with
  | skipped | drawFailed | sendFailed => simp
  | finished | more => simp [pending, lenEq]
  | @sendBlocked stream =>
      refine ⟨by simp, ?_⟩
      intro chan _ other
      by_cases same : other = ctx
      · subst same
        have blockedLive : ((state.fill (chanCtx.drawn stream)).store other
            { chanCtx with sendBlocked := true }).conns.ctxs other =
            some { chanCtx with sendBlocked := true } := Table.put_ctxs_self _ _ _
        rw [outstanding_of_queued blockedLive queued, pending]
      · exact outstanding_congr (Table.put_ctxs_of_ne _ _ same) Iff.rfl

/-- For every open channel what was sent and what is pending add up to what was
requested, every message carries as much as it can, and a full channel loses
nothing. -/
theorem bytes_conserved {history : List (Step State Event (List Action))}
    (run : Exec (service width) history state) :
    (∀ chan ctx, state.conns.chans chan = .attached ctx →
        (tally chan (actionLog history)).sent + outstanding state ctx ≡
          (tally chan (actionLog history)).received [MOD 2 ^ width]) ∧
      ExactMessages width (actionLog history) ∧
      ∀ io middle ctx middle' actions more, ctx ∈ middle.hwrngReqList →
        serveRequest io middle ctx = .ok (middle', actions, more) →
        (∀ chan data, .sent chan data ∈ actions →
            data.length = min (outstanding middle ctx) maxHwrngMsgSize) ∧
          ∀ chan, .sendBlocked chan ∈ actions →
            ∀ other, outstanding middle' other = outstanding middle other := by
  have conserved := conserved_of_exec run
  have invariant := queueInvariant_of_reachable run.reachable
  refine ⟨?_, conserved.exact, ?_⟩
  · intro chan ctx attached
    obtain ⟨chanCtx, live, rfl⟩ := invariant.wellFormed.attached chan ctx attached
    exact conserved.balanced ctx chanCtx live
  · intro io middle ctx middle' actions more queued result
    cases live : middle.conns.ctxs ctx with
    | none => simp [serveRequest, load, live] at result
    | some chanCtx =>
        obtain ⟨state', new, needMore, again, served⟩ := serveRequest_of_live io live
        rw [again] at result
        obtain ⟨rfl, rfl, rfl⟩ := by simpa using result
        exact served.outstanding live queued

/-- The first message takes all but one of the 4097 bytes, and the attempt to send the
last byte on a full channel leaves it pending. -/
theorem bytes_conserved_bigRequest :
    ∃ step : Step State Event (List Action), Exec (service 64) [step, connectStep] step.post ∧
      outstanding step.post 16 = 1 ∧
      (tally 3 (actionLog [step, connectStep])).received = 4097 ∧
      (tally 3 (actionLog [step, connectStep])).sent + 1 ≡ 4097 [MOD 2 ^ 64] ∧
      (∃ data, .sent 3 data ∈ step.output) ∧
      ExactMessages 64 (actionLog [step, connectStep]) ∧
      ∃ blocked actions, serveRequest (fullChannel 0) step.post 16 = .ok (blocked, actions, false) ∧
        .sendBlocked 3 ∈ actions ∧ outstanding blocked 16 = 1 := by
  obtain ⟨step, run, ⟨data, drawn, output⟩, attached, live, queued⟩ := bigRequest_exec
  have member : 16 ∈ step.post.hwrngReqList := by simp [queued]
  have pending : outstanding step.post 16 = 1 := outstanding_of_queued live member
  have received : (tally 3 (actionLog [step, connectStep])).received = 4097 := by
    simp [actionLog, output, connectStep, tally, hwrngPortHandler, Connect.established]
  obtain ⟨balanced, exact, attempts⟩ := bytes_conserved run
  have balanced := balanced 3 16 attached
  rw [pending, received] at balanced
  refine ⟨step, run, pending, received, balanced, ⟨data, by simp [output]⟩, exact, ?_⟩
  obtain ⟨blocked, actions, more, result, served⟩ := serveRequest_of_live (fullChannel 0) live
  obtain ⟨-, keeps⟩ := attempts _ _ _ _ _ _ member result
  cases served with
  | sendBlocked =>
      exact ⟨_, _, result, List.mem_cons_self, (keeps 3 List.mem_cons_self 16).trans pending⟩
  | skipped stops => cases stops
  | drawFailed _ failed => cases failed
  | sendFailed _ _ failed | finished _ _ failed | more _ _ failed => cases failed

end TrustyApp.Hwrng
