import TrustyApp.Hwrng.Service

/-!
# The request queue of the HWRNG service

What one round of a pass can do is said once (`Served`); the invariant of the queue
and the order in which a pass attempts the pending requests follow from it.
-/

namespace TrustyApp.Hwrng

open Ipc Reactive

variable {width : Nat} {io : Io} {state : State} {ctx : Addr} {chanCtx : ChanCtx}

def State.shutdown (state : State) (ctx : Addr) (chanCtx : ChanCtx) : State :=
  { state with
    conns := (state.conns.close chanCtx.chan).free ctx
    hwrngReqList := state.hwrngReqList.erase ctx }

theorem hwrngCloseChan_of_live (live : state.conns.ctxs ctx = some chanCtx) :
    hwrngCloseChan state ctx = .ok (state.shutdown ctx chanCtx, [.closed chanCtx.chan]) := by
  by_cases linked : ctx ∈ state.hwrngReqList
  · simp [hwrngCloseChan, load, live, linked, State.unlink, State.shutdown]
  · simp [hwrngCloseChan, load, live, linked, State.shutdown, List.erase_of_not_mem]

def ChanCtx.drawn (chanCtx : ChanCtx) (stream : Nat → UInt8) : List UInt8 :=
  (List.range chanCtx.replyLen).map stream

@[simp] theorem length_drawn (chanCtx : ChanCtx) (stream : Nat → UInt8) :
    (chanCtx.drawn stream).length = chanCtx.replyLen := by
  simp [ChanCtx.drawn]

theorem replyLen_eq_min (chanCtx : ChanCtx) :
    chanCtx.replyLen = min chanCtx.reqSize maxHwrngMsgSize := by
  unfold ChanCtx.replyLen
  split <;> omega

def State.fill (state : State) (data : List UInt8) : State :=
  { state with rngData := Bytes.overwrite state.rngData data }

/-- What one round of a pass can do to a live context. -/
inductive Served (io : Io) (state : State) (ctx : Addr) (chanCtx : ChanCtx) :
    State → List Action → Bool → Prop
  | skipped : chanCtx.sendBlocked = true →
      Served io state ctx chanCtx state [] false
  | drawFailed : chanCtx.sendBlocked = false → io.rng ctx = none →
      Served io state ctx chanCtx (state.shutdown ctx chanCtx)
        [.closed chanCtx.chan, .drawFailed ctx] false
  | sendBlocked {stream : Nat → UInt8} : chanCtx.sendBlocked = false →
      io.rng ctx = some stream → io.send ctx = .notEnoughBuffer →
      Served io state ctx chanCtx
        ((state.fill (chanCtx.drawn stream)).store ctx { chanCtx with sendBlocked := true })
        [.sendBlocked chanCtx.chan, .drew ctx (chanCtx.drawn stream)] false
  | sendFailed {stream : Nat → UInt8} : chanCtx.sendBlocked = false →
      io.rng ctx = some stream → io.send ctx = .failed →
      Served io state ctx chanCtx ((state.fill (chanCtx.drawn stream)).shutdown ctx chanCtx)
        [.closed chanCtx.chan, .drew ctx (chanCtx.drawn stream)] false
  | finished {stream : Nat → UInt8} : chanCtx.sendBlocked = false →
      io.rng ctx = some stream → io.send ctx = .sent → chanCtx.reqSize ≤ maxHwrngMsgSize →
      Served io state ctx chanCtx
        (((state.fill (chanCtx.drawn stream)).store ctx
          { chanCtx with reqSize := chanCtx.reqSize - chanCtx.replyLen }).unlink ctx)
        [.sent chanCtx.chan (chanCtx.drawn stream), .drew ctx (chanCtx.drawn stream)] false
  | more {stream : Nat → UInt8} : chanCtx.sendBlocked = false →
      io.rng ctx = some stream → io.send ctx = .sent → maxHwrngMsgSize < chanCtx.reqSize →
      Served io state ctx chanCtx
        ((state.fill (chanCtx.drawn stream)).store ctx
          { chanCtx with reqSize := chanCtx.reqSize - chanCtx.replyLen })
        [.sent chanCtx.chan (chanCtx.drawn stream), .drew ctx (chanCtx.drawn stream)] true

theorem serveRequest_of_live (io : Io) (live : state.conns.ctxs ctx = some chanCtx) :
    ∃ state' actions more, serveRequest io state ctx = .ok (state', actions, more) ∧
      Served io state ctx chanCtx state' actions more := by
  have loaded : load state ctx = .ok chanCtx := by simp [load, live]
  cases blocked : chanCtx.sendBlocked with
  | true => exact ⟨_, _, _, by simp [serveRequest, loaded, blocked], .skipped blocked⟩
  | false =>
      cases drew : io.rng ctx with
      | none =>
          refine ⟨_, _, _, ?_, .drawFailed blocked drew⟩
          simp [serveRequest, loaded, blocked, drew, hwrngCloseChan_of_live live]
      | some stream =>
          have filledLive :
              (state.fill (chanCtx.drawn stream)).conns.ctxs ctx = some chanCtx := live
          have message : (Bytes.overwrite state.rngData (chanCtx.drawn stream)).take
              chanCtx.replyLen = chanCtx.drawn stream := by
            simpa using Bytes.take_overwrite state.rngData (chanCtx.drawn stream)
          cases result : io.send ctx with
          | notEnoughBuffer =>
              refine ⟨_, _, _, ?_, .sendBlocked blocked drew result⟩
              simp [serveRequest, loaded, blocked, drew, result, State.fill, ChanCtx.drawn]
          | failed =>
              refine ⟨_, _, _, ?_, .sendFailed blocked drew result⟩
              have closed := hwrngCloseChan_of_live filledLive
              simp only [State.fill, ChanCtx.drawn] at closed ⊢
              simp [serveRequest, loaded, blocked, drew, result, closed]
          | sent =>
              have lenEq := replyLen_eq_min chanCtx
              by_cases small : chanCtx.reqSize ≤ maxHwrngMsgSize
              · refine ⟨_, _, _, ?_, .finished blocked drew result small⟩
                have done : chanCtx.reqSize - chanCtx.replyLen = 0 := by omega
                simp only [ChanCtx.drawn] at message
                simp [serveRequest, loaded, blocked, drew, result, done, State.fill,
                  ChanCtx.drawn, message]
              · refine ⟨_, _, _, ?_, .more blocked drew result (Nat.lt_of_not_le small)⟩
                have rest : chanCtx.reqSize - chanCtx.replyLen ≠ 0 := by omega
                simp only [ChanCtx.drawn] at message
                simp [serveRequest, loaded, blocked, drew, result, rest, State.fill,
                  ChanCtx.drawn, message]

theorem Served.frame {state' : State} {actions : List Action} {more : Bool}
    (served : Served io state ctx chanCtx state' actions more) :
    (∀ other, other ≠ ctx → state'.conns.ctxs other = state.conns.ctxs other) ∧
      (state'.hwrngReqList = state.hwrngReqList ∨
        state'.hwrngReqList = state.hwrngReqList.erase ctx) := by
  cases served with
  | skipped => exact ⟨fun _ _ => rfl, .inl rfl⟩
  | drawFailed | sendFailed =>
      exact ⟨fun other ne => Table.free_ctxs_of_ne _ ne, .inr rfl⟩
  | sendBlocked | more =>
      exact ⟨fun other ne => Table.put_ctxs_of_ne _ _ ne, .inl rfl⟩
  | finished => exact ⟨fun other ne => Table.put_ctxs_of_ne _ _ ne, .inr rfl⟩

theorem Served.mem_iff {state' : State} {actions : List Action} {more : Bool}
    (served : Served io state ctx chanCtx state' actions more) {other : Addr}
    (ne : other ≠ ctx) : other ∈ state'.hwrngReqList ↔ other ∈ state.hwrngReqList := by
  rcases served.frame.2 with same | erased
  · rw [same]
  · rw [erased, List.mem_erase_of_ne ne]

/-- The queue holds live contexts, each once, and every blocked context. -/
structure QueueInvariant (state : State) : Prop where
  wellFormed : state.conns.WellFormed ChanCtx.chan
  nodup : state.hwrngReqList.Nodup
  live : ∀ ctx ∈ state.hwrngReqList, ∃ chanCtx, state.conns.ctxs ctx = some chanCtx
  blocked : ∀ ctx chanCtx, state.conns.ctxs ctx = some chanCtx →
    chanCtx.sendBlocked = true → ctx ∈ state.hwrngReqList

namespace QueueInvariant

theorem fill (invariant : QueueInvariant state) (data : List UInt8) :
    QueueInvariant (state.fill data) :=
  ⟨invariant.wellFormed, invariant.nodup, invariant.live, invariant.blocked⟩

theorem shutdown (invariant : QueueInvariant state)
    (live : state.conns.ctxs ctx = some chanCtx) :
    QueueInvariant (state.shutdown ctx chanCtx) where
  wellFormed := invariant.wellFormed.shutdown live
  nodup := invariant.nodup.erase ctx
  live other member := by
    obtain ⟨ne, member⟩ := invariant.nodup.mem_erase_iff.mp member
    obtain ⟨otherCtx, otherLive⟩ := invariant.live other member
    exact ⟨otherCtx, (Table.free_ctxs_of_ne _ ne).trans otherLive⟩
  blocked other otherCtx otherLive isBlocked := by
    have ne : other ≠ ctx := by
      rintro rfl
      simp [State.shutdown] at otherLive
    have member := invariant.blocked other otherCtx
      ((Table.free_ctxs_of_ne _ ne).symm.trans otherLive) isBlocked
    exact (List.mem_erase_of_ne ne).mpr member

theorem store (invariant : QueueInvariant state)
    (live : state.conns.ctxs ctx = some chanCtx) (newCtx : ChanCtx)
    (sameChan : newCtx.chan = chanCtx.chan)
    (queued : newCtx.sendBlocked = true → ctx ∈ state.hwrngReqList) :
    QueueInvariant (state.store ctx newCtx) where
  wellFormed := invariant.wellFormed.replace live sameChan
  nodup := invariant.nodup
  live other member := by
    by_cases same : other = ctx
    · exact ⟨newCtx, by simp [State.store, same]⟩
    · obtain ⟨otherCtx, otherLive⟩ := invariant.live other member
      exact ⟨otherCtx, (Table.put_ctxs_of_ne _ _ same).trans otherLive⟩
  blocked other otherCtx otherLive isBlocked := by
    by_cases same : other = ctx
    · subst same
      have stored : newCtx = otherCtx := by simpa [State.store] using otherLive
      exact queued (stored ▸ isBlocked)
    · exact invariant.blocked other otherCtx
        ((Table.put_ctxs_of_ne _ _ same).symm.trans otherLive) isBlocked

theorem unlink (invariant : QueueInvariant state)
    (live : state.conns.ctxs ctx = some chanCtx) (unblocked : chanCtx.sendBlocked = false) :
    QueueInvariant (state.unlink ctx) where
  wellFormed := invariant.wellFormed
  nodup := invariant.nodup.erase ctx
  live other member := invariant.live other (List.mem_of_mem_erase member)
  blocked other otherCtx otherLive isBlocked := by
    have ne : other ≠ ctx := by
      rintro rfl
      rw [State.unlink, live, Option.some.injEq] at otherLive
      rw [← otherLive, unblocked] at isBlocked
      cases isBlocked
    exact (List.mem_erase_of_ne ne).mpr (invariant.blocked other otherCtx otherLive isBlocked)

theorem append (invariant : QueueInvariant state)
    (live : state.conns.ctxs ctx = some chanCtx) (fresh : ctx ∉ state.hwrngReqList) :
    QueueInvariant { state with hwrngReqList := state.hwrngReqList ++ [ctx] } where
  wellFormed := invariant.wellFormed
  nodup := by
    rw [List.nodup_append]
    refine ⟨invariant.nodup, List.nodup_singleton ctx, ?_⟩
    intro other member last isLast
    rw [List.mem_singleton] at isLast
    rintro rfl
    exact fresh (isLast ▸ member)
  live other member := by
    rcases List.mem_append.mp member with member | isLast
    · exact invariant.live other member
    · rw [List.mem_singleton] at isLast
      exact ⟨chanCtx, isLast ▸ live⟩
  blocked other otherCtx otherLive isBlocked :=
    List.mem_append_left _ (invariant.blocked other otherCtx otherLive isBlocked)

end QueueInvariant

theorem Served.invariant {state' : State} {actions : List Action} {more : Bool}
    (served : Served io state ctx chanCtx state' actions more)
    (invariant : QueueInvariant state) (live : state.conns.ctxs ctx = some chanCtx)
    (queued : ctx ∈ state.hwrngReqList) : QueueInvariant state' := by
  cases served with
  | skipped => exact invariant
  | drawFailed => exact invariant.shutdown live
  | sendBlocked => exact (invariant.fill _).store live _ rfl fun _ => queued
  | sendFailed => exact (invariant.fill _).shutdown live
  | @finished stream unblocked =>
      have stored := (invariant.fill (chanCtx.drawn stream)).store live
        { chanCtx with reqSize := chanCtx.reqSize - chanCtx.replyLen } rfl fun _ => queued
      exact stored.unlink (Table.put_ctxs_self _ _ _) unblocked
  | more => exact (invariant.fill _).store live _ rfl fun _ => queued

theorem serve_cases {pass pass' : Pass} (served : pass.serve io ctx = .ok pass') :
    ∃ chanCtx state actions more, pass.state.conns.ctxs ctx = some chanCtx ∧
      Served io pass.state ctx chanCtx state actions more ∧
      pass' = ⟨state, actions ++ pass.actions, more || pass.needMore⟩ := by
  cases live : pass.state.conns.ctxs ctx with
  | none => simp [Pass.serve, serveRequest, load, live] at served
  | some chanCtx =>
      obtain ⟨state, actions, more, result, outcome⟩ := serveRequest_of_live io live
      refine ⟨chanCtx, state, actions, more, rfl, outcome, ?_⟩
      simpa [Pass.serve, result] using served.symm

theorem serve_unlinksOnlyCurrent (io : Io) :
    SafeWalk.UnlinksOnlyCurrent (fun pass : Pass => pass.state.hwrngReqList)
      (Pass.serve io) := by
  intro pass ctx pass' served
  obtain ⟨chanCtx, state, actions, more, live, outcome, rfl⟩ := serve_cases served
  exact outcome.frame.2

/-- Part way through a pass: the contexts still to come are queued, and what the pass is
to establish holds so far. -/
structure Underway (Inv : List Addr → State → List Action → Prop) (rest : List Addr)
    (pass : Pass) : Prop where
  nodup : rest.Nodup
  queued : ∀ ctx ∈ rest, ctx ∈ pass.state.hwrngReqList
  kept : QueueInvariant pass.state
  held : Inv rest pass.state pass.actions

theorem Underway.serve {Inv : List Addr → State → List Action → Prop} {rest : List Addr}
    {pass : Pass}
    (round : ∀ ctx rest state chanCtx actions state' new more,
      state.conns.ctxs ctx = some chanCtx → ctx ∈ state.hwrngReqList → ctx ∉ rest →
      QueueInvariant state → Inv (ctx :: rest) state actions →
      Served io state ctx chanCtx state' new more → Inv rest state' (new ++ actions))
    (underway : Underway Inv (ctx :: rest) pass) :
    ∃ pass', pass.serve io ctx = .ok pass' ∧ Underway Inv rest pass' := by
  obtain ⟨nodup, queued, kept, held⟩ := underway
  obtain ⟨fresh, restNodup⟩ := List.nodup_cons.mp nodup
  have member := queued ctx List.mem_cons_self
  obtain ⟨chanCtx, live⟩ := kept.live ctx member
  obtain ⟨state', new, more, result, outcome⟩ := serveRequest_of_live io live
  refine ⟨⟨state', new ++ pass.actions, more || pass.needMore⟩, ?_, restNodup, ?_, ?_, ?_⟩
  · simp [Pass.serve, result]
  · intro other inRest
    have ne : other ≠ ctx := fun same => fresh (same ▸ inRest)
    exact (outcome.mem_iff ne).mpr (queued other (List.mem_cons_of_mem ctx inRest))
  · exact outcome.invariant kept live member
  · exact round ctx rest pass.state chanCtx pass.actions state' new more live member fresh kept
      held outcome

/-- The rule for a pass: what holds of the contexts still to come, the state and
the actions so far is kept by every round. -/
theorem pass_rule (Inv : List Addr → State → List Action → Prop)
    (round : ∀ ctx rest state chanCtx actions state' new more,
      state.conns.ctxs ctx = some chanCtx → ctx ∈ state.hwrngReqList → ctx ∉ rest →
      QueueInvariant state → Inv (ctx :: rest) state actions →
      Served io state ctx chanCtx state' new more → Inv rest state' (new ++ actions))
    (actions : List Action) (invariant : QueueInvariant state)
    (initially : Inv state.hwrngReqList state actions) :
    ∃ pass, hwrngHandleReqQueue io state actions = .ok pass ∧
      QueueInvariant pass.state ∧ Inv [] pass.state pass.actions := by
  have start : Underway Inv state.hwrngReqList ⟨state, actions, false⟩ :=
    ⟨invariant.nodup, fun _ member => member, invariant, initially⟩
  obtain ⟨pass, folded, finished⟩ := SafeWalk.foldlM_total (Underway Inv)
    (fun _ _ _ underway => underway.serve round) state.hwrngReqList _ start
  refine ⟨pass, ?_, finished.kept, finished.held⟩
  unfold hwrngHandleReqQueue
  rw [SafeWalk.forEverySafe_eq_foldlM (serve_unlinksOnlyCurrent io) _ invariant.nodup]
  exact folded

def Untouched (state : State) (rest : List Addr) (now : State) : Prop :=
  ∀ ctx ∈ rest, now.conns.ctxs ctx = state.conns.ctxs ctx

theorem Served.untouched {now now' : State} {rest : List Addr} {new : List Action} {more : Bool}
    (served : Served io now ctx chanCtx now' new more) (fresh : ctx ∉ rest)
    (untouched : Untouched state (ctx :: rest) now) : Untouched state rest now' := by
  intro other inRest
  have ne : other ≠ ctx := fun equal => fresh (equal ▸ inRest)
  exact (served.frame.1 other ne).trans (untouched other (List.mem_cons_of_mem ctx inRest))

def Action.attempted : Action → Option Addr
  | .drew ctx _ => some ctx
  | .drawFailed ctx => some ctx
  | _ => none

def attempts (actions : List Action) : List Addr := actions.filterMap Action.attempted

def State.unblocked (state : State) (ctx : Addr) : Bool :=
  match state.conns.ctxs ctx with
  | none => false
  | some chanCtx => !chanCtx.sendBlocked

theorem Served.attempts {state' : State} {actions : List Action} {more : Bool}
    (served : Served io state ctx chanCtx state' actions more) :
    attempts actions = if chanCtx.sendBlocked then [] else [ctx] := by
  cases served with
  | skipped blocked => simp [Hwrng.attempts, blocked]
  | drawFailed unblocked | sendBlocked unblocked | sendFailed unblocked
  | finished unblocked | more unblocked =>
      rw [unblocked]
      rfl

structure Attempted (state : State) (actions : List Action) (rest : List Addr) (now : State)
    (done : List Action) : Prop where
  untouched : Untouched state rest now
  visited : ∃ visited, state.hwrngReqList = visited ++ rest ∧
    attempts done = (visited.filter state.unblocked).reverse ++ attempts actions

theorem Attempted.served {now now' : State} {actions done new : List Action} {rest : List Addr}
    {more : Bool} (attempted : Attempted state actions (ctx :: rest) now done)
    (live : now.conns.ctxs ctx = some chanCtx) (fresh : ctx ∉ rest)
    (served : Served io now ctx chanCtx now' new more) :
    Attempted state actions rest now' (new ++ done) := by
  obtain ⟨untouched, visited, split, attempted⟩ := attempted
  refine ⟨served.untouched fresh untouched, visited ++ [ctx], by simp [split], ?_⟩
  have atStart : state.unblocked ctx = !chanCtx.sendBlocked := by
    rw [State.unblocked, ← untouched ctx List.mem_cons_self, live]
  have newAttempts := served.attempts
  simp only [Hwrng.attempts, List.filterMap_append] at newAttempts attempted ⊢
  rw [newAttempts, attempted]
  cases blocked : chanCtx.sendBlocked <;> simp [atStart, blocked]

/-- A pass attempts the requests that are not blocked when it begins, each once and
in the order of the queue. -/
theorem pass_attempts (io : Io) (invariant : QueueInvariant state) (actions : List Action) :
    ∃ pass, hwrngHandleReqQueue io state actions = .ok pass ∧ QueueInvariant pass.state ∧
      attempts pass.actions =
        (state.hwrngReqList.filter state.unblocked).reverse ++ attempts actions := by
  have start : Attempted state actions state.hwrngReqList state actions :=
    ⟨fun _ _ => rfl, [], rfl, rfl⟩
  obtain ⟨pass, result, kept, -, visited, all, attempted⟩ :=
    pass_rule (Attempted state actions)
      (fun _ _ _ _ _ _ _ _ live _ fresh _ held served => held.served live fresh served)
      actions invariant start
  refine ⟨pass, result, kept, ?_⟩
  rw [attempted, all, List.append_nil]

theorem load_of_live (live : state.conns.ctxs ctx = some chanCtx) :
    load state ctx = .ok chanCtx := by simp [load, live]

theorem QueueInvariant.queueRequest (invariant : QueueInvariant state)
    (live : state.conns.ctxs ctx = some chanCtx) (len : UInt32) :
    QueueInvariant (queueRequest width state ctx chanCtx len) := by
  unfold Hwrng.queueRequest
  by_cases linked : ctx ∈ state.hwrngReqList
  · rw [if_pos linked]
    exact invariant.store live _ rfl fun _ => linked
  · rw [if_neg linked]
    have stored := invariant.store live
      { chanCtx with reqSize := len.toNat % 2 ^ width } rfl
      fun blocked => absurd (invariant.blocked ctx chanCtx live blocked) linked
    exact stored.append (Table.put_ctxs_self _ _ _) linked

/-- The state after the `SEND_UNBLOCKED` branch. -/
def State.unblock (state : State) (ctx : Addr) (chanCtx : ChanCtx) (bits : Bits) : State :=
  if bits.sendUnblocked then state.store ctx { chanCtx with sendBlocked := false } else state

def ChanCtx.unblock (chanCtx : ChanCtx) (bits : Bits) : ChanCtx :=
  if bits.sendUnblocked then { chanCtx with sendBlocked := false } else chanCtx

theorem unblock_live (live : state.conns.ctxs ctx = some chanCtx) (bits : Bits) :
    (state.unblock ctx chanCtx bits).conns.ctxs ctx = some (chanCtx.unblock bits) := by
  cases set : bits.sendUnblocked <;>
    simp [State.unblock, ChanCtx.unblock, set, live, State.store]

theorem QueueInvariant.unblock (invariant : QueueInvariant state)
    (live : state.conns.ctxs ctx = some chanCtx) (bits : Bits) :
    QueueInvariant (state.unblock ctx chanCtx bits) := by
  cases set : bits.sendUnblocked with
  | false =>
      simp only [State.unblock, set]
      exact invariant
  | true =>
      simp only [State.unblock, set, if_true]
      exact invariant.store live _ rfl fun blocked => by simp at blocked

/-- What an event does to its own channel before the queue is kicked. -/
inductive Prepared (width : Nat) (state : State) (ctx : Addr) (chanCtx : ChanCtx)
    (bits : Bits) (io : Io) : State → List Action → Prop
  | hungUp : bits.hup = true →
      Prepared width state ctx chanCtx bits io (state.shutdown ctx chanCtx)
        [.closed chanCtx.chan]
  | recvFailed : bits.hup = false → bits.msg = true → io.recv = none →
      Prepared width state ctx chanCtx bits io
        ((state.unblock ctx chanCtx bits).shutdown ctx (chanCtx.unblock bits))
        [.closed (chanCtx.unblock bits).chan]
  | received {len : UInt32} : bits.hup = false → bits.msg = true → io.recv = some len →
      Prepared width state ctx chanCtx bits io
        (queueRequest width (state.unblock ctx chanCtx bits) ctx (chanCtx.unblock bits) len)
        [.received (chanCtx.unblock bits).chan len.toNat]
  | noMessage : bits.hup = false → bits.msg = false →
      Prepared width state ctx chanCtx bits io (state.unblock ctx chanCtx bits) []

theorem prepareChan_of_live (width : Nat) (bits : Bits) (io : Io)
    (live : state.conns.ctxs ctx = some chanCtx) :
    ∃ state' actions,
      prepareChan width state ctx chanCtx.chan bits io = .ok (state', actions) ∧
        Prepared width state ctx chanCtx bits io state' actions := by
  have loaded := load_of_live live
  have unblocked := unblock_live live bits
  cases hup : bits.hup with
  | true =>
      refine ⟨_, _, ?_, .hungUp hup⟩
      simp [prepareChan, loaded, hup, hwrngCloseChan_of_live live]
  | false =>
      cases msg : bits.msg with
      | false => exact ⟨_, _, by simp [prepareChan, loaded, hup, msg, State.unblock],
          .noMessage hup msg⟩
      | true =>
          have reloaded := load_of_live unblocked
          have closed := hwrngCloseChan_of_live unblocked
          cases received : io.recv with
          | none =>
              refine ⟨_, _, ?_, .recvFailed hup msg received⟩
              simp only [State.unblock] at reloaded closed ⊢
              simp [prepareChan, loaded, hup, msg, hwrngChanHandleMsg, reloaded, received,
                closed]
          | some len =>
              refine ⟨_, _, ?_, .received hup msg received⟩
              simp only [State.unblock] at reloaded ⊢
              simp [prepareChan, loaded, hup, msg, hwrngChanHandleMsg, reloaded, received]

theorem Prepared.invariant {bits : Bits} {state' : State} {actions : List Action}
    (prepared : Prepared width state ctx chanCtx bits io state' actions)
    (invariant : QueueInvariant state) (live : state.conns.ctxs ctx = some chanCtx) :
    QueueInvariant state' := by
  have unblocked := unblock_live live bits
  cases prepared with
  | hungUp => exact invariant.shutdown live
  | recvFailed => exact (invariant.unblock live bits).shutdown unblocked
  | received => exact (invariant.unblock live bits).queueRequest unblocked _
  | noMessage => exact invariant.unblock live bits

theorem Prepared.attempts {bits : Bits} {state' : State} {actions : List Action}
    (prepared : Prepared width state ctx chanCtx bits io state' actions) :
    attempts actions = [] := by
  cases prepared <;> rfl

theorem port_ctxs {conn : Connect Unit} (offered : conn.Offered state.conns)
    (live : state.conns.ctxs ctx = some chanCtx) :
    (hwrngPortHandler state conn).1.conns.ctxs ctx = some chanCtx := by
  simp only [hwrngPortHandler, Table.connect_eq offered]
  cases result : conn.established with
  | none => exact live
  | some created =>
      obtain ⟨-, unused⟩ := offered.established result
      have ne : ctx ≠ created.2 := by
        intro same
        rw [same, unused] at live
        cases live
      exact (Table.put_ctxs_of_ne _ _ ne).trans live

theorem QueueInvariant.port (invariant : QueueInvariant state) (conn : Connect Unit)
    (offered : conn.Offered state.conns) :
    QueueInvariant (hwrngPortHandler state conn).1 := by
  refine ⟨?_, invariant.nodup, ?_, ?_⟩
  · simp only [hwrngPortHandler, Table.connect_eq offered]
    cases result : conn.established with
    | none => exact invariant.wellFormed
    | some created =>
        obtain ⟨closed, unused⟩ := offered.established result
        exact invariant.wellFormed.connect ⟨created.1, 0, false⟩ closed unused
  · intro other member
    obtain ⟨otherCtx, live⟩ := invariant.live other member
    exact ⟨otherCtx, port_ctxs offered live⟩
  · intro other otherCtx live blocked
    cases before : state.conns.ctxs other with
    | some oldCtx =>
        have same := Option.some.inj ((port_ctxs offered before).symm.trans live)
        exact invariant.blocked other oldCtx before (same ▸ blocked)
    | none =>
        -- a context that was not there is the new one, which is not blocked
        simp only [hwrngPortHandler, Table.connect_eq offered] at live
        cases result : conn.established with
        | none => simp [result, before] at live
        | some created =>
            by_cases isNew : other = created.2
            · simp only [result, isNew, Table.setChan_ctxs, Table.put_ctxs_self,
                Option.some.injEq] at live
              simp [← live] at blocked
            · simp only [result, Table.setChan_ctxs, Table.put_ctxs_of_ne _ _ isNew,
                before] at live
              cases live

/-- A channel event prepares its channel and makes one pass; neither halts. -/
theorem dispatchEvent_chan (width : Nat) {handle : Handle} (bits : Bits) (io : Io)
    (invariant : QueueInvariant state) (attached : state.conns.chans handle = .attached ctx) :
    ∃ chanCtx middle before pass, state.conns.ctxs ctx = some chanCtx ∧
      chanCtx.chan = handle ∧
      prepareChan width state ctx handle bits io = .ok (middle, before) ∧
      Prepared width state ctx chanCtx bits io middle before ∧ QueueInvariant middle ∧
      hwrngHandleReqQueue io middle before = .ok pass ∧ QueueInvariant pass.state ∧
      attempts pass.actions = (middle.hwrngReqList.filter middle.unblocked).reverse ∧
      dispatchEvent width state (.chan handle bits io) = .ok (pass.state, pass.actions) := by
  obtain ⟨chanCtx, live, rfl⟩ := invariant.wellFormed.attached handle ctx attached
  obtain ⟨middle, before, result, prepared⟩ := prepareChan_of_live width bits io live
  have kept := prepared.invariant invariant live
  obtain ⟨pass, passed, keptAfter, attempted⟩ := pass_attempts io kept before
  refine ⟨chanCtx, middle, before, pass, live, rfl, result, prepared, kept, passed, keptAfter,
    ?_, ?_⟩
  · rw [attempted, prepared.attempts, List.append_nil]
  · simp [dispatchEvent, attached, hwrngChanHandler, result, hwrngKickReqQueue, passed]

theorem queueInvariant_of_reachable (reached : Reachable (service width) state) :
    QueueInvariant state := by
  apply reached.rule QueueInvariant
  · exact ⟨.empty _, List.nodup_nil, by simp [service], by simp [service, Table.empty]⟩
  · rintro ⟨pre, event, output, post⟩ invariant ⟨enabled, handled⟩
    cases event with
    | port conn =>
        have connected : hwrngPortHandler pre conn = (post, output) := Except.ok.inj handled
        have kept := invariant.port conn enabled
        rw [connected] at kept
        exact kept
    | chan handle bits io =>
        obtain ⟨ctx, attached⟩ := enabled
        obtain ⟨chanCtx, middle, before, pass, -, -, -, -, -, -, kept, -, dispatched⟩ :=
          dispatchEvent_chan width bits io invariant attached
        have same := Except.ok.inj (dispatched.symm.trans handled)
        simp only [Prod.mk.injEq] at same
        exact same.1 ▸ kept

/-- Between two events the queue holds open channels only, each once, and all blocked
ones.  Whatever happens to the contexts during a pass, it attempts exactly the
requests that were pending and not blocked, in their order, and no handler uses a
freed context. -/
theorem request_queue_sound (reached : Reachable (service width) state) :
    state.hwrngReqList.Nodup ∧
      (∀ ctx ∈ state.hwrngReqList, ∃ chanCtx, state.conns.ctxs ctx = some chanCtx ∧
        state.conns.chans chanCtx.chan = .attached ctx) ∧
      (∀ ctx chanCtx, state.conns.ctxs ctx = some chanCtx → chanCtx.sendBlocked = true →
        ctx ∈ state.hwrngReqList) ∧
      (∀ handle ctx bits io, state.conns.chans handle = .attached ctx →
        ∃ middle before pass,
          prepareChan width state ctx handle bits io = .ok (middle, before) ∧
          hwrngHandleReqQueue io middle before = .ok pass ∧
          (attempts pass.actions).reverse =
            middle.hwrngReqList.filter middle.unblocked) ∧
      ∀ event, Enabled state event → ∃ result, dispatchEvent width state event = .ok result := by
  have invariant := queueInvariant_of_reachable reached
  refine ⟨invariant.nodup, ?_, invariant.blocked, ?_, ?_⟩
  · intro ctx member
    obtain ⟨chanCtx, live⟩ := invariant.live ctx member
    exact ⟨chanCtx, live, invariant.wellFormed.owned ctx chanCtx live⟩
  · intro handle ctx bits io attached
    obtain ⟨chanCtx, middle, before, pass, -, -, prepared, -, -, passed, -, attempted, -⟩ :=
      dispatchEvent_chan width bits io invariant attached
    exact ⟨middle, before, pass, prepared, passed, by rw [attempted, List.reverse_reverse]⟩
  · intro event enabled
    cases event with
    | port conn => exact ⟨_, rfl⟩
    | chan handle bits io =>
        obtain ⟨ctx, attached⟩ := enabled
        obtain ⟨chanCtx, middle, before, pass, -, -, -, -, -, -, -, -, dispatched⟩ :=
          dispatchEvent_chan width bits io invariant attached
        exact ⟨_, dispatched⟩

/-- A peer connects on channel 3 and gets the context at address 16. -/
def connectStep : Step State Event (List Action) :=
  let conn : Connect Unit := ⟨some 3, (), some 16, true⟩
  ⟨(service 64).initial, .port conn, (hwrngPortHandler (service 64).initial conn).2,
    (hwrngPortHandler (service 64).initial conn).1⟩

theorem connectStep_performs : (service 64).Performs connectStep := by
  refine ⟨⟨?_, ?_⟩, rfl⟩
  · intro h _
    rfl
  · intro a _
    rfl

theorem connectStep_exec : Exec (service 64) [connectStep] connectStep.post :=
  Exec.start.step connectStep_performs

theorem request_queue_sound_connected :
    ∃ result, dispatchEvent 64 connectStep.post
      (.chan 3 ⟨false, false, true⟩ ⟨some 5, fun _ => none, fun _ => .sent⟩) = .ok result :=
  (request_queue_sound connectStep_exec.reachable).2.2.2.2 _ ⟨16, rfl⟩

end TrustyApp.Hwrng
