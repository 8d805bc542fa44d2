import TrustyApp.Hwkey.FakeProvider
import TrustyApp.Hwkey.Messages

/-!
# The invariant of the opaque handles

What one event can do is said once (`Effect`); the invariant of the handle list
follows from it.
-/

namespace TrustyApp.Hwkey

open Ipc Reactive

variable {provider : Provider} {ifc : Interface} {state : State} {ctx : Addr}
  {chanCtx : ChanCtx}

/-- An entry of an opaque slot that an open session of the slot's UUID holds. -/
structure SoundEntry (provider : Provider) (conns : Table ChanCtx) (entry : OpaqueHandleNode) :
    Prop where
  token : entry.token.WellFormed
  held : ∃ slot handle chanCtx, provider.keySlots[entry.keySlot]? = some slot ∧
    slot.handler = some (.getKeyHandle handle) ∧ conns.ctxs entry.owner = some chanCtx ∧
    chanCtx.uuid = slot.uuid

structure HandleInvariant (provider : Provider) (state : State) : Prop where
  wellFormed : state.conns.WellFormed ChanCtx.chan
  exclusive : Grants.Exclusive OpaqueHandleNode.keySlot state.opaqueHandles
  entries : ∀ entry ∈ state.opaqueHandles, SoundEntry provider state.conns entry
  reqData : state.reqData.length = hwkeyMaxPayloadSize + 1
  keyData : state.keyData.length = hwkeyMaxPayloadSize

theorem SoundEntry.opaqueData {conns : Table ChanCtx} {entry : OpaqueHandleNode}
    (sound : SoundEntry provider conns entry) :
    ∃ handle, opaqueData provider.keySlots entry.keySlot = some handle := by
  obtain ⟨slot, handle, -, at_, handler, -, -⟩ := sound.held
  exact ⟨handle, opaqueData_of_slot at_ handler⟩

theorem HandleInvariant.prepared (invariant : HandleInvariant provider state) :
    Prepared provider state where
  sound entry member :=
    ⟨(invariant.entries entry member).token, (invariant.entries entry member).opaqueData⟩
  reqData := invariant.reqData
  keyData := invariant.keyData

theorem deleteHandlesOf_eq_revoke (handles : List OpaqueHandleNode) :
    deleteHandlesOf ctx handles = Grants.revoke OpaqueHandleNode.owner ctx handles := by
  induction handles with
  | nil => rfl
  | cons entry handles inductionHypothesis =>
      by_cases own : entry.owner = ctx
      · simpa [deleteHandlesOf, Grants.revoke, own] using inductionHypothesis
      · simpa [deleteHandlesOf, Grants.revoke, own] using inductionHypothesis

theorem mem_deleteHandlesOf {entry : OpaqueHandleNode} {handles : List OpaqueHandleNode} :
    entry ∈ deleteHandlesOf ctx handles ↔ entry ∈ handles ∧ entry.owner ≠ ctx := by
  rw [deleteHandlesOf_eq_revoke, Grants.mem_revoke]

def State.closeSession (state : State) (ctx : Addr) (chanCtx : ChanCtx) : State :=
  { state with
    conns := (state.conns.close chanCtx.chan).free ctx
    opaqueHandles := deleteHandlesOf ctx state.opaqueHandles }

theorem hwkeyCtxClose_of_live (live : state.conns.ctxs ctx = some chanCtx) :
    hwkeyCtxClose state ctx = .ok (state.closeSession ctx chanCtx, [.closed chanCtx.chan]) := by
  simp [hwkeyCtxClose, load, live, State.closeSession]

theorem HandleInvariant.closeSession (invariant : HandleInvariant provider state)
    (live : state.conns.ctxs ctx = some chanCtx) :
    HandleInvariant provider (state.closeSession ctx chanCtx) where
  wellFormed := invariant.wellFormed.shutdown live
  exclusive := by
    rw [State.closeSession, deleteHandlesOf_eq_revoke]
    exact invariant.exclusive.revoke
  entries entry member := by
    obtain ⟨member, ne⟩ := mem_deleteHandlesOf.mp member
    obtain ⟨token, slot, handle, owner, at_, handler, owned, uuid⟩ := invariant.entries entry member
    exact ⟨token, slot, handle, owner, at_, handler,
      (Table.free_ctxs_of_ne _ ne).trans owned, uuid⟩
  reqData := invariant.reqData
  keyData := invariant.keyData

def State.openSession (state : State) (ctx : Addr) (chanCtx : ChanCtx) : State :=
  { state with
    conns := (state.conns.put ctx chanCtx).setChan chanCtx.chan (.attached ctx) }

/-- What one event can do. -/
inductive Effect (provider : Provider) (ifc : Interface) (pre : State) :
    Event → State → List Action → Prop
  | refused {conn : Connect Uuid} {output : List Action} :
      (∀ action ∈ output, ∃ chan, action = .closed chan ∧ pre.conns.chans chan = .closed) →
      Effect provider ifc pre (.port conn) pre output
  | opened {conn : Connect Uuid} {chan : Handle} {ctx : Addr} :
      pre.conns.chans chan = .closed → pre.conns.ctxs ctx = none →
      provider.hwkeyClientAllowed conn.peer = true →
      Effect provider ifc pre (.port conn) (pre.openSession ctx ⟨chan, conn.peer⟩) [.opened chan]
  | idle {handle : Handle} {bits : Bits} {io : Io} : bits.hup = false → bits.msg = false →
      Effect provider ifc pre (.chan handle bits io) pre []
  | hungUp {bits : Bits} {io : Io} {ctx : Addr} {chanCtx : ChanCtx} : bits.hup = true →
      pre.conns.ctxs ctx = some chanCtx →
      Effect provider ifc pre (.chan chanCtx.chan bits io) (pre.closeSession ctx chanCtx)
        [.closed chanCtx.chan]
  | replied {bits : Bits} {io : Io} {ctx : Addr} {chanCtx : ChanCtx} {handled : Handled} :
      bits.hup = false → bits.msg = true → pre.conns.ctxs ctx = some chanCtx →
      hwkeyChanHandleMsg provider ifc pre ctx chanCtx io = .ok handled → handled.sent = true →
      Effect provider ifc pre (.chan chanCtx.chan bits io) handled.state handled.actions
  | dropped {bits : Bits} {io : Io} {ctx : Addr} {chanCtx : ChanCtx} {handled : Handled} :
      bits.hup = false → bits.msg = true → pre.conns.ctxs ctx = some chanCtx →
      hwkeyChanHandleMsg provider ifc pre ctx chanCtx io = .ok handled → handled.sent = false →
      Effect provider ifc pre (.chan chanCtx.chan bits io)
        (handled.state.closeSession ctx chanCtx) (.closed chanCtx.chan :: handled.actions)

theorem load_of_live (live : state.conns.ctxs ctx = some chanCtx) :
    load state ctx = .ok chanCtx := by simp [load, live]

/-- Handles of sessions that are not open do not exist, so giving up on a connection
whose cookie cannot be set deletes none. -/
theorem HandleInvariant.deleteHandlesOf_unused (invariant : HandleInvariant provider state)
    (unused : state.conns.ctxs ctx = none) :
    deleteHandlesOf ctx state.opaqueHandles = state.opaqueHandles := by
  rw [deleteHandlesOf_eq_revoke, Grants.revoke, List.filter_eq_self]
  intro entry member
  obtain ⟨-, -, chanCtx, -, -, owned, -⟩ := (invariant.entries entry member).held
  simp only [ne_eq, decide_not, Bool.not_eq_true', decide_eq_false_iff_not]
  intro same
  rw [same, unused] at owned
  cases owned

theorem hwkeyPortHandler_effect {pre post : State} {conn : Connect Uuid} {output : List Action}
    (invariant : HandleInvariant provider pre) (offered : conn.Offered pre.conns)
    (handled : hwkeyPortHandler provider pre conn = .ok (post, output)) :
    Effect provider ifc pre (.port conn) post output := by
  unfold hwkeyPortHandler at handled
  cases chanIs : conn.chan with
  | none =>
      simp only [chanIs, Except.ok.injEq, Prod.mk.injEq] at handled
      obtain ⟨rfl, rfl⟩ := handled
      exact .refused (by simp)
  | some chan =>
      have closed := offered.chan chan chanIs
      have undone : { pre with conns := (pre.conns.setChan chan .accepted).close chan } = pre := by
        rw [Table.close_setChan_of_closed closed]
      have refused : Effect provider ifc pre (.port conn) pre [.closed chan] :=
        .refused (by simpa using closed)
      simp only [chanIs, undone] at handled
      cases allowed : provider.hwkeyClientAllowed conn.peer with
      | false =>
          simp only [allowed, Bool.false_eq_true, not_false_eq_true, if_true, Except.ok.injEq,
            Prod.mk.injEq] at handled
          obtain ⟨rfl, rfl⟩ := handled
          exact refused
      | true =>
          cases ctxIs : conn.ctx with
          | none =>
              simp only [allowed, ctxIs, not_true_eq_false, if_false, Except.ok.injEq,
                Prod.mk.injEq] at handled
              obtain ⟨rfl, rfl⟩ := handled
              exact refused
          | some ctx =>
              have unused := offered.ctx ctx ctxIs
              have made : (((pre.conns.setChan chan .accepted).put ctx ⟨chan, conn.peer⟩).close
                  chan).free ctx = pre.conns := Table.undo_connect closed unused
              simp only [allowed, ctxIs, not_true_eq_false, if_false] at handled
              cases set : conn.cookieSet with
              | true =>
                  simp only [set, if_true, Except.ok.injEq, Prod.mk.injEq] at handled
                  obtain ⟨rfl, rfl⟩ := handled
                  have opened : ((pre.conns.setChan chan .accepted).put ctx
                      ⟨chan, conn.peer⟩).setChan chan (.attached ctx) =
                      (pre.conns.put ctx ⟨chan, conn.peer⟩).setChan chan (.attached ctx) := by
                    simp [Table.setChan, Table.put]
                  rw [opened]
                  exact .opened closed unused allowed
              | false =>
                  simp only [set, Bool.false_eq_true, if_false] at handled
                  rw [hwkeyCtxClose_of_live (Table.put_ctxs_self _ _ _)] at handled
                  simp only [State.closeSession, made, invariant.deleteHandlesOf_unused unused,
                    Except.ok.injEq, Prod.mk.injEq] at handled
                  obtain ⟨rfl, rfl⟩ := handled
                  exact refused

theorem dispatchEvent_effect {pre post : State} {event : Event} {output : List Action}
    (invariant : HandleInvariant provider pre) (enabled : Enabled pre event)
    (handled : dispatchEvent provider ifc pre event = .ok (post, output)) :
    Effect provider ifc pre event post output := by
  cases event with
  | port conn => exact hwkeyPortHandler_effect invariant enabled handled
  | chan handle bits io =>
      obtain ⟨ctx, attached⟩ := enabled
      obtain ⟨chanCtx, live, rfl⟩ := invariant.wellFormed.attached handle ctx attached
      simp only [dispatchEvent, attached, hwkeyChanHandler, load_of_live live, ok_bind,
        ne_eq, not_true_eq_false, if_false] at handled
      cases hup : bits.hup with
      | true =>
          simp only [hup, if_true, hwkeyCtxClose_of_live live, Except.ok.injEq,
            Prod.mk.injEq] at handled
          obtain ⟨rfl, rfl⟩ := handled
          exact .hungUp hup live
      | false =>
          cases msg : bits.msg with
          | false =>
              simp only [hup, msg, Bool.false_eq_true, if_false, Except.ok.injEq,
                Prod.mk.injEq] at handled
              obtain ⟨rfl, rfl⟩ := handled
              exact .idle hup msg
          | true =>
              simp only [hup, msg, Bool.false_eq_true, if_false, if_true] at handled
              obtain ⟨reply, answered, handled⟩ := bind_eq_ok.mp handled
              have replied := hwkeyChanHandleMsg_replied invariant.prepared answered
              cases sent : reply.sent with
              | true =>
                  simp only [sent, if_true, Except.ok.injEq, Prod.mk.injEq] at handled
                  obtain ⟨rfl, rfl⟩ := handled
                  exact .replied hup msg live answered sent
              | false =>
                  have stillLive : reply.state.conns.ctxs ctx = some chanCtx := by
                    rw [replied.conns, live]
                  simp only [sent, Bool.false_eq_true, if_false,
                    hwkeyCtxClose_of_live stillLive, ok_bind, Except.ok.injEq,
                    Prod.mk.injEq] at handled
                  obtain ⟨rfl, rfl⟩ := handled
                  exact .dropped hup msg live answered sent

section Change

variable {handles handles' : List OpaqueHandleNode} {actions : List Action}

theorem HandleChange.exclusive (change : HandleChange provider handles ctx chanCtx handles' actions)
    (exclusive : Grants.Exclusive OpaqueHandleNode.keySlot handles) :
    Grants.Exclusive OpaqueHandleNode.keySlot handles' := by
  cases change with
  | kept => exact exclusive
  | added _ absent => exact exclusive.append absent

theorem HandleChange.entries {conns : Table ChanCtx}
    (change : HandleChange provider handles ctx chanCtx handles' actions)
    (live : conns.ctxs ctx = some chanCtx)
    (entries : ∀ entry ∈ handles, SoundEntry provider conns entry) :
    ∀ entry ∈ handles', SoundEntry provider conns entry := by
  cases change with
  | kept => exact entries
  | added named _ wellFormed =>
      intro entry member
      rcases List.mem_append.mp member with member | isNew
      · exact entries entry member
      · rw [List.mem_singleton] at isNew
        subst isNew
        obtain ⟨slot, at_, -, uuid, handler⟩ := namedSlot_eq_some named
        exact ⟨wellFormed, slot, _, chanCtx, at_, handler, live, uuid.symm⟩

end Change

theorem HandleInvariant.replied (invariant : HandleInvariant provider state)
    (live : state.conns.ctxs ctx = some chanCtx) {handled : Handled}
    (replied : Replied provider state ctx chanCtx handled) :
    HandleInvariant provider handled.state where
  wellFormed := replied.conns ▸ invariant.wellFormed
  exclusive := replied.handles.exclusive invariant.exclusive
  entries := by
    rw [replied.conns]
    exact replied.handles.entries live invariant.entries
  reqData := replied.reqData.trans invariant.reqData
  keyData := replied.keyData.trans invariant.keyData

theorem HandleInvariant.openSession (invariant : HandleInvariant provider state)
    (closed : state.conns.chans chanCtx.chan = .closed) (unused : state.conns.ctxs ctx = none) :
    HandleInvariant provider (state.openSession ctx chanCtx) where
  wellFormed := invariant.wellFormed.connect chanCtx closed unused
  exclusive := invariant.exclusive
  entries entry member := by
    obtain ⟨token, slot, handle, owner, at_, handler, owned, uuid⟩ := invariant.entries entry member
    have ne : entry.owner ≠ ctx := by
      rintro rfl
      rw [unused] at owned
      cases owned
    exact ⟨token, slot, handle, owner, at_, handler,
      (Table.put_ctxs_of_ne _ _ ne).trans owned, uuid⟩
  reqData := invariant.reqData
  keyData := invariant.keyData

theorem Effect.invariant {pre post : State} {event : Event} {output : List Action}
    (effect : Effect provider ifc pre event post output)
    (invariant : HandleInvariant provider pre) : HandleInvariant provider post := by
  cases effect with
  | refused | idle => exact invariant
  | opened closed unused => exact invariant.openSession closed unused
  | hungUp _ live => exact invariant.closeSession live
  | replied _ _ live answered =>
      exact invariant.replied live (hwkeyChanHandleMsg_replied invariant.prepared answered)
  | dropped _ _ live answered =>
      have replied := hwkeyChanHandleMsg_replied invariant.prepared answered
      exact (invariant.replied live replied).closeSession (by rw [replied.conns, live])

theorem handleInvariant_of_reachable (reached : Reachable (service provider ifc) state) :
    HandleInvariant provider state := by
  apply reached.rule (HandleInvariant provider)
  · exact ⟨.empty _, .nil, by simp [service], by simp [service], by simp [service]⟩
  · intro step invariant performs
    exact (dispatchEvent_effect invariant performs.1 performs.2).invariant invariant

theorem effect_of_performs {step : Step State Event (List Action)}
    (reached : Reachable (service provider ifc) step.pre)
    (performs : (service provider ifc).Performs step) :
    Effect provider ifc step.pre step.event step.post step.output :=
  dispatchEvent_effect (handleInvariant_of_reachable reached) performs.1 performs.2

theorem hwkeyPortHandler_returns (provider : Provider) (state : State) (conn : Connect Uuid) :
    ∃ result, hwkeyPortHandler provider state conn = .ok result := by
  unfold hwkeyPortHandler
  split
  · exact ⟨_, rfl⟩
  split
  · exact ⟨_, rfl⟩
  split
  · exact ⟨_, rfl⟩
  split
  · exact ⟨_, rfl⟩
  · rw [hwkeyCtxClose_of_live (Table.put_ctxs_self _ _ _)]
    exact ⟨_, rfl⟩

theorem dispatchEvent_outside {event : Event} {halt : Halt}
    (invariant : HandleInvariant provider state) (enabled : Enabled state event)
    (stopped : dispatchEvent provider ifc state event = .error halt) : Outside halt := by
  cases event with
  | port conn =>
      obtain ⟨result, returned⟩ := hwkeyPortHandler_returns provider state conn
      rw [dispatchEvent, returned] at stopped
      cases stopped
  | chan handle bits io =>
      obtain ⟨ctx, attached⟩ := enabled
      obtain ⟨chanCtx, live, rfl⟩ := invariant.wellFormed.attached handle ctx attached
      simp only [dispatchEvent, attached, hwkeyChanHandler, load_of_live live, ok_bind,
        ne_eq, not_true_eq_false, if_false] at stopped
      split at stopped
      · rw [hwkeyCtxClose_of_live live] at stopped
        cases stopped
      split at stopped
      · rcases bind_eq_error.mp stopped with stopped | ⟨handled, answered, stopped⟩
        · exact hwkeyChanHandleMsg_outside invariant.prepared stopped
        · have replied := hwkeyChanHandleMsg_replied invariant.prepared answered
          have stillLive : handled.state.conns.ctxs ctx = some chanCtx := by
            rw [replied.conns, live]
          split at stopped
          · cases stopped
          · rw [hwkeyCtxClose_of_live stillLive] at stopped
            cases stopped
      · cases stopped

/-- In every reachable state the handles belong to different opaque slots, each to
an open session of the slot's UUID, and have complete tokens; therefore no assertion
of the service fails at any event. -/
theorem opaque_handles_sound (reached : Reachable (service provider ifc) state) :
    (state.opaqueHandles.map OpaqueHandleNode.keySlot).Nodup ∧
      (∀ entry ∈ state.opaqueHandles,
        (∃ slot handle chanCtx, provider.keySlots[entry.keySlot]? = some slot ∧
          slot.handler = some (.getKeyHandle handle) ∧
          state.conns.ctxs entry.owner = some chanCtx ∧
          state.conns.chans chanCtx.chan = .attached entry.owner ∧
          chanCtx.uuid = slot.uuid) ∧
        ∃ chars, chars.length = 31 ∧ 0 ∉ chars ∧ entry.token.bytes = chars ++ [0]) ∧
      ∀ event, Enabled state event → ∀ assertion,
        dispatchEvent provider ifc state event ≠ .error (.assertFailed assertion) := by
  have invariant := handleInvariant_of_reachable reached
  refine ⟨invariant.exclusive, ?_, ?_⟩
  · intro entry member
    obtain ⟨token, slot, handle, chanCtx, at_, handler, owned, uuid⟩ :=
      invariant.entries entry member
    exact ⟨⟨slot, handle, chanCtx, at_, handler, owned,
        invariant.wellFormed.owned _ _ owned, uuid⟩,
      entry.token.chars, entry.token.length_chars, token.noNul, token.terminated⟩
  · intro event enabled assertion stopped
    cases dispatchEvent_outside invariant enabled stopped

def connecting (pre : State) (chan : Handle) (ctx : Addr) (uuid : Uuid) :
    Step State Event (List Action) :=
  ⟨pre, .port ⟨some chan, uuid, some ctx, true⟩, [.opened chan],
    { pre with
      conns := ((pre.conns.setChan chan .accepted).put ctx ⟨chan, uuid⟩).setChan chan
        (.attached ctx) }⟩

theorem connecting_performs {chan : Handle} {uuid : Uuid}
    (closed : state.conns.chans chan = .closed) (unused : state.conns.ctxs ctx = none)
    (allowed : provider.hwkeyClientAllowed uuid = true) :
    (service provider ifc).Performs (connecting state chan ctx uuid) := by
  refine ⟨⟨?_, ?_⟩, ?_⟩
  · intro handle isChan
    obtain rfl := Option.some.inj isChan
    exact closed
  · intro addr isCtx
    obtain rfl := Option.some.inj isCtx
    exact unused
  · simp [service, connecting, dispatchEvent, hwkeyPortHandler, allowed]

theorem message_performs {handle : Handle} {io : Io} {handled : Handled}
    (attached : state.conns.chans handle = .attached ctx)
    (live : state.conns.ctxs ctx = some chanCtx) (own : chanCtx.chan = handle)
    (result : hwkeyChanHandleMsg provider ifc state ctx chanCtx io = .ok handled)
    (sent : handled.sent = true) :
    (service provider ifc).Performs
      ⟨state, .chan handle ⟨false, true⟩ io, handled.actions, handled.state⟩ := by
  refine ⟨⟨ctx, attached⟩, ?_⟩
  simp [service, dispatchEvent, attached, hwkeyChanHandler, load_of_live live, own, result, sent]

theorem hangUp_performs {handle : Handle} (io : Io)
    (attached : state.conns.chans handle = .attached ctx)
    (live : state.conns.ctxs ctx = some chanCtx) (own : chanCtx.chan = handle) :
    (service provider ifc).Performs
      ⟨state, .chan handle ⟨true, false⟩ io, [.closed handle],
        state.closeSession ctx chanCtx⟩ := by
  refine ⟨⟨ctx, attached⟩, ?_⟩
  subst own
  simp [service, dispatchEvent, attached, hwkeyChanHandler, load_of_live live,
    hwkeyCtxClose_of_live live]

/-- A provider with two opaque slots for handles to the unit test key. -/
def twoSlots : Provider :=
  ⟨[⟨⟨[107, 101, 121], by decide⟩, hwcryptoUnittestUuid,
      some (.getKeyHandle ⟨[hwcryptoUnittestUuid], getUnittestKey32⟩)⟩,
    ⟨⟨[111, 107, 101, 121], by decide⟩, hwcryptoUnittestUuid,
      some (.getKeyHandle ⟨[hwcryptoUnittestUuid], getUnittestKey32⟩)⟩],
    fun uuid => uuid = hwcryptoUnittestUuid, deriveKeyV1⟩

def smallInterface : Interface := ⟨0, 2, 1, 0, 1⟩

/-- The unit test connects on channel 3 and gets the context at address 16. -/
def connectStep : Step State Event (List Action) :=
  connecting (service twoSlots smallInterface).initial 3 16 hwcryptoUnittestUuid

theorem connectStep_performs : (service twoSlots smallInterface).Performs connectStep :=
  connecting_performs rfl rfl (by decide)

theorem connectStep_exec :
    Exec (service twoSlots smallInterface) [connectStep] connectStep.post :=
  Exec.start.step connectStep_performs

end TrustyApp.Hwkey
