import TrustyApp.Hwkey.Responses
import TrustyApp.Library.Noninterference

/-!
# Isolation of clients

The sessions of all clients share the list of handles and the two static buffers.
A set of clients that is granted keys only by its own members cannot tell from any
response, however long the service runs, whether other clients use the service too.
-/

namespace TrustyApp.Hwkey

open Agreement Ipc Noninterference Reactive

/-- Whoever grants a key to a member is a member. -/
def ClosedUnderGrants (provider : Provider) (domain : Uuid → Bool) : Prop :=
  ∀ slot ∈ provider.keySlots, ∀ handle, slot.handler = some (.getKeyHandle handle) →
    ∀ uuid ∈ handle.allowedUuids, domain uuid = true → domain slot.uuid = true

def grantedBy (slots : List KeySlot) (domain : Uuid → Bool) (entry : OpaqueHandleNode) : Bool :=
  match slots[entry.keySlot]? with
  | some slot => domain slot.uuid
  | none => false

/-- The event comes from a member, or from a session of one. -/
def concerns (domain : Uuid → Bool) (state : State) : Event → Bool
  | .port conn => domain conn.peer
  | .chan handle _ _ =>
      match state.conns.chans handle with
      | .attached ctx => (state.conns.ctxs ctx).any fun chanCtx => domain chanCtx.uuid
      | _ => false

variable {provider : Provider} {ifc : Interface} {domain : Uuid → Bool} {env : Env}
  {handles : List OpaqueHandleNode} {ctx : Addr} {uuid : Uuid} {id kbuf : List UInt8}
  {klen : Nat}

def Lookup.keep (keep : OpaqueHandleNode → Bool) (lookup : Lookup) : Lookup :=
  { lookup with handles := lookup.handles.filter keep }

theorem ClosedUnderGrants.grantedBy_of_mayRead (closed : ClosedUnderGrants provider domain)
    (member : domain uuid = true) {entry : OpaqueHandleNode}
    (allowed : mayRead provider.keySlots uuid entry = true) :
    grantedBy provider.keySlots domain entry = true := by
  obtain ⟨handle, data, mayUse⟩ := mayRead_eq_true.mp allowed
  unfold opaqueData at data
  split at data
  next keyId owner handle' at_ =>
    obtain rfl := Option.some.inj data
    simp only [grantedBy, at_]
    exact closed _ (List.mem_of_getElem? at_) _ rfl uuid mayUse member
  next => cases data

theorem ClosedUnderGrants.openHandle_eq (closed : ClosedUnderGrants provider domain)
    (member : domain uuid = true) (id : List UInt8) :
    openHandle provider.keySlots (handles.filter (grantedBy provider.keySlots domain)) uuid id =
      openHandle provider.keySlots handles uuid id :=
  Grants.redeem_filter fun _ _ allowed => closed.grantedBy_of_mayRead member allowed

theorem Granted.unique {slot : Nat} {result other : Except Halt Lookup}
    (granted : Granted env handles ctx slot kbuf klen result)
    (otherGranted : Granted env handles ctx slot kbuf klen other) : result = other := by
  cases granted with
  | taken member same =>
      cases otherGranted with
      | taken => rfl
      | noMemory absent | drawing absent | rngFailed absent | issued absent =>
          exact absurd same (absent _ member)
  | noMemory absent unallocated =>
      cases otherGranted with
      | taken member same => exact absurd same (absent _ member)
      | noMemory => rfl
      | drawing _ allocated | rngFailed _ allocated | issued _ allocated =>
          rw [unallocated] at allocated
          cases allocated
  | drawing absent allocated drawn | rngFailed absent allocated drawn
  | issued absent allocated drawn =>
      cases otherGranted with
      | taken member same => exact absurd same (absent _ member)
      | noMemory _ unallocated =>
          rw [allocated] at unallocated
          cases unallocated
      | drawing _ _ otherDrawn | rngFailed _ _ otherDrawn | issued _ _ otherDrawn =>
          have sameDraw := drawn.symm.trans otherDrawn
          cases sameDraw
          all_goals rfl

theorem Granted.keep {slot : Nat} {keep : OpaqueHandleNode → Bool}
    {result : Except Halt Lookup} (granted : Granted env handles ctx slot kbuf klen result)
    (kept : ∀ entry : OpaqueHandleNode, entry.keySlot = slot → keep entry = true) :
    Granted env (handles.filter keep) ctx slot kbuf klen (result.map (Lookup.keep keep)) := by
  have stillAbsent (absent : ∀ entry ∈ handles, entry.keySlot ≠ slot) :
      ∀ entry ∈ handles.filter keep, entry.keySlot ≠ slot :=
    fun entry member => absent entry (List.mem_of_mem_filter member)
  cases granted with
  | taken member same => exact .taken (List.mem_filter.mpr ⟨member, kept _ same⟩) same
  | noMemory absent unallocated => exact .noMemory (stillAbsent absent) unallocated
  | drawing absent allocated drawn => exact .drawing (stillAbsent absent) allocated drawn
  | rngFailed absent allocated drawn => exact .rngFailed (stillAbsent absent) allocated drawn
  | @issued token absent allocated drawn wellFormed =>
      let entry : OpaqueHandleNode := ⟨slot, ctx, token⟩
      have new : (handles ++ [entry]).filter keep = handles.filter keep ++ [entry] := by
        rw [List.filter_append, List.filter_singleton, kept entry rfl]
        rfl
      simp only [Except.map, Lookup.keep]
      rw [new]
      exact .issued (stillAbsent absent) allocated drawn wellFormed

theorem callHandler_keep {slot : Nat} {handler : Handler} {keep : OpaqueHandleNode → Bool}
    (kept : ∀ entry : OpaqueHandleNode, entry.keySlot = slot → keep entry = true)
    (space : hwkeyOpaqueHandleSize ≤ kbuf.length)
    (wellFormed : ∀ entry ∈ handles, entry.token.WellFormed) :
    callHandler env (handles.filter keep) ctx slot handler kbuf klen =
      (callHandler env handles ctx slot handler kbuf klen).map (Lookup.keep keep) := by
  cases handler with
  | getKeyHandle handle =>
      have granted := callHandler_granted env ctx slot handle klen space wellFormed
      have stillWellFormed : ∀ entry ∈ handles.filter keep, entry.token.WellFormed :=
        fun entry member => wellFormed entry (List.mem_of_mem_filter member)
      have fewer := callHandler_granted env ctx slot handle klen space stillWellFormed
      exact fewer.unique (granted.keep kept)
  | other fn =>
      exact bind_eq_map fun out => rfl

theorem retrieve_keep (slots : List KeySlot) (entry : OpaqueHandleNode)
    (keep : OpaqueHandleNode → Bool) :
    retrieve slots env (handles.filter keep) entry kbuf klen =
      (retrieve slots env handles entry kbuf klen).map (Lookup.keep keep) := by
  unfold retrieve
  cases opaqueData slots entry.keySlot with
  | none => rfl
  | some handle => exact bind_eq_map fun out => rfl

theorem ClosedUnderGrants.answerFor_eq (closed : ClosedUnderGrants provider domain)
    (member : domain uuid = true) (space : hwkeyOpaqueHandleSize ≤ kbuf.length)
    (wellFormed : ∀ entry ∈ handles, entry.token.WellFormed) (id : List UInt8) :
    answerFor provider.keySlots env (handles.filter (grantedBy provider.keySlots domain)) ctx uuid
        id kbuf klen =
      (answerFor provider.keySlots env handles ctx uuid id kbuf klen).map
        (Lookup.keep (grantedBy provider.keySlots domain)) := by
  unfold answerFor
  rw [closed.openHandle_eq member]
  cases named : namedSlot provider.keySlots uuid id with
  | some found =>
      obtain ⟨slot, handler⟩ := found
      obtain ⟨keySlot, at_, -, owner, -⟩ := namedSlot_eq_some named
      apply callHandler_keep _ space wellFormed
      rintro entry rfl
      simp [grantedBy, at_, owner, member]
  | none =>
      cases openHandle provider.keySlots handles uuid id with
      | none => rfl
      | some entry => exact retrieve_keep provider.keySlots entry _

variable {state other : State} {chanCtx : ChanCtx} {io : Io} {request : Request}

def State.keep (keep : OpaqueHandleNode → Bool) (conns : Table ChanCtx) (state : State) : State :=
  { state with conns := conns, opaqueHandles := state.opaqueHandles.filter keep }

def Handled.keep (keep : OpaqueHandleNode → Bool) (conns : Table ChanCtx) (handled : Handled) :
    Handled :=
  { handled with state := handled.state.keep keep conns }

theorem Prepared.keep (prepared : Prepared provider state) (keep : OpaqueHandleNode → Bool)
    (conns : Table ChanCtx) : Prepared provider (state.keep keep conns) where
  sound entry member := prepared.sound entry (List.mem_of_mem_filter member)
  reqData := prepared.reqData
  keyData := prepared.keyData

theorem respond_keep (keep : OpaqueHandleNode → Bool) (conns : Table ChanCtx) (found : Lookup) :
    respond ifc (state.keep keep conns) chanCtx request io.sent (found.keep keep) =
      (respond ifc state chanCtx request io.sent found).map (Handled.keep keep conns) :=
  bind_eq_map fun _ => rfl

theorem derive_keep (keep : OpaqueHandleNode → Bool) (conns : Table ChanCtx) (ikm : List UInt8) :
    hwkeyHandleDeriveKeyCmd provider ifc (state.keep keep conns) chanCtx request ikm io =
      (hwkeyHandleDeriveKeyCmd provider ifc state chanCtx request ikm io).map
        (Handled.keep keep conns) :=
  bind_eq_map fun _ => bind_eq_map fun _ => rfl

/-- Neither the sessions nor the handles of others influence how a message of a member
is handled. -/
theorem ClosedUnderGrants.hwkeyChanHandleMsg_eq (closed : ClosedUnderGrants provider domain)
    (member : domain chanCtx.uuid = true) (prepared : Prepared provider state)
    (conns : Table ChanCtx) :
    hwkeyChanHandleMsg provider ifc (state.keep (grantedBy provider.keySlots domain) conns) ctx
        chanCtx io =
      (hwkeyChanHandleMsg provider ifc state ctx chanCtx io).map
        (Handled.keep (grantedBy provider.keySlots domain) conns) := by
  cases received : io.recv with
  | none =>
      simp only [hwkeyChanHandleMsg, received]
      rfl
  | some request =>
      by_cases get : request.cmd = ifc.getKeyslot
      · rw [getKeyslot_eq prepared received get, getKeyslot_eq (prepared.keep _ conns) received get]
        simp only [State.keep]
        rw [closed.answerFor_eq member prepared.space
          (fun entry member => (prepared.sound entry member).1) request.id]
        exact map_bind_eq fun found => respond_keep _ conns found
      · simp only [hwkeyChanHandleMsg, received, get, if_false]
        split
        · let received' : State := { state with reqData := receiveInto state.reqData request }
          let ikm := (receiveInto state.reqData request).take request.payload.length
          let keep := grantedBy provider.keySlots domain
          have derived : hwkeyHandleDeriveKeyCmd provider ifc (received'.keep keep conns) chanCtx
              request ikm io = (hwkeyHandleDeriveKeyCmd provider ifc received' chanCtx request ikm
                io).map (Handled.keep keep conns) := derive_keep keep conns ikm
          exact (congrArg (· >>= _) derived).trans (map_bind_eq fun handled => rfl)
        · exact bind_eq_map fun rsp => rfl

/-- The state of a run, and of the run in which only members use the service. -/
structure Alike (provider : Provider) (domain : Uuid → Bool) (state other : State) : Prop where
  conns : Table.Restricts (fun chanCtx => domain chanCtx.uuid) state.conns other.conns
  handles : other.opaqueHandles =
    state.opaqueHandles.filter (grantedBy provider.keySlots domain)

structure Handled.Alike (provider : Provider) (domain : Uuid → Bool) (handled other : Handled) :
    Prop where
  actions : other.actions = handled.actions
  sent : other.sent = handled.sent
  state : Hwkey.Alike provider domain handled.state other.state

/-- A message of a member does the same in both runs, whatever the buffers hold. -/
theorem Alike.message (alike : Alike provider domain state other)
    (fromRepository : FromRepository provider) (closed : ClosedUnderGrants provider domain)
    (member : domain chanCtx.uuid = true) (prepared : Prepared provider state)
    (otherPrepared : Prepared provider other) {handled : Handled}
    (result : hwkeyChanHandleMsg provider ifc state ctx chanCtx io = .ok handled) :
    ∃ otherHandled, hwkeyChanHandleMsg provider ifc other ctx chanCtx io = .ok otherHandled ∧
      handled.Alike provider domain otherHandled := by
  let kept := state.keep (grantedBy provider.keySlots domain) other.conns
  let buffers : Buffers :=
    ⟨state.reqData, state.keyData, prepared.reqData, prepared.keyData⟩
  let otherBuffers : Buffers :=
    ⟨other.reqData, other.keyData, otherPrepared.reqData, otherPrepared.keyData⟩
  have same : kept.withBuffers otherBuffers = other := by
    simp only [kept, State.withBuffers, State.keep, otherBuffers, ← alike.handles]
  have full : hwkeyChanHandleMsg provider ifc kept ctx chanCtx io =
      .ok (handled.keep (grantedBy provider.keySlots domain) other.conns) := by
    rw [closed.hwkeyChanHandleMsg_eq member prepared, result]
    rfl
  have agree : Agree Handled.Same (hwkeyChanHandleMsg provider ifc kept ctx chanCtx io)
      (hwkeyChanHandleMsg provider ifc other ctx chanCtx io) := by
    rw [← same]
    exact hwkeyChanHandleMsg_agree fromRepository (prepared.keep _ _) buffers otherBuffers
  rw [full] at agree
  generalize otherResult : hwkeyChanHandleMsg provider ifc other ctx chanCtx io = outcome at agree
  cases agree with
  | @done _ otherHandled view =>
      simp only [Handled.Same, Handled.view, Handled.keep, State.keep, Prod.mk.injEq] at view
      obtain ⟨actions, sent, handles, conns⟩ := view
      have replied := hwkeyChanHandleMsg_replied prepared result
      refine ⟨otherHandled, rfl, actions.symm, sent.symm, ?_, handles.symm⟩
      rw [← conns, replied.conns]
      exact alike.conns

section Invariant

variable (invariant : HandleInvariant provider state)
  (otherInvariant : HandleInvariant provider other)

include invariant in
theorem HandleInvariant.grantedBy_eq {entry : OpaqueHandleNode}
    (member : entry ∈ state.opaqueHandles) (owned : state.conns.ctxs entry.owner = some chanCtx) :
    grantedBy provider.keySlots domain entry = domain chanCtx.uuid := by
  obtain ⟨slot, handle, owner, at_, -, live, uuid⟩ := (invariant.entries entry member).held
  obtain rfl := Option.some.inj (owned.symm.trans live)
  simp [grantedBy, at_, uuid]

theorem Alike.closeSession (alike : Alike provider domain state other) :
    Alike provider domain (state.closeSession ctx chanCtx) (other.closeSession ctx chanCtx) where
  conns := alike.conns.shutdown chanCtx.chan ctx
  handles := by
    simp only [State.closeSession, deleteHandlesOf_eq_revoke, Grants.revoke, alike.handles,
      List.filter_filter, Bool.and_comm]

include invariant otherInvariant in
theorem Alike.closeSession_dropped (alike : Alike provider domain state other)
    (live : state.conns.ctxs ctx = some chanCtx) (outsider : domain chanCtx.uuid = false) :
    Alike provider domain (state.closeSession ctx chanCtx) other where
  conns := alike.conns.shutdown_dropped invariant.wellFormed otherInvariant.wellFormed live outsider
  handles := by
    rw [alike.handles, State.closeSession, deleteHandlesOf_eq_revoke, Grants.revoke,
      List.filter_filter]
    apply List.filter_congr
    intro entry member
    by_cases own : entry.owner = ctx
    · subst own
      simp [invariant.grantedBy_eq member live, outsider]
    · simp [own]

end Invariant

def portOutcome (provider : Provider) (state : State) (conn : Connect Uuid) :
    State × List Action :=
  match conn.chan with
  | none => (state, [])
  | some chan =>
      match if provider.hwkeyClientAllowed conn.peer then conn.established else none with
      | some (opened, ctx) => (state.openSession ctx ⟨opened, conn.peer⟩, [.opened opened])
      | none => (state, [.closed chan])

theorem hwkeyPortHandler_eq {conn : Connect Uuid} (invariant : HandleInvariant provider state)
    (offered : conn.Offered state.conns) :
    hwkeyPortHandler provider state conn = .ok (portOutcome provider state conn) := by
  unfold hwkeyPortHandler portOutcome Connect.established
  cases chanIs : conn.chan with
  | none => rfl
  | some chan =>
      have undone : (state.conns.setChan chan .accepted).close chan = state.conns :=
        Table.close_setChan_of_closed (offered.chan chan chanIs)
      cases allowed : provider.hwkeyClientAllowed conn.peer with
      | false => simp [undone]
      | true =>
          cases ctxIs : conn.ctx with
          | none => simp [undone]
          | some ctx =>
              have unused := offered.ctx ctx ctxIs
              cases set : conn.cookieSet with
              | true => simp [State.openSession, Table.setChan, Table.put]
              | false =>
                  have made : (((state.conns.setChan chan .accepted).put ctx
                      ⟨chan, conn.peer⟩).close chan).free ctx = state.conns :=
                    Table.undo_connect (offered.chan chan chanIs) unused
                  let allocated : State :=
                    { state with
                      conns := (state.conns.setChan chan .accepted).put ctx ⟨chan, conn.peer⟩ }
                  have closes : hwkeyCtxClose allocated ctx = .ok (state, [.closed chan]) := by
                    rw [hwkeyCtxClose_of_live (Table.put_ctxs_self _ _ _)]
                    simp [State.closeSession, allocated, made,
                      invariant.deleteHandlesOf_unused unused]
                  simpa using closes

theorem dispatchEvent_chan_eq {bits : Bits} (invariant : HandleInvariant provider state)
    (live : state.conns.ctxs ctx = some chanCtx) :
    dispatchEvent provider ifc state (.chan chanCtx.chan bits io) =
      if bits.hup then .ok (state.closeSession ctx chanCtx, [.closed chanCtx.chan])
      else if bits.msg then do
        let handled ← hwkeyChanHandleMsg provider ifc state ctx chanCtx io
        if handled.sent then .ok (handled.state, handled.actions)
        else .ok (handled.state.closeSession ctx chanCtx, .closed chanCtx.chan :: handled.actions)
      else .ok (state, []) := by
  simp only [dispatchEvent, invariant.wellFormed.owned _ _ live, hwkeyChanHandler,
    load_of_live live, ok_bind, ne_eq, not_true_eq_false, if_false, hwkeyCtxClose_of_live live]
  split
  · rfl
  split
  · cases answered : hwkeyChanHandleMsg provider ifc state ctx chanCtx io with
    | error halt => rfl
    | ok handled =>
        have replied := hwkeyChanHandleMsg_replied invariant.prepared answered
        have stillLive : handled.state.conns.ctxs ctx = some chanCtx := by
          rw [replied.conns, live]
        simp [hwkeyCtxClose_of_live stillLive]
  · rfl

theorem Alike.port {conn : Connect Uuid} (alike : Alike provider domain state other)
    (member : domain conn.peer = true) :
    Alike provider domain (portOutcome provider state conn).1
        (portOutcome provider other conn).1 ∧
      (portOutcome provider other conn).2 = (portOutcome provider state conn).2 := by
  unfold portOutcome
  cases conn.chan with
  | none => exact ⟨alike, rfl⟩
  | some chan =>
      simp only
      split
      · exact ⟨⟨alike.conns.connect member, alike.handles⟩, rfl⟩
      · exact ⟨alike, rfl⟩

theorem Alike.offered {conn : Connect Uuid} (alike : Alike provider domain state other)
    (offered : conn.Offered state.conns) : conn.Offered other.conns where
  chan h chanIs := alike.conns.closed (offered.chan h chanIs)
  ctx a ctxIs := alike.conns.unused (offered.ctx a ctxIs)

theorem concerns_chan {bits : Bits} (invariant : HandleInvariant provider state)
    (live : state.conns.ctxs ctx = some chanCtx) :
    concerns domain state (.chan chanCtx.chan bits io) = domain chanCtx.uuid := by
  simp [concerns, invariant.wellFormed.owned _ _ live, live]

/-- A handle that a message of somebody else adds is for a slot of somebody else. -/
theorem HandleChange.filter_eq {handles' : List OpaqueHandleNode} {actions : List Action}
    (change : HandleChange provider handles ctx chanCtx handles' actions)
    (outsider : domain chanCtx.uuid = false) :
    handles'.filter (grantedBy provider.keySlots domain) =
      handles.filter (grantedBy provider.keySlots domain) := by
  cases change with
  | kept => rfl
  | @added id slot handle token rsp sent named =>
      obtain ⟨keySlot, at_, -, owner, -⟩ := namedSlot_eq_some named
      have dropped : grantedBy provider.keySlots domain ⟨slot, ctx, token⟩ = false := by
        simp [grantedBy, at_, owner, outsider]
      simp [List.filter_append, dropped]

theorem Alike.message_dropped (alike : Alike provider domain state other)
    (outsider : domain chanCtx.uuid = false) {handled : Handled}
    (replied : Replied provider state ctx chanCtx handled) :
    Alike provider domain handled.state other where
  conns := by
    rw [replied.conns]
    exact alike.conns
  handles := by rw [replied.handles.filter_eq outsider, alike.handles]

variable {step : Step State Event (List Action)}

theorem Alike.unseen (alike : Alike provider domain step.pre other)
    (reached : Reachable (service provider ifc) step.pre)
    (otherReached : Reachable (service provider ifc) other)
    (performs : (service provider ifc).Performs step)
    (unseen : concerns domain step.pre step.event = false) :
    Alike provider domain step.post other := by
  have invariant := handleInvariant_of_reachable reached
  have otherInvariant := handleInvariant_of_reachable otherReached
  obtain ⟨pre, event, output, post⟩ := step
  have effect := effect_of_performs reached performs
  simp only at alike invariant unseen effect ⊢
  cases effect with
  | refused | idle => exact alike
  | opened notOpen unused => exact ⟨alike.conns.connect_dropped notOpen unused unseen, alike.handles⟩
  | hungUp _ live =>
      rw [concerns_chan invariant live] at unseen
      exact alike.closeSession_dropped invariant otherInvariant live unseen
  | replied _ _ live answered =>
      rw [concerns_chan invariant live] at unseen
      exact alike.message_dropped unseen (hwkeyChanHandleMsg_replied invariant.prepared answered)
  | dropped _ _ live answered =>
      rw [concerns_chan invariant live] at unseen
      have replied := hwkeyChanHandleMsg_replied invariant.prepared answered
      apply (alike.message_dropped unseen replied).closeSession_dropped
        (invariant.replied live replied) otherInvariant _ unseen
      rw [replied.conns, live]

section Seen

variable {post : State} {output : List Action}
  (alike : Alike provider domain state other) (invariant : HandleInvariant provider state)
  (otherInvariant : HandleInvariant provider other)
include alike invariant otherInvariant

theorem Alike.dispatch_port {conn : Connect Uuid} (offered : conn.Offered state.conns)
    (member : domain conn.peer = true)
    (handled : dispatchEvent provider ifc state (.port conn) = .ok (post, output)) :
    ∃ otherPost, dispatchEvent provider ifc other (.port conn) = .ok (otherPost, output) ∧
      Alike provider domain post otherPost := by
  obtain ⟨stillAlike, sameOutput⟩ := alike.port member
  rw [dispatchEvent, hwkeyPortHandler_eq invariant offered] at handled
  rw [Except.ok.inj handled] at stillAlike sameOutput
  refine ⟨_, ?_, stillAlike⟩
  rw [dispatchEvent, hwkeyPortHandler_eq otherInvariant (alike.offered offered)]
  exact congrArg Except.ok (Prod.ext rfl sameOutput)

theorem Alike.dispatch_chan {bits : Bits} (fromRepository : FromRepository provider)
    (closed : ClosedUnderGrants provider domain) (live : state.conns.ctxs ctx = some chanCtx)
    (member : domain chanCtx.uuid = true)
    (handled : dispatchEvent provider ifc state (.chan chanCtx.chan bits io) =
      .ok (post, output)) :
    ∃ otherPost,
      dispatchEvent provider ifc other (.chan chanCtx.chan bits io) = .ok (otherPost, output) ∧
      Alike provider domain post otherPost := by
  rw [dispatchEvent_chan_eq invariant live] at handled
  rw [dispatchEvent_chan_eq otherInvariant (alike.conns.live live member)]
  cases hup : bits.hup with
  | true =>
      simp only [hup, if_true, Except.ok.injEq, Prod.mk.injEq] at handled
      obtain ⟨rfl, rfl⟩ := handled
      exact ⟨_, by simp only [if_true], alike.closeSession⟩
  | false =>
      cases msg : bits.msg with
      | false =>
          simp only [hup, msg, Bool.false_eq_true, if_false, Except.ok.injEq,
            Prod.mk.injEq] at handled
          obtain ⟨rfl, rfl⟩ := handled
          exact ⟨other, by simp only [Bool.false_eq_true, if_false], alike⟩
      | true =>
          simp only [hup, msg, Bool.false_eq_true, if_false, if_true] at handled ⊢
          obtain ⟨reply, answered, handled⟩ := bind_eq_ok.mp handled
          obtain ⟨otherReply, otherAnswered, same⟩ := alike.message fromRepository closed member
            invariant.prepared otherInvariant.prepared answered
          rw [otherAnswered, ok_bind, same.sent, same.actions]
          split at handled
          next sent =>
            obtain ⟨rfl, rfl⟩ := Prod.mk.inj (Except.ok.inj handled)
            exact ⟨_, if_pos sent, same.state⟩
          next unsent =>
            obtain ⟨rfl, rfl⟩ := Prod.mk.inj (Except.ok.inj handled)
            exact ⟨_, if_neg unsent, same.state.closeSession⟩

theorem Alike.dispatch {event : Event} (fromRepository : FromRepository provider)
    (closed : ClosedUnderGrants provider domain) (enabled : Enabled state event)
    (seen : concerns domain state event = true)
    (handled : dispatchEvent provider ifc state event = .ok (post, output)) :
    Enabled other event ∧ concerns domain other event = true ∧
      ∃ otherPost, dispatchEvent provider ifc other event = .ok (otherPost, output) ∧
        Alike provider domain post otherPost := by
  cases event with
  | port conn =>
      exact ⟨alike.offered enabled, seen,
        alike.dispatch_port invariant otherInvariant enabled seen handled⟩
  | chan handle bits io =>
      obtain ⟨ctx, attached⟩ := enabled
      obtain ⟨chanCtx, live, rfl⟩ := invariant.wellFormed.attached handle ctx attached
      rw [concerns_chan invariant live] at seen
      have otherLive := alike.conns.live live seen
      refine ⟨⟨ctx, otherInvariant.wellFormed.owned _ _ otherLive⟩, ?_, ?_⟩
      · rw [concerns_chan otherInvariant otherLive, seen]
      · exact alike.dispatch_chan invariant otherInvariant fromRepository closed live seen handled

end Seen

theorem unwinding (fromRepository : FromRepository provider)
    (closed : ClosedUnderGrants provider domain) :
    Unwinding (service provider ifc) (concerns domain) (Alike provider domain) where
  initially := ⟨.empty, rfl⟩
  respects reached otherReached alike performs unseen :=
    alike.unseen reached otherReached performs unseen
  consistent reached otherReached alike performs seen := by
    obtain ⟨enabled, stillSeen, post, handled, stillAlike⟩ := alike.dispatch
      (handleInvariant_of_reachable reached) (handleInvariant_of_reachable otherReached)
      fromRepository closed performs.1 seen performs.2
    exact ⟨post, ⟨enabled, handled⟩, stillSeen, stillAlike⟩

variable {history : List (Step State Event (List Action))}

/-- Whatever other clients did in a run of the service, the members of a set that is
closed under grants got the responses that they get in the run that consists of their
own connections and messages alone; and the handles for their slots are the same. -/
theorem clients_isolated (fromRepository : FromRepository provider)
    (closed : ClosedUnderGrants provider domain)
    (run : Exec (service provider ifc) history state) :
    ∃ purged other, Exec (service provider ifc) purged other ∧
      transcript purged = transcript (observed (concerns domain) history) ∧
      observed (concerns domain) purged = purged ∧
      other.opaqueHandles = state.opaqueHandles.filter (grantedBy provider.keySlots domain) := by
  obtain ⟨purged, other, purgedRun, alike, same, onlyMembers⟩ :=
    (unwinding fromRepository closed).purge run
  exact ⟨purged, other, purgedRun, same, onlyMembers, alike.handles⟩

/-- The grants of the fake provider: the unit test may use its own keys, and HWAES those
of the app loader and of its own unit test. -/
theorem keys_grants (cfg : BuildConfig) {slot : KeySlot} (member : slot ∈ keys cfg)
    {handle : OpaqueHandleData} (handler : slot.handler = some (.getKeyHandle handle))
    (allowed : uuid ∈ handle.allowedUuids) :
    uuid = slot.uuid ∨
      uuid = hwaesUuid ∧ (slot.uuid = apploaderUuid ∨ slot.uuid = hwaesUnittestUuid) := by
  have encrypted (keyId : CString) (key : List UInt8)
      (handler : (apploaderEncryptSlot keyId key).handler = some (.getKeyHandle handle)) :
      uuid = hwaesUuid := by
    obtain rfl := Handler.getKeyHandle.inj (Option.some.inj handler)
    simpa [apploaderAllowedOpaqueKeyUuids] using allowed
  simp only [keys, List.mem_append, List.mem_cons, List.not_mem_nil, or_false,
    Option.mem_toList, Option.map_eq_some_iff] at member
  rcases member with ((((device | ⟨key, -, rfl⟩) | ⟨key, -, rfl⟩) | ⟨key, -, rfl⟩) |
    ⟨key, -, rfl⟩) | unittest
  · rcases device with rfl | rfl
    · cases handler
    · cases handler
  · cases handler
  · cases handler
  · exact .inr ⟨encrypted _ key handler, .inl rfl⟩
  · exact .inr ⟨encrypted _ key handler, .inl rfl⟩
  · split at unittest
    · simp only [unittestSlots, List.mem_cons, List.not_mem_nil, or_false] at unittest
      rcases unittest with rfl | rfl | rfl | rfl | rfl | rfl | rfl
      · cases handler
      · cases handler
      · obtain rfl := Handler.getKeyHandle.inj (Option.some.inj handler)
        exact .inl (List.mem_singleton.mp allowed)
      · obtain rfl := Handler.getKeyHandle.inj (Option.some.inj handler)
        exact .inl (List.mem_singleton.mp allowed)
      · obtain rfl := Handler.getKeyHandle.inj (Option.some.inj handler)
        cases allowed
      · obtain rfl := Handler.getKeyHandle.inj (Option.some.inj handler)
        exact .inl (List.mem_singleton.mp allowed)
      · obtain rfl := Handler.getKeyHandle.inj (Option.some.inj handler)
        exact .inr ⟨List.mem_singleton.mp allowed, .inr rfl⟩
    · cases unittest

/-- With the fake provider every set of clients is closed under grants that has the app
loader and the unit test of HWAES with HWAES. -/
theorem fakeProvider_closedUnderGrants (cfg : BuildConfig)
    (withHwaes : domain hwaesUuid = true →
      domain apploaderUuid = true ∧ domain hwaesUnittestUuid = true) :
    ClosedUnderGrants (fakeProvider cfg) domain := by
  intro slot member handle handler uuid allowed inDomain
  rcases keys_grants cfg member handler allowed with rfl | ⟨rfl, loader | unittest⟩
  · exact inDomain
  · rw [loader]
    exact (withHwaes inDomain).1
  · rw [unittest]
    exact (withHwaes inDomain).2

def secondClientStep (provider : Provider) (ifc : Interface) (first second : Uuid) :
    Step State Event (List Action) :=
  connecting (clientStep provider ifc first).post 5 32 second

theorem secondClientStep_exec {first second : Uuid}
    (allowed : provider.hwkeyClientAllowed first = true)
    (secondAllowed : provider.hwkeyClientAllowed second = true) :
    Exec (service provider ifc)
      [secondClientStep provider ifc first second, clientStep provider ifc first]
      (secondClientStep provider ifc first second).post := by
  have before : Exec (service provider ifc) [clientStep provider ifc first]
      (secondClientStep provider ifc first second).pre := clientStep_exec allowed
  exact before.step (connecting_performs rfl rfl secondAllowed)

theorem bothDerive_exec :
    ∃ storage keymint : Step State Event (List Action),
      Exec (service (fakeProvider plainBuild) smallInterface)
        [keymint, storage, secondClientStep (fakeProvider plainBuild) smallInterface ssUuid kmUuid,
          clientStep (fakeProvider plainBuild) smallInterface ssUuid] keymint.post ∧
      storage.event = .chan 3 ⟨false, true⟩ deriveIo ∧
      storage.pre.conns.chans 3 = .attached 16 ∧
      storage.pre.conns.ctxs 16 = some ⟨3, ssUuid⟩ ∧
      keymint.event = .chan 5 ⟨false, true⟩ deriveIo ∧
      keymint.pre.conns.chans 5 = .attached 32 ∧
      keymint.pre.conns.ctxs 32 = some ⟨5, kmUuid⟩ := by
  have run := @secondClientStep_exec (fakeProvider plainBuild) smallInterface ssUuid kmUuid
    (show (fakeProvider plainBuild).hwkeyClientAllowed ssUuid = true by decide)
    (show (fakeProvider plainBuild).hwkeyClientAllowed kmUuid = true by decide)
  obtain ⟨reqData, keyData, rsp, first, -⟩ := @sampleDerive_answered _ 16 ⟨3, ssUuid⟩
    (handleInvariant_of_reachable run.reachable).prepared
  have derived := run.step (message_performs rfl rfl rfl first rfl)
  obtain ⟨reqData', keyData', rsp', second, -⟩ := @sampleDerive_answered _ 32 ⟨5, kmUuid⟩
    (handleInvariant_of_reachable derived.reachable).prepared
  exact ⟨_, _, derived.step (message_performs rfl rfl rfl second rfl), rfl, rfl, rfl, rfl, rfl,
    rfl⟩

/-- Keymint sees a service that it has to itself, although secure storage connects before
it and derives a key in between. -/
theorem clients_isolated_keymint :
    ∃ (storage keymint : Step State Event (List Action)) (purged : _) (other : State),
      Exec (service (fakeProvider plainBuild) smallInterface)
        [keymint, storage, secondClientStep (fakeProvider plainBuild) smallInterface ssUuid kmUuid,
          clientStep (fakeProvider plainBuild) smallInterface ssUuid] keymint.post ∧
      storage.event = .chan 3 ⟨false, true⟩ deriveIo ∧
      Exec (service (fakeProvider plainBuild) smallInterface) purged other ∧
      transcript purged = [(.chan 5 ⟨false, true⟩ deriveIo, keymint.output),
        (.port ⟨some 5, kmUuid, some 32, true⟩, [.opened 5])] := by
  obtain ⟨storage, keymint, run, storageEvent, storageChan, storageCtx, keymintEvent,
    keymintChan, keymintCtx⟩ := bothDerive_exec
  have closed : ClosedUnderGrants (fakeProvider plainBuild) fun uuid => uuid = kmUuid :=
    fakeProvider_closedUnderGrants plainBuild fun isKm => absurd isKm (by decide)
  obtain ⟨purged, other, purgedRun, same, -⟩ :=
    clients_isolated (fakeProvider_fromRepository plainBuild) closed run
  have ssUnseen : ¬ ssUuid = kmUuid := by decide
  refine ⟨storage, keymint, purged, other, run, storageEvent, purgedRun, same.trans ?_⟩
  simp [observed, transcript, concerns, clientStep, secondClientStep, connecting, ssUnseen,
    storageEvent, storageChan, storageCtx, keymintEvent, keymintChan, keymintCtx]

end TrustyApp.Hwkey
