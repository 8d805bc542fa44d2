import TrustyApp.Hwkey.KeyServer
import TrustyApp.Hwkey.Responses
import TrustyApp.Library.Refinement

/-!
# The HWKEY service is a key server

Step by step the service and the key server do the same, whatever earlier requests have
left in the buffers, and wherever contexts and entries are allocated.
-/

namespace TrustyApp.Hwkey

open Agreement Ipc Reactive Refinement

variable {provider : Provider} {ifc : Interface} {state : State} {server : KeyServer}
  {conns : Table ChanCtx} {ctx : Addr} {chanCtx : ChanCtx}

def sessionOf (conns : Table ChanCtx) (chan : Handle) : Option Uuid :=
  match conns.chans chan with
  | .attached ctx => (conns.ctxs ctx).map ChanCtx.uuid
  | _ => none

/-- An entry of the list is a grant. -/
structure Corresponds (conns : Table ChanCtx) (entry : OpaqueHandleNode) (grant : Grant) :
    Prop where
  slot : grant.slot = entry.keySlot
  token : grant.token = entry.token
  holder : (conns.ctxs entry.owner).map ChanCtx.chan = some grant.holder

structure Shows (state : State) (server : KeyServer) : Prop where
  sessions : server.sessions = sessionOf state.conns
  grants : List.Forall₂ (Corresponds state.conns) state.opaqueHandles server.grants

structure Realizes (provider : Provider) (state : State) (server : KeyServer) : Prop where
  invariant : HandleInvariant provider state
  shows : Shows state server

theorem sessionOf_live (wellFormed : conns.WellFormed ChanCtx.chan)
    (live : conns.ctxs ctx = some chanCtx) : sessionOf conns chanCtx.chan = some chanCtx.uuid := by
  simp [sessionOf, wellFormed.owned ctx chanCtx live, live]

theorem sessionOf_closed {chan : Handle} (closed : conns.chans chan = .closed) :
    sessionOf conns chan = none := by simp [sessionOf, closed]

theorem sessionOf_connect (wellFormed : conns.WellFormed ChanCtx.chan)
    (unused : conns.ctxs ctx = none) :
    sessionOf ((conns.put ctx chanCtx).setChan chanCtx.chan (.attached ctx)) =
      Function.update (sessionOf conns) chanCtx.chan (some chanCtx.uuid) := by
  funext chan
  by_cases same : chan = chanCtx.chan
  · subst same
    simp [sessionOf]
  · rw [Function.update_of_ne same, sessionOf, Table.setChan_chans_of_ne _ _ same, sessionOf,
      Table.put_chans, Table.setChan_ctxs]
    cases attached : conns.chans chan with
    | closed | accepted => rfl
    | attached other =>
        obtain ⟨owner, live, -⟩ := wellFormed.attached chan other attached
        have ne : other ≠ ctx := by
          rintro rfl
          rw [unused] at live
          cases live
        simp only [Table.put_ctxs_of_ne _ _ ne]

theorem sessionOf_shutdown (wellFormed : conns.WellFormed ChanCtx.chan)
    (live : conns.ctxs ctx = some chanCtx) :
    sessionOf ((conns.close chanCtx.chan).free ctx) =
      Function.update (sessionOf conns) chanCtx.chan none := by
  funext chan
  by_cases same : chan = chanCtx.chan
  · subst same
    simp [sessionOf]
  · rw [Function.update_of_ne same, sessionOf, Table.free_chans,
      Table.close_chans_of_ne _ same, sessionOf]
    cases attached : conns.chans chan with
    | closed | accepted => rfl
    | attached other =>
        obtain ⟨owner, otherLive, rfl⟩ := wellFormed.attached chan other attached
        have ne : other ≠ ctx := by
          rintro rfl
          rw [live] at otherLive
          exact same (congrArg ChanCtx.chan (Option.some.inj otherLive)).symm
        simp only [Table.free_ctxs_of_ne _ ne, Table.close_ctxs]

/-- What happens to contexts that own no handles does not matter. -/
theorem corresponds_of_agree {handles : List OpaqueHandleNode} {grants : List Grant}
    {conns' : Table ChanCtx} (corresponds : List.Forall₂ (Corresponds conns) handles grants)
    (agree : ∀ entry ∈ handles, conns'.ctxs entry.owner = conns.ctxs entry.owner) :
    List.Forall₂ (Corresponds conns') handles grants := by
  induction corresponds with
  | nil => exact .nil
  | @cons entry grant handles grants first rest inductionHypothesis =>
      have same := agree entry List.mem_cons_self
      have later := inductionHypothesis fun other member =>
        agree other (List.mem_cons_of_mem entry member)
      exact .cons ⟨first.slot, first.token, same ▸ first.holder⟩ later

theorem Realizes.openSession (realizes : Realizes provider state server) (chanCtx : ChanCtx)
    (unused : state.conns.ctxs ctx = none) :
    Shows (state.openSession ctx chanCtx) (server.open chanCtx.chan chanCtx.uuid) where
  sessions := by
    rw [KeyServer.open, realizes.shows.sessions]
    exact (sessionOf_connect realizes.invariant.wellFormed unused).symm
  grants := by
    apply corresponds_of_agree realizes.shows.grants
    intro entry member
    obtain ⟨-, -, owner, -, -, owned, -⟩ := (realizes.invariant.entries entry member).held
    have ne : entry.owner ≠ ctx := by
      rintro rfl
      rw [unused] at owned
      cases owned
    exact Table.put_ctxs_of_ne _ _ ne

/-- Deleting the handles of a context revokes the grants of its session. -/
theorem Realizes.closeSession (realizes : Realizes provider state server)
    (live : state.conns.ctxs ctx = some chanCtx) :
    Shows (state.closeSession ctx chanCtx) (server.close chanCtx.chan) where
  sessions := by
    rw [KeyServer.close, realizes.shows.sessions]
    exact (sessionOf_shutdown realizes.invariant.wellFormed live).symm
  grants := by
    have wellFormed := realizes.invariant.wellFormed
    rw [State.closeSession, deleteHandlesOf_eq_revoke]
    have kept : List.Forall₂ (Corresponds state.conns)
        (Grants.revoke OpaqueHandleNode.owner ctx state.opaqueHandles)
        (Grants.revoke Grant.holder chanCtx.chan server.grants) := by
      refine List.rel_filter ?_ realizes.shows.grants
      intro entry grant corresponds
      obtain ⟨owner, owned, chan⟩ := Option.map_eq_some_iff.mp corresponds.holder
      simp only [ne_eq, decide_not, Bool.not_eq_true', decide_eq_false_iff_not, not_iff_not]
      constructor
      · rintro rfl
        rw [live] at owned
        rw [← chan, Option.some.inj owned]
      · intro same
        exact wellFormed.unique live owned (chan.trans same)
    apply corresponds_of_agree kept
    intro entry member
    exact Table.free_ctxs_of_ne _ (Grants.mem_revoke.mp member).2

section Lookup

variable {env : Env} {handles : List OpaqueHandleNode} {slot : Nat} {uuid : Uuid}
  {id kbuf : List UInt8}

/-- What rejected draws have left in the token does not matter. -/
theorem drawToken_eq_firstToken {token : AccessToken}
    (draws : List (Except KernelError RandomBuf))
    (terminated : token.bytes.drop (hwkeyOpaqueHandleSize - 1) = [0]) :
    drawToken draws token = firstToken draws := by
  induction draws generalizing token with
  | nil => rfl
  | cons draw draws inductionHypothesis =>
      cases draw with
      | error rc => rfl
      | ok buf =>
          rw [drawToken, firstToken]
          by_cases sufficient : buf.Sufficient
          · rw [dif_pos sufficient, fillToken_sufficient sufficient terminated]
            exact if_pos rfl
          · rw [dif_neg sufficient, ← inductionHypothesis (fillToken_terminated terminated)]
            exact if_neg (mt (fillToken_full_iff buf token).mp sufficient)

structure Serves (conns : Table ChanCtx) (found : Lookup) (served : Served) : Prop where
  reply : served.reply = ⟨found.out.status, found.out.kbuf.take found.out.klen⟩
  grants : List.Forall₂ (Corresponds conns) found.handles served.grants
  actions : found.actions = served.actions

theorem any_slot_iff (slot : Nat)
    (corresponds : List.Forall₂ (Corresponds conns) handles server.grants) :
    server.grants.any (·.slot = slot) = true ↔ ∃ entry ∈ handles, entry.keySlot = slot := by
  generalize server.grants = grants at corresponds
  induction corresponds with
  | nil => simp
  | @cons entry grant handles grants first rest inductionHypothesis =>
      rw [List.any_cons, Bool.or_eq_true, inductionHypothesis, List.exists_mem_cons_iff,
        decide_eq_true_iff, first.slot]

theorem grant_agrees (handle : OpaqueHandleData)
    (corresponds : List.Forall₂ (Corresponds conns) handles server.grants)
    (live : conns.ctxs ctx = some chanCtx) (space : hwkeyOpaqueHandleSize ≤ kbuf.length)
    (wellFormed : ∀ entry ∈ handles, entry.token.WellFormed) :
    Agrees (Serves conns) (callHandler env handles ctx slot (.getKeyHandle handle) kbuf 0)
      (server.grant chanCtx.chan slot env) := by
  have granted := callHandler_granted env ctx slot handle 0 space wellFormed
  have absentIff := any_slot_iff slot corresponds
  have drawn := drawToken_eq_firstToken env.draws empty_terminated
  have free (absent : ∀ entry ∈ handles, entry.keySlot ≠ slot) :
      ¬ server.grants.any (·.slot = slot) = true := by
    rw [absentIff]
    rintro ⟨entry, member, same⟩
    exact absent entry member same
  generalize callHandler env handles ctx slot _ kbuf 0 = result at granted ⊢
  cases granted with
  | taken member same =>
      have taken := absentIff.mpr ⟨_, member, same⟩
      rw [KeyServer.grant, if_pos taken]
      exact .returns ⟨rfl, corresponds, rfl⟩
  | noMemory absent unallocated =>
      rw [KeyServer.grant, if_neg (free absent), if_pos (by simp [unallocated])]
      exact .returns ⟨rfl, corresponds, rfl⟩
  | drawing absent allocated drawing =>
      rw [KeyServer.grant, if_neg (free absent), if_neg (by simp [allocated]), ← drawn, drawing]
      exact .halts _
  | rngFailed absent allocated failed =>
      rw [KeyServer.grant, if_neg (free absent), if_neg (by simp [allocated]), ← drawn, failed]
      exact .returns ⟨rfl, corresponds, rfl⟩
  | @issued token absent allocated issued =>
      rw [KeyServer.grant, if_neg (free absent), if_neg (by simp [allocated]), ← drawn, issued]
      refine .returns ⟨?_, ?_, rfl⟩
      · simp only [← token.size, Bytes.take_overwrite]
      · refine List.rel_append corresponds (.cons ⟨rfl, rfl, ?_⟩ .nil)
        simp [live]

theorem mayRead_eq_mayUse (slots : List KeySlot) (uuid : Uuid) (entry : OpaqueHandleNode) :
    mayRead slots uuid entry = mayUse slots uuid entry.keySlot := by
  unfold mayRead mayUse
  cases opaqueData slots entry.keySlot with
  | none => rfl
  | some handle =>
      rw [Bool.eq_iff_iff, decide_eq_true_iff]
      exact isAllowedToReadOpaqueKey_eq_true

/-- A key function of the service writes over zeros. -/
theorem call_agrees {fn : KeyFn} {klen : Nat} {actions : List Action}
    (corresponds : List.Forall₂ (Corresponds conns) handles server.grants) :
    Agrees (Serves conns)
      (do
        let out ← fn.call env (List.replicate hwkeyMaxPayloadSize 0) klen
        .ok ⟨out, handles, actions⟩)
      (do
        let reply ← fn.reply env klen
        .ok ⟨reply, server.grants, actions⟩) := by
  unfold KeyFn.reply
  cases fn.call env (List.replicate hwkeyMaxPayloadSize 0) klen with
  | error halt => exact .halts halt
  | ok out => exact .returns ⟨rfl, corresponds, rfl⟩

theorem redeem_rel (slots : List KeySlot) (uuid : Uuid) (id : List UInt8)
    (corresponds : List.Forall₂ (Corresponds conns) handles server.grants) :
    Option.Rel (Corresponds conns) (openHandle slots handles uuid id)
      (Grants.redeem (fun grant => mayUse slots uuid grant.slot)
        (fun grant => grant.token.chars) id server.grants) := by
  apply Grants.redeem_forall₂ corresponds
  · intro entry grant same
    rw [same.slot, mayRead_eq_mayUse]
  · intro entry grant same
    rw [same.token]

theorem getKeyslot_agrees
    (corresponds : List.Forall₂ (Corresponds conns) handles server.grants)
    (live : conns.ctxs ctx = some chanCtx)
    (sound : SoundHandles provider.keySlots handles) :
    Agrees (Serves conns)
      (answerFor provider.keySlots env handles ctx chanCtx.uuid id
        (List.replicate hwkeyMaxPayloadSize 0) 0)
      (server.getKeyslot provider chanCtx.chan chanCtx.uuid id env) := by
  have space : hwkeyOpaqueHandleSize ≤ (List.replicate hwkeyMaxPayloadSize (0 : UInt8)).length := by
    rw [List.length_replicate]
    decide
  unfold answerFor KeyServer.getKeyslot
  cases named : namedSlot provider.keySlots chanCtx.uuid id with
  | some found =>
      obtain ⟨slot, handler⟩ := found
      cases handler with
      | getKeyHandle handle =>
          exact grant_agrees handle corresponds live space fun entry member =>
            (sound entry member).1
      | other fn => exact call_agrees corresponds
  | none =>
      have redeemed := redeem_rel provider.keySlots chanCtx.uuid id corresponds
      simp only [KeyServer.redeem]
      generalize openedAs : openHandle provider.keySlots handles chanCtx.uuid id = opened
        at redeemed ⊢
      generalize Grants.redeem _ _ id server.grants = granted at redeemed ⊢
      cases redeemed with
      | none => exact .returns ⟨rfl, corresponds, rfl⟩
      | @some entry grant same =>
          obtain ⟨-, handle, data⟩ := sound entry (Grants.redeem_eq_some openedAs).1
          simp only [retrieve, data, Option.bind_some, same.slot, Option.map_some]
          exact call_agrees corresponds

end Lookup

section Messages

variable {io : Io} {request : Request}

def State.cleared (state : State) : State := state.withBuffers clearBuffers

structure Follows (ifc : Interface) (conns : Table ChanCtx) (chan : Handle) (request : Request)
    (io : Io) (handled : Handled) (served : Served × UInt32) : Prop where
  actions : handled.actions = .responded chan (request.respond ifc served.1.reply served.2) io.sent ::
    served.1.actions
  sent : handled.sent = io.sent
  grants : List.Forall₂ (Corresponds conns) handled.state.opaqueHandles served.1.grants

theorem lookup_fits (fromRepository : FromRepository provider) (prepared : Prepared provider state)
    (cmd : request.cmd = ifc.getKeyslot) {found : Lookup} {env : Env} {uuid : Uuid}
    (result : answerFor provider.keySlots env state.opaqueHandles ctx uuid request.id
      state.keyData 0 = .ok found) :
    found.out.klen ≤ found.out.kbuf.length := by
  have followed : handleSlots (some provider.keySlots) env state.opaqueHandles ctx uuid
      (slotIdOf state.reqData request) state.keyData 0 = _ :=
    handleSlots_eq prepared.sound (prepared.long request) state.keyData 0
  rw [cstr_slotIdOf request prepared.reqData, result] at followed
  have outcome := handleSlots_found prepared.sound (prepared.long request) prepared.space followed
  rw [cstr_slotIdOf request prepared.reqData] at outcome
  have answer : Answer provider ifc state ctx uuid request env found.out request.arg1
    found.actions := .lookup cmd outcome
  rw [outcome.keepsSize prepared.space]
  exact (answer.reported fromRepository prepared.keyData).1

theorem hwkeySendRsp_of_fits {status : Status} {arg1 : UInt32} {data : List UInt8} {len : Nat}
    (fits : len ≤ data.length) :
    hwkeySendRsp ifc request status arg1 data len =
      .ok (request.respond ifc ⟨status, data.take len⟩ arg1) := by
  rw [hwkeySendRsp, if_neg (not_lt.mpr fits)]
  rfl

theorem getKeyslotMsg_agrees (fromRepository : FromRepository provider)
    (realizes : Realizes provider state server) (live : state.conns.ctxs ctx = some chanCtx)
    (received : io.recv = some request) (cmd : request.cmd = ifc.getKeyslot) :
    Agrees (Follows ifc state.conns chanCtx.chan request io)
      (hwkeyChanHandleMsg provider ifc state.cleared ctx chanCtx io)
      (server.serve provider ifc chanCtx.chan chanCtx.uuid request io.env) := by
  have prepared : Prepared provider state.cleared :=
    realizes.invariant.prepared.withBuffers clearBuffers
  rw [getKeyslot_eq prepared received cmd, KeyServer.serve, if_pos cmd]
  have found : Agrees (Serves state.conns)
      (answerFor provider.keySlots io.env state.opaqueHandles ctx chanCtx.uuid request.id
        (List.replicate hwkeyMaxPayloadSize 0) 0) _ :=
    getKeyslot_agrees realizes.shows.grants live prepared.sound
  have fitting := found.and fun lookup result =>
    lookup_fits fromRepository prepared cmd result
  apply fitting.bind
  rintro lookup served ⟨serves, fits⟩
  rw [respond, hwkeySendRsp_of_fits fits, ← serves.reply, ok_bind]
  refine .returns ⟨?_, rfl, serves.grants⟩
  rw [serves.actions]

structure Derives (server : KeyServer) (out : KeyOut) (served : Served) : Prop where
  reply : served.reply = ⟨out.status, out.kbuf.take out.klen⟩
  grants : served.grants = server.grants
  actions : served.actions = []

theorem deriveKey_agrees {uuid : Uuid} {env : Env}
    (zeros : state.keyData = List.replicate hwkeyMaxPayloadSize 0) :
    Agrees (Derives server) (deriveKey provider ifc state uuid request request.payload env)
      (server.derive provider ifc uuid request env) := by
  unfold deriveKey KeyServer.derive
  split
  · rw [zeros, List.length_replicate, KeyFn.reply]
    cases (provider.deriveKeyV1 uuid request.payload).call env _ hwkeyMaxPayloadSize with
    | error halt => exact .halts halt
    | ok out => exact .returns ⟨rfl, rfl, rfl⟩
  · exact .returns ⟨rfl, rfl, rfl⟩

theorem derived_fits (fromRepository : FromRepository provider)
    (size : state.keyData.length = hwkeyMaxPayloadSize) (other : request.cmd ≠ ifc.getKeyslot)
    (cmd : request.cmd = ifc.derive) {uuid : Uuid} {env : Env} {out : KeyOut}
    (derived : deriveKey provider ifc state uuid request request.payload env = .ok out) :
    out.klen ≤ out.kbuf.length := by
  have answer : Answer provider ifc state 0 uuid request env out (kdfVersion ifc request) [] :=
    .derived other cmd derived
  rw [deriveKey_keepsSize derived]
  exact (answer.reported fromRepository size).1

theorem deriveMsg_agrees (fromRepository : FromRepository provider)
    (realizes : Realizes provider state server)
    (received : io.recv = some request) (other : request.cmd ≠ ifc.getKeyslot)
    (cmd : request.cmd = ifc.derive) :
    Agrees (Follows ifc state.conns chanCtx.chan request io)
      (hwkeyChanHandleMsg provider ifc state.cleared ctx chanCtx io)
      (server.serve provider ifc chanCtx.chan chanCtx.uuid request io.env) := by
  simp only [hwkeyChanHandleMsg, received, if_neg other, if_pos cmd, take_receiveInto,
    hwkeyHandleDeriveKeyCmd, bind_assoc, KeyServer.serve]
  let loaded : State :=
    { state.cleared with reqData := receiveInto state.cleared.reqData request }
  have size : loaded.keyData.length = hwkeyMaxPayloadSize := List.length_replicate
  have derived : Agrees (Derives server)
      (deriveKey provider ifc loaded chanCtx.uuid request request.payload io.env) _ :=
    deriveKey_agrees rfl
  have fitting := derived.and fun out result =>
    derived_fits fromRepository size other cmd result
  apply fitting.bind
  rintro out served ⟨derives, fits⟩
  simp only [hwkeySendRsp_of_fits fits, ← derives.reply, ok_bind]
  refine .returns ⟨?_, rfl, ?_⟩
  · rw [derives.actions]
  · rw [derives.grants]
    exact realizes.shows.grants

theorem unsupportedMsg_agrees (realizes : Realizes provider state server)
    (received : io.recv = some request) (notGet : request.cmd ≠ ifc.getKeyslot)
    (notDerive : request.cmd ≠ ifc.derive) :
    Agrees (Follows ifc state.conns chanCtx.chan request io)
      (hwkeyChanHandleMsg provider ifc state.cleared ctx chanCtx io)
      (server.serve provider ifc chanCtx.chan chanCtx.uuid request io.env) := by
  have empty : hwkeySendRsp ifc request .errNotImplemented request.arg1 [] 0 = _ :=
    hwkeySendRsp_of_fits (Nat.zero_le 0)
  simp only [hwkeyChanHandleMsg, received, if_neg notGet, if_neg notDerive, KeyServer.serve]
  rw [empty]
  exact .returns ⟨rfl, rfl, realizes.shows.grants⟩

/-- Whatever the buffers hold, a request is handled as it is served. -/
theorem message_agrees (fromRepository : FromRepository provider)
    (realizes : Realizes provider state server) (live : state.conns.ctxs ctx = some chanCtx)
    (received : io.recv = some request) :
    Agrees (Follows ifc state.conns chanCtx.chan request io)
      (hwkeyChanHandleMsg provider ifc state ctx chanCtx io)
      (server.serve provider ifc chanCtx.chan chanCtx.uuid request io.env) := by
  have cleared : Agrees (Follows ifc state.conns chanCtx.chan request io)
      (hwkeyChanHandleMsg provider ifc state.cleared ctx chanCtx io)
      (server.serve provider ifc chanCtx.chan chanCtx.uuid request io.env) := by
    by_cases get : request.cmd = ifc.getKeyslot
    · exact getKeyslotMsg_agrees fromRepository realizes live received get
    by_cases derive : request.cmd = ifc.derive
    · exact deriveMsg_agrees fromRepository realizes received get derive
    · exact unsupportedMsg_agrees realizes received get derive
  let own : Buffers :=
    ⟨state.reqData, state.keyData, realizes.invariant.reqData, realizes.invariant.keyData⟩
  have same : Agree Handled.Same (hwkeyChanHandleMsg provider ifc state ctx chanCtx io)
      (hwkeyChanHandleMsg provider ifc state.cleared ctx chanCtx io) :=
    hwkeyChanHandleMsg_agree fromRepository realizes.invariant.prepared own clearBuffers
  apply Agrees.of_agree same cleared
  intro handled handled' served looksSame follows
  obtain ⟨actions, rest⟩ := Prod.mk.inj looksSame
  obtain ⟨sent, rest⟩ := Prod.mk.inj rest
  obtain ⟨handles, -⟩ := Prod.mk.inj rest
  exact ⟨actions.trans follows.actions, sent.trans follows.sent, handles ▸ follows.grants⟩

end Messages

def Matches (result : State × List Action) (followed : KeyServer × List Action) : Prop :=
  Shows result.1 followed.1 ∧ result.2 = followed.2

theorem connect_agrees {conn : Connect Uuid} (realizes : Realizes provider state server)
    (offered : conn.Offered state.conns) :
    Agrees Matches (hwkeyPortHandler provider state conn)
      (.ok (server.connect provider conn)) := by
  unfold hwkeyPortHandler KeyServer.connect
  cases chanIs : conn.chan with
  | none => exact .returns ⟨realizes.shows, rfl⟩
  | some chan =>
      have closed := offered.chan chan chanIs
      have undone : { state with conns := (state.conns.setChan chan .accepted).close chan } =
          state := by rw [Table.close_setChan_of_closed closed]
      simp only [undone]
      cases allowed : provider.hwkeyClientAllowed conn.peer with
      | false => exact .returns ⟨realizes.shows, rfl⟩
      | true =>
          cases ctxIs : conn.ctx with
          | none => exact .returns ⟨realizes.shows, rfl⟩
          | some ctx =>
              have unused := offered.ctx ctx ctxIs
              cases set : conn.cookieSet with
              | true =>
                  have opened := realizes.openSession ⟨chan, conn.peer⟩ unused
                  have same : ((state.conns.setChan chan .accepted).put ctx
                      ⟨chan, conn.peer⟩).setChan chan (.attached ctx) =
                      (state.conns.put ctx ⟨chan, conn.peer⟩).setChan chan (.attached ctx) := by
                    simp [Table.setChan, Table.put]
                  simp only [same]
                  exact .returns ⟨opened, rfl⟩
              | false =>
                  have made : (((state.conns.setChan chan .accepted).put ctx
                      ⟨chan, conn.peer⟩).close chan).free ctx = state.conns :=
                    Table.undo_connect closed unused
                  simp only [not_true_eq_false, Bool.false_eq_true, if_false]
                  rw [hwkeyCtxClose_of_live (Table.put_ctxs_self _ _ _)]
                  simp only [State.closeSession, made,
                    realizes.invariant.deleteHandlesOf_unused unused]
                  exact .returns ⟨realizes.shows, rfl⟩

theorem handled_agrees {io : Io} (fromRepository : FromRepository provider)
    (realizes : Realizes provider state server) (live : state.conns.ctxs ctx = some chanCtx) :
    Agrees Matches
      (do
        let handled ← hwkeyChanHandleMsg provider ifc state ctx chanCtx io
        if handled.sent then .ok (handled.state, handled.actions)
        else do
          let (closed, actions) ← hwkeyCtxClose handled.state ctx
          .ok (closed, actions ++ handled.actions))
      (server.message provider ifc chanCtx.chan chanCtx.uuid io) := by
  have prepared := realizes.invariant.prepared
  unfold KeyServer.message
  cases received : io.recv with
  | none =>
      let strayed : State :=
        { state with reqData := Bytes.overwrite state.reqData io.stray.val }
      have handledAs : hwkeyChanHandleMsg provider ifc state ctx chanCtx io =
          .ok ⟨strayed, [], false⟩ := by
        rw [hwkeyChanHandleMsg, received]
      have stillLive : strayed.conns.ctxs ctx = some chanCtx := live
      have ended := realizes.closeSession live
      rw [handledAs, ok_bind]
      simp only [Bool.false_eq_true, if_false]
      rw [hwkeyCtxClose_of_live stillLive]
      exact .returns ⟨⟨ended.sessions, ended.grants⟩, rfl⟩
  | some request =>
      have agrees : Agrees (Follows ifc state.conns chanCtx.chan request io)
          (hwkeyChanHandleMsg provider ifc state ctx chanCtx io) _ :=
        message_agrees fromRepository realizes live received
      have replying := agrees.and fun handled result => hwkeyChanHandleMsg_replied prepared result
      apply replying.bind
      rintro handled ⟨served, arg1⟩ ⟨follows, replied⟩
      have shows : Shows handled.state { server with grants := served.grants } := by
        refine ⟨?_, replied.conns ▸ follows.grants⟩
        rw [replied.conns]
        exact realizes.shows.sessions
      have actions := follows.actions
      rw [follows.sent]
      cases sentIs : io.sent with
      | true =>
          rw [sentIs] at actions
          exact .returns ⟨shows, actions⟩
      | false =>
          have stillLive : handled.state.conns.ctxs ctx = some chanCtx := by
            rw [replied.conns, live]
          have answered : Realizes provider handled.state { server with grants := served.grants } :=
            ⟨realizes.invariant.replied live replied, shows⟩
          simp only [Bool.false_eq_true, if_false]
          rw [hwkeyCtxClose_of_live stillLive, ok_bind]
          rw [sentIs] at actions
          exact .returns ⟨answered.closeSession stillLive, congrArg _ actions⟩

theorem dispatchEvent_agrees (fromRepository : FromRepository provider)
    (realizes : Realizes provider state server) {event : Event} (enabled : Enabled state event) :
    Agrees Matches (dispatchEvent provider ifc state event) (server.react provider ifc event) := by
  cases event with
  | port conn => exact connect_agrees realizes enabled
  | chan handle bits io =>
      obtain ⟨ctx, attached⟩ := enabled
      obtain ⟨chanCtx, live, rfl⟩ := realizes.invariant.wellFormed.attached handle ctx attached
      have session : server.sessions chanCtx.chan = some chanCtx.uuid := by
        rw [realizes.shows.sessions]
        exact sessionOf_live realizes.invariant.wellFormed live
      simp only [dispatchEvent, attached, hwkeyChanHandler, load_of_live live, ok_bind, ne_eq,
        not_true_eq_false, if_false, KeyServer.react, session]
      cases bits.hup with
      | true =>
          simp only [if_true]
          rw [hwkeyCtxClose_of_live live]
          exact .returns ⟨realizes.closeSession live, rfl⟩
      | false =>
          cases bits.msg with
          | true => exact handled_agrees fromRepository realizes live
          | false => exact .returns ⟨realizes.shows, rfl⟩

theorem Realizes.enabled (realizes : Realizes provider state server) {event : Event}
    (enabled : Enabled state event) : server.Enabled event := by
  cases event with
  | port conn =>
      intro chan chanIs
      rw [realizes.shows.sessions]
      exact sessionOf_closed (enabled.chan chan chanIs)
  | chan handle bits io =>
      obtain ⟨ctx, attached⟩ := enabled
      obtain ⟨chanCtx, live, rfl⟩ := realizes.invariant.wellFormed.attached handle ctx attached
      have session := sessionOf_live realizes.invariant.wellFormed live
      simp [KeyServer.Enabled, realizes.shows.sessions, session]

theorem service_lockStep (fromRepository : FromRepository provider) :
    LockStep (service provider ifc) (keyServer provider ifc) (Realizes provider) id where
  initially :=
    have start : Reachable (service provider ifc) _ := .start
    ⟨handleInvariant_of_reachable start, rfl, .nil⟩
  enabled realizes enabled := realizes.enabled enabled
  agrees := by
    intro state server event realizes enabled
    have agrees : Agrees Matches (dispatchEvent provider ifc state event) _ :=
      dispatchEvent_agrees fromRepository realizes enabled
    have keeping := agrees.and fun result handled =>
      (dispatchEvent_effect realizes.invariant enabled handled).invariant realizes.invariant
    exact keeping.mono fun result followed known => ⟨⟨known.2, known.1.1⟩, known.1.2⟩

/-- In every run the service does to its clients what the key server does: it sends the
same responses, opens and closes the same channels and issues the same tokens, it stops
for the same reasons, and the same sessions and grants remain. -/
theorem service_is_keyServer (fromRepository : FromRepository provider)
    {history : List (Step State Event (List Action))}
    (run : Exec (service provider ifc) history state) :
    ∃ followed server, Exec (keyServer provider ifc) followed server ∧
      followed.map (fun step => (step.event, step.output)) =
        history.map (fun step => (step.event, step.output)) ∧
      (∀ chan, server.sessions chan = sessionOf state.conns chan) ∧
      List.Forall₂ (Corresponds state.conns) state.opaqueHandles server.grants ∧
      ∀ event, Enabled state event →
        (dispatchEvent provider ifc state event).map Prod.snd =
          (server.react provider ifc event).map Prod.snd := by
  have inStep : LockStep (service provider ifc) (keyServer provider ifc) _ id :=
    service_lockStep fromRepository
  obtain ⟨followed, server, followedRun, realizes, same⟩ := inStep.simulation.run run
  refine ⟨followed, server, followedRun, ?_, ?_, realizes.shows.grants, ?_⟩
  · rw [same]
    exact congrFun List.filterMap_eq_map' history
  · intro chan
    rw [realizes.shows.sessions]
  · intro event enabled
    exact inStep.answer_eq realizes enabled

/-- After its request the client of `connectStep` holds the only grant. -/
theorem service_is_keyServer_requested :
    ∃ server, Reachable (keyServer twoSlots smallInterface) server ∧
      server.sessions 3 = some hwcryptoUnittestUuid ∧
      server.grants = [⟨0, 3, sampleToken⟩] := by
  obtain ⟨keyData, run⟩ := requestStep_exec
  obtain ⟨followed, server, followedRun, -, sessions, grants, -⟩ :=
    service_is_keyServer twoSlots_fromRepository run
  refine ⟨server, followedRun.reachable, sessions 3, ?_⟩
  generalize server.grants = held at grants
  cases grants with
  | @cons _ grant _ _ first rest =>
      cases rest with
      | nil =>
          obtain ⟨slot, chan, token⟩ := grant
          obtain ⟨rfl, rfl, holder⟩ := first
          obtain rfl : 3 = chan := Option.some.inj holder
          rfl

end TrustyApp.Hwkey
