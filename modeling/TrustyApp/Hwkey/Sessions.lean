import TrustyApp.Hwkey.Requests

/-!
# The life of a handle

A handle comes into being with the one response that discloses its token, and it
stays as it is until the session that got the response is closed.
-/

namespace TrustyApp.Hwkey

open Ipc Reactive

variable {provider : Provider} {ifc : Interface} {pre post state : State} {event : Event}
  {output : List Action} {entry : OpaqueHandleNode} {chanCtx : ChanCtx}
  {history later earlier : List (Step State Event (List Action))}
  {step : Step State Event (List Action)}

theorem HandleChange.mem_of_mem {handles handles' : List OpaqueHandleNode} {ctx : Addr}
    (change : HandleChange provider handles ctx chanCtx handles' output)
    (member : entry ∈ handles) : entry ∈ handles' := by
  cases change with
  | kept => exact member
  | added => exact List.mem_append_left _ member

theorem HandleChange.mem_or_own {handles handles' : List OpaqueHandleNode} {ctx : Addr}
    (change : HandleChange provider handles ctx chanCtx handles' output)
    (member : entry ∈ handles') :
    entry ∈ handles ∨ entry.owner = ctx ∧ .issued entry.keySlot entry.token ∈ output := by
  cases change with
  | kept => exact .inl member
  | added =>
      rcases List.mem_append.mp member with member | isNew
      · exact .inl member
      · rw [List.mem_singleton] at isNew
        subst isNew
        exact .inr ⟨rfl, by simp⟩

theorem HandleChange.issued {handles handles' : List OpaqueHandleNode} {ctx : Addr} {slot : Nat}
    {token : AccessToken} (change : HandleChange provider handles ctx chanCtx handles' output)
    (issued : .issued slot token ∈ output) :
    (∀ other ∈ handles, other.keySlot ≠ slot) ∧ handles' = handles ++ [⟨slot, ctx, token⟩] ∧
      ∃ rsp sent, rsp.status = .noError ∧ rsp.payload = token.bytes ∧
        output = [.responded chanCtx.chan rsp sent, .issued slot token] := by
  cases change with
  | kept quiet => exact absurd issued (quiet slot token)
  | @added _ slot' _ token' rsp sent _ absent _ status payload =>
      obtain ⟨rfl, rfl⟩ : slot = slot' ∧ token = token' := by simpa using issued
      exact ⟨absent, rfl, rsp, sent, status, payload, rfl⟩

theorem HandleInvariant.slot_freed (invariant : HandleInvariant provider pre)
    (member : entry ∈ pre.opaqueHandles) {handles : List OpaqueHandleNode}
    (older : ∀ other ∈ handles, other ∈ pre.opaqueHandles ∨ other.owner = entry.owner) :
    ∀ other ∈ deleteHandlesOf entry.owner handles,
      other ∈ pre.opaqueHandles ∧ other.keySlot ≠ entry.keySlot := by
  intro other remains
  obtain ⟨inHandles, ne⟩ := mem_deleteHandlesOf.mp remains
  rcases older other inHandles with old | own
  · refine ⟨old, fun same => ne ?_⟩
    rw [invariant.exclusive.unique old member same]
  · exact absurd own ne

/-- Either the step closes the session of an entry, and with it the entry goes, or
both stay as they are. -/
theorem Effect.entry_cases (effect : Effect provider ifc pre event post output)
    (invariant : HandleInvariant provider pre) (member : entry ∈ pre.opaqueHandles)
    (owned : pre.conns.ctxs entry.owner = some chanCtx) :
    (.closed chanCtx.chan ∉ output ∧ entry ∈ post.opaqueHandles ∧
        post.conns.ctxs entry.owner = some chanCtx) ∨
      (.closed chanCtx.chan ∈ output ∧ ∀ other ∈ post.opaqueHandles,
        other ∈ pre.opaqueHandles ∧ other.keySlot ≠ entry.keySlot) := by
  have attached := invariant.wellFormed.owned _ _ owned
  have closes {ctx : Addr} {closing : ChanCtx} (live : pre.conns.ctxs ctx = some closing) :
      (entry.owner = ctx ∧ chanCtx = closing) ∨
        (entry.owner ≠ ctx ∧ chanCtx.chan ≠ closing.chan) := by
    by_cases own : entry.owner = ctx
    · subst own
      exact .inl ⟨rfl, Option.some.inj (owned.symm.trans live)⟩
    · exact .inr ⟨own, fun same => own (invariant.wellFormed.unique live owned same)⟩
  cases effect with
  | refused closings =>
      refine .inl ⟨fun closed => ?_, member, owned⟩
      obtain ⟨chan, isClosed, notOpen⟩ := closings _ closed
      obtain rfl := Action.closed.inj isClosed
      rw [attached] at notOpen
      cases notOpen
  | @opened conn chan ctx closed unused =>
      have ne : entry.owner ≠ ctx := by
        rintro rfl
        rw [unused] at owned
        cases owned
      exact .inl ⟨by simp, member, (Table.put_ctxs_of_ne _ _ ne).trans owned⟩
  | idle => exact .inl ⟨by simp, member, owned⟩
  | @hungUp bits io ctx closing _ live =>
      rcases closes live with ⟨rfl, rfl⟩ | ⟨ne, neChan⟩
      · exact .inr ⟨by simp, invariant.slot_freed member fun other old => .inl old⟩
      · exact .inl ⟨by simpa using neChan, mem_deleteHandlesOf.mpr ⟨member, ne⟩,
          (Table.free_ctxs_of_ne _ ne).trans owned⟩
  | @replied bits io ctx closing handled _ _ live answered =>
      have replied := hwkeyChanHandleMsg_replied invariant.prepared answered
      exact .inl ⟨replied.closed _, replied.handles.mem_of_mem member,
        by rw [replied.conns, owned]⟩
  | @dropped bits io ctx closing handled _ _ live answered =>
      have replied := hwkeyChanHandleMsg_replied invariant.prepared answered
      rcases closes live with ⟨rfl, rfl⟩ | ⟨ne, neChan⟩
      · exact .inr ⟨by simp, invariant.slot_freed member fun other new =>
          (replied.handles.mem_or_own new).imp_right And.left⟩
      · refine .inl ⟨?_, mem_deleteHandlesOf.mpr ⟨replied.handles.mem_of_mem member, ne⟩, ?_⟩
        · simpa [neChan] using replied.closed chanCtx.chan
        · apply (Table.free_ctxs_of_ne _ ne).trans
          rw [Table.close_ctxs, replied.conns, owned]

/-- The step whose response discloses the token of a new entry to its owner. -/
structure Discloses (step : Step State Event (List Action)) (chanCtx : ChanCtx)
    (entry : OpaqueHandleNode) : Prop where
  event : ∃ bits io, step.event = .chan chanCtx.chan bits io
  requester : step.pre.conns.ctxs entry.owner = some chanCtx
  response : ∃ rsp, rsp.status = .noError ∧ rsp.payload = entry.token.bytes ∧
    step.output = [.responded chanCtx.chan rsp true, .issued entry.keySlot entry.token]
  free : ∀ other ∈ step.pre.opaqueHandles, other.keySlot ≠ entry.keySlot
  added : step.post.opaqueHandles = step.pre.opaqueHandles ++ [entry]
  conns : step.post.conns = step.pre.conns

theorem Replied.discloses {ctx : Addr} {handled : Handled} {slot : Nat} {token : AccessToken}
    (replied : Replied provider pre ctx chanCtx handled)
    (live : pre.conns.ctxs ctx = some chanCtx) (sent : handled.sent = true)
    (issued : .issued slot token ∈ handled.actions) (bits : Bits) (io : Io) :
    Discloses ⟨pre, .chan chanCtx.chan bits io, handled.actions, handled.state⟩ chanCtx
      ⟨slot, ctx, token⟩ := by
  obtain ⟨free, added, rsp, flag, status, payload, actions⟩ := replied.handles.issued issued
  obtain ⟨-, rfl⟩ := replied.responded chanCtx.chan rsp flag (by simp [actions])
  rw [sent] at actions
  exact ⟨⟨bits, io, rfl⟩, live, ⟨rsp, status, payload, actions⟩, free, added, replied.conns⟩

/-- A token is issued for a slot without a handle, and disclosed to its owner unless
the response is lost and the session closed. -/
theorem Effect.issued_cases {slot : Nat} {token : AccessToken}
    (effect : Effect provider ifc pre event post output)
    (invariant : HandleInvariant provider pre) (issued : .issued slot token ∈ output) :
    (∀ other ∈ pre.opaqueHandles, other.keySlot ≠ slot) ∧
      ((∀ chan rsp, .responded chan rsp true ∉ output) ∨
        ∃ chanCtx ctx, Discloses ⟨pre, event, output, post⟩ chanCtx ⟨slot, ctx, token⟩) := by
  cases effect with
  | refused closings =>
      obtain ⟨chan, isClosed, -⟩ := closings _ issued
      cases isClosed
  | opened | idle | hungUp => simp at issued
  | @replied bits io ctx chanCtx handled _ _ live answered sent =>
      have replied := hwkeyChanHandleMsg_replied invariant.prepared answered
      exact ⟨(replied.handles.issued issued).1,
        .inr ⟨chanCtx, ctx, replied.discloses live sent issued bits io⟩⟩
  | @dropped bits io ctx chanCtx handled _ _ live answered unsent =>
      have replied := hwkeyChanHandleMsg_replied invariant.prepared answered
      have issued : .issued slot token ∈ handled.actions := by simpa using issued
      refine ⟨(replied.handles.issued issued).1, .inl fun chan rsp member => ?_⟩
      have member : .responded chan rsp true ∈ handled.actions := by simpa using member
      have sent := (replied.responded chan rsp true member).2
      rw [unsent] at sent
      cases sent

theorem Effect.mem_cases (effect : Effect provider ifc pre event post output)
    (invariant : HandleInvariant provider pre) (member : entry ∈ post.opaqueHandles) :
    entry ∈ pre.opaqueHandles ∨
      ∃ chanCtx, Discloses ⟨pre, event, output, post⟩ chanCtx entry := by
  cases effect with
  | refused | opened | idle => exact .inl member
  | hungUp => exact .inl (mem_deleteHandlesOf.mp member).1
  | @replied bits io ctx chanCtx handled _ _ live answered sent =>
      have replied := hwkeyChanHandleMsg_replied invariant.prepared answered
      apply (replied.handles.mem_or_own member).imp_right
      rintro ⟨rfl, issued⟩
      exact ⟨chanCtx, replied.discloses live sent issued bits io⟩
  | @dropped bits io ctx chanCtx handled _ _ live answered =>
      have replied := hwkeyChanHandleMsg_replied invariant.prepared answered
      obtain ⟨member, ne⟩ := mem_deleteHandlesOf.mp member
      exact (replied.handles.mem_or_own member).imp_right fun own => absurd own.1 ne

/-- A step that leaves an entry, its owner's session and its token alone. -/
structure Spares (step : Step State Event (List Action)) (chanCtx : ChanCtx)
    (entry : OpaqueHandleNode) : Prop where
  before : entry ∈ step.pre.opaqueHandles
  after : entry ∈ step.post.opaqueHandles
  owner : step.post.conns.ctxs entry.owner = some chanCtx
  silent : ∀ token, .issued entry.keySlot token ∉ step.output

theorem Effect.spares (effect : Effect provider ifc step.pre step.event step.post step.output)
    (invariant : HandleInvariant provider step.pre) (before : entry ∈ step.pre.opaqueHandles)
    (after : entry ∈ step.post.opaqueHandles)
    (owned : step.pre.conns.ctxs entry.owner = some chanCtx) : Spares step chanCtx entry := by
  rcases effect.entry_cases invariant before owned with ⟨-, -, owner⟩ | ⟨-, freed⟩
  · refine ⟨before, after, owner, fun token issued => ?_⟩
    exact (effect.issued_cases invariant issued).1 entry before rfl
  · exact absurd rfl (freed entry after).2

/-- Every entry goes back to the step that disclosed its token. -/
theorem disclosed_of_mem (run : Exec (service provider ifc) history state)
    (member : entry ∈ state.opaqueHandles) :
    ∃ later creating earlier chanCtx, history = later ++ creating :: earlier ∧
      Discloses creating chanCtx entry ∧ (∀ step ∈ later, Spares step chanCtx entry) ∧
      state.conns.ctxs entry.owner = some chanCtx := by
  induction run generalizing entry with
  | start => simp [service] at member
  | @step history step before performs inductionHypothesis =>
      have invariant := handleInvariant_of_reachable before.reachable
      have effect := effect_of_performs before.reachable performs
      rcases effect.mem_cases invariant member with old | ⟨chanCtx, disclosed⟩
      · obtain ⟨later, creating, earlier, chanCtx, rfl, disclosed, spared, owned⟩ :=
          inductionHypothesis old
        have now := effect.spares invariant old member owned
        refine ⟨step :: later, creating, earlier, chanCtx, rfl, disclosed, ?_, now.owner⟩
        intro other member
        rcases List.mem_cons.mp member with rfl | member
        · exact now
        · exact spared other member
      · refine ⟨[], step, history, chanCtx, rfl, disclosed, by simp, ?_⟩
        rw [disclosed.conns, disclosed.requester]

/-- The token of every entry was disclosed in exactly one response, to the session that
owns the entry; since then no response disclosed a token for its slot, and a request for
the slot is told that the handle already exists. -/
theorem token_disclosed_once (run : Exec (service provider ifc) history state)
    (member : entry ∈ state.opaqueHandles) :
    (∃ later creating earlier chanCtx, history = later ++ creating :: earlier ∧
      Discloses creating chanCtx entry ∧ ∀ step ∈ later, Spares step chanCtx entry) ∧
      ∀ ctx chanCtx request io handler, io.recv = some request →
        request.cmd = ifc.getKeyslot →
        FirstSlot provider.keySlots chanCtx.uuid request.id entry.keySlot handler →
        hwkeyChanHandleMsg provider ifc state ctx chanCtx io =
          .ok ⟨{ state with reqData := slotIdOf state.reqData request },
            [.responded chanCtx.chan (alreadyExistsRsp ifc request) io.sent], io.sent⟩ := by
  have invariant := handleInvariant_of_reachable run.reachable
  constructor
  · obtain ⟨later, creating, earlier, chanCtx, split, disclosed, spared, -⟩ :=
      disclosed_of_mem run member
    exact ⟨later, creating, earlier, chanCtx, split, disclosed, spared⟩
  · intro ctx chanCtx request io handler received cmd firstSlot
    have named := firstSlot.namedSlot_eq
    obtain ⟨slot, at_, -, -, handlerIs⟩ := namedSlot_eq_some named
    obtain ⟨granting, handle, -, grantingAt, grantingIs, -, -⟩ :=
      (invariant.entries entry member).held
    obtain rfl := Option.some.inj (at_.symm.trans grantingAt)
    obtain rfl := Option.some.inj (handlerIs.symm.trans grantingIs)
    exact getKeyslot_taken invariant.prepared received cmd named member

theorem token_disclosed_once_requested : ∃ keyData later creating earlier chanCtx,
    [requestStep keyData, connectStep] = later ++ creating :: earlier ∧
      Discloses creating chanCtx ⟨0, 16, sampleToken⟩ := by
  obtain ⟨keyData, run⟩ := requestStep_exec
  obtain ⟨later, creating, earlier, chanCtx, split, disclosed, -⟩ :=
    (token_disclosed_once run (List.mem_singleton_self _)).1
  exact ⟨keyData, later, creating, earlier, chanCtx, split, disclosed⟩

def Action.issuedToken : Action → Option AccessToken
  | .issued _ token => some token
  | _ => none

def issuedTokens (history : List (Step State Event (List Action))) : List AccessToken :=
  history.flatMap fun step => step.output.filterMap Action.issuedToken

/-- What is assumed of the RNG device: no token is issued twice in the run, and none
reads like a key id of the table. -/
structure FreshTokens (provider : Provider) (history : List (Step State Event (List Action))) :
    Prop where
  distinct : (issuedTokens history).Nodup
  notKeyId : ∀ token ∈ issuedTokens history, ∀ slot ∈ provider.keySlots,
    slot.keyId.chars ≠ token.chars

theorem mem_issuedTokens {token : AccessToken} :
    token ∈ issuedTokens history ↔ ∃ step ∈ history, ∃ slot, .issued slot token ∈ step.output := by
  simp only [issuedTokens, List.mem_flatMap, List.mem_filterMap]
  constructor
  · rintro ⟨step, member, action, inOutput, isIssued⟩
    cases action with
    | issued slot other =>
        obtain rfl := Option.some.inj isIssued
        exact ⟨step, member, slot, inOutput⟩
    | opened | retrieved | responded | closed => cases isIssued
  · rintro ⟨step, member, slot, inOutput⟩
    exact ⟨step, member, _, inOutput, rfl⟩

theorem deleteHandlesOf_sublist (ctx : Addr) (handles : List OpaqueHandleNode) :
    (deleteHandlesOf ctx handles).Sublist handles := by
  rw [deleteHandlesOf_eq_revoke]
  exact List.filter_sublist

theorem HandleChange.tokens {handles handles' : List OpaqueHandleNode} {ctx : Addr}
    (change : HandleChange provider handles ctx chanCtx handles' output) :
    handles'.map OpaqueHandleNode.token =
      handles.map OpaqueHandleNode.token ++ (output.filterMap Action.issuedToken).reverse := by
  cases change with
  | kept quiet =>
      have none : output.filterMap Action.issuedToken = [] := by
        rw [List.filterMap_eq_nil_iff]
        intro action member
        cases action with
        | issued slot token => exact absurd member (quiet slot token)
        | opened | retrieved | responded | closed => rfl
      simp [none]
  | added =>
      rw [List.map_append]
      rfl

theorem Effect.tokens_sublist (effect : Effect provider ifc pre event post output)
    (invariant : HandleInvariant provider pre) :
    (post.opaqueHandles.map OpaqueHandleNode.token).Sublist
      (pre.opaqueHandles.map OpaqueHandleNode.token ++
        (output.filterMap Action.issuedToken).reverse) := by
  cases effect with
  | refused | opened | idle => exact List.sublist_append_left _ _
  | hungUp =>
      exact ((deleteHandlesOf_sublist _ _).map _).trans (List.sublist_append_left _ _)
  | replied _ _ _ answered =>
      rw [(hwkeyChanHandleMsg_replied invariant.prepared answered).handles.tokens]
  | dropped _ _ _ answered =>
      have replied := hwkeyChanHandleMsg_replied invariant.prepared answered
      have issued := replied.handles.tokens
      simp only [List.filterMap_cons, Action.issuedToken, ← issued]
      exact (deleteHandlesOf_sublist _ _).map _

theorem tokens_sublist (run : Exec (service provider ifc) history state) :
    (state.opaqueHandles.map OpaqueHandleNode.token).Sublist (issuedTokens history).reverse := by
  apply run.rule fun history state =>
    (state.opaqueHandles.map OpaqueHandleNode.token).Sublist (issuedTokens history).reverse
  · exact List.nil_sublist _
  · intro history step before inductionHypothesis performs
    have invariant := handleInvariant_of_reachable before.reachable
    have stepTokens := (effect_of_performs before.reachable performs).tokens_sublist invariant
    rw [issuedTokens, List.flatMap_cons, List.reverse_append]
    exact stepTokens.trans (inductionHypothesis.append_right _)

theorem issuedTokens_append (later earlier : List (Step State Event (List Action))) :
    issuedTokens (later ++ earlier) = issuedTokens later ++ issuedTokens earlier :=
  List.flatMap_append

theorem FreshTokens.of_append (later : List (Step State Event (List Action)))
    (fresh : FreshTokens provider (later ++ earlier)) :
    FreshTokens provider earlier := by
  obtain ⟨distinct, notKeyId⟩ := fresh
  rw [issuedTokens_append] at distinct notKeyId
  exact ⟨distinct.of_append_right, fun token member =>
    notKeyId token (List.mem_append_right _ member)⟩

theorem FreshTokens.not_reissued (fresh : FreshTokens provider (later ++ earlier))
    {token : AccessToken} (issued : token ∈ issuedTokens earlier) (member : step ∈ later)
    (slot : Nat) : .issued slot token ∉ step.output := by
  intro again
  have distinct := fresh.distinct
  rw [issuedTokens_append, List.nodup_append] at distinct
  exact distinct.2.2 token (mem_issuedTokens.mpr ⟨step, member, slot, again⟩) token issued rfl

theorem eq_of_token_eq (run : Exec (service provider ifc) history state)
    (fresh : FreshTokens provider history) {other : OpaqueHandleNode}
    (member : entry ∈ state.opaqueHandles) (otherMember : other ∈ state.opaqueHandles)
    (same : entry.token = other.token) : entry = other := by
  have nodup := (List.nodup_reverse.mpr fresh.distinct).sublist (tokens_sublist run)
  exact List.inj_on_of_nodup_map nodup member otherMember same

/-- A session's request was answered with a handle for an opaque slot. -/
def Answered (step : Step State Event (List Action)) (chan : Handle) (slot : Nat)
    (token : AccessToken) : Prop :=
  .issued slot token ∈ step.output ∧
    ∃ rsp, .responded chan rsp true ∈ step.output ∧ rsp.status = .noError ∧
      rsp.payload = token.bytes

theorem Answered.discloses {chan : Handle} {slot : Nat} {token : AccessToken}
    (answered : Answered step chan slot token)
    (reached : Reachable (service provider ifc) step.pre)
    (performs : (service provider ifc).Performs step) :
    ∃ chanCtx ctx, chanCtx.chan = chan ∧ Discloses step chanCtx ⟨slot, ctx, token⟩ := by
  obtain ⟨issued, rsp, responded, -, -⟩ := answered
  have invariant := handleInvariant_of_reachable reached
  have effect := effect_of_performs reached performs
  rcases (effect.issued_cases invariant issued).2 with unanswered | ⟨chanCtx, ctx, disclosed⟩
  · exact absurd responded (unanswered chan rsp)
  · refine ⟨chanCtx, ctx, ?_, disclosed⟩
    obtain ⟨other, -, -, output⟩ := disclosed.response
    simp only at output
    rw [output] at responded
    have same : chan = chanCtx.chan ∧ rsp = other := by simpa using responded
    exact same.1.symm

theorem entry_persists (run : Exec (service provider ifc) (later ++ step :: earlier) state)
    (disclosed : Discloses step chanCtx entry)
    (stillOpen : ∀ other ∈ later, .closed chanCtx.chan ∉ other.output) :
    entry ∈ state.opaqueHandles ∧ state.conns.ctxs entry.owner = some chanCtx := by
  apply run.since fun state =>
    entry ∈ state.opaqueHandles ∧ state.conns.ctxs entry.owner = some chanCtx
  · intro middle reachesMiddle
    cases reachesMiddle with
    | step _ _ =>
        refine ⟨?_, by rw [disclosed.conns, disclosed.requester]⟩
        rw [disclosed.added]
        exact List.mem_append_right _ (List.mem_singleton_self entry)
  · intro other member reached kept performs
    have invariant := handleInvariant_of_reachable reached
    rcases (effect_of_performs reached performs).entry_cases invariant kept.1 kept.2 with
      ⟨-, stays, owner⟩ | ⟨closed, -⟩
    · exact ⟨stays, owner⟩
    · exact absurd closed (stillOpen other member)

theorem token_gone {after before : List (Step State Event (List Action))}
    {closing : Step State Event (List Action)}
    (run : Exec (service provider ifc) (after ++ closing :: (before ++ step :: earlier)) state)
    (fresh : FreshTokens provider (after ++ closing :: (before ++ step :: earlier)))
    (disclosed : Discloses step chanCtx entry)
    (wasOpen : ∀ other ∈ before, .closed chanCtx.chan ∉ other.output)
    (closed : .closed chanCtx.chan ∈ closing.output) :
    (∀ other ∈ closing.post.opaqueHandles, other.keySlot ≠ entry.keySlot) ∧
      ∀ other ∈ state.opaqueHandles, other.token ≠ entry.token := by
  obtain ⟨runBefore, performs, runClosing⟩ := run.at_step
  have invariant := handleInvariant_of_reachable runBefore.reachable
  have effect := effect_of_performs runBefore.reachable performs
  obtain ⟨member, owned⟩ := entry_persists runBefore disclosed wasOpen
  rcases effect.entry_cases invariant member owned with ⟨notClosed, -, -⟩ | ⟨-, freed⟩
  · exact absurd closed notClosed
  · refine ⟨fun other remains => (freed other remains).2, ?_⟩
    have issued : entry.token ∈ issuedTokens (closing :: (before ++ step :: earlier)) := by
      obtain ⟨rsp, -, -, output⟩ := disclosed.response
      exact mem_issuedTokens.mpr ⟨step, by simp, entry.keySlot, by simp [output]⟩
    apply run.since fun state => ∀ other ∈ state.opaqueHandles, other.token ≠ entry.token
    · intro middle reachesMiddle
      cases reachesMiddle with
      | step _ _ =>
          intro other remains same
          obtain ⟨old, otherSlot⟩ := freed other remains
          have freshBefore : FreshTokens provider (before ++ step :: earlier) :=
            .of_append (after ++ [closing]) (by simpa using fresh)
          exact otherSlot (by rw [eq_of_token_eq runBefore freshBefore old member same])
    · intro next inAfter reached kept performsNext other remains same
      have invariantNext := handleInvariant_of_reachable reached
      rcases (effect_of_performs reached performsNext).mem_cases invariantNext remains with
        old | ⟨newCtx, discloses⟩
      · exact kept other old same
      · obtain ⟨rsp, -, -, output⟩ := discloses.response
        simp only at output
        apply fresh.not_reissued issued inAfter other.keySlot
        rw [output, ← same]
        simp

theorem namedSlot_of_token {token : AccessToken} (uuid : Uuid)
    (fresh : FreshTokens provider history) (issued : token ∈ issuedTokens history) :
    namedSlot provider.keySlots uuid token.chars = none := by
  apply namedSlot_eq_none
  intro slot member
  simp [KeySlot.answering, fresh.notKeyId token issued slot member]

theorem openHandle_of_token {handle : OpaqueHandleData} {uuid : Uuid}
    (run : Exec (service provider ifc) history state) (fresh : FreshTokens provider history)
    (member : entry ∈ state.opaqueHandles)
    (data : opaqueData provider.keySlots entry.keySlot = some handle)
    (allowed : uuid ∈ handle.allowedUuids) :
    openHandle provider.keySlots state.opaqueHandles uuid entry.token.chars = some entry := by
  have invariant := handleInvariant_of_reachable run.reachable
  apply Grants.redeem_of_mem member (mayRead_eq_true.mpr ⟨handle, data, allowed⟩)
  intro other otherMember same
  apply eq_of_token_eq run fresh otherMember member
  exact (invariant.entries other otherMember).token.ext (invariant.entries entry member).token same

theorem openHandle_of_gone {token : AccessToken} {uuid : Uuid}
    (invariant : HandleInvariant provider state) (wellFormed : token.WellFormed)
    (gone : ∀ other ∈ state.opaqueHandles, other.token ≠ token) :
    openHandle provider.keySlots state.opaqueHandles uuid token.chars = none := by
  apply openHandle_eq_none
  rintro other member handle ⟨same, -, -⟩
  exact gone other member ((invariant.entries other member).token.ext wellFormed same)

/-- A handle lives exactly as long as the session that obtained it: until that session
is closed its token gives every session that the slot allows the outcome of the slot's
retriever, and from then on it gives nobody anything, and the slot is free again. -/
theorem handle_lives_with_session {chan : Handle} {slot : Nat} {token : AccessToken}
    (run : Exec (service provider ifc) (later ++ step :: earlier) state)
    (fresh : FreshTokens provider (later ++ step :: earlier))
    (answered : Answered step chan slot token) :
    ((∀ other ∈ later, .closed chan ∉ other.output) →
      ∃ handle, opaqueData provider.keySlots slot = some handle ∧
        ∀ ctx chanCtx request io, io.recv = some request → request.cmd = ifc.getKeyslot →
          request.id = token.chars → chanCtx.uuid ∈ handle.allowedUuids →
          hwkeyChanHandleMsg provider ifc state ctx chanCtx io = (do
            let out ← handle.retriever.call io.env state.keyData 0
            respond ifc state chanCtx request io.sent
              ⟨out, state.opaqueHandles, [.retrieved slot]⟩)) ∧
      ∀ after closing before, later = after ++ closing :: before →
        (∀ other ∈ before, .closed chan ∉ other.output) → .closed chan ∈ closing.output →
        (∀ ctx chanCtx request io, io.recv = some request → request.cmd = ifc.getKeyslot →
          request.id = token.chars →
          hwkeyChanHandleMsg provider ifc state ctx chanCtx io =
            .ok ⟨{ state with reqData := slotIdOf state.reqData request },
              [.responded chanCtx.chan (notFoundRsp ifc request) io.sent], io.sent⟩) ∧
        (∀ entry ∈ closing.post.opaqueHandles, entry.keySlot ≠ slot) ∧
        ((∀ entry ∈ state.opaqueHandles, entry.keySlot ≠ slot) →
          ∀ ctx chanCtx request io handle newToken, io.recv = some request →
            request.cmd = ifc.getKeyslot →
            FirstSlot provider.keySlots chanCtx.uuid request.id slot (.getKeyHandle handle) →
            io.env.calloc = true → drawToken io.env.draws .empty = .ok (.ok newToken) →
            ∃ keyData, hwkeyChanHandleMsg provider ifc state ctx chanCtx io =
              .ok ⟨{ state with
                  opaqueHandles := state.opaqueHandles ++ [⟨slot, ctx, newToken⟩]
                  reqData := slotIdOf state.reqData request
                  keyData := keyData },
                [.responded chanCtx.chan (tokenRsp ifc request newToken) io.sent,
                  .issued slot newToken], io.sent⟩) := by
  have invariant := handleInvariant_of_reachable run.reachable
  obtain ⟨runBefore, performs, runAfter⟩ := run.at_step
  obtain ⟨chanCtx, ctx, rfl, disclosed⟩ := answered.discloses runBefore.reachable performs
  have issued : token ∈ issuedTokens (later ++ step :: earlier) :=
    mem_issuedTokens.mpr ⟨step, by simp, slot, answered.1⟩
  have present : ⟨slot, ctx, token⟩ ∈ step.post.opaqueHandles := by simp [disclosed.added]
  have sound := (handleInvariant_of_reachable runAfter.reachable).entries _ present
  constructor
  · intro stillOpen
    obtain ⟨handle, data⟩ := sound.opaqueData
    refine ⟨handle, data, ?_⟩
    intro reader readerCtx request io received cmd id allowed
    obtain ⟨member, -⟩ := entry_persists run disclosed stillOpen
    apply getKeyslot_opened invariant.prepared received cmd _ _ data
    · rw [id]
      exact namedSlot_of_token _ fresh issued
    · rw [id]
      exact openHandle_of_token run fresh member data allowed
  · rintro after closing before rfl wasOpen closed
    rw [List.append_assoc, List.cons_append] at run fresh
    obtain ⟨freed, gone⟩ := token_gone run fresh disclosed wasOpen closed
    refine ⟨?_, freed, ?_⟩
    · intro reader readerCtx request io received cmd id
      apply getKeyslot_denied invariant.prepared received cmd
      · rw [id]
        exact namedSlot_of_token _ fresh (by simpa using issued)
      · rw [id]
        exact openHandle_of_gone invariant sound.token gone
    · intro free reader readerCtx request io handle newToken received cmd firstSlot allocated drawn
      exact getKeyslot_issued invariant.prepared received cmd firstSlot.namedSlot_eq free allocated
        drawn

/-- A second session of the unit test, which obtains no handle. -/
def secondSession (keyData : List UInt8) : Step State Event (List Action) :=
  connecting (requestStep keyData).post 5 32 hwcryptoUnittestUuid

def firstHangUp (keyData : List UInt8) : Step State Event (List Action) :=
  ⟨(secondSession keyData).post, .chan 3 ⟨true, false⟩ (requestIo tokenKey), [.closed 3],
    (secondSession keyData).post.closeSession 16 ⟨3, hwcryptoUnittestUuid⟩⟩

theorem firstHangUp_exec : ∃ keyData,
    Exec (service twoSlots smallInterface)
      [secondSession keyData, requestStep keyData, connectStep] (secondSession keyData).post ∧
    Exec (service twoSlots smallInterface)
      [firstHangUp keyData, secondSession keyData, requestStep keyData, connectStep]
      (firstHangUp keyData).post := by
  obtain ⟨keyData, run⟩ := requestStep_exec
  have opened : Exec (service twoSlots smallInterface)
      [secondSession keyData, requestStep keyData, connectStep] (firstHangUp keyData).pre :=
    run.step (connecting_performs rfl rfl (by decide))
  exact ⟨keyData, opened, opened.step (hangUp_performs _ rfl rfl rfl)⟩

/-- The second session gets the key with the token of the first one, until that one hangs
up; then the token is unknown, and the slot is free. -/
theorem handle_lives_with_session_hangUp : ∃ keyData,
    Exec (service twoSlots smallInterface)
        [firstHangUp keyData, secondSession keyData, requestStep keyData, connectStep]
        (firstHangUp keyData).post ∧
      hwkeyChanHandleMsg twoSlots smallInterface (secondSession keyData).post 32
          ⟨5, hwcryptoUnittestUuid⟩ (requestIo tokenKey) = (do
        let out ← getUnittestKey32.call (requestIo tokenKey).env keyData 0
        respond smallInterface (secondSession keyData).post ⟨5, hwcryptoUnittestUuid⟩ tokenKey
          true ⟨out, [⟨0, 16, sampleToken⟩], [.retrieved 0]⟩) ∧
      hwkeyChanHandleMsg twoSlots smallInterface (firstHangUp keyData).post 32
          ⟨5, hwcryptoUnittestUuid⟩ (requestIo tokenKey) =
        .ok ⟨{ (firstHangUp keyData).post with
            reqData := slotIdOf (firstHangUp keyData).post.reqData tokenKey },
          [.responded 5 (notFoundRsp smallInterface tokenKey) true], true⟩ ∧
      ∀ entry ∈ (firstHangUp keyData).post.opaqueHandles, entry.keySlot ≠ 0 := by
  obtain ⟨keyData, opened, closed⟩ := firstHangUp_exec
  have fresh {history : List (Step State Event (List Action))}
      (tokens : issuedTokens history = [sampleToken]) : FreshTokens twoSlots history := by
    refine ⟨by simp [tokens], ?_⟩
    rw [tokens]
    decide
  have answered : Answered (requestStep keyData) 3 0 sampleToken :=
    ⟨by simp [requestStep], _, List.mem_cons_self, rfl, rfl⟩
  have open_ : Exec (service twoSlots smallInterface)
      ([secondSession keyData] ++ requestStep keyData :: [connectStep])
      (secondSession keyData).post := opened
  have closed_ : Exec (service twoSlots smallInterface)
      ([firstHangUp keyData, secondSession keyData] ++ requestStep keyData :: [connectStep])
      (firstHangUp keyData).post := closed
  obtain ⟨handle, data, opens⟩ := (handle_lives_with_session open_ (fresh rfl) answered).1
    (by simp [secondSession, connecting])
  obtain rfl : ⟨[hwcryptoUnittestUuid], getUnittestKey32⟩ = handle := Option.some.inj data
  obtain ⟨unknown, free, -⟩ := (handle_lives_with_session closed_ (fresh rfl) answered).2 []
    (firstHangUp keyData) [secondSession keyData] rfl (by simp [secondSession, connecting])
    List.mem_cons_self
  exact ⟨keyData, closed, opens 32 ⟨5, hwcryptoUnittestUuid⟩ tokenKey (requestIo tokenKey) rfl rfl
    (by decide) (by simp), unknown 32 ⟨5, hwcryptoUnittestUuid⟩ tokenKey (requestIo tokenKey) rfl
    rfl (by decide), free⟩

end TrustyApp.Hwkey
