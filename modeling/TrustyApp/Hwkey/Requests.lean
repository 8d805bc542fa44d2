import TrustyApp.Hwkey.Invariant

/-!
# Key slot requests

How a `HWKEY_GET_KEYSLOT` request is answered in any reachable state, and what it
leaves in the list of handles.
-/

namespace TrustyApp.Hwkey

open Ipc Reactive

variable {provider : Provider} {ifc : Interface} {state : State} {ctx : Addr}
  {chanCtx : ChanCtx} {io : Io} {request : Request} {handled : Handled}

theorem getKeyslot_eq (prepared : Prepared provider state) (received : io.recv = some request)
    (cmd : request.cmd = ifc.getKeyslot) :
    hwkeyChanHandleMsg provider ifc state ctx chanCtx io =
      answerFor provider.keySlots io.env state.opaqueHandles ctx chanCtx.uuid request.id
        state.keyData 0 >>= respond ifc state chanCtx request io.sent := by
  rw [hwkeyChanHandleMsg_getKeyslot received cmd,
    handleSlots_eq prepared.sound (prepared.long request), cstr_slotIdOf request prepared.reqData]

def notFoundRsp (ifc : Interface) (request : Request) : Response :=
  ⟨request.cmd ||| ifc.respBit, request.opId, .errNotFound, request.arg1, []⟩

theorem getKeyslot_denied (prepared : Prepared provider state)
    (received : io.recv = some request) (cmd : request.cmd = ifc.getKeyslot)
    (unnamed : namedSlot provider.keySlots chanCtx.uuid request.id = none)
    (unopened : openHandle provider.keySlots state.opaqueHandles chanCtx.uuid request.id = none) :
    hwkeyChanHandleMsg provider ifc state ctx chanCtx io =
      .ok ⟨{ state with reqData := slotIdOf state.reqData request },
        [.responded chanCtx.chan (notFoundRsp ifc request) io.sent], io.sent⟩ := by
  rw [getKeyslot_eq prepared received cmd, answerFor, unnamed, unopened]
  simp [respond, hwkeySendRsp, sanitize, notFoundRsp]

theorem getKeyslot_opened (prepared : Prepared provider state)
    (received : io.recv = some request) (cmd : request.cmd = ifc.getKeyslot)
    {entry : OpaqueHandleNode} {handle : OpaqueHandleData}
    (unnamed : namedSlot provider.keySlots chanCtx.uuid request.id = none)
    (opened : openHandle provider.keySlots state.opaqueHandles chanCtx.uuid request.id =
      some entry)
    (data : opaqueData provider.keySlots entry.keySlot = some handle) :
    hwkeyChanHandleMsg provider ifc state ctx chanCtx io = (do
      let out ← handle.retriever.call io.env state.keyData 0
      respond ifc state chanCtx request io.sent
        ⟨out, state.opaqueHandles, [.retrieved entry.keySlot]⟩) := by
  rw [getKeyslot_eq prepared received cmd, answerFor, unnamed, opened]
  simp only [retrieve, data]
  cases handle.retriever.call io.env state.keyData 0 with
  | error halt => rfl
  | ok out => rfl

theorem getKeyslot_named (prepared : Prepared provider state)
    (received : io.recv = some request) (cmd : request.cmd = ifc.getKeyslot)
    {slot : Nat} {handler : Handler}
    (named : namedSlot provider.keySlots chanCtx.uuid request.id = some (slot, handler)) :
    hwkeyChanHandleMsg provider ifc state ctx chanCtx io =
      callHandler io.env state.opaqueHandles ctx slot handler state.keyData 0 >>=
        respond ifc state chanCtx request io.sent := by
  rw [getKeyslot_eq prepared received cmd, answerFor, named]

def tokenRsp (ifc : Interface) (request : Request) (token : AccessToken) : Response :=
  ⟨request.cmd ||| ifc.respBit, request.opId, .noError, request.arg1, token.bytes⟩

theorem getKeyslot_issued (prepared : Prepared provider state)
    (received : io.recv = some request) (cmd : request.cmd = ifc.getKeyslot)
    {slot : Nat} {handle : OpaqueHandleData} {token : AccessToken}
    (named : namedSlot provider.keySlots chanCtx.uuid request.id =
      some (slot, .getKeyHandle handle))
    (free : ∀ entry ∈ state.opaqueHandles, entry.keySlot ≠ slot)
    (allocated : io.env.calloc = true)
    (drawn : drawToken io.env.draws .empty = .ok (.ok token)) :
    ∃ keyData, hwkeyChanHandleMsg provider ifc state ctx chanCtx io =
      .ok ⟨{ state with
          opaqueHandles := state.opaqueHandles ++ [⟨slot, ctx, token⟩]
          reqData := slotIdOf state.reqData request
          keyData := keyData },
        [.responded chanCtx.chan (tokenRsp ifc request token) io.sent, .issued slot token],
        io.sent⟩ := by
  have space := prepared.space
  have size : (Bytes.overwrite state.keyData token.bytes).length = state.keyData.length :=
    Bytes.length_overwrite (by rw [token.size]; exact space)
  have payload : (Bytes.overwrite state.keyData token.bytes).take hwkeyOpaqueHandleSize =
      token.bytes := by
    rw [← token.size]
    exact Bytes.take_overwrite state.keyData token.bytes
  have enough : ¬ (Bytes.overwrite state.keyData token.bytes).length < hwkeyOpaqueHandleSize := by
    omega
  rw [getKeyslot_named prepared received cmd named, callHandler_of_free ctx handle 0 space
    (fun entry member => (prepared.sound entry member).1) free allocated, drawn]
  simp only [ok_bind, drawnLookup, respond, hwkeySendRsp, enough, if_false, payload]
  exact ⟨_, rfl⟩

def rngFailedRsp (ifc : Interface) (request : Request) (rc : KernelError) : Response :=
  ⟨request.cmd ||| ifc.respBit, request.opId, .kernel rc, request.arg1, []⟩

theorem getKeyslot_rngFailed (prepared : Prepared provider state)
    (received : io.recv = some request) (cmd : request.cmd = ifc.getKeyslot)
    {slot : Nat} {handle : OpaqueHandleData} {rc : KernelError}
    (named : namedSlot provider.keySlots chanCtx.uuid request.id =
      some (slot, .getKeyHandle handle))
    (free : ∀ entry ∈ state.opaqueHandles, entry.keySlot ≠ slot)
    (allocated : io.env.calloc = true)
    (failed : drawToken io.env.draws .empty = .ok (.error rc)) :
    hwkeyChanHandleMsg provider ifc state ctx chanCtx io =
      .ok ⟨{ state with reqData := slotIdOf state.reqData request },
        [.responded chanCtx.chan (rngFailedRsp ifc request rc) io.sent], io.sent⟩ := by
  rw [getKeyslot_named prepared received cmd named,
    callHandler_of_free ctx handle 0 prepared.space
      (fun entry member => (prepared.sound entry member).1) free allocated, failed]
  simp [drawnLookup, respond, hwkeySendRsp, sanitize, rngFailedRsp]

def alreadyExistsRsp (ifc : Interface) (request : Request) : Response :=
  ⟨request.cmd ||| ifc.respBit, request.opId, .errAlreadyExists, request.arg1, []⟩

theorem getKeyslot_taken (prepared : Prepared provider state)
    (received : io.recv = some request) (cmd : request.cmd = ifc.getKeyslot)
    {handle : OpaqueHandleData} {entry : OpaqueHandleNode}
    (named : namedSlot provider.keySlots chanCtx.uuid request.id =
      some (entry.keySlot, .getKeyHandle handle))
    (member : entry ∈ state.opaqueHandles) :
    hwkeyChanHandleMsg provider ifc state ctx chanCtx io =
      .ok ⟨{ state with reqData := slotIdOf state.reqData request },
        [.responded chanCtx.chan (alreadyExistsRsp ifc request) io.sent], io.sent⟩ := by
  rw [getKeyslot_named prepared received cmd named, callHandler_of_taken io.env ctx handle 0
    prepared.space (fun entry member => (prepared.sound entry member).1) member]
  simp [respond, hwkeySendRsp, sanitize, alreadyExistsRsp]

/-- A retriever is only called for a session whose UUID its slot allows. -/
theorem hwkeyChanHandleMsg_retrieved {slot : Nat} (prepared : Prepared provider state)
    (result : hwkeyChanHandleMsg provider ifc state ctx chanCtx io = .ok handled)
    (member : .retrieved slot ∈ handled.actions) :
    ∃ handle, opaqueData provider.keySlots slot = some handle ∧
      chanCtx.uuid ∈ handle.allowedUuids := by
  cases received : io.recv with
  | none =>
      simp only [hwkeyChanHandleMsg, received, Except.ok.injEq] at result
      subst result
      simp at member
  | some request =>
      by_cases get : request.cmd = ifc.getKeyslot
      · obtain ⟨found, rsp, outcome, -, -, -, rfl⟩ :=
          getKeyslot_answered prepared received get result
        cases outcome with
        | named | denied => simp at member
        | granted _ granted => cases granted <;> simp at member
        | @retrieved entry handle out unnamed opened data called =>
            obtain rfl : slot = entry.keySlot := by simpa using member
            exact mayRead_eq_true.mp (Grants.redeem_eq_some opened).2.1
      · simp only [hwkeyChanHandleMsg, received, get, if_false] at result
        split at result
        · obtain ⟨derived, answered, result⟩ := bind_eq_ok.mp result
          obtain ⟨rsp, keyData, -, rfl⟩ := derive_answered answered
          obtain rfl := Except.ok.inj result
          simp at member
        · obtain ⟨rsp, -, result⟩ := bind_eq_ok.mp result
          obtain rfl := Except.ok.inj result
          simp at member

theorem retrieved_allowed {step : Step State Event (List Action)} {slot : Nat}
    (reached : Reachable (service provider ifc) step.pre)
    (performs : (service provider ifc).Performs step)
    (member : .retrieved slot ∈ step.output) :
    ∃ ctx chanCtx bits io handle, step.event = .chan chanCtx.chan bits io ∧
      step.pre.conns.ctxs ctx = some chanCtx ∧
      opaqueData provider.keySlots slot = some handle ∧ chanCtx.uuid ∈ handle.allowedUuids := by
  have prepared := (handleInvariant_of_reachable reached).prepared
  obtain ⟨pre, event, output, post⟩ := step
  have effect := effect_of_performs reached performs
  simp only at effect member prepared ⊢
  cases effect with
  | refused closings =>
      obtain ⟨chan, isClosed, -⟩ := closings _ member
      cases isClosed
  | opened | idle | hungUp => simp at member
  | replied _ _ live answered =>
      obtain ⟨handle, data, allowed⟩ := hwkeyChanHandleMsg_retrieved prepared answered member
      exact ⟨_, _, _, _, handle, rfl, live, data, allowed⟩
  | dropped _ _ live answered =>
      obtain ⟨handle, data, allowed⟩ :=
        hwkeyChanHandleMsg_retrieved prepared answered (by simpa using member)
      exact ⟨_, _, _, _, handle, rfl, live, data, allowed⟩

/-- In every reachable state a request is answered by the first slot of the caller
with that id, or else through the first handle with that token whose slot allows the
caller, or else with an error and without effect.  In no run does a session get a key
through a retriever whose slot does not allow its UUID. -/
theorem getKeyslot_access_control {history : List (Step State Event (List Action))}
    (run : Exec (service provider ifc) history state) :
    (∀ ctx chanCtx request io, io.recv = some request → request.cmd = ifc.getKeyslot →
      (∀ i handler, FirstSlot provider.keySlots chanCtx.uuid request.id i handler →
        hwkeyChanHandleMsg provider ifc state ctx chanCtx io =
            callHandler io.env state.opaqueHandles ctx i handler state.keyData 0 >>=
              respond ifc state chanCtx request io.sent ∧
          ∀ handle, handler = .getKeyHandle handle →
            Granted io.env state.opaqueHandles ctx i state.keyData 0
              (callHandler io.env state.opaqueHandles ctx i handler state.keyData 0)) ∧
      ((∀ slot ∈ provider.keySlots, slot.answering chanCtx.uuid request.id = none) →
        (∀ before entry after handle, state.opaqueHandles = before ++ entry :: after →
          Opens provider.keySlots chanCtx.uuid request.id entry handle →
          (∀ other ∈ before, ∀ data,
            ¬ Opens provider.keySlots chanCtx.uuid request.id other data) →
          hwkeyChanHandleMsg provider ifc state ctx chanCtx io = (do
            let out ← handle.retriever.call io.env state.keyData 0
            respond ifc state chanCtx request io.sent
              ⟨out, state.opaqueHandles, [.retrieved entry.keySlot]⟩)) ∧
        ((∀ entry ∈ state.opaqueHandles, ∀ handle,
            ¬ Opens provider.keySlots chanCtx.uuid request.id entry handle) →
          hwkeyChanHandleMsg provider ifc state ctx chanCtx io =
            .ok ⟨{ state with reqData := slotIdOf state.reqData request },
              [.responded chanCtx.chan (notFoundRsp ifc request) io.sent], io.sent⟩))) ∧
      ∀ step ∈ history, ∀ slot, .retrieved slot ∈ step.output →
        ∃ ctx chanCtx bits io handle, step.event = .chan chanCtx.chan bits io ∧
          step.pre.conns.ctxs ctx = some chanCtx ∧
          opaqueData provider.keySlots slot = some handle ∧
          chanCtx.uuid ∈ handle.allowedUuids := by
  have prepared := (handleInvariant_of_reachable run.reachable).prepared
  constructor
  · intro ctx chanCtx request io received cmd
    constructor
    · intro i handler firstSlot
      constructor
      · rw [getKeyslot_eq prepared received cmd, answerFor, firstSlot.namedSlot_eq]
      · rintro handle rfl
        exact callHandler_granted io.env ctx i handle 0 prepared.space
          fun entry member => (prepared.sound entry member).1
    · intro unanswered
      have unnamed := namedSlot_eq_none unanswered
      constructor
      · intro before entry after handle split opens first
        apply getKeyslot_opened prepared received cmd unnamed _ opens.2.1
        rw [split]
        exact openHandle_of_first opens first
      · intro unopened
        exact getKeyslot_denied prepared received cmd unnamed (openHandle_eq_none unopened)
  · intro step member slot retrieved
    obtain ⟨reached, performs⟩ := run.performed member
    exact retrieved_allowed reached performs retrieved

/-- A request that is not answered with success leaves the list of handles as it was;
a successful one adds at most one handle, for the requested slot and the requester. -/
theorem failed_getKeyslot_keeps_handles (reached : Reachable (service provider ifc) state)
    (received : io.recv = some request) (cmd : request.cmd = ifc.getKeyslot)
    (result : hwkeyChanHandleMsg provider ifc state ctx chanCtx io = .ok handled) :
    ∃ rsp actions, handled.actions = .responded chanCtx.chan rsp io.sent :: actions ∧
      (rsp.status ≠ .noError → handled.state.opaqueHandles = state.opaqueHandles) ∧
      (rsp.status = .noError →
        handled.state.opaqueHandles = state.opaqueHandles ∨
        ∃ slot handle token,
          FirstSlot provider.keySlots chanCtx.uuid request.id slot (.getKeyHandle handle) ∧
          handled.state.opaqueHandles = state.opaqueHandles ++ [⟨slot, ctx, token⟩]) := by
  have prepared := (handleInvariant_of_reachable reached).prepared
  obtain ⟨found, rsp, outcome, -, status, -, rfl⟩ :=
    getKeyslot_answered prepared received cmd result
  refine ⟨rsp, found.actions, rfl, ?_⟩
  rw [status]
  cases outcome with
  | named | retrieved | denied => exact ⟨fun _ => rfl, fun _ => .inl rfl⟩
  | granted named granted =>
      cases granted with
      | taken | noMemory | rngFailed => exact ⟨fun _ => rfl, fun _ => .inl rfl⟩
      | issued =>
          exact ⟨fun failed => absurd rfl failed,
            fun _ => .inr ⟨_, _, _, firstSlot_of_namedSlot named, rfl⟩⟩

def successfulCalls : CipherCalls :=
  ⟨true, true, true, true, fun _ _ text => ⟨true, text, le_rfl⟩, fun _ _ _ => some 0⟩

def successfulOutcomes : Outcomes :=
  ⟨fun _ _ _ len => ⟨true, List.replicate len 0, by simp⟩, by simp, successfulCalls,
    successfulCalls, true, 0⟩

/-- The RNG delivers one buffer of zero bytes, which is rejected, and then a good one. -/
def secondDraw : List (Except KernelError RandomBuf) :=
  [.ok ⟨List.replicate 34 0, rfl⟩, .ok ⟨List.replicate 34 1, rfl⟩]

def keyslotRequest (id : List UInt8) (fits : id.length ≤ hwkeyMaxPayloadSize) : Request :=
  ⟨smallInterface.getKeyslot, 7, 0, id, fits⟩

def requestIo (request : Request) : Io :=
  ⟨some request, ⟨[], by decide⟩, ⟨true, secondDraw, successfulOutcomes⟩, true⟩

def unknownKey : Request := keyslotRequest [120] (by decide)

theorem unknownKey_unanswered : ∀ slot ∈ twoSlots.keySlots,
    slot.answering hwcryptoUnittestUuid unknownKey.id = none := by
  simp [twoSlots, KeySlot.answering, unknownKey, keyslotRequest, Request.id, Bytes.cstr]

def ownKey : Request := keyslotRequest [107, 101, 121] (by decide)

def sampleToken : AccessToken := ⟨List.replicate 31 1 ++ [0], rfl⟩

def requestStep (keyData : List UInt8) : Step State Event (List Action) :=
  ⟨connectStep.post, .chan 3 ⟨false, true⟩ (requestIo ownKey),
    [.responded 3 (tokenRsp smallInterface ownKey sampleToken) true, .issued 0 sampleToken],
    { connectStep.post with
      opaqueHandles := [⟨0, 16, sampleToken⟩]
      reqData := slotIdOf connectStep.post.reqData ownKey
      keyData := keyData }⟩

theorem ownKey_firstSlot : FirstSlot twoSlots.keySlots hwcryptoUnittestUuid ownKey.id 0
    (.getKeyHandle ⟨[hwcryptoUnittestUuid], getUnittestKey32⟩) := by
  refine ⟨⟨_, rfl, ?_⟩, fun j slot before => absurd before (by omega)⟩
  simp [KeySlot.answering, ownKey, keyslotRequest, Request.id, Bytes.cstr]

theorem requestStep_exec : ∃ keyData,
    Exec (service twoSlots smallInterface) [requestStep keyData, connectStep]
      (requestStep keyData).post := by
  have prepared := (handleInvariant_of_reachable connectStep_exec.reachable).prepared
  obtain ⟨keyData, handled⟩ : ∃ keyData, hwkeyChanHandleMsg twoSlots smallInterface
      connectStep.post 16 ⟨3, hwcryptoUnittestUuid⟩ (requestIo ownKey) = _ :=
    getKeyslot_issued prepared rfl rfl ownKey_firstSlot.namedSlot_eq
      (fun _ member => by cases member) rfl
      (show drawToken secondDraw .empty = .ok (.ok sampleToken) from rfl)
  have before : Exec (service twoSlots smallInterface) [connectStep] (requestStep keyData).pre :=
    connectStep_exec
  exact ⟨keyData, before.step (message_performs rfl rfl rfl handled rfl)⟩

def tokenKey : Request := keyslotRequest sampleToken.bytes (by decide)

theorem tokenKey_unanswered : ∀ slot ∈ twoSlots.keySlots,
    slot.answering hwcryptoUnittestUuid tokenKey.id = none := by
  simp [twoSlots, KeySlot.answering, tokenKey, keyslotRequest, sampleToken, Request.id,
    Bytes.cstr]

/-- With the token the session gets the key of the slot, with an unknown id nothing. -/
theorem getKeyslot_access_control_tokenKey : ∃ keyData,
    Exec (service twoSlots smallInterface) [requestStep keyData, connectStep]
        (requestStep keyData).post ∧
      hwkeyChanHandleMsg twoSlots smallInterface (requestStep keyData).post 16
          ⟨3, hwcryptoUnittestUuid⟩ (requestIo tokenKey) = (do
        let out ← getUnittestKey32.call (requestIo tokenKey).env keyData 0
        respond smallInterface (requestStep keyData).post ⟨3, hwcryptoUnittestUuid⟩ tokenKey true
          ⟨out, [⟨0, 16, sampleToken⟩], [.retrieved 0]⟩) ∧
      hwkeyChanHandleMsg twoSlots smallInterface (requestStep keyData).post 16
          ⟨3, hwcryptoUnittestUuid⟩ (requestIo unknownKey) =
        .ok ⟨{ (requestStep keyData).post with
            reqData := slotIdOf (requestStep keyData).post.reqData unknownKey },
          [.responded 3 (notFoundRsp smallInterface unknownKey) true], true⟩ := by
  obtain ⟨keyData, run⟩ := requestStep_exec
  obtain ⟨answers, -⟩ := getKeyslot_access_control run
  have lookup := (answers 16 ⟨3, hwcryptoUnittestUuid⟩ tokenKey (requestIo tokenKey) rfl rfl).2
    tokenKey_unanswered
  have unknown := (answers 16 ⟨3, hwcryptoUnittestUuid⟩ unknownKey (requestIo unknownKey) rfl
    rfl).2 unknownKey_unanswered
  refine ⟨keyData, run, ?_, unknown.2 ?_⟩
  · exact lookup.1 [] ⟨0, 16, sampleToken⟩ [] ⟨[hwcryptoUnittestUuid], getUnittestKey32⟩ rfl
      ⟨by decide, rfl, List.mem_singleton_self _⟩ (fun _ before => by cases before)
  · intro entry member handle opens
    obtain rfl := List.mem_singleton.mp member
    exact absurd opens.1 (by decide)

def otherKey : Request := keyslotRequest [111, 107, 101, 121] (by decide)

theorem otherKey_firstSlot : FirstSlot twoSlots.keySlots hwcryptoUnittestUuid otherKey.id 1
    (.getKeyHandle ⟨[hwcryptoUnittestUuid], getUnittestKey32⟩) := by
  refine ⟨⟨_, rfl, ?_⟩, ?_⟩
  · simp [KeySlot.answering, otherKey, keyslotRequest, Request.id, Bytes.cstr]
  · intro j slot before at_
    obtain rfl : j = 0 := by omega
    obtain rfl := Option.some.inj at_
    simp [KeySlot.answering, otherKey, keyslotRequest, Request.id, Bytes.cstr]

def errGeneric : KernelError := ⟨Int.negSucc 0, Int.negSucc_lt_zero 0⟩

/-- The RNG delivers a buffer that is rejected, and then fails. -/
def failingIo (request : Request) : Io :=
  ⟨some request, ⟨[], by decide⟩,
    ⟨true, [.ok ⟨List.replicate 34 0, rfl⟩, .error errGeneric], successfulOutcomes⟩, true⟩

/-- The request for another handle fails after its node was inserted, and the handle that
is there stays alone. -/
theorem failed_getKeyslot_keeps_handles_rngFailed : ∃ keyData handled,
    Exec (service twoSlots smallInterface) [requestStep keyData, connectStep]
        (requestStep keyData).post ∧
      hwkeyChanHandleMsg twoSlots smallInterface (requestStep keyData).post 16
        ⟨3, hwcryptoUnittestUuid⟩ (failingIo otherKey) = .ok handled ∧
      handled.state.opaqueHandles = [⟨0, 16, sampleToken⟩] := by
  obtain ⟨keyData, run⟩ := requestStep_exec
  have prepared := (handleInvariant_of_reachable run.reachable).prepared
  have free : ∀ entry ∈ (requestStep keyData).post.opaqueHandles, entry.keySlot ≠ 1 := by
    simp [requestStep]
  have answered : hwkeyChanHandleMsg twoSlots smallInterface (requestStep keyData).post 16
      ⟨3, hwcryptoUnittestUuid⟩ (failingIo otherKey) = _ :=
    getKeyslot_rngFailed prepared rfl rfl otherKey_firstSlot.namedSlot_eq free rfl
      (show drawToken (failingIo otherKey).env.draws .empty = .ok (.error _) from rfl)
  refine ⟨keyData, _, run, answered, ?_⟩
  obtain ⟨rsp, actions, responded, failed, -⟩ :=
    failed_getKeyslot_keeps_handles run.reachable rfl rfl answered
  simp only [List.cons.injEq, Action.responded.injEq] at responded
  exact failed (by rw [← responded.1.2.1]; simp [rngFailedRsp])

theorem opaque_handles_sound_requested : ∃ keyData,
    Exec (service twoSlots smallInterface) [requestStep keyData, connectStep]
        (requestStep keyData).post ∧
      ((∃ slot handle chanCtx, twoSlots.keySlots[0]? = some slot ∧
          slot.handler = some (.getKeyHandle handle) ∧
          (requestStep keyData).post.conns.ctxs 16 = some chanCtx ∧
          (requestStep keyData).post.conns.chans chanCtx.chan = .attached 16 ∧
          chanCtx.uuid = slot.uuid) ∧
        ∃ chars, chars.length = 31 ∧ 0 ∉ chars ∧ sampleToken.bytes = chars ++ [0]) := by
  obtain ⟨keyData, run⟩ := requestStep_exec
  have member : ⟨0, 16, sampleToken⟩ ∈ (requestStep keyData).post.opaqueHandles := by
    simp [requestStep]
  exact ⟨keyData, run, (opaque_handles_sound run.reachable).2.1 _ member⟩

end TrustyApp.Hwkey
