import TrustyApp.Hwkey.Access

/-!
# Handling a message

What one message can do to the state, whatever its command.  The id of a
`HWKEY_GET_KEYSLOT` request is the C string in its payload: the forced terminator
cuts off what earlier requests left in the buffer.
-/

namespace TrustyApp.Hwkey

open Ipc Reactive

variable {provider : Provider} {ifc : Interface} {state : State} {ctx : Addr}
  {chanCtx : ChanCtx} {io : Io} {request : Request} {handled : Handled}

/-- `req_data` as `_handle_slots` sees it. -/
def slotIdOf (reqData : List UInt8) (request : Request) : List UInt8 :=
  terminate (receiveInto reqData request) request

def Request.id (request : Request) : List UInt8 := Bytes.cstr request.payload

theorem length_receiveInto {reqData : List UInt8} (request : Request)
    (size : reqData.length = hwkeyMaxPayloadSize + 1) :
    (receiveInto reqData request).length = hwkeyMaxPayloadSize + 1 := by
  have fits := request.fits
  rw [receiveInto, Bytes.length_overwrite (by omega), size]

theorem length_slotIdOf {reqData : List UInt8} (request : Request)
    (size : reqData.length = hwkeyMaxPayloadSize + 1) :
    (slotIdOf reqData request).length = hwkeyMaxPayloadSize + 1 := by
  rw [slotIdOf, terminate, List.length_set, length_receiveInto request size]

theorem slotIdOf_eq {reqData : List UInt8} (request : Request)
    (size : reqData.length = hwkeyMaxPayloadSize + 1) :
    slotIdOf reqData request =
      request.payload ++ 0 :: reqData.drop (request.payload.length + 1) := by
  have inside : request.payload.length < reqData.length := by
    have fits := request.fits
    omega
  rw [slotIdOf, terminate, receiveInto, Bytes.overwrite, List.set_append_right _ _ le_rfl,
    Nat.sub_self, List.drop_eq_getElem_cons inside, List.set_cons_zero]

theorem cstr_slotIdOf {reqData : List UInt8} (request : Request)
    (size : reqData.length = hwkeyMaxPayloadSize + 1) :
    Bytes.cstr (slotIdOf reqData request) = request.id := by
  rw [slotIdOf_eq request size, Bytes.cstr_append_nul, Request.id]

theorem length_sanitize {buf : List UInt8} {len : Nat} (fits : len ≤ buf.length) :
    (sanitize buf len).length = buf.length := by
  unfold sanitize
  split
  · exact Bytes.length_overwrite (by simpa using fits)
  · rfl

/-- The end of `hwkey_handle_get_keyslot_cmd`, after the lookup. -/
def respond (ifc : Interface) (state : State) (chanCtx : ChanCtx) (request : Request)
    (sent : Bool) (found : Lookup) : Except Halt Handled := do
  let rsp ← hwkeySendRsp ifc request found.out.status request.arg1 found.out.kbuf found.out.klen
  .ok ⟨{ state with
      opaqueHandles := found.handles
      reqData := slotIdOf state.reqData request
      keyData := sanitize found.out.kbuf found.out.klen },
    .responded chanCtx.chan rsp sent :: found.actions, sent⟩

theorem hwkeyChanHandleMsg_getKeyslot (received : io.recv = some request)
    (cmd : request.cmd = ifc.getKeyslot) :
    hwkeyChanHandleMsg provider ifc state ctx chanCtx io =
      handleSlots (some provider.keySlots) io.env state.opaqueHandles ctx chanCtx.uuid
        (slotIdOf state.reqData request) state.keyData 0 >>=
      respond ifc state chanCtx request io.sent := by
  simp only [hwkeyChanHandleMsg, received, cmd, if_true, hwkeyHandleGetKeyslotCmd, slotIdOf]
  rfl

theorem hwkeySendRsp_eq_ok {status : Status} {arg1 : UInt32} {data : List UInt8} {len : Nat}
    {rsp : Response} (sent : hwkeySendRsp ifc request status arg1 data len = .ok rsp) :
    len ≤ data.length ∧
      rsp = ⟨request.cmd ||| ifc.respBit, request.opId, status, arg1, data.take len⟩ := by
  unfold hwkeySendRsp at sent
  split at sent
  · cases sent
  · exact ⟨by omega, (Except.ok.inj sent).symm⟩

theorem respond_eq_ok {found : Lookup} {sent : Bool}
    (result : respond ifc state chanCtx request sent found = .ok handled) :
    ∃ rsp, found.out.klen ≤ found.out.kbuf.length ∧ rsp.status = found.out.status ∧
      rsp.payload = found.out.kbuf.take found.out.klen ∧
      handled = ⟨{ state with
          opaqueHandles := found.handles
          reqData := slotIdOf state.reqData request
          keyData := sanitize found.out.kbuf found.out.klen },
        .responded chanCtx.chan rsp sent :: found.actions, sent⟩ := by
  obtain ⟨rsp, made, result⟩ := bind_eq_ok.mp result
  obtain ⟨fits, rfl⟩ := hwkeySendRsp_eq_ok made
  exact ⟨_, fits, rfl, rfl, (Except.ok.inj result).symm⟩

structure Prepared (provider : Provider) (state : State) : Prop where
  sound : SoundHandles provider.keySlots state.opaqueHandles
  reqData : state.reqData.length = hwkeyMaxPayloadSize + 1
  keyData : state.keyData.length = hwkeyMaxPayloadSize

theorem Prepared.long (prepared : Prepared provider state) (request : Request) :
    hwkeyOpaqueHandleSize ≤ (slotIdOf state.reqData request).length := by
  rw [length_slotIdOf request prepared.reqData]
  decide

theorem Prepared.space (prepared : Prepared provider state) :
    hwkeyOpaqueHandleSize ≤ state.keyData.length := by
  rw [prepared.keyData]
  decide

theorem getKeyslot_answered (prepared : Prepared provider state)
    (received : io.recv = some request) (cmd : request.cmd = ifc.getKeyslot)
    (result : hwkeyChanHandleMsg provider ifc state ctx chanCtx io = .ok handled) :
    ∃ found rsp, Found provider.keySlots io.env state.opaqueHandles ctx chanCtx.uuid request.id
        state.keyData 0 found ∧
      found.out.klen ≤ found.out.kbuf.length ∧ rsp.status = found.out.status ∧
      rsp.payload = found.out.kbuf.take found.out.klen ∧
      handled = ⟨{ state with
          opaqueHandles := found.handles
          reqData := slotIdOf state.reqData request
          keyData := sanitize found.out.kbuf found.out.klen },
        .responded chanCtx.chan rsp io.sent :: found.actions, io.sent⟩ := by
  rw [hwkeyChanHandleMsg_getKeyslot received cmd] at result
  obtain ⟨found, lookedUp, result⟩ := bind_eq_ok.mp result
  have outcome := handleSlots_found prepared.sound (prepared.long request) prepared.space lookedUp
  rw [cstr_slotIdOf request prepared.reqData] at outcome
  obtain ⟨rsp, answered⟩ := respond_eq_ok result
  exact ⟨found, rsp, outcome, answered⟩

/-- How a message can change the list of handles: not at all, or by one entry for the
requested slot, whose token is the response. -/
inductive HandleChange (provider : Provider) (handles : List OpaqueHandleNode) (ctx : Addr)
    (chanCtx : ChanCtx) : List OpaqueHandleNode → List Action → Prop
  | kept {actions : List Action} : (∀ slot token, .issued slot token ∉ actions) →
      HandleChange provider handles ctx chanCtx handles actions
  | added {id : List UInt8} {slot : Nat} {handle : OpaqueHandleData} {token : AccessToken}
      {rsp : Response} {sent : Bool} :
      namedSlot provider.keySlots chanCtx.uuid id = some (slot, .getKeyHandle handle) →
      (∀ entry ∈ handles, entry.keySlot ≠ slot) → token.WellFormed → rsp.status = .noError →
      rsp.payload = token.bytes →
      HandleChange provider handles ctx chanCtx (handles ++ [⟨slot, ctx, token⟩])
        [.responded chanCtx.chan rsp sent, .issued slot token]

/-- What a message can do to the state, and what it does besides: it neither opens nor
closes a channel, and it responds on its own channel only. -/
structure Replied (provider : Provider) (state : State) (ctx : Addr) (chanCtx : ChanCtx)
    (handled : Handled) : Prop where
  conns : handled.state.conns = state.conns
  reqData : handled.state.reqData.length = state.reqData.length
  keyData : handled.state.keyData.length = state.keyData.length
  handles : HandleChange provider state.opaqueHandles ctx chanCtx handled.state.opaqueHandles
    handled.actions
  opened : ∀ chan, .opened chan ∉ handled.actions
  closed : ∀ chan, .closed chan ∉ handled.actions
  responded : ∀ chan rsp sent, .responded chan rsp sent ∈ handled.actions →
    chan = chanCtx.chan ∧ sent = handled.sent

theorem Found.handleChange {env : Env} {handles : List OpaqueHandleNode} {id kbuf : List UInt8}
    {found : Lookup} {rsp : Response} (sent : Bool)
    (outcome : Found provider.keySlots env handles ctx chanCtx.uuid id kbuf 0 found)
    (status : rsp.status = found.out.status)
    (payload : rsp.payload = found.out.kbuf.take found.out.klen) :
    HandleChange provider handles ctx chanCtx found.handles
      (.responded chanCtx.chan rsp sent :: found.actions) := by
  cases outcome with
  | named | retrieved | denied => exact .kept (by simp)
  | granted named granted =>
      cases granted with
      | taken | noMemory | rngFailed => exact .kept (by simp)
      | @issued token absent _ _ wellFormed =>
          apply HandleChange.added named absent wellFormed status
          rw [payload, ← token.size]
          exact Bytes.take_overwrite kbuf token.bytes

theorem Found.actions_cases {env : Env} {slots : List KeySlot} {handles : List OpaqueHandleNode}
    {uuid : Uuid} {id kbuf : List UInt8} {klen : Nat} {found : Lookup}
    (outcome : Found slots env handles ctx uuid id kbuf klen found) :
    found.actions = [] ∨ (∃ slot token, found.actions = [.issued slot token]) ∨
      ∃ slot, found.actions = [.retrieved slot] := by
  cases outcome with
  | named | denied => exact .inl rfl
  | retrieved => exact .inr (.inr ⟨_, rfl⟩)
  | granted _ granted =>
      cases granted with
      | taken | noMemory | rngFailed => exact .inl rfl
      | issued => exact .inr (.inl ⟨_, _, rfl⟩)

theorem getKeyslot_replied (prepared : Prepared provider state)
    (received : io.recv = some request) (cmd : request.cmd = ifc.getKeyslot)
    (result : hwkeyChanHandleMsg provider ifc state ctx chanCtx io = .ok handled) :
    Replied provider state ctx chanCtx handled := by
  obtain ⟨found, rsp, outcome, fits, status, payload, rfl⟩ :=
    getKeyslot_answered prepared received cmd result
  have space := prepared.space
  have actions := outcome.actions_cases
  refine ⟨rfl, ?_, ?_, outcome.handleChange io.sent status payload, ?_, ?_, ?_⟩
  · rw [length_slotIdOf request prepared.reqData, prepared.reqData]
  · exact (length_sanitize fits).trans (outcome.keepsSize space)
  · rcases actions with none | ⟨slot, token, issued⟩ | ⟨slot, retrieved⟩ <;> simp [*]
  · rcases actions with none | ⟨slot, token, issued⟩ | ⟨slot, retrieved⟩ <;> simp [*]
  · rcases actions with none | ⟨slot, token, issued⟩ | ⟨slot, retrieved⟩ <;> simp +contextual [*]

theorem deriveKey_keepsSize {uuid : Uuid} {ikm : List UInt8} {env : Env} {out : KeyOut}
    (derived : deriveKey provider ifc state uuid request ikm env = .ok out) :
    out.kbuf.length = state.keyData.length := by
  unfold deriveKey at derived
  split at derived
  · exact KeyFn.call_keepsSize derived
  · obtain rfl := Except.ok.inj derived
    rfl

theorem derive_answered {ikm : List UInt8}
    (result : hwkeyHandleDeriveKeyCmd provider ifc state chanCtx request ikm io = .ok handled) :
    ∃ rsp keyData, keyData.length = state.keyData.length ∧
      handled = ⟨{ state with keyData := keyData }, [.responded chanCtx.chan rsp io.sent],
        io.sent⟩ := by
  obtain ⟨out, derived, result⟩ := bind_eq_ok.mp result
  obtain ⟨rsp, made, result⟩ := bind_eq_ok.mp result
  obtain ⟨fits, -⟩ := hwkeySendRsp_eq_ok made
  refine ⟨rsp, _, ?_, (Except.ok.inj result).symm⟩
  rw [length_sanitize fits, deriveKey_keepsSize derived]

theorem hwkeyChanHandleMsg_replied (prepared : Prepared provider state)
    (result : hwkeyChanHandleMsg provider ifc state ctx chanCtx io = .ok handled) :
    Replied provider state ctx chanCtx handled := by
  cases received : io.recv with
  | none =>
      simp only [hwkeyChanHandleMsg, received, Except.ok.injEq] at result
      subst result
      have room : io.stray.val.length ≤ state.reqData.length := by
        have fits := io.stray.property
        have size := prepared.reqData
        omega
      exact ⟨rfl, Bytes.length_overwrite room, rfl, .kept (by simp), by simp, by simp, by simp⟩
  | some request =>
      have filled := length_receiveInto request prepared.reqData
      by_cases get : request.cmd = ifc.getKeyslot
      · exact getKeyslot_replied prepared received get result
      · simp only [hwkeyChanHandleMsg, received, get, if_false] at result
        by_cases derive : request.cmd = ifc.derive
        · simp only [derive, if_true] at result
          obtain ⟨derived, answered, result⟩ := bind_eq_ok.mp result
          obtain ⟨rsp, keyData, size, rfl⟩ := derive_answered answered
          obtain rfl := Except.ok.inj result
          have room : request.payload.length ≤ (receiveInto state.reqData request).length := by
            have fits := request.fits
            omega
          refine ⟨rfl, ?_, size, .kept (by simp), by simp, by simp, by simp +contextual⟩
          exact (length_sanitize room).trans (filled.trans prepared.reqData.symm)
        · simp only [derive, if_false] at result
          obtain ⟨rsp, made, result⟩ := bind_eq_ok.mp result
          obtain rfl := Except.ok.inj result
          exact ⟨rfl, filled.trans prepared.reqData.symm, rfl, .kept (by simp), by simp, by simp,
            by simp +contextual⟩

/-- What can stop the service while it handles a message: the provider, a response
longer than the key buffer, or an RNG that keeps it waiting. -/
inductive Outside : Halt → Prop
  | drawing : Outside .drawing
  | outOfBounds : Outside .outOfBounds
  | provider (crash : Crash) : Outside (.provider crash)

theorem hwkeySendRsp_outside {status : Status} {arg1 : UInt32} {data : List UInt8} {len : Nat}
    {halt : Halt} (stopped : hwkeySendRsp ifc request status arg1 data len = .error halt) :
    Outside halt := by
  unfold hwkeySendRsp at stopped
  split at stopped
  · obtain rfl := Except.error.inj stopped
    exact .outOfBounds
  · cases stopped

theorem deriveKey_outside {uuid : Uuid} {ikm : List UInt8} {env : Env} {halt : Halt}
    (stopped : deriveKey provider ifc state uuid request ikm env = .error halt) :
    Outside halt := by
  unfold deriveKey KeyFn.call at stopped
  split at stopped
  · split at stopped
    · cases stopped
    · obtain rfl := Except.error.inj stopped
      exact .provider _
  · cases stopped

theorem hwkeyChanHandleMsg_outside {halt : Halt} (prepared : Prepared provider state)
    (stopped : hwkeyChanHandleMsg provider ifc state ctx chanCtx io = .error halt) :
    Outside halt := by
  cases received : io.recv with
  | none => simp [hwkeyChanHandleMsg, received] at stopped
  | some request =>
      by_cases get : request.cmd = ifc.getKeyslot
      · rw [hwkeyChanHandleMsg_getKeyslot received get] at stopped
        rcases bind_eq_error.mp stopped with stopped | ⟨found, -, stopped⟩
        · rcases handleSlots_halts prepared.sound (prepared.long request) prepared.space stopped
            with ⟨rfl, -⟩ | ⟨fn, crash, -, -, rfl⟩
          · exact .drawing
          · exact .provider crash
        · rcases bind_eq_error.mp stopped with stopped | ⟨rsp, -, stopped⟩
          · exact hwkeySendRsp_outside stopped
          · cases stopped
      · simp only [hwkeyChanHandleMsg, received, get, if_false] at stopped
        split at stopped
        · rcases bind_eq_error.mp stopped with stopped | ⟨derived, -, stopped⟩
          · rcases bind_eq_error.mp stopped with stopped | ⟨out, -, stopped⟩
            · exact deriveKey_outside stopped
            · rcases bind_eq_error.mp stopped with stopped | ⟨rsp, -, stopped⟩
              · exact hwkeySendRsp_outside stopped
              · cases stopped
          · cases stopped
        · rcases bind_eq_error.mp stopped with stopped | ⟨rsp, -, stopped⟩
          · exact hwkeySendRsp_outside stopped
          · cases stopped

end TrustyApp.Hwkey
