import TrustyApp.Hwkey.KeyFns

/-!
# Responses

Every request that is handled is answered once, whatever it asks for.  What it is
answered with comes from a lookup, from a derivation, or from neither; that is said
once (`Answer`) and read off for the response and for the key buffer.
-/

namespace TrustyApp.Hwkey

open Ipc Reactive

variable {provider : Provider} {ifc : Interface} {state : State} {ctx : Addr}
  {chanCtx : ChanCtx} {io : Io} {request : Request} {handled : Handled}

/-- The result, the `arg1` and the other actions that a request is answered with. -/
inductive Answer (provider : Provider) (ifc : Interface) (state : State) (ctx : Addr)
    (uuid : Uuid) (request : Request) (env : Env) : KeyOut → UInt32 → List Action → Prop
  | lookup {found : Lookup} : request.cmd = ifc.getKeyslot →
      Found provider.keySlots env state.opaqueHandles ctx uuid request.id state.keyData 0 found →
      Answer provider ifc state ctx uuid request env found.out request.arg1 found.actions
  | derived {out : KeyOut} : request.cmd ≠ ifc.getKeyslot → request.cmd = ifc.derive →
      deriveKey provider ifc state uuid request request.payload env = .ok out →
      Answer provider ifc state ctx uuid request env out (kdfVersion ifc request) []
  | unsupported : request.cmd ≠ ifc.getKeyslot → request.cmd ≠ ifc.derive →
      Answer provider ifc state ctx uuid request env
        ⟨.errNotImplemented, state.keyData, 0⟩ request.arg1 []

def responseFor (ifc : Interface) (request : Request) (out : KeyOut) (arg1 : UInt32) : Response :=
  ⟨request.cmd ||| ifc.respBit, request.opId, out.status, arg1, out.kbuf.take out.klen⟩

/-- A request that is handled is answered, and the reported bytes are cleared. -/
theorem hwkeyChanHandleMsg_answered (prepared : Prepared provider state)
    (received : io.recv = some request)
    (result : hwkeyChanHandleMsg provider ifc state ctx chanCtx io = .ok handled) :
    ∃ out arg1 actions,
      Answer provider ifc state ctx chanCtx.uuid request io.env out arg1 actions ∧
      handled.actions =
        .responded chanCtx.chan (responseFor ifc request out arg1) io.sent :: actions ∧
      handled.state.keyData = sanitize out.kbuf out.klen := by
  by_cases get : request.cmd = ifc.getKeyslot
  · rw [hwkeyChanHandleMsg_getKeyslot received get] at result
    obtain ⟨found, lookedUp, result⟩ := bind_eq_ok.mp result
    have outcome := handleSlots_found prepared.sound (prepared.long request) prepared.space
      lookedUp
    rw [cstr_slotIdOf request prepared.reqData] at outcome
    obtain ⟨rsp, made, result⟩ := bind_eq_ok.mp result
    obtain ⟨-, rfl⟩ := hwkeySendRsp_eq_ok made
    obtain rfl := Except.ok.inj result
    exact ⟨found.out, request.arg1, found.actions, .lookup get outcome, rfl, rfl⟩
  · simp only [hwkeyChanHandleMsg, received, get, if_false, take_receiveInto] at result
    split at result
    next derive =>
      obtain ⟨answered, derived, result⟩ := bind_eq_ok.mp result
      obtain ⟨out, key, derived⟩ := bind_eq_ok.mp derived
      obtain ⟨rsp, made, derived⟩ := bind_eq_ok.mp derived
      obtain ⟨-, rfl⟩ := hwkeySendRsp_eq_ok made
      obtain rfl := Except.ok.inj derived
      obtain rfl := Except.ok.inj result
      exact ⟨out, kdfVersion ifc request, [], .derived get derive key, rfl, rfl⟩
    next other =>
      obtain ⟨rsp, made, result⟩ := bind_eq_ok.mp result
      obtain ⟨-, rfl⟩ := hwkeySendRsp_eq_ok made
      obtain rfl := Except.ok.inj result
      refine ⟨_, request.arg1, [], .unsupported get other, ?_, rfl⟩
      simp [responseFor]

/-- A lookup runs one key function of the repository, or it hands out a token, or it
fails without writing anything. -/
theorem Found.delivered {env : Env}
    {handles : List OpaqueHandleNode} {uuid : Uuid} {id kbuf : List UInt8} {found : Lookup}
    (outcome : Found provider.keySlots env handles ctx uuid id kbuf 0 found)
    (size : kbuf.length = hwkeyMaxPayloadSize) :
    (∃ fn, calledFn provider.keySlots handles uuid id = some fn ∧
        fn.run env.outcomes kbuf 0 = .ok found.out) ∨
      (calledFn provider.keySlots handles uuid id = none ∧ Delivered False kbuf found.out) := by
  have refused {status : Status} (failed : status ≠ .noError) :
      Delivered False kbuf ⟨status, kbuf, 0⟩ := Delivers.untouched failed not_false _ rfl
  cases outcome with
  | named named called => exact .inl ⟨_, by simp [calledFn, named], KeyFn.call_eq_ok called⟩
  | retrieved unnamed opened data called =>
      exact .inl ⟨_, by simp [calledFn, unnamed, opened, data], KeyFn.call_eq_ok called⟩
  | denied unnamed unopened =>
      exact .inr ⟨by simp [calledFn, unnamed, unopened], refused (by decide)⟩
  | granted named granted =>
      refine .inr ⟨by simp [calledFn, named], ?_⟩
      cases granted with
      | taken | noMemory | rngFailed => exact refused (by simp)
      | @issued token =>
          have fits : token.bytes.length ≤ kbuf.length := by
            rw [token.size, size]
            decide
          exact Delivers.key fits token.size not_false _ rfl

theorem deriveKey_delivered (fromRepository : FromRepository provider) {uuid : Uuid}
    {ikm : List UInt8} {env : Env} {out : KeyOut}
    (derived : deriveKey provider ifc state uuid request ikm env = .ok out) :
    Delivered False state.keyData out := by
  unfold deriveKey at derived
  split at derived
  · rw [fromRepository.derive] at derived
    exact deriveKeyV1_delivers uuid ikm _ _ (KeyFn.call_eq_ok derived)
  · obtain rfl := Except.ok.inj derived
    exact Delivers.untouched (by decide) not_false _ rfl

theorem Answer.reported (fromRepository : FromRepository provider) {uuid : Uuid} {env : Env}
    {out : KeyOut} {arg1 : UInt32} {actions : List Action}
    (answer : Answer provider ifc state ctx uuid request env out arg1 actions)
    (size : state.keyData.length = hwkeyMaxPayloadSize) :
    out.klen ≤ state.keyData.length ∧ (out.status ≠ .noError → out.klen = 0) := by
  cases answer with
  | lookup _ outcome =>
      rcases outcome.delivered size with ⟨fn, called, ran⟩ | ⟨-, delivered⟩
      · have fromTable := calledFn_rule fromRepository.slots called
        obtain ⟨leaks, -, delivered⟩ := fromTable.delivered size ran
        exact delivered.reported
      · exact delivered.reported
  | derived _ _ derived => exact (deriveKey_delivered fromRepository derived).reported
  | unsupported => exact ⟨Nat.zero_le _, fun _ => rfl⟩

/-- The event delivers a message, and the caller and the calls made for it satisfy
`Holds`. -/
def OnMessage (Holds : Uuid → Io → Prop) (state : State) : Event → Prop
  | .port _ => False
  | .chan handle bits io => bits.hup = false ∧ bits.msg = true ∧
      ∃ ctx chanCtx, state.conns.chans handle = .attached ctx ∧
        state.conns.ctxs ctx = some chanCtx ∧ Holds chanCtx.uuid io

theorem onMessage_iff {Holds : Uuid → Io → Prop} (invariant : HandleInvariant provider state)
    {bits : Bits} (hup : bits.hup = false) (msg : bits.msg = true)
    (live : state.conns.ctxs ctx = some chanCtx) :
    OnMessage Holds state (.chan chanCtx.chan bits io) ↔ Holds chanCtx.uuid io := by
  have attached := invariant.wellFormed.owned ctx chanCtx live
  constructor
  · rintro ⟨-, -, other, otherCtx, otherAttached, otherLive, holds⟩
    obtain rfl : ctx = other := by simpa [attached] using otherAttached
    obtain rfl : chanCtx = otherCtx := by simpa [live] using otherLive
    exact holds
  · intro holds
    exact ⟨hup, msg, ctx, chanCtx, attached, live, holds⟩

theorem hwkeySendRsp_returns {status : Status} {arg1 : UInt32} {data : List UInt8} {len : Nat}
    (fits : len ≤ data.length) {halt : Halt} :
    hwkeySendRsp ifc request status arg1 data len ≠ .error halt := by
  rw [hwkeySendRsp, if_neg (not_lt.mpr fits)]
  simp

theorem fakeProvider_crash (cfg : BuildConfig) {handles : List OpaqueHandleNode} {uuid : Uuid}
    {id kbuf : List UInt8} {outcomes : Outcomes} {klen : Nat} {fn : KeyFn} {crash : Crash}
    (called : calledFn (keys cfg) handles uuid id = some fn)
    (ran : fn.run outcomes kbuf klen = .error crash) : crash = .assertFailed := by
  have inBounds : fn.InBounds :=
    calledFn_rule (fun _ member _ handles => keys_inBounds cfg member handles) called
  cases crash with
  | assertFailed => rfl
  | outOfBounds => exact absurd ran (inBounds outcomes kbuf klen)

/-- Why a request is left unanswered: the token it asks for cannot be made up yet, or an
assertion of the key function that it runs fails. -/
inductive Unanswered (provider : Provider) (ifc : Interface) (state : State) (uuid : Uuid)
    (request : Request) (env : Env) : Halt → Prop
  | awaitsToken : request.cmd = ifc.getKeyslot →
      AwaitsToken provider.keySlots env state.opaqueHandles uuid request.id →
      Unanswered provider ifc state uuid request env .drawing
  | aborted {fn : KeyFn} : request.cmd = ifc.getKeyslot →
      calledFn provider.keySlots state.opaqueHandles uuid request.id = some fn →
      fn.run env.outcomes state.keyData 0 = .error .assertFailed →
      Unanswered provider ifc state uuid request env (.provider .assertFailed)

def LeavesUnanswered (provider : Provider) (ifc : Interface) (halt : Halt) (state : State) :
    Event → Prop :=
  OnMessage (fun uuid io => ∃ request, io.recv = some request ∧
    Unanswered provider ifc state uuid request io.env halt) state

theorem Unanswered.cause {uuid : Uuid} {env : Env} {halt : Halt}
    (unanswered : Unanswered provider ifc state uuid request env halt) :
    halt = .drawing ∨ halt = .provider .assertFailed := by
  cases unanswered with
  | awaitsToken => exact .inl rfl
  | aborted => exact .inr rfl

theorem getKeyslot_stops (cfg : BuildConfig) {halt : Halt}
    (prepared : Prepared (fakeProvider cfg) state) (received : io.recv = some request)
    (get : request.cmd = ifc.getKeyslot)
    (stopped : hwkeyChanHandleMsg (fakeProvider cfg) ifc state ctx chanCtx io = .error halt) :
    Unanswered (fakeProvider cfg) ifc state chanCtx.uuid request io.env halt := by
  rw [hwkeyChanHandleMsg_getKeyslot received get] at stopped
  rcases bind_eq_error.mp stopped with stopped | ⟨found, lookedUp, stopped⟩
  · have cause := handleSlots_halts prepared.sound (prepared.long request) prepared.space stopped
    rw [cstr_slotIdOf request prepared.reqData] at cause
    rcases cause with ⟨rfl, awaits⟩ | ⟨fn, crash, called, ran, rfl⟩
    · exact .awaitsToken get awaits
    · obtain rfl := fakeProvider_crash cfg called ran
      exact .aborted get called ran
  · have outcome := handleSlots_found prepared.sound (prepared.long request) prepared.space lookedUp
    rw [cstr_slotIdOf request prepared.reqData] at outcome
    have answer : Answer (fakeProvider cfg) ifc state ctx chanCtx.uuid request io.env found.out
      request.arg1 found.actions := .lookup get outcome
    have fits := (answer.reported (fakeProvider_fromRepository cfg) prepared.keyData).1
    rw [← outcome.keepsSize prepared.space] at fits
    exact absurd stopped (bind_ok_ne_error (hwkeySendRsp_returns fits))

theorem deriveKey_returns (cfg : BuildConfig) {uuid : Uuid} {ikm : List UInt8} {env : Env}
    {halt : Halt} (room : ikm.length ≤ state.keyData.length) :
    deriveKey (fakeProvider cfg) ifc state uuid request ikm env ≠ .error halt := by
  intro stopped
  unfold deriveKey at stopped
  split at stopped
  · obtain ⟨crash, -, ran⟩ := KeyFn.call_eq_error stopped
    exact deriveKeyV1_returns uuid _ room crash ran
  · cases stopped

theorem hwkeyHandleDeriveKeyCmd_returns (cfg : BuildConfig) {ikm : List UInt8} {halt : Halt}
    (room : ikm.length ≤ state.keyData.length) :
    hwkeyHandleDeriveKeyCmd (fakeProvider cfg) ifc state chanCtx request ikm io ≠
      .error halt := by
  intro stopped
  rcases bind_eq_error.mp stopped with stopped | ⟨out, derived, stopped⟩
  · exact deriveKey_returns cfg room stopped
  · have fits := (deriveKey_delivered (fakeProvider_fromRepository cfg) derived).reported.1
    rw [← deriveKey_keepsSize derived] at fits
    exact bind_ok_ne_error (hwkeySendRsp_returns fits) stopped

/-- With the keys of the fake provider only a request for a key slot can be left
unanswered; a derivation never is. -/
theorem hwkeyChanHandleMsg_stops (cfg : BuildConfig) {halt : Halt}
    (prepared : Prepared (fakeProvider cfg) state)
    (stopped : hwkeyChanHandleMsg (fakeProvider cfg) ifc state ctx chanCtx io = .error halt) :
    ∃ request, io.recv = some request ∧
      Unanswered (fakeProvider cfg) ifc state chanCtx.uuid request io.env halt := by
  cases received : io.recv with
  | none => simp [hwkeyChanHandleMsg, received] at stopped
  | some request =>
  refine ⟨request, rfl, ?_⟩
  by_cases get : request.cmd = ifc.getKeyslot
  · exact getKeyslot_stops cfg prepared received get stopped
  simp only [hwkeyChanHandleMsg, received, get, if_false, take_receiveInto] at stopped
  split at stopped
  · rcases bind_eq_error.mp stopped with stopped | ⟨derived, -, stopped⟩
    · refine absurd stopped (hwkeyHandleDeriveKeyCmd_returns cfg ?_)
      change request.payload.length ≤ state.keyData.length
      rw [prepared.keyData]
      exact request.fits
    · cases stopped
  · exact absurd stopped (bind_ok_ne_error (hwkeySendRsp_returns (Nat.zero_le _)))

theorem Unanswered.stops {halt : Halt} (prepared : Prepared provider state)
    (received : io.recv = some request)
    (unanswered : Unanswered provider ifc state chanCtx.uuid request io.env halt) :
    hwkeyChanHandleMsg provider ifc state ctx chanCtx io = .error halt := by
  cases unanswered with
  | awaitsToken get awaits =>
      rw [getKeyslot_eq prepared received get, awaits.stops prepared.space
        fun entry member => (prepared.sound entry member).1]
      rfl
  | aborted get called ran =>
      rw [getKeyslot_eq prepared received get, answerFor_aborts called ran]
      rfl

def Action.response? : Action → Option (Handle × Response)
  | .responded chan rsp _ => some (chan, rsp)
  | _ => none

theorem Answer.responds_nothing_else {uuid : Uuid} {env : Env} {out : KeyOut} {arg1 : UInt32}
    {actions : List Action}
    (answer : Answer provider ifc state ctx uuid request env out arg1 actions) :
    actions.filterMap Action.response? = [] := by
  cases answer with
  | lookup _ outcome =>
      rcases outcome.actions_cases with none | ⟨slot, token, issued⟩ | ⟨slot, retrieved⟩
      · rw [none]
        rfl
      · rw [issued]
        rfl
      · rw [retrieved]
        rfl
  | derived | unsupported => rfl

theorem Answer.derived_key (fromRepository : FromRepository provider) {uuid : Uuid} {env : Env}
    {out : KeyOut} {arg1 : UInt32} {actions : List Action}
    (answer : Answer provider ifc state ctx uuid request env out arg1 actions)
    (other : request.cmd ≠ ifc.getKeyslot) (derive : request.cmd = ifc.derive)
    (version : request.arg1 = ifc.kdfVersionBest ∨ request.arg1 = ifc.kdfVersion1)
    (succeeded : out.status = .noError) :
    arg1 = ifc.kdfVersion1 ∧ out.klen = request.payload.length ∧
      (env.outcomes.hkdf fakeDeviceKey uuid.bytes request.payload request.payload.length).ok =
        true ∧
      out.kbuf.take out.klen =
        (env.outcomes.hkdf fakeDeviceKey uuid.bytes request.payload
          request.payload.length).bytes := by
  have version1 : kdfVersion ifc request = ifc.kdfVersion1 := by
    unfold kdfVersion
    rcases version with best | one
    · rw [if_pos best]
    · split
      · rfl
      · exact one
  cases answer with
  | lookup get => exact absurd get other
  | unsupported _ notDerive => exact absurd derive notDerive
  | derived _ _ derived =>
      rw [deriveKey, if_pos version1, fromRepository.derive] at derived
      have ran := KeyFn.call_eq_ok derived
      simp only [deriveKeyV1] at ran
      split at ran
      · obtain rfl := Except.ok.inj ran
        cases succeeded
      obtain ⟨kbuf, stored, ran⟩ := bind_eq_ok.mp ran
      obtain ⟨fits, rfl⟩ := store_eq_ok stored
      split at ran
      · obtain ⟨cleared, -, ran⟩ := bind_eq_ok.mp ran
        obtain rfl := Except.ok.inj ran
        cases succeeded
      next ok =>
        obtain rfl := Except.ok.inj ran
        refine ⟨version1, rfl, not_not.mp ok, ?_⟩
        have full := env.outcomes.hkdfFull _ _ _ _ (not_not.mp ok)
        simp only [Bytes.overwrite]
        exact List.take_left' full

/-- In every reachable state a request is answered with exactly one response on its own
channel, unless it is one for a key slot whose handler aborts or whose token the RNG has
not delivered yet, and those are not answered.  The response repeats the command, an error
carries no payload, and a derived key is what HKDF-SHA256 gives for the session and the
payload, whatever was requested before. -/
theorem every_request_answered (cfg : BuildConfig)
    {hkdfSha256 : (key salt info : List UInt8) → (len : Nat) → List UInt8}
    (distinct : ifc.derive ≠ ifc.getKeyslot)
    (reached : Reachable (service (fakeProvider cfg) ifc) state)
    (received : io.recv = some request)
    (computes : ∀ key salt info len, (io.env.outcomes.hkdf key salt info len).ok = true →
      (io.env.outcomes.hkdf key salt info len).bytes = hkdfSha256 key salt info len) :
    (∀ halt, hwkeyChanHandleMsg (fakeProvider cfg) ifc state ctx chanCtx io = .error halt ↔
      Unanswered (fakeProvider cfg) ifc state chanCtx.uuid request io.env halt) ∧
    ((∀ halt, ¬ Unanswered (fakeProvider cfg) ifc state chanCtx.uuid request io.env halt) →
      ∃ handled rsp,
        hwkeyChanHandleMsg (fakeProvider cfg) ifc state ctx chanCtx io = .ok handled ∧
        handled.actions.filterMap Action.response? = [(chanCtx.chan, rsp)] ∧
        rsp.cmd = request.cmd ||| ifc.respBit ∧
        rsp.payload.length ≤ hwkeyMaxPayloadSize ∧
        (rsp.status ≠ .noError → rsp.payload = []) ∧
        (request.cmd = ifc.derive →
          request.arg1 = ifc.kdfVersionBest ∨ request.arg1 = ifc.kdfVersion1 →
          request.payload ≠ [] → rsp.status = .noError →
          rsp.arg1 = ifc.kdfVersion1 ∧ rsp.payload.length = request.payload.length ∧
          rsp.payload = hkdfSha256 fakeDeviceKey chanCtx.uuid.bytes request.payload
            request.payload.length)) := by
  have prepared := (handleInvariant_of_reachable reached).prepared
  have fromRepository := fakeProvider_fromRepository cfg
  have stops : ∀ halt,
      hwkeyChanHandleMsg (fakeProvider cfg) ifc state ctx chanCtx io = .error halt →
        Unanswered (fakeProvider cfg) ifc state chanCtx.uuid request io.env halt := by
    intro halt stopped
    obtain ⟨other, sameRequest, unanswered⟩ := hwkeyChanHandleMsg_stops cfg prepared stopped
    obtain rfl := Option.some.inj (received.symm.trans sameRequest)
    exact unanswered
  refine ⟨fun halt => ⟨stops halt, fun unanswered => unanswered.stops prepared received⟩, ?_⟩
  intro answered
  cases result : hwkeyChanHandleMsg (fakeProvider cfg) ifc state ctx chanCtx io with
  | error halt =>
      exact absurd (stops halt result) (answered halt)
  | ok handled =>
      obtain ⟨out, arg1, actions, answer, sent, -⟩ :=
        hwkeyChanHandleMsg_answered prepared received result
      obtain ⟨fits, failed⟩ := answer.reported fromRepository prepared.keyData
      refine ⟨handled, responseFor ifc request out arg1, rfl, ?_, rfl, ?_, ?_, ?_⟩
      · simp [sent, Action.response?, answer.responds_nothing_else]
      · rw [prepared.keyData] at fits
        exact (List.length_take_le _ _).trans fits
      · intro error
        simp [responseFor, failed error]
      · intro derive version _ succeeded
        have other : request.cmd ≠ ifc.getKeyslot := derive ▸ distinct
        obtain ⟨arg1Is, len, ok, payload⟩ :=
          answer.derived_key fromRepository other derive version succeeded
        have full := io.env.outcomes.hkdfFull _ _ _ _ ok
        refine ⟨arg1Is, ?_, ?_⟩
        · rw [responseFor, payload, full]
        · rw [responseFor, payload, computes _ _ _ _ ok]

/-- A client connects on channel 3 and gets the context at address 16. -/
def clientStep (provider : Provider) (ifc : Interface) (uuid : Uuid) :
    Step State Event (List Action) :=
  connecting (service provider ifc).initial 3 16 uuid

theorem clientStep_performs {uuid : Uuid} (allowed : provider.hwkeyClientAllowed uuid = true) :
    (service provider ifc).Performs (clientStep provider ifc uuid) :=
  connecting_performs rfl rfl allowed

theorem clientStep_exec {uuid : Uuid} (allowed : provider.hwkeyClientAllowed uuid = true) :
    Exec (service provider ifc) [clientStep provider ifc uuid]
      (clientStep provider ifc uuid).post :=
  Exec.start.step (clientStep_performs allowed)

def requestingStep (provider : Provider) (ifc : Interface) (uuid : Uuid) (io : Io)
    (handled : Handled) : Step State Event (List Action) :=
  ⟨(clientStep provider ifc uuid).post, .chan 3 ⟨false, true⟩ io, handled.actions, handled.state⟩

theorem requestingStep_exec {uuid : Uuid} (allowed : provider.hwkeyClientAllowed uuid = true)
    (result : hwkeyChanHandleMsg provider ifc (clientStep provider ifc uuid).post 16 ⟨3, uuid⟩ io =
      .ok handled) (sent : handled.sent = true) :
    Exec (service provider ifc)
      [requestingStep provider ifc uuid io handled, clientStep provider ifc uuid]
      handled.state := by
  have before : Exec (service provider ifc) [clientStep provider ifc uuid]
      (requestingStep provider ifc uuid io handled).pre := clientStep_exec allowed
  exact before.step (message_performs rfl rfl rfl result sent)

def plainBuild : BuildConfig := ⟨none, none, none, none, false⟩

def sampleHkdf (key salt info : List UInt8) (len : Nat) : List UInt8 :=
  if key = fakeDeviceKey ∧ salt = kmUuid.bytes ∧ info = [0x69, 0x6e, 0x66, 0x6f] ∧ len = 4 then
    [0x74, 0x34, 0x20, 0x1d]
  else List.replicate len 0

theorem length_sampleHkdf (key salt info : List UInt8) (len : Nat) :
    (sampleHkdf key salt info len).length = len := by
  unfold sampleHkdf
  split
  next sample => simp [sample.2.2.2]
  next => simp

def derivingOutcomes : Outcomes :=
  ⟨fun key salt info len =>
      ⟨true, sampleHkdf key salt info len, (length_sampleHkdf key salt info len).le⟩,
    fun key salt info len _ => length_sampleHkdf key salt info len, successfulCalls,
    successfulCalls, true, 0⟩

def sampleDerive : Request :=
  ⟨smallInterface.derive, 7, smallInterface.kdfVersionBest, [0x69, 0x6e, 0x66, 0x6f], by decide⟩

def deriveIo : Io := ⟨some sampleDerive, ⟨[], Nat.zero_le _⟩, ⟨true, [], derivingOutcomes⟩, true⟩

def keymintState : State := (clientStep (fakeProvider plainBuild) smallInterface kmUuid).post

theorem keymintState_reachable :
    Reachable (service (fakeProvider plainBuild) smallInterface) keymintState :=
  (clientStep_exec (by decide)).reachable

theorem sampleDerive_answered (prepared : Prepared (fakeProvider plainBuild) state) :
    ∃ reqData keyData rsp,
      hwkeyChanHandleMsg (fakeProvider plainBuild) smallInterface state ctx chanCtx deriveIo =
        .ok ⟨{ state with reqData := reqData, keyData := keyData },
          [.responded chanCtx.chan rsp true], true⟩ ∧ rsp.status = .noError := by
  have size : state.keyData.length = 2048 := prepared.keyData
  simp [hwkeyChanHandleMsg, deriveIo, sampleDerive, smallInterface, hwkeyHandleDeriveKeyCmd,
    deriveKey, kdfVersion, fakeProvider, KeyFn.call, deriveKeyV1, derivingOutcomes, store,
    length_sampleHkdf, size, receiveInto, hwkeySendRsp, Bytes.overwrite]

theorem every_request_answered_sampleDerive :
    ∃ handled rsp,
      hwkeyChanHandleMsg (fakeProvider plainBuild) smallInterface keymintState 16 ⟨3, kmUuid⟩
        deriveIo = .ok handled ∧
      handled.actions.filterMap Action.response? = [(3, rsp)] ∧ rsp.status = .noError ∧
      rsp.payload = [0x74, 0x34, 0x20, 0x1d] := by
  obtain ⟨reqData, keyData, sent, result, succeeded⟩ :=
    @sampleDerive_answered keymintState 16 ⟨3, kmUuid⟩
      (handleInvariant_of_reachable keymintState_reachable).prepared
  have unanswered : ∀ halt, ¬ Unanswered (fakeProvider plainBuild) smallInterface keymintState
      kmUuid sampleDerive deriveIo.env halt := by
    intro halt unanswered
    cases unanswered with
    | awaitsToken get | aborted get => exact absurd get (by decide)
  obtain ⟨handled, rsp, handledIs, responses, -, -, -, derived⟩ : ∃ handled rsp,
      hwkeyChanHandleMsg (fakeProvider plainBuild) smallInterface keymintState 16 ⟨3, kmUuid⟩
        deriveIo = .ok handled ∧ _ :=
    (every_request_answered plainBuild (by decide) keymintState_reachable
      (show deriveIo.recv = some sampleDerive from rfl)
      (show ∀ key salt info len, _ → _ = sampleHkdf key salt info len from
        fun _ _ _ _ _ => rfl)).2 unanswered
  obtain rfl := Except.ok.inj (result.symm.trans handledIs)
  obtain rfl : sent = rsp := by simpa [Action.response?] using responses
  exact ⟨_, sent, result, responses, succeeded,
    (derived rfl (.inl rfl) (by decide) succeeded).2.2⟩

end TrustyApp.Hwkey
