import TrustyApp.Hwkey.Responses
import TrustyApp.Hwkey.TokenDraws

/-!
# The statuses of responses

The key functions of this repository report errors of the HWKEY protocol only.  The
one place where a code of another domain gets into a response is `get_key_handle`,
which returns the error of the RNG device as it is.
-/

namespace TrustyApp.Hwkey

open Ipc Reactive

variable {provider : Provider} {ifc : Interface} {state : State} {ctx : Addr}
  {chanCtx : ChanCtx} {io : Io} {handled : Handled}

def Status.InProtocol : Status → Prop
  | .kernel _ => False
  | _ => True

def Reports (called : Except Crash KeyOut) : Prop :=
  ∀ out, called = .ok out → out.status.InProtocol

theorem Reports.crashed (crash : Crash) : Reports (.error crash) := by
  intro out result
  cases result

theorem Reports.returned {out : KeyOut} (inProtocol : out.status.InProtocol) :
    Reports (.ok out) := by
  intro other result
  cases result
  exact inProtocol

theorem Reports.stored {buf data : List UInt8} {next : List UInt8 → Except Crash KeyOut}
    (continues : ∀ written, Reports (next written)) : Reports (store buf data >>= next) := by
  intro out result
  obtain ⟨written, -, result⟩ := bind_eq_ok.mp result
  exact continues written out result

def KeyFn.InProtocol (fn : KeyFn) : Prop :=
  ∀ outcomes kbuf klen, Reports (fn.run outcomes kbuf klen)

theorem copyKey_inProtocol (key : List UInt8) : (copyKey key).InProtocol := by
  intro outcomes kbuf klen
  simp only [copyKey]
  split
  · exact .crashed _
  · exact .stored fun written => .returned trivial

theorem getApploaderSignUnlockedKey_inProtocol (key : List UInt8) :
    (getApploaderSignUnlockedKey key).InProtocol := by
  intro outcomes kbuf klen
  simp only [getApploaderSignUnlockedKey]
  split
  · exact copyKey_inProtocol key outcomes kbuf klen
  · exact .returned trivial

theorem deriveKeyV1_inProtocol (uuid : Uuid) (ikm : List UInt8) :
    (deriveKeyV1 uuid ikm).InProtocol := by
  intro outcomes kbuf klen
  simp only [deriveKeyV1]
  split
  · exact .returned trivial
  apply Reports.stored
  intro written
  split
  · exact .stored fun cleared => .returned trivial
  · exact .returned trivial

theorem getKmKakKey_inProtocol (uuid : Uuid) : (getKmKakKey uuid).InProtocol := by
  intro outcomes kbuf klen
  simp only [getKmKakKey]
  split
  · exact .returned trivial
  · exact deriveKeyV1_inProtocol uuid kakSalt outcomes kbuf klen

theorem getRpmbSsAuthKey_inProtocol : getRpmbSsAuthKey.InProtocol := by
  intro outcomes kbuf klen
  simp only [getRpmbSsAuthKey]
  split
  · exact .returned trivial
  split
  · exact .returned trivial
  split
  · exact .returned trivial
  apply Reports.stored
  intro written
  split
  · exact .returned trivial
  split
  · exact .returned trivial
  split
  · exact .returned trivial
  · exact .returned trivial

theorem decryptKey_reports (encryptedKeyData key : List UInt8) (calls : CipherCalls)
    (kbuf : List UInt8) (klen : Nat) :
    Reports (decryptKey encryptedKeyData key calls kbuf klen) := by
  simp only [decryptKey]
  split
  · exact .returned trivial
  split
  · exact .returned trivial
  apply Reports.stored
  intro written
  split
  · exact .returned trivial
  split
  · exact .crashed _
  split
  · exact .returned trivial
  split
  · exact .crashed _
  · exact .returned trivial

/-- A derived key fails with the status of its retriever or with one of its own. -/
theorem hwkeyGetDerivedKey_inProtocol {data : DerivedKeyslotData}
    (retriever : data.retriever.InProtocol) : (hwkeyGetDerivedKey data).InProtocol := by
  intro outcomes kbuf klen out result
  obtain ⟨key, retrieved, result⟩ := bind_eq_ok.mp result
  have derives : Reports (deriveFrom data.encryptedKeyData key outcomes.decrypt kbuf klen) := by
    unfold deriveFrom
    split
    · exact .returned (retriever _ _ _ key retrieved)
    split
    · exact .returned trivial
    split
    · exact .returned trivial
    split
    · exact .returned trivial
    split
    · exact .returned trivial
    split
    · exact .returned trivial
    · exact decryptKey_reports _ _ _ _ _
  exact derives out result

theorem keys_inProtocol (cfg : BuildConfig) : ∀ slot ∈ keys cfg, ∀ handler,
    slot.handler = some handler → handler.keyFn.InProtocol := by
  intro slot member handler handles
  exact keys_rule getRpmbSsAuthKey_inProtocol (getKmKakKey_inProtocol kmUuid) copyKey_inProtocol
    getApploaderSignUnlockedKey_inProtocol
    (hwkeyGetDerivedKey_inProtocol (copyKey_inProtocol unittestKey32)) cfg member handles

/-- The request gets a new entry for its slot and then no token for it. -/
def UndrawnHandle (slots : List KeySlot) (env : Env) (handles : List OpaqueHandleNode)
    (uuid : Uuid) (id : List UInt8) : Prop :=
  ∃ slot handle, namedSlot slots uuid id = some (slot, .getKeyHandle handle) ∧
    (∀ entry ∈ handles, entry.keySlot ≠ slot) ∧ env.calloc = true ∧ DrawFails env.draws

theorem Found.inProtocol_iff {slots : List KeySlot} {env : Env} {handles : List OpaqueHandleNode}
    {uuid : Uuid} {id kbuf : List UInt8} {klen : Nat} {found : Lookup}
    (inProtocol : ∀ slot ∈ slots, ∀ handler, slot.handler = some handler →
      handler.keyFn.InProtocol)
    (outcome : Found slots env handles ctx uuid id kbuf klen found) :
    found.out.status.InProtocol ↔ ¬ UndrawnHandle slots env handles uuid id := by
  cases outcome with
  | @named i fn out named called =>
      have fnInProtocol : fn.InProtocol :=
        calledFn_rule inProtocol (show calledFn slots handles uuid id = some fn by
          simp [calledFn, named])
      refine iff_of_true (fnInProtocol _ _ _ _ (KeyFn.call_eq_ok called)) ?_
      rintro ⟨slot, handle, isNamed, -⟩
      rw [named] at isNamed
      cases isNamed
  | @retrieved entry handle out unnamed opened data called =>
      have fnInProtocol : handle.retriever.InProtocol :=
        calledFn_rule inProtocol (show calledFn slots handles uuid id = some handle.retriever by
          simp [calledFn, unnamed, opened, data])
      refine iff_of_true (fnInProtocol _ _ _ _ (KeyFn.call_eq_ok called)) ?_
      rintro ⟨slot, handle, named, -⟩
      rw [unnamed] at named
      cases named
  | denied unnamed =>
      refine iff_of_true trivial ?_
      rintro ⟨slot, handle, named, -⟩
      rw [unnamed] at named
      cases named
  | @granted slot handle lookup named granted =>
      have only (undrawn : UndrawnHandle slots env handles uuid id) :
          (∀ entry ∈ handles, entry.keySlot ≠ slot) ∧ env.calloc = true ∧
            ∃ rc, drawToken env.draws .empty = .ok (.error rc) := by
        obtain ⟨other, otherHandle, isNamed, absent, allocated, fails⟩ := undrawn
        rw [named] at isNamed
        cases isNamed
        exact ⟨absent, allocated, drawFails_iff.mp fails⟩
      cases granted with
      | taken member same =>
          exact iff_of_true trivial fun undrawn => (only undrawn).1 _ member same
      | noMemory _ unallocated =>
          refine iff_of_true trivial fun undrawn => ?_
          have allocated := (only undrawn).2.1
          rw [unallocated] at allocated
          cases allocated
      | rngFailed absent allocated failed =>
          refine iff_of_false not_false (not_not.mpr ?_)
          exact ⟨slot, handle, named, absent, allocated, drawFails_iff.mpr ⟨_, failed⟩⟩
      | issued _ _ drawn =>
          refine iff_of_true trivial fun undrawn => ?_
          obtain ⟨rc, failed⟩ := (only undrawn).2.2
          rw [drawn] at failed
          cases failed

/-- The message asks for a handle, and the RNG fails. -/
def UndrawnRequest (provider : Provider) (ifc : Interface) (state : State) (uuid : Uuid)
    (io : Io) : Prop :=
  ∃ request, io.recv = some request ∧ request.cmd = ifc.getKeyslot ∧
    UndrawnHandle provider.keySlots io.env state.opaqueHandles uuid request.id

def ProtocolStatuses (actions : List Action) : Prop :=
  ∀ chan rsp sent, .responded chan rsp sent ∈ actions → rsp.status.InProtocol

theorem deriveKey_inProtocol {cfg : BuildConfig} {request : Request} {uuid : Uuid}
    {ikm : List UInt8} {env : Env} {out : KeyOut}
    (derived : deriveKey (fakeProvider cfg) ifc state uuid request ikm env = .ok out) :
    out.status.InProtocol := by
  unfold deriveKey at derived
  split at derived
  · exact deriveKeyV1_inProtocol uuid ikm _ _ _ out (KeyFn.call_eq_ok derived)
  · obtain rfl := Except.ok.inj derived
    trivial

theorem Answer.inProtocol_iff {cfg : BuildConfig} {request : Request} {uuid : Uuid} {env : Env}
    {out : KeyOut} {arg1 : UInt32} {actions : List Action}
    (answer : Answer (fakeProvider cfg) ifc state ctx uuid request env out arg1 actions) :
    out.status.InProtocol ↔ ¬ (request.cmd = ifc.getKeyslot ∧
      UndrawnHandle (keys cfg) env state.opaqueHandles uuid request.id) := by
  cases answer with
  | lookup get outcome =>
      exact (outcome.inProtocol_iff (keys_inProtocol cfg)).trans
        (not_congr (and_iff_right get)).symm
  | derived other _ derived =>
      exact iff_of_true (deriveKey_inProtocol derived) fun undrawn => other undrawn.1
  | unsupported other => exact iff_of_true trivial fun undrawn => other undrawn.1

theorem hwkeyChanHandleMsg_inProtocol_iff {cfg : BuildConfig}
    (prepared : Prepared (fakeProvider cfg) state)
    (result : hwkeyChanHandleMsg (fakeProvider cfg) ifc state ctx chanCtx io = .ok handled) :
    ProtocolStatuses handled.actions ↔
      ¬ UndrawnRequest (fakeProvider cfg) ifc state chanCtx.uuid io := by
  cases received : io.recv with
  | none =>
      simp only [hwkeyChanHandleMsg, received, Except.ok.injEq] at result
      subst result
      refine iff_of_true (by simp [ProtocolStatuses]) ?_
      rintro ⟨request, isReceived, -⟩
      rw [received] at isReceived
      cases isReceived
  | some request =>
      obtain ⟨out, arg1, actions, answer, sent, -⟩ :=
        hwkeyChanHandleMsg_answered prepared received result
      have single : ProtocolStatuses handled.actions ↔ out.status.InProtocol := by
        rw [sent]
        constructor
        · intro statuses
          exact statuses _ _ _ List.mem_cons_self
        · intro inProtocol chan rsp wasSent member
          rcases List.mem_cons.mp member with first | later
          · cases first
            exact inProtocol
          · have response : (chan, rsp) ∈ actions.filterMap Action.response? :=
              List.mem_filterMap.mpr ⟨_, later, rfl⟩
            rw [answer.responds_nothing_else] at response
            cases response
      rw [single, answer.inProtocol_iff, not_iff_not]
      constructor
      · rintro ⟨get, undrawn⟩
        exact ⟨request, received, get, undrawn⟩
      · rintro ⟨other, isReceived, get, undrawn⟩
        rw [received] at isReceived
        cases isReceived
        exact ⟨get, undrawn⟩

def UndrawnEvent (provider : Provider) (ifc : Interface) (state : State) (event : Event) : Prop :=
  OnMessage (UndrawnRequest provider ifc state) state event

theorem Effect.inProtocol_iff {cfg : BuildConfig} {pre post : State} {event : Event}
    {output : List Action} (effect : Effect (fakeProvider cfg) ifc pre event post output)
    (invariant : HandleInvariant (fakeProvider cfg) pre) :
    ProtocolStatuses output ↔ ¬ UndrawnEvent (fakeProvider cfg) ifc pre event := by
  cases effect with
  | refused closes =>
      refine iff_of_true ?_ not_false
      intro chan rsp sent member
      obtain ⟨other, closed, -⟩ := closes _ member
      cases closed
  | opened => exact iff_of_true (by simp [ProtocolStatuses]) not_false
  | idle _ noMsg =>
      refine iff_of_true (by simp [ProtocolStatuses]) ?_
      rintro ⟨-, msg, -⟩
      rw [noMsg] at msg
      cases msg
  | hungUp hup =>
      refine iff_of_true (by simp [ProtocolStatuses]) ?_
      rintro ⟨noHup, -⟩
      rw [hup] at noHup
      cases noHup
  | replied hup msg live answered =>
      rw [UndrawnEvent, onMessage_iff invariant hup msg live]
      exact hwkeyChanHandleMsg_inProtocol_iff invariant.prepared answered
  | dropped hup msg live answered =>
      rw [UndrawnEvent, onMessage_iff invariant hup msg live,
        ← hwkeyChanHandleMsg_inProtocol_iff invariant.prepared answered]
      simp [ProtocolStatuses]

/-- In a run all responses have a status of the protocol exactly when no request for a
new handle finds the RNG failing. -/
theorem statuses_in_protocol_iff (cfg : BuildConfig)
    {history : List (Step State Event (List Action))}
    (run : Exec (service (fakeProvider cfg) ifc) history state) :
    (∀ step ∈ history, ProtocolStatuses step.output) ↔
      ∀ step ∈ history, ¬ UndrawnEvent (fakeProvider cfg) ifc step.pre step.event := by
  induction run with
  | start => simp
  | @step history step run performs inductionHypothesis =>
      have invariant := handleInvariant_of_reachable run.reachable
      have effect := effect_of_performs run.reachable performs
      rw [List.forall_mem_cons, List.forall_mem_cons, effect.inProtocol_iff invariant,
        inductionHypothesis]

def encryptBuild : BuildConfig := ⟨none, none, some (List.replicate 16 7), none, false⟩

def encryptKeyId : CString := .ofString "com.android.trusty.apploader.encrypt.key.0"

def encryptRequest : Request :=
  ⟨smallInterface.getKeyslot, 7, 0, encryptKeyId.chars, by decide⟩

def undrawnIo : Io :=
  ⟨some encryptRequest, ⟨[], Nat.zero_le _⟩,
    ⟨true, [.error errGeneric], successfulOutcomes⟩, true⟩

def apploaderState : State :=
  (clientStep (fakeProvider encryptBuild) smallInterface apploaderUuid).post

theorem apploaderState_exec : Exec (service (fakeProvider encryptBuild) smallInterface)
    [clientStep (fakeProvider encryptBuild) smallInterface apploaderUuid] apploaderState :=
  clientStep_exec (by decide)

def otherEncryptKeyId : CString := .ofString "com.android.trusty.apploader.encrypt.key.1"

theorem keys_unsigned (key : List UInt8) (other : Option (List UInt8)) :
    keys ⟨none, none, some key, other, false⟩ =
      ⟨.ofString "com.android.trusty.storage_auth.rpmb", ssUuid, some (.other getRpmbSsAuthKey)⟩ ::
      ⟨.ofString "com.android.trusty.keymint.kak", kmUuid, some (.other (getKmKakKey kmUuid))⟩ ::
      apploaderEncryptSlot encryptKeyId key ::
      (other.map (apploaderEncryptSlot otherEncryptKeyId)).toList := by
  simp only [keys, Option.map_none, Option.map_some, Option.toList_none, Option.toList_some,
    List.append_nil, List.cons_append, List.nil_append, Bool.false_eq_true, if_false,
    encryptKeyId, otherEncryptKeyId]

/-- The slots before the keys of the apploader are not for the apploader. -/
theorem keys_unsigned_before {key : List UInt8} {other : Option (List UInt8)} {j : Nat}
    {slot : KeySlot} (before : j < 2)
    (at_ : (keys ⟨none, none, some key, other, false⟩)[j]? = some slot) (id : List UInt8) :
    slot.answering apploaderUuid id = none := by
  have uuid : slot.uuid = ssUuid ∨ slot.uuid = kmUuid := by
    rw [keys_unsigned] at at_
    cases j with
    | zero => exact .inl (congrArg KeySlot.uuid (Option.some.inj at_)).symm
    | succ j =>
        obtain rfl : j = 0 := by omega
        exact .inr (congrArg KeySlot.uuid (Option.some.inj at_)).symm
  have foreign : slot.uuid ≠ apploaderUuid := by
    rcases uuid with uuid | uuid
    · rw [uuid]
      decide
    · rw [uuid]
      decide
  simp [KeySlot.answering, foreign]

theorem encryptRequest_firstSlot (key : List UInt8) (other : Option (List UInt8)) :
    FirstSlot (keys ⟨none, none, some key, other, false⟩) apploaderUuid encryptRequest.id 2
      (.getKeyHandle ⟨apploaderAllowedOpaqueKeyUuids, getApploaderKeyOpaque key⟩) := by
  have id : encryptRequest.id = encryptKeyId.chars := Bytes.cstr_eq_self encryptKeyId.noNul
  constructor
  · rw [keys_unsigned]
    refine ⟨apploaderEncryptSlot encryptKeyId key, rfl, ?_⟩
    simp [KeySlot.answering, apploaderEncryptSlot, id]
  · intro j slot before at_
    exact keys_unsigned_before before at_ _

/-- The error code of the RNG gets into the response. -/
theorem rng_error_in_response :
    ¬ ∀ (cfg : BuildConfig) (ifc : Interface) (history : List (Step State Event (List Action)))
        (state : State), Exec (service (fakeProvider cfg) ifc) history state →
        ∀ step ∈ history, ProtocolStatuses step.output := by
  intro claim
  have prepared := (handleInvariant_of_reachable apploaderState_exec.reachable).prepared
  have named : namedSlot (fakeProvider encryptBuild).keySlots
      (⟨3, apploaderUuid⟩ : ChanCtx).uuid encryptRequest.id = some (2, _) :=
    (encryptRequest_firstSlot (List.replicate 16 7) none).namedSlot_eq
  have free : ∀ entry ∈ apploaderState.opaqueHandles, entry.keySlot ≠ 2 :=
    fun _ member => by cases member
  have result : hwkeyChanHandleMsg (fakeProvider encryptBuild) smallInterface apploaderState 16
      ⟨3, apploaderUuid⟩ undrawnIo = _ :=
    getKeyslot_rngFailed prepared rfl rfl named free rfl
      (show drawToken undrawnIo.env.draws .empty = .ok (.error _) from rfl)
  have statuses := claim encryptBuild smallInterface _ _
    (requestingStep_exec (by decide) result rfl) _ List.mem_cons_self
  exact statuses _ _ _ List.mem_cons_self

/-- The RNG delivers a token at the second attempt, and the response that hands it out is
in the protocol. -/
theorem statuses_in_protocol_iff_issued :
    ∃ handled, Exec (service (fakeProvider encryptBuild) smallInterface)
        [requestingStep (fakeProvider encryptBuild) smallInterface apploaderUuid
            (requestIo encryptRequest) handled,
          clientStep (fakeProvider encryptBuild) smallInterface apploaderUuid] handled.state ∧
      handled.actions = [.responded 3 (tokenRsp smallInterface encryptRequest sampleToken) true,
        .issued 2 sampleToken] ∧
      ProtocolStatuses handled.actions := by
  have invariant := handleInvariant_of_reachable apploaderState_exec.reachable
  have drawn : drawToken secondDraw .empty = .ok (.ok sampleToken) := rfl
  obtain ⟨keyData, result⟩ : ∃ keyData, hwkeyChanHandleMsg (fakeProvider encryptBuild)
      smallInterface apploaderState 16 ⟨3, apploaderUuid⟩ (requestIo encryptRequest) = _ :=
    getKeyslot_issued invariant.prepared rfl rfl
      (encryptRequest_firstSlot (List.replicate 16 7) none).namedSlot_eq
      (fun _ member => by cases member) rfl drawn
  have run := requestingStep_exec (by decide) result rfl
  refine ⟨_, run, rfl, ?_⟩
  apply (statuses_in_protocol_iff encryptBuild run).mpr _ _ List.mem_cons_self
  rw [List.forall_mem_cons, List.forall_mem_singleton]
  refine ⟨?_, not_false⟩
  rintro ⟨-, -, -, -, -, -, request, -, -, -, -, -, -, -, fails⟩
  obtain ⟨rc, failed⟩ := drawFails_iff.mp fails
  cases drawn.symm.trans failed

end TrustyApp.Hwkey
