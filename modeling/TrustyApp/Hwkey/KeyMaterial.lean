import TrustyApp.Hwkey.Responses

/-!
# Key material in the static buffer

`key_data` is cleared by the length that a handler reports.  It stays clear over a
run exactly as long as no request runs a handler that fails after writing a key.
-/

namespace TrustyApp.Hwkey

open Ipc Reactive

variable {provider : Provider} {ifc : Interface} {state : State} {ctx : Addr}
  {chanCtx : ChanCtx} {io : Io} {handled : Handled}

/-- The message asks for a key whose handler leaks under the outcomes of its calls. -/
def LeakyRequest (provider : Provider) (ifc : Interface) (state : State) (uuid : Uuid)
    (io : Io) : Prop :=
  ∃ request fn, io.recv = some request ∧ request.cmd = ifc.getKeyslot ∧
    calledFn provider.keySlots state.opaqueHandles uuid request.id = some fn ∧
    Leaks io.env.outcomes fn

theorem hwkeyChanHandleMsg_clear_iff (fromRepository : FromRepository provider)
    (prepared : Prepared provider state) (clear : Bytes.Clear state.keyData)
    (result : hwkeyChanHandleMsg provider ifc state ctx chanCtx io = .ok handled) :
    Bytes.Clear handled.state.keyData ↔ ¬ LeakyRequest provider ifc state chanCtx.uuid io := by
  cases received : io.recv with
  | none =>
      simp only [hwkeyChanHandleMsg, received, Except.ok.injEq] at result
      subst result
      refine iff_of_true clear ?_
      rintro ⟨request, fn, isReceived, -⟩
      rw [received] at isReceived
      cases isReceived
  | some request =>
      have only (uuid : Uuid) (leaky : LeakyRequest provider ifc state uuid io) :
          request.cmd = ifc.getKeyslot ∧ ∃ fn,
            calledFn provider.keySlots state.opaqueHandles uuid request.id = some fn ∧
            Leaks io.env.outcomes fn := by
        obtain ⟨other, fn, isReceived, cmd, called, leaks⟩ := leaky
        rw [received] at isReceived
        obtain rfl := Option.some.inj isReceived
        exact ⟨cmd, fn, called, leaks⟩
      obtain ⟨out, arg1, actions, answer, -, keyData⟩ :=
        hwkeyChanHandleMsg_answered prepared received result
      rw [keyData]
      cases answer with
      | lookup get outcome =>
          rcases outcome.delivered prepared.keyData with ⟨fn, called, ran⟩ | ⟨uncalled, delivered⟩
          · rw [(calledFn_rule fromRepository.slots called).clear_iff prepared.keyData clear ran,
              not_iff_not]
            constructor
            · intro leaks
              exact ⟨request, fn, received, get, called, leaks⟩
            · intro leaky
              obtain ⟨-, other, otherCalled, leaks⟩ := only _ leaky
              rw [called] at otherCalled
              obtain rfl := Option.some.inj otherCalled
              exact leaks
          · refine iff_of_true ((delivered.clear_iff clear).mpr not_false) fun leaky => ?_
            obtain ⟨-, fn, called, -⟩ := only _ leaky
            rw [uncalled] at called
            cases called
      | derived other _ derived =>
          have delivered := deriveKey_delivered fromRepository derived
          exact iff_of_true ((delivered.clear_iff clear).mpr not_false)
            fun leaky => other (only _ leaky).1
      | unsupported other => exact iff_of_true clear fun leaky => other (only _ leaky).1

def LeakyEvent (provider : Provider) (ifc : Interface) (state : State) (event : Event) : Prop :=
  OnMessage (LeakyRequest provider ifc state) state event

theorem Effect.clear_iff (fromRepository : FromRepository provider) {pre post : State}
    {event : Event} {output : List Action} (effect : Effect provider ifc pre event post output)
    (invariant : HandleInvariant provider pre) (clear : Bytes.Clear pre.keyData) :
    Bytes.Clear post.keyData ↔ ¬ LeakyEvent provider ifc pre event := by
  cases effect with
  | refused | opened => exact iff_of_true clear not_false
  | idle _ noMsg =>
      refine iff_of_true clear ?_
      rintro ⟨-, msg, -⟩
      rw [noMsg] at msg
      cases msg
  | hungUp hup =>
      refine iff_of_true clear ?_
      rintro ⟨noHup, -⟩
      rw [hup] at noHup
      cases noHup
  | replied hup msg live answered | dropped hup msg live answered =>
      rw [LeakyEvent, onMessage_iff invariant hup msg live]
      exact hwkeyChanHandleMsg_clear_iff fromRepository invariant.prepared clear answered

theorem clear_of_run {history : List (Step State Event (List Action))}
    (run : Exec (service provider ifc) history state)
    (cleared : ∀ step ∈ history, Bytes.Clear step.post.keyData) : Bytes.Clear state.keyData := by
  cases run with
  | start => exact Bytes.clear_replicate _
  | step => exact cleared _ (by simp)

/-- Over every run `key_data` holds only zero bytes after each event, exactly when no
event is a request whose handler reports a failure after it wrote a key. -/
theorem key_data_clear_iff (fromRepository : FromRepository provider)
    {history : List (Step State Event (List Action))}
    (run : Exec (service provider ifc) history state) :
    (∀ step ∈ history, Bytes.Clear step.post.keyData) ↔
      ∀ step ∈ history, ¬ LeakyEvent provider ifc step.pre step.event := by
  induction run with
  | start => simp
  | @step history step run performs inductionHypothesis =>
      have invariant := handleInvariant_of_reachable run.reachable
      have effect := effect_of_performs run.reachable performs
      simp only [List.forall_mem_cons]
      constructor
      · rintro ⟨cleared, before⟩
        have clear := clear_of_run run before
        exact ⟨(effect.clear_iff fromRepository invariant clear).mp cleared,
          inductionHypothesis.mp before⟩
      · rintro ⟨safe, before⟩
        have clear := clear_of_run run (inductionHypothesis.mpr before)
        exact ⟨(effect.clear_iff fromRepository invariant clear).mpr safe,
          inductionHypothesis.mpr before⟩

def rpmbRequest : Request :=
  ⟨smallInterface.getKeyslot, 7, 0, (CString.ofString "com.android.trusty.storage_auth.rpmb").chars,
    by decide⟩

/-- The encryption of the salt succeeds up to the final call. -/
def rpmbOutcomes (final : Option Nat) : Outcomes :=
  { successfulOutcomes with encrypt := { successfulCalls with final := fun _ _ _ => final } }

def rpmbIo (final : Option Nat) : Io :=
  ⟨some rpmbRequest, ⟨[], Nat.zero_le _⟩, ⟨true, [], rpmbOutcomes final⟩, true⟩

def storageState : State := (clientStep (fakeProvider plainBuild) smallInterface ssUuid).post

theorem storageState_exec : Exec (service (fakeProvider plainBuild) smallInterface)
    [clientStep (fakeProvider plainBuild) smallInterface ssUuid] storageState :=
  clientStep_exec (by decide)

theorem rpmbRequest_firstSlot :
    FirstSlot (keys plainBuild) ssUuid rpmbRequest.id 0 (.other getRpmbSsAuthKey) := by
  refine ⟨⟨_, rfl, ?_⟩, fun j slot before => absurd before (by omega)⟩
  have id : rpmbRequest.id = (CString.ofString "com.android.trusty.storage_auth.rpmb").chars :=
    Bytes.cstr_eq_self (CString.ofString _).noNul
  simp [KeySlot.answering, id]

theorem rpmbRequest_calledFn (handles : List OpaqueHandleNode) :
    calledFn (keys plainBuild) handles ssUuid rpmbRequest.id = some getRpmbSsAuthKey := by
  rw [calledFn, rpmbRequest_firstSlot.namedSlot_eq]

theorem rpmbRequest_handled (final : Option Nat) : ∃ handled,
    hwkeyChanHandleMsg (fakeProvider plainBuild) smallInterface storageState 16 ⟨3, ssUuid⟩
      (rpmbIo final) = .ok handled ∧ handled.sent = true := by
  have prepared := (handleInvariant_of_reachable storageState_exec.reachable).prepared
  have size : storageState.keyData.length = 2048 := prepared.keyData
  have saltSize : rpmbSalt.length = 32 := rfl
  have named : namedSlot (fakeProvider plainBuild).keySlots (⟨3, ssUuid⟩ : ChanCtx).uuid
      rpmbRequest.id = some (0, .other getRpmbSsAuthKey) := rpmbRequest_firstSlot.namedSlot_eq
  rw [getKeyslot_named prepared (show (rpmbIo final).recv = some rpmbRequest from rfl) rfl named]
  cases final with
  | none | some =>
      simp [callHandler, KeyFn.call, getRpmbSsAuthKey, rpmbIo, rpmbOutcomes, successfulOutcomes,
        successfulCalls, size, saltSize, rpmbSsAuthKeySize, aes256KeyLength, store, respond,
        hwkeySendRsp, Bytes.overwrite]

def rpmbStep (final : Option Nat) (handled : Handled) : Step State Event (List Action) :=
  requestingStep (fakeProvider plainBuild) smallInterface ssUuid (rpmbIo final) handled

theorem rpmbStep_exec (final : Option Nat) {handled : Handled}
    (result : hwkeyChanHandleMsg (fakeProvider plainBuild) smallInterface storageState 16
      ⟨3, ssUuid⟩ (rpmbIo final) = .ok handled) (sent : handled.sent = true) :
    Exec (service (fakeProvider plainBuild) smallInterface)
      [rpmbStep final handled, clientStep (fakeProvider plainBuild) smallInterface ssUuid]
      handled.state :=
  requestingStep_exec (by decide) result sent

theorem rpmbLeaks : RpmbLeaks (rpmbOutcomes none).encrypt := by
  refine ⟨rfl, rfl, ?_, .inr (.inr rfl)⟩
  intro clear
  exact absurd (clear 0x42 (by simp [rpmbOutcomes, successfulCalls, rpmbSalt])) (by decide)

/-- The final call fails, and the key stays in the buffer. -/
theorem key_data_not_clear : ∃ history state,
    Exec (service (fakeProvider plainBuild) smallInterface) history state ∧
      Bytes.Clear (service (fakeProvider plainBuild) smallInterface).initial.keyData ∧
      ¬ Bytes.Clear state.keyData := by
  obtain ⟨handled, result, sent⟩ := rpmbRequest_handled none
  have prepared := (handleInvariant_of_reachable storageState_exec.reachable).prepared
  refine ⟨_, _, rpmbStep_exec none result sent, Bytes.clear_replicate _, ?_⟩
  rw [hwkeyChanHandleMsg_clear_iff (fakeProvider_fromRepository plainBuild) prepared
    (Bytes.clear_replicate _) result, not_not]
  exact ⟨rpmbRequest, _, rfl, rfl, rpmbRequest_calledFn _, .rpmbSsAuthKey rpmbLeaks⟩

theorem not_leaks_of_success (fn : KeyFn) : ¬ Leaks (rpmbOutcomes (some 0)) fn := by
  intro leaks
  cases leaks with
  | rpmbSsAuthKey leaks =>
      have saltSize : rpmbSalt.length = rpmbSsAuthKeySize := rfl
      simpa [rpmbOutcomes, successfulCalls, saltSize] using leaks.fails
  | derivedKey leaks =>
      obtain ⟨key, leaks⟩ := leaks
      simpa [rpmbOutcomes, successfulOutcomes, successfulCalls] using leaks.decrypt.fails

theorem key_data_clear_iff_success : ∃ handled,
    Exec (service (fakeProvider plainBuild) smallInterface)
        [rpmbStep (some 0) handled, clientStep (fakeProvider plainBuild) smallInterface ssUuid]
        handled.state ∧
      Bytes.Clear handled.state.keyData := by
  obtain ⟨handled, result, sent⟩ := rpmbRequest_handled (some 0)
  have run := rpmbStep_exec (some 0) result sent
  refine ⟨handled, run, ?_⟩
  apply (key_data_clear_iff (fakeProvider_fromRepository plainBuild) run).mpr ?_
    (rpmbStep (some 0) handled) (by simp)
  intro step member
  simp only [List.mem_cons, List.not_mem_nil, or_false] at member
  rcases member with rfl | rfl
  · rintro ⟨-, -, ctx, chanCtx, -, -, request, fn, -, -, -, leaks⟩
    exact not_leaks_of_success fn leaks
  · exact not_false

end TrustyApp.Hwkey
