import TrustyApp.Hwaes.Linearization
import TrustyApp.Hwkey.Sessions

/-!
# Revoked handles

A handle is worth nothing to the HWAES service once the session that obtained it was
closed, even while requests of other clients are in work.
-/

namespace TrustyApp.Hwaes.Protocol

open Reactive Refinement
open Hwkey (AccessToken Action FreshTokens fakeProvider hwaesUuid)
open Ipc (Handle)

variable {setup : Setup} {state : State setup} {args : Args} {op : Op setup.evp}
  {final arrival closing issuing step : Step (State setup) Event (Output setup)}
  {history between after inUse earlier : List (Step (State setup) Event (Output setup))}
  {slot : Nat} {token : AccessToken} {chan : Handle}

/-- The service answered a session on `chan` with a handle. -/
def Issues (step : Step (State setup) Event (Output setup)) (chan : Handle) (slot : Nat)
    (token : AccessToken) : Prop :=
  .issued slot token ∈ step.output.hwkey ∧ ∃ rsp, .responded chan rsp true ∈ step.output.hwkey ∧
    rsp.status = .noError ∧ rsp.payload = token.bytes

theorem stepOf_of_output (performs : (services setup).Performs step) {action : Action}
    (acts : action ∈ step.output.hwkey) : ∃ keyStep : Step Hwkey.State Hwkey.Event (List Action),
      stepOf State.hwkey (shows setup) step = some keyStep ∧
        keyStep.output = step.output.hwkey := by
  cases shown : hwkeyEvent? setup step.pre.phase step.event with
  | none =>
      have served := (effect_of_performs performs).1
      simp only [serve, shown, Except.ok.injEq, Prod.mk.injEq] at served
      rw [← served.2] at acts
      cases acts
  | some keyEvent =>
      refine ⟨⟨step.pre.hwkey, keyEvent, step.output.hwkey, step.post.hwkey⟩, ?_, rfl⟩
      simp [stepOf, shows, shown]

theorem token_revoked
    (run : Exec (services setup) (after ++ closing :: (inUse ++ issuing :: earlier)) state)
    (fresh : FreshTokens (fakeProvider setup.build)
      (hwkeySteps (after ++ closing :: (inUse ++ issuing :: earlier))))
    (issues : Issues issuing chan slot token) (closed : .closed chan ∈ closing.output.hwkey) :
    token.WellFormed ∧ ∀ entry ∈ state.hwkey.opaqueHandles, entry.token ≠ token := by
  obtain ⟨keyClosing, closingShown, closingOutput⟩ := stepOf_of_output run.at_step.2.1 closed
  obtain ⟨keyIssuing, issuingShown, issuingOutput⟩ :=
    stepOf_of_output run.at_step.1.at_step.2.1 issues.1
  have keyRun := hwkey_exec run
  have steps : hwkeySteps (after ++ closing :: (inUse ++ issuing :: earlier)) =
      (hwkeySteps after ++ keyClosing :: hwkeySteps inUse) ++
        keyIssuing :: hwkeySteps earlier := by
    simp [hwkeySteps, List.filterMap_append, closingShown, issuingShown]
  rw [steps] at keyRun fresh
  -- the token is gone from the first closing on
  have keyClosed : .closed chan ∈ keyClosing.output := closingOutput ▸ closed
  obtain ⟨later, first, before, split, firstClosed, wasOpen⟩ :
      ∃ later first before, hwkeySteps after ++ keyClosing :: hwkeySteps inUse =
        later ++ first :: before ∧ .closed chan ∈ first.output ∧
          ∀ other ∈ before, .closed chan ∉ other.output :=
    exists_earliest (List.mem_append_right _ List.mem_cons_self) keyClosed
  rw [split, List.append_assoc, List.cons_append] at keyRun fresh
  obtain ⟨issuingRun, performs, afterIssuing⟩ := keyRun.at_step.1.at_step
  have answered : Hwkey.Answered keyIssuing chan slot token := by
    unfold Hwkey.Answered
    rw [issuingOutput]
    exact issues
  obtain ⟨chanCtx, ctx, rfl, disclosed⟩ := answered.discloses issuingRun.reachable performs
  have invariant := Hwkey.handleInvariant_of_reachable afterIssuing.reachable
  have entry : ⟨slot, ctx, token⟩ ∈ keyIssuing.post.opaqueHandles := by simp [disclosed.added]
  exact ⟨(invariant.entries _ entry).token,
    (Hwkey.token_gone keyRun fresh disclosed wasOpen firstClosed).2⟩

/-- A request that arrives after the session was closed that obtained its handle is refused
without a trace, whatever happens while it is in work. -/
theorem revoked_handle_refused
    (run : Exec (services setup)
      (final :: (between ++ arrival :: (after ++ closing :: (inUse ++ issuing :: earlier)))) state)
    (fresh : FreshTokens (fakeProvider setup.build) (hwkeySteps
      (final :: (between ++ arrival :: (after ++ closing :: (inUse ++ issuing :: earlier))))))
    (issues : Issues issuing chan slot token) (closed : .closed chan ∈ closing.output.hwkey)
    (request : arrival.event = .request args) (handle : args.handle = token.chars)
    (last : ∀ step ∈ final :: between, ∀ args', step.event ≠ .request args')
    (completed : final.output.op = some op) : Refused final.pre.ctx args op := by
  rcases refused_or_redeemed run request last completed with
    refused | ⟨lookup, member, env, key, redeems, -⟩
  · exact refused
  · obtain ⟨newer, older, rfl⟩ := List.append_of_mem member
    have split : final :: ((newer ++ lookup :: older) ++ arrival ::
          (after ++ closing :: (inUse ++ issuing :: earlier))) =
        (final :: (newer ++ [lookup])) ++
          ((older ++ arrival :: after) ++ closing :: (inUse ++ issuing :: earlier)) := by
      simp
    rw [split] at run fresh
    rw [hwkeySteps_append] at fresh
    have whole : Exec (services setup) ((final :: newer) ++ lookup ::
        ((older ++ arrival :: after) ++ closing :: (inUse ++ issuing :: earlier))) state := by
      simpa using run
    obtain ⟨wellFormed, gone⟩ := token_revoked whole.at_step.1 (fresh.of_append _) issues closed
    -- the handle would have been redeemed after that
    obtain ⟨_, entry, _, _, _, handles, opens, -⟩ := redeems.handle
    have present : entry ∈ lookup.pre.hwkey.opaqueHandles := by simp [handles]
    have invariant := (connected_of_reachable whole.at_step.1.reachable).hwkey
    have same := (invariant.entries entry present).token.ext wellFormed (opens.1.trans handle)
    exact absurd same (gone entry present)

section Sample

def revokedState (buffer : List UInt8) : Hwkey.State := (hangingUpStep (issuedState buffer)).post

def refusedOp : Op sampleSetup.evp :=
  ⟨.errIo, sampleStep.pre, (handleArgs .cbc).textOut, (handleArgs .cbc).tagOut⟩

theorem hwaesAesOp_noKey : hwaesAesOp sampleSetup.ifc ⟨true, fun _ _ => none⟩ sampleStep.pre
    (handleArgs .cbc) = .ok refusedOp := by
  have keyIs : fetchKey sampleSetup.ifc ⟨true, fun _ _ => none⟩ (handleArgs .cbc) =
      .error .errIo := by
    have holds : HoldsHandle sampleSetup.ifc (handleArgs .cbc) := handleArgs_holds .cbc
    rw [holds.fetchKey_eq, if_neg (by simp)]
  rw [hwaesAesOp, if_neg (by decide), keyIs]
  rfl

theorem freshTokens_sample {history : List (Step Hwkey.State Hwkey.Event (List Action))}
    (tokens : Hwkey.issuedTokens history = [Hwkey.sampleToken]) :
    FreshTokens (fakeProvider sampleSetup.build) history := by
  refine ⟨by simp [tokens], ?_⟩
  rw [tokens]
  decide

def unknownHandle (keyState : Hwkey.State) : Hwkey.Handled :=
  ⟨{ keyState with reqData := Hwkey.slotIdOf keyState.reqData sampleMessage },
    [.responded 4 (Hwkey.notFoundRsp Hwkey.smallInterface sampleMessage) true], true⟩

theorem revokedHandle_unknown {buffer : List UInt8}
    (prepared : Hwkey.Prepared (encryptProvider sampleKey) (sessionState (revokedState buffer))) :
    Hwkey.hwkeyChanHandleMsg (encryptProvider sampleKey) Hwkey.smallInterface
        (sessionState (revokedState buffer)) 32 ⟨4, hwaesUuid⟩ sampleIo =
      .ok (unknownHandle (sessionState (revokedState buffer))) := by
  have unnamed : Hwkey.namedSlot (encryptProvider sampleKey).keySlots hwaesUuid
      sampleMessage.id = none := namedSlot_hwaesUuid (encryptBuild sampleKey) _
  exact Hwkey.getKeyslot_denied prepared rfl rfl unnamed rfl

/-- A request that comes after the apploader has closed its session gets as far as the HWKEY
service, which finds no handle. -/
theorem revoked_handle_refused_sample : ∃ buffer handled state,
    handled = unknownHandle (sessionState (revokedState buffer)) ∧
    Exec (services sampleSetup)
      (closingStep handled.state none refusedOp ::
        ([askingStep (revokedState buffer) handled none, openingStep (revokedState buffer)] ++
          arrivingStep (revokedState buffer) ::
            ([] ++ lifted sampleSetup (hangingUpStep (issuedState buffer)) ::
              ([] ++ lifted sampleSetup (issuingStep buffer) ::
                [lifted sampleSetup connectingStep])))) state ∧
    Refused (closingStep handled.state none refusedOp).pre.ctx (handleArgs .cbc) refusedOp := by
  obtain ⟨buffer, issued⟩ := issuingStep_exec
  have beforeHangingUp : Exec sampleSetup.hwkey _ (hangingUpStep (issuedState buffer)).pre := issued
  have beforeRequest : Exec (services sampleSetup) _ (arrivingStep (revokedState buffer)).pre :=
    lifted_exec (beforeHangingUp.step (hangingUpStep_performs rfl rfl))
  have beforeOpening : Exec (services sampleSetup) _ (openingStep (revokedState buffer)).pre :=
    beforeRequest.step (arrivingStep_performs _)
  have opened := beforeOpening.step (openingStep_performs rfl rfl)
  have answered := revokedHandle_unknown (connected_of_reachable opened.reachable).hwkey.prepared
  have asked := opened.step (askingStep_performs answered rfl rfl)
  -- nothing happens between the issuing, the revocation and the arrival of the request
  have run : Exec (services sampleSetup)
      (_ :: ([_, _] ++ _ :: ([] ++ _ :: ([] ++ _ :: [_])))) _ :=
    asked.step (closingStep_performs hwaesAesOp_noKey)
  have issues : Issues (lifted sampleSetup (issuingStep buffer)) 3 2 Hwkey.sampleToken :=
    ⟨by simp [lifted, meanwhile, issuingStep, Hwkey.requestingStep], _, List.mem_cons_self, rfl,
      rfl⟩
  have closed : .closed 3 ∈
      (lifted sampleSetup (hangingUpStep (issuedState buffer))).output.hwkey :=
    List.mem_cons_self
  have refused := revoked_handle_refused run (freshTokens_sample rfl) issues closed rfl
    (handleArgs_handle .cbc) (by simp [closingStep, askingStep, openingStep]) rfl
  exact ⟨buffer, _, _, rfl, run, refused⟩

end Sample

end TrustyApp.Hwaes.Protocol
