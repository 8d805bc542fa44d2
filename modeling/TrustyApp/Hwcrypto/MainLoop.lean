import TrustyApp.Hwcrypto.Dispatch

/-!
# Runs of the program

From start-up on, the program is the three services side by side: every run of it is a
run of them, and an event stops it only where it stops the service it is meant for.
Since they share one process, the one memory error that is left in a service is one of
the whole program.
-/

namespace TrustyApp.Hwcrypto.Main

open Ipc Reactive

variable {setup : Setup} {calls : StartCalls} {ports : Handle → PortState} {process : Process}
  {history : List (Step Process Uevent Output)}

/-- The port of a service that can be connected to, if the service could be started. -/
def PortCalls.port (calls : PortCalls) : Option Handle :=
  if calls.cookieSet then calls.created else none

def StartCalls.portOf (calls : StartCalls) : Service → Option Handle
  | .hwrng => calls.hwrng.port
  | .hwkey => calls.hwkey.port
  | .keybox => calls.keybox.port

structure StartCalls.Offered (calls : StartCalls) : Prop where
  hwkey : ∀ port, calls.hwkey.port = some port → calls.hwrng.created ≠ some port
  keybox : ∀ port, calls.keybox.created = some port →
    calls.hwrng.created ≠ some port ∧ calls.hwkey.port ≠ some port

theorem register_self (service : Service) (port : Handle) :
    register ports service port true port = .registered service := Function.update_self ..

theorem register_of_ne {service : Service} {port other : Handle} (cookieSet : Bool)
    (ne : other ≠ port) : register ports service port cookieSet other = ports other :=
  Function.update_of_ne ne ..

theorem PortCalls.port_eq_some {calls : PortCalls} {port : Handle}
    (found : calls.port = some port) : calls.created = some port ∧ calls.cookieSet = true := by
  unfold PortCalls.port at found
  split at found
  next set => exact ⟨found, set⟩
  next => cases found

/-- The ports of the services that could be started, when `main` enters the loop. -/
theorem start_registers (started : start calls = some ports) (offered : calls.Offered)
    {service : Service} {port : Handle} (found : calls.portOf service = some port) :
    ports port = .registered service := by
  unfold start at started
  obtain ⟨afterHwrng, hwrng, started⟩ := Option.bind_eq_some_iff.mp started
  obtain ⟨afterHwkey, hwkey, keybox⟩ := Option.bind_eq_some_iff.mp started
  unfold hwrngStartService at hwrng
  unfold hwkeyInitSrvProvider at hwkey
  unfold keyboxStartService at keybox
  split at hwrng
  · cases hwrng
  next hwrngPort hwrngCreated =>
  split at keybox
  · cases keybox
  next keyboxPort keyboxCreated =>
  obtain ⟨neHwrng, neHwkey⟩ := offered.keybox keyboxPort keyboxCreated
  split at hwrng
  swap
  · cases hwrng
  split at hwkey
  swap
  · cases hwkey
  obtain rfl := Option.some.inj hwrng
  obtain rfl := Option.some.inj hwkey
  obtain rfl := Option.some.inj keybox
  -- the ports before the last, and before the keybox service
  have before : ∀ {h}, calls.hwkey.port ≠ some h →
      ((hwkeyStartService (register (fun _ => .closed) .hwrng hwrngPort calls.hwrng.cookieSet)
        calls.hwkey).getD (register (fun _ => .closed) .hwrng hwrngPort
          calls.hwrng.cookieSet)) h =
      register (fun _ => .closed) .hwrng hwrngPort calls.hwrng.cookieSet h := by
    intro h ne
    unfold hwkeyStartService
    split
    · rfl
    next created isCreated =>
      split
      next set =>
        have other : h ≠ created := by
          rintro rfl
          exact ne (by simp [PortCalls.port, set, isCreated])
        exact register_of_ne true other
      next => rfl
  cases service with
  | hwrng =>
      obtain ⟨created, set⟩ := PortCalls.port_eq_some found
      obtain rfl : hwrngPort = port := Option.some.inj (hwrngCreated.symm.trans created)
      have ne : hwrngPort ≠ keyboxPort := by
        rintro rfl
        exact neHwrng created
      have notHwkey : calls.hwkey.port ≠ some hwrngPort := fun same =>
        offered.hwkey hwrngPort same created
      rw [register_of_ne _ ne, before notHwkey, set, register_self]
  | hwkey =>
      obtain ⟨created, set⟩ := PortCalls.port_eq_some found
      have ne : port ≠ keyboxPort := by
        rintro rfl
        exact neHwkey found
      rw [register_of_ne _ ne]
      simp [hwkeyStartService, created, set, register_self]
  | keybox =>
      obtain ⟨created, set⟩ := PortCalls.port_eq_some found
      obtain rfl : keyboxPort = port := Option.some.inj (keyboxCreated.symm.trans created)
      rw [set, register_self]

/-- Every run of the program is a run of the three services side by side, with the same
events and outputs.  Handles and addresses are never shared between services, a started
service stays reachable through its port, and dispatching an event through its cookie
does exactly what the event means to the service that has the handle open. -/
theorem main_runs_services (started : start calls = some ports) (offered : calls.Offered)
    (run : Exec (main setup ports) history process) :
    (∃ served, Exec (app setup) served process.services ∧
      served.map (fun step => (step.event, step.output)) = history.filterMap shows) ∧
    Separate process ∧
    (∀ service port, calls.portOf service = some port →
      process.ports port = .registered service) ∧
    ∀ event,
      (∀ appEvent, serviceEvent process event = some appEvent →
        dispatchEvent setup process event =
          done process (Hwcrypto.dispatchEvent setup process.services appEvent)) ∧
      (serviceEvent process event = none → ∃ ports' output,
        dispatchEvent setup process event = .ok (⟨process.services, ports'⟩, output) ∧
          output.services = noOutput.services) := by
  obtain ⟨separate, reached⟩ := separate_of_reachable run.reachable
  refine ⟨?_, separate, ?_, fun event => ⟨?_, ?_⟩⟩
  · obtain ⟨served, state, servedRun, ⟨rfl, -⟩, same⟩ := (main_simulates setup ports).run run
    exact ⟨served, servedRun, same⟩
  · intro service port found
    exact registered_of_reachable run.reachable (start_registers started offered found)
  · intro appEvent meant
    exact dispatch_of_serviceEvent separate reached meant
  · intro none
    rcases dispatchEvent_eq separate reached event with ⟨_, meant, -⟩ | ⟨-, idle | ⟨-, closed⟩⟩
    · rw [none] at meant
      cases meant
    · exact ⟨process.ports, noOutput, idle, rfl⟩
    · exact ⟨_, _, closed, rfl⟩

def plainStart : StartCalls := ⟨⟨some 1, true⟩, true, true, ⟨some 2, true⟩, ⟨some 5, true⟩⟩

def plainPorts : Handle → PortState :=
  register (register (register (fun _ => .closed) .hwrng 1 true) .hwkey 2 true) .keybox 5 true

theorem plainStart_offered : plainStart.Offered where
  hwkey port found := by
    obtain rfl : 2 = port := Option.some.inj found
    decide
  keybox port found := by
    obtain rfl : 5 = port := Option.some.inj found
    decide

def plainSetup : Setup :=
  ⟨64, Hwkey.fakeProvider Hwkey.plainBuild, Hwkey.smallInterface, Keybox.smallInterface,
    fun _ => 0⟩

/-- An event at which no request can be received, apart from one of the keybox service
whose answer cannot be sent. -/
def plainEvent (handle : Handle) (poll : Poll) (conn : Connect Hwkey.Uuid) : Uevent :=
  ⟨handle, poll, conn,
    ⟨none, fun _ => none, fun _ => .failed⟩,
    ⟨none, ⟨[], Nat.zero_le _⟩, ⟨true, [], Hwkey.successfulOutcomes⟩, true⟩,
    ⟨some ⟨6, []⟩, List.replicate 12 0, List.replicate 4 0, false⟩, fun _ => 0, 0⟩

theorem plainEvent_fits (handle : Handle) (poll : Poll) (conn : Connect Hwkey.Uuid) :
    (plainEvent handle poll conn).keybox.Fits plainSetup.keybox := by
  refine ⟨rfl, rfl, ?_⟩
  intro request received
  cases received
  exact Nat.zero_le _

def connectStep : Step Process Uevent Output :=
  let event := plainEvent 5 ⟨true, false, false, false⟩ ⟨some 3, Hwkey.kmUuid, some 16, true⟩
  ⟨(main plainSetup plainPorts).initial, event, ⟨⟨[], [], [.created 16], []⟩, none⟩,
    ⟨{ (app plainSetup).initial with
      keybox := (Keybox.keyboxPortHandler .empty (anonymous event.conn)).1 }, plainPorts⟩⟩

theorem connectStep_handled :
    dispatchEvent plainSetup connectStep.pre connectStep.event =
      .ok (connectStep.post, connectStep.output) := rfl

theorem connectStep_exec :
    Exec (main plainSetup plainPorts) [connectStep] connectStep.post := by
  refine .step .start ⟨⟨?_, ?_, ?_, trivial, plainEvent_fits _ _ _⟩, connectStep_handled⟩
  · intro h new
    obtain rfl : 3 = h := Option.some.inj new
    exact ⟨rfl, fun service => by cases service <;> rfl⟩
  · intro a new service
    cases service <;> rfl
  · intro post output handled
    have same := (Except.ok.inj (connectStep_handled.symm.trans handled))
    obtain ⟨-, rfl⟩ := Prod.mk.inj same
    trivial

theorem main_runs_services_connected :
    ∃ served, Exec (app plainSetup) served connectStep.post.services ∧
      served.map (fun step => step.output.keybox) = [[.created 16]] ∧
      connectStep.post.ports 1 = .registered .hwrng := by
  obtain ⟨⟨served, run, same⟩, -, registered, -⟩ :=
    main_runs_services (show start plainStart = some plainPorts from rfl) plainStart_offered
      connectStep_exec
  refine ⟨served, run, ?_, registered .hwrng 1 rfl⟩
  have outputs := congrArg (List.map fun shown => shown.2.keybox) same
  rw [List.map_map] at outputs
  exact outputs

theorem hwkey_message_of_halt {provider : Hwkey.Provider} {ifc : Hwkey.Interface}
    {state : Hwkey.State} {event : Hwkey.Event} {halt : Hwkey.Halt}
    (invariant : Hwkey.HandleInvariant provider state) (enabled : Hwkey.Enabled state event)
    (stopped : Hwkey.dispatchEvent provider ifc state event = .error halt) :
    ∃ ctx chanCtx io bits, event = .chan chanCtx.chan bits io ∧ bits.hup = false ∧
      bits.msg = true ∧ state.conns.ctxs ctx = some chanCtx ∧
      Hwkey.hwkeyChanHandleMsg provider ifc state ctx chanCtx io = .error halt := by
  cases event with
  | port conn =>
      obtain ⟨result, returned⟩ := Hwkey.hwkeyPortHandler_returns provider state conn
      rw [Hwkey.dispatchEvent, returned] at stopped
      cases stopped
  | chan handle bits io =>
      obtain ⟨ctx, attached⟩ := enabled
      obtain ⟨chanCtx, live, rfl⟩ := invariant.wellFormed.attached handle ctx attached
      simp only [Hwkey.dispatchEvent, attached, Hwkey.hwkeyChanHandler, Hwkey.load_of_live live,
        ok_bind, ne_eq, not_true_eq_false, if_false] at stopped
      split at stopped
      · rw [Hwkey.hwkeyCtxClose_of_live live] at stopped
        cases stopped
      next noHup =>
      split at stopped
      swap
      · cases stopped
      next msg =>
      rcases bind_eq_error.mp stopped with stopped | ⟨handled, answered, stopped⟩
      · exact ⟨ctx, chanCtx, io, bits, rfl, Bool.eq_false_iff.mpr noHup, msg, live, stopped⟩
      · have replied := Hwkey.hwkeyChanHandleMsg_replied invariant.prepared answered
        have stillLive : handled.state.conns.ctxs ctx = some chanCtx := by
          rw [replied.conns, live]
        split at stopped
        · cases stopped
        · rw [Hwkey.hwkeyCtxClose_of_live stillLive] at stopped
          cases stopped

theorem hwrng_returns {width : Nat} {state : Hwrng.State} {event : Hwrng.Event}
    (invariant : Hwrng.QueueInvariant state) (enabled : Hwrng.Enabled state event) :
    ∃ result, Hwrng.dispatchEvent width state event = .ok result := by
  cases event with
  | port conn => exact ⟨_, rfl⟩
  | chan handle bits io =>
      obtain ⟨ctx, attached⟩ := enabled
      obtain ⟨-, -, -, pass, -, -, -, -, -, -, -, -, dispatched⟩ :=
        Hwrng.dispatchEvent_chan width bits io invariant attached
      exact ⟨_, dispatched⟩

theorem keybox_halt {ifc : Keybox.Interface} {width : Nat} {table : Table Keybox.ChanCtx}
    {event : Keybox.Event} {halt : Keybox.Halt}
    (reached : Reachable (Keybox.service ifc width) table)
    (enabled : Keybox.Enabled ifc table event)
    (stopped : Keybox.dispatchEvent ifc width table event = .error halt) :
    event.shutsDownTwice = true ∧ ∃ ctx, halt = .useAfterFree ctx := by
  obtain ⟨history, run⟩ := reached
  cases event with
  | port conn => simp [Keybox.dispatchEvent] at stopped
  | chan handle msg hup io =>
      obtain ⟨ctx, chanCtx, answered, -, -, outcome⟩ :=
        Keybox.dispatchEvent_chan_cases width (Keybox.run_invariant run) enabled
      have stopped := outcome.symm.trans stopped
      cases hup <;> cases failed : (msg && io.fails) <;>
        simp only [failed, Keybox.chanOutcome] at stopped <;> cases stopped
      exact ⟨by simp [Keybox.Event.shutsDownTwice, failed], ctx, rfl⟩

/-- An event on which the keybox service frees a context twice. -/
def FreesTwice (process : Process) (event : Uevent) : Prop :=
  ∃ keyboxEvent, serviceEvent process event = some (.keybox keyboxEvent) ∧
    keyboxEvent.shutsDownTwice = true

/-- An event that delivers a HWKEY request which is left unanswered. -/
def LeavesUnanswered (setup : Setup) (process : Process) (event : Uevent) (halt : Hwkey.Halt) :
    Prop :=
  ∃ hwkeyEvent lost, serviceEvent process event = some (.hwkey hwkeyEvent lost) ∧
    Hwkey.LeavesUnanswered setup.provider setup.hwkey halt process.services.hwkey hwkeyEvent

theorem useAfterFree_of_freesTwice {event : Uevent}
    (reached : Reachable (main setup ports) process) (enabled : Enabled setup process event)
    (twice : FreesTwice process event) :
    ∃ ctx, dispatchEvent setup process event =
      .error (.service (.keybox (.useAfterFree ctx))) := by
  obtain ⟨separate, appReached⟩ := separate_of_reachable reached
  obtain ⟨keyboxEvent, meant, shutsDownTwice⟩ := twice
  have keyboxEnabled := enabled_of_serviceEvent separate appReached enabled meant
  have halts := (Keybox.useAfterFree_iff (keybox_reachable appReached) keyboxEnabled).not.mpr
    (by simp [shutsDownTwice])
  simp only [ne_eq, not_forall, not_not] at halts
  obtain ⟨ctx, stopped⟩ := halts
  refine ⟨ctx, ?_⟩
  rw [dispatch_of_serviceEvent separate appReached meant, Hwcrypto.dispatchEvent, stopped]
  rfl

/-- Built with the keys of the fake provider, the program commits a memory error exactly
at an event on which the keybox service frees a context twice; otherwise it stops only at
a request for a key slot whose handler aborts or whose token the RNG has not delivered yet.
No run gets past such an event, so one client of the keybox service can end the service of
all others. -/
theorem memory_error_iff {cfg : Hwkey.BuildConfig}
    (provided : setup.provider = Hwkey.fakeProvider cfg)
    (run : Exec (main setup ports) history process) :
    (∀ step ∈ history, ¬ FreesTwice step.pre step.event) ∧
    ∀ event, Enabled setup process event →
      ((∃ ctx, dispatchEvent setup process event =
          .error (.service (.keybox (.useAfterFree ctx)))) ↔ FreesTwice process event) ∧
      ∀ halt, dispatchEvent setup process event = .error halt →
        FreesTwice process event ∨
          halt = .service (.hwkey .drawing) ∧ LeavesUnanswered setup process event .drawing ∨
          halt = .service (.hwkey (.provider .assertFailed)) ∧
            LeavesUnanswered setup process event (.provider .assertFailed) := by
  have stops : ∀ event, Enabled setup process event → ∀ halt,
      dispatchEvent setup process event = .error halt →
        FreesTwice process event ∨
          halt = .service (.hwkey .drawing) ∧ LeavesUnanswered setup process event .drawing ∨
          halt = .service (.hwkey (.provider .assertFailed)) ∧
            LeavesUnanswered setup process event (.provider .assertFailed) := by
    intro event enabled halt stopped
    obtain ⟨separate, reached⟩ := separate_of_reachable run.reachable
    obtain ⟨hwrngReached, hwkeyReached⟩ := services_reachable reached
    rcases dispatchEvent_eq separate reached event with
      ⟨appEvent, meant, result⟩ | ⟨-, idle | ⟨-, closed⟩⟩
    · have appEnabled := enabled_of_serviceEvent separate reached enabled meant
      rw [result] at stopped
      cases appEvent with
      | hwrng event lost =>
          obtain ⟨finished, returned⟩ :
              ∃ result, Hwrng.dispatchEvent setup.width process.services.hwrng event = .ok result :=
            hwrng_returns (Hwrng.queueInvariant_of_reachable hwrngReached) appEnabled.1
          simp [Hwcrypto.dispatchEvent, returned, done] at stopped
      | hwkey event lost =>
          simp only [Hwcrypto.dispatchEvent] at stopped
          split at stopped
          next halt' halted =>
            obtain rfl := Except.error.inj stopped
            have invariant := Hwkey.handleInvariant_of_reachable hwkeyReached
            obtain ⟨ctx, chanCtx, io, bits, rfl, noHup, msg, live, message⟩ :=
              hwkey_message_of_halt invariant appEnabled.1 halted
            rw [provided] at invariant message
            obtain ⟨request, received, unanswered⟩ :=
              Hwkey.hwkeyChanHandleMsg_stops cfg invariant.prepared message
            have leaves : LeavesUnanswered setup process event halt' := by
              refine ⟨_, lost, meant, (Hwkey.onMessage_iff invariant noHup msg live).mpr ?_⟩
              rw [provided]
              exact ⟨request, received, unanswered⟩
            rcases unanswered.cause with rfl | rfl
            · exact .inr (.inl ⟨rfl, leaves⟩)
            · exact .inr (.inr ⟨rfl, leaves⟩)
          next => cases stopped
      | keybox event =>
          simp only [Hwcrypto.dispatchEvent] at stopped
          split at stopped
          next halt' halted =>
            exact .inl ⟨event, meant, (keybox_halt (keybox_reachable reached) appEnabled halted).1⟩
          next => cases stopped
    · rw [idle] at stopped
      cases stopped
    · rw [closed] at stopped
      cases stopped
  constructor
  · intro step member twice
    obtain ⟨reached, enabled, handled⟩ := run.performed member
    obtain ⟨ctx, stopped⟩ := useAfterFree_of_freesTwice reached enabled twice
    have handled : dispatchEvent setup step.pre step.event = .ok (step.post, step.output) :=
      handled
    rw [stopped] at handled
    cases handled
  · intro event enabled
    refine ⟨⟨?_, useAfterFree_of_freesTwice run.reachable enabled⟩, stops event enabled⟩
    rintro ⟨ctx, stopped⟩
    rcases stops event enabled _ stopped with twice | ⟨drawing, -⟩ | ⟨aborts, -⟩
    · exact twice
    · cases drawing
    · cases aborts

def hangUp : Uevent :=
  plainEvent 3 ⟨false, true, false, true⟩ ⟨none, Hwkey.kmUuid, none, false⟩

theorem memory_error_iff_unanswered :
    ∃ ctx, dispatchEvent plainSetup connectStep.post hangUp =
      .error (.service (.keybox (.useAfterFree ctx))) := by
  have provided : plainSetup.provider = Hwkey.fakeProvider Hwkey.plainBuild := rfl
  have enabled : Enabled plainSetup connectStep.post hangUp := by
    refine ⟨by simp [hangUp, plainEvent], by simp [hangUp, plainEvent], ?_, trivial,
      plainEvent_fits _ _ _⟩
    intro post output handled
    have stopped : dispatchEvent plainSetup connectStep.post hangUp =
        .error (.service (.keybox (.useAfterFree 16))) := rfl
    rw [stopped] at handled
    cases handled
  exact ((memory_error_iff provided connectStep_exec).2 hangUp enabled).1.mpr
    ⟨.chan 3 true true hangUp.keybox, rfl, rfl⟩

end TrustyApp.Hwcrypto.Main
