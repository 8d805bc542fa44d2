import Mathlib.Algebra.Order.Group.Multiset
import TrustyApp.SecureFb.Service

/-!
# The balance of acquired and released resources

A live session holds the display, a buffer, its mapping and a handle to it.  The
destructor releases what the fields of the object name, and `Init` sets these only at
its very end: a call of `secure_fb_impl_init` that fails releases a display, a buffer and
a mapping whether or not it acquired them.  As long as no such call fails, the ledger
holds exactly what the live sessions do.
-/

namespace TrustyApp.SecureFb

open Ledger Reactive

inductive Kind
  | display
  | buffer
  | mapping
  | memref
  deriving DecidableEq

def Resource.kind : Resource → Kind
  | .display => .display
  | .buffer _ => .buffer
  | .mapping _ _ => .mapping
  | .memref _ => .memref

def Io.Succeeds (io : Io) : Prop :=
  0 ≤ io.startSecureDisplay ∧ 0 ≤ io.allocateBuffer.1 ∧ io.mmap.isSome ∧ 0 ≤ io.memrefCreate

instance (io : Io) : Decidable io.Succeeds := inferInstanceAs (Decidable (_ ∧ _ ∧ _ ∧ _))

def ledgerOf (history : List (Step State Event Output)) : List (Entry Resource) :=
  history.flatMap fun step => step.output.ledger

/-- At every point of the run each kind of resource is outstanding once for every live
session, only what was acquired is released, and a failed `secure_fb_impl_init` returns
`NULL` and leaves the sessions and every resource as they were. -/
structure ResourceBalance (pageSize : Nat) (history : List (Step State Event Output)) :
    Prop where
  balanced : ∀ later earlier state, history = later ++ earlier →
    Exec (secureFb pageSize) earlier state → ∀ kind,
      outstanding (·.kind = kind) (ledgerOf earlier) = state.sessions.entries.length
  onlyAcquired : OnlyHeld (ledgerOf history)
  failedInit : ∀ step ∈ history, ∀ io, step.event = .init io → ¬ io.Succeeds →
    step.output.returned = .handle 0 ∧ step.post = step.pre ∧
      ∀ resource, outstanding (· = resource) step.output.ledger = 0

variable {pageSize : Nat} {state : State} {object : SecureFbMockImpl} {sfb : Ipc.Addr} {io : Io}
  {history : List (Step State Event Output)} {step : Step State Event Output}

def ready (pageSize : Nat) (io : Io) (base : Ipc.Addr) : SecureFbMockImpl :=
  ⟨#v[fbDbEntry pageSize kDeviceWidth kDeviceHeight io base]⟩

/-- What the fields of an object name, the last acquired first. -/
def SecureFbMockImpl.resources (object : SecureFbMockImpl) : Multiset Resource :=
  .memref object.entry.handle ::ₘ
    .mapping object.entry.fbInfo.buffer object.entry.fbInfo.size ::ₘ
    .buffer object.entry.bufInfo ::ₘ {.display}

inductive Effect (pageSize : Nat) (state : State) : Event → State → Output → Prop
  | opened {io : Io} {base : Ipc.Addr} : io.Succeeds → io.mmap = some base →
      Effect pageSize state (.init io) ⟨state.sessions.insert io.sfb (ready pageSize io base)⟩
        ⟨.handle io.sfb,
          [.acquire (.memref io.memrefCreate),
            .acquire (.mapping base (fbSize pageSize kDeviceWidth kDeviceHeight)),
            .acquire (.buffer io.allocateBuffer.2), .acquire .display]⟩
  | failed {io : Io} {acquired : List (Entry Resource)} : ¬ io.Succeeds →
      (∀ base size, .acquire (.mapping base size) ∈ acquired → io.mmap = some base) →
      Effect pageSize state (.init io) state
        ⟨.handle 0, SecureFbMockImpl.new.destroy ++ acquired⟩
  | looked {event : Event} {returned : Returned} : (∀ io, event ≠ .init io) →
      Effect pageSize state event state ⟨returned, []⟩
  | released {sfb : Ipc.Addr} {object : SecureFbMockImpl} :
      state.sessions.lookup sfb = some object →
      Effect pageSize state (.release sfb) ⟨state.sessions.erase sfb⟩ ⟨.code .ok, object.destroy⟩

theorem secureFbImplInit_effect :
    Effect pageSize state (.init io) (secureFbImplInit pageSize state io).1
      (secureFbImplInit pageSize state io).2 := by
  unfold secureFbImplInit SecureFbMockImpl.init
  by_cases started : io.startSecureDisplay < 0
  · simp only [if_pos started]
    exact .failed (fun succeeds => absurd succeeds.1 (by omega)) (by simp)
  by_cases allocated : io.allocateBuffer.1 < 0
  · simp only [if_neg started, if_pos allocated]
    exact .failed (fun succeeds => absurd succeeds.2.1 (by omega)) (by simp)
  simp only [if_neg started, if_neg allocated]
  cases mapped : io.mmap with
  | none => exact .failed (fun succeeds => by simp [Io.Succeeds, mapped] at succeeds) (by simp)
  | some base =>
      by_cases created : io.memrefCreate < 0
      · simp only [if_pos created]
        exact .failed (fun succeeds => absurd succeeds.2.2.2 (by omega)) (by simp [mapped])
      · simp only [if_neg created]
        have succeeds : io.Succeeds := ⟨by omega, by omega, by simp [mapped], by omega⟩
        exact .opened succeeds mapped

theorem object_eq_ok : state.object sfb = .ok object ↔ state.sessions.lookup sfb = some object := by
  unfold State.object
  cases state.sessions.lookup sfb with
  | none => simp
  | some other => simp

theorem performs_effect (performs : (secureFb pageSize).Performs step) :
    Effect pageSize step.pre step.event step.post step.output := by
  obtain ⟨pre, event, output, post⟩ := step
  obtain ⟨-, handled⟩ := performs
  change dispatch pageSize pre event = .ok (post, output) at handled
  cases event with
  | init io =>
      obtain ⟨rfl, rfl⟩ := Prod.mk.inj (Except.ok.inj handled)
      exact secureFbImplInit_effect
  | getFbs sfb =>
      obtain ⟨object, -, returned⟩ := bind_eq_ok.mp handled
      obtain ⟨rfl, rfl⟩ := Prod.mk.inj (Except.ok.inj returned)
      exact .looked (by simp)
  | displayFb sfb bufferId =>
      obtain ⟨object, -, returned⟩ := bind_eq_ok.mp handled
      obtain ⟨rfl, rfl⟩ := Prod.mk.inj (Except.ok.inj returned)
      exact .looked (by simp)
  | release sfb =>
      obtain ⟨object, found, returned⟩ := bind_eq_ok.mp handled
      obtain ⟨rfl, rfl⟩ := Prod.mk.inj (Except.ok.inj returned)
      exact .released (object_eq_ok.mp found)

def State.held (state : State) : Multiset Resource :=
  (state.sessions.entries.map fun session => session.2.resources).sum

theorem held_countP (state : State) (kind : Kind) :
    state.held.countP (·.kind = kind) = state.sessions.entries.length := by
  unfold State.held
  induction state.sessions.entries with
  | nil => simp
  | cons session entries inductionHypothesis =>
      have one : session.2.resources.countP (·.kind = kind) = 1 := by
        cases kind <;> rfl
      rw [List.map_cons, List.sum_cons, Multiset.countP_add, inductionHypothesis, one,
        List.length_cons, Nat.add_comm]

theorem held_insert (fresh : sfb ∉ state.sessions) :
    State.held ⟨state.sessions.insert sfb object⟩ = object.resources + state.held := by
  simp [State.held, AList.insert_of_notMem fresh]

theorem held_erase (found : state.sessions.lookup sfb = some object) :
    state.held = object.resources + State.held ⟨state.sessions.erase sfb⟩ := by
  have member : ⟨sfb, object⟩ ∈ state.sessions.entries := AList.mem_lookup_iff.mp found
  obtain ⟨other, before, after, -, entries, erased⟩ :=
    List.exists_of_kerase (List.mem_keys_of_mem member)
  have same : object = other := by
    apply state.sessions.nodupKeys.eq_of_mk_mem member
    simp [entries]
  have rest : (state.sessions.erase sfb).entries = before ++ after := erased
  rw [State.held, State.held, rest, entries, same]
  simp [add_left_comm]

/-- The ledger holds what the live sessions do, and every one of them has its handle. -/
structure Settled (ledger : List (Entry Resource)) (state : State) : Prop where
  handles : ∀ sfb object, state.sessions.lookup sfb = some object →
    object.entry.handle ≠ invalidIpcHandle
  holds : Holds ledger state.held

variable {ledger : List (Entry Resource)}

theorem Settled.opened {base : Ipc.Addr} (settled : Settled ledger state)
    (fresh : io.sfb ∉ state.sessions) (created : 0 ≤ io.memrefCreate) :
    Settled
      (.acquire (.memref io.memrefCreate) ::
        .acquire (.mapping base (fbSize pageSize kDeviceWidth kDeviceHeight)) ::
        .acquire (.buffer io.allocateBuffer.2) :: .acquire .display :: ledger)
      ⟨state.sessions.insert io.sfb (ready pageSize io base)⟩ := by
  constructor
  · intro sfb object found
    by_cases new : sfb = io.sfb
    · rw [new, AList.lookup_insert] at found
      obtain rfl := Option.some.inj found
      change io.memrefCreate ≠ -1
      omega
    · rw [AList.lookup_insert_ne new] at found
      exact settled.handles sfb object found
  · rw [held_insert fresh, SecureFbMockImpl.resources]
    simp only [Multiset.cons_add, Multiset.singleton_add]
    exact .acquire _ (.acquire _ (.acquire _ (.acquire _ settled.holds)))

theorem Settled.released (settled : Settled ledger state)
    (found : state.sessions.lookup sfb = some object) :
    Settled (object.destroy ++ ledger) ⟨state.sessions.erase sfb⟩ := by
  constructor
  · intro other kept live
    by_cases same : other = sfb
    · rw [same, AList.lookup_erase] at live
      exact nomatch live
    · rw [AList.lookup_erase_ne same] at live
      exact settled.handles other kept live
  · have holds := settled.holds
    rw [held_erase found, SecureFbMockImpl.resources] at holds
    simp only [Multiset.cons_add, Multiset.singleton_add] at holds
    rw [SecureFbMockImpl.destroy, if_pos (settled.handles sfb object found)]
    exact .release (.release (.release (.release holds)))

theorem Settled.next (settled : Settled (ledgerOf history) step.pre)
    (performs : (secureFb pageSize).Performs step)
    (succeeded : ∀ io, step.event = .init io → io.Succeeds) :
    Settled (ledgerOf (step :: history)) step.post := by
  obtain ⟨pre, event, output, post⟩ := step
  have enabled : Enabled pre event := performs.1
  have effect : Effect pageSize pre event post output := performs_effect performs
  cases effect with
  | opened succeeds mapped => exact settled.opened enabled.2.1 succeeds.2.2.2
  | failed failed => exact absurd (succeeded _ rfl) failed
  | looked => exact settled
  | released found => exact settled.released found

theorem settled_of_succeeded (run : Exec (secureFb pageSize) history state)
    (succeeded : ∀ step ∈ history, ∀ io, step.event = .init io → io.Succeeds) :
    Settled (ledgerOf history) state := by
  induction run with
  | start => exact ⟨by simp [secureFb], .nil⟩
  | @step history step run performs inductionHypothesis =>
      apply Settled.next _ performs (succeeded step List.mem_cons_self)
      apply inductionHypothesis
      intro earlier member
      exact succeeded earlier (List.mem_cons_of_mem step member)

theorem acquire_notMem_destroy {resource : Resource} : .acquire resource ∉ object.destroy := by
  by_cases closed : object.entry.handle = invalidIpcHandle
  · simp [SecureFbMockImpl.destroy, closed]
  · simp [SecureFbMockImpl.destroy, closed]

theorem null_never_mapped (performs : (secureFb pageSize).Performs step) {size : UInt32} :
    .acquire (.mapping 0 size) ∉ step.output.ledger := by
  obtain ⟨pre, event, output, post⟩ := step
  have enabled : Enabled pre event := performs.1
  have effect : Effect pageSize pre event post output := performs_effect performs
  intro acquired
  cases effect with
  | @opened io base succeeds mapped =>
      have atNull : 0 = base ∧ size = fbSize pageSize kDeviceWidth kDeviceHeight := by
        simpa using acquired
      apply enabled.2.2
      rw [mapped, atNull.1]
  | failed failed mapped =>
      apply enabled.2.2
      rcases List.mem_append.mp acquired with impossible | acquired
      · exact absurd impossible acquire_notMem_destroy
      · exact mapped 0 size acquired
  | looked => simp at acquired
  | released => exact acquire_notMem_destroy acquired

/-- A failed call unmaps the null pointer that the new object still has. -/
theorem failed_unmaps_null (performs : (secureFb pageSize).Performs step)
    (isInit : step.event = .init io) (failed : ¬ io.Succeeds) :
    .release (.mapping 0 0) ∈ step.output.ledger := by
  obtain ⟨pre, event, output, post⟩ := step
  obtain rfl : event = .init io := isInit
  have effect : Effect pageSize pre (.init io) post output := performs_effect performs
  cases effect with
  | opened succeeds => exact absurd succeeds failed
  | failed =>
      apply List.mem_append_left
      decide
  | looked looks => exact absurd rfl (looks io)

/-- The balance is kept in exactly the runs in which no `secure_fb_impl_init` fails. -/
theorem resource_balance_iff (run : Exec (secureFb pageSize) history state) :
    ResourceBalance pageSize history ↔
      ∀ step ∈ history, ∀ io, step.event = .init io → io.Succeeds := by
  constructor
  · intro balance step member io isInit
    by_contra failed
    have released : .release (.mapping 0 0) ∈ ledgerOf history :=
      List.mem_flatMap.mpr ⟨step, member,
        failed_unmaps_null (run.performed member).2 isInit failed⟩
    obtain ⟨other, otherMember, acquired⟩ :=
      List.mem_flatMap.mp (balance.onlyAcquired.acquired released)
    exact null_never_mapped (run.performed otherMember).2 acquired
  · intro succeeded
    constructor
    · rintro later earlier middle rfl reached kind
      have settled : Settled (ledgerOf earlier) middle := by
        apply settled_of_succeeded reached
        intro step member
        exact succeeded step (List.mem_append_right later member)
      rw [settled.holds.outstanding_eq, held_countP]
    · exact (settled_of_succeeded run succeeded).holds.onlyHeld
    · intro step member io isInit failed
      exact absurd (succeeded step member io isInit) failed

def initStep (state : State) (io : Io) : Step State Event Output where
  pre := state
  event := .init io
  output := (secureFbImplInit 4096 state io).2
  post := (secureFbImplInit 4096 state io).1

theorem initStep_performs (enabled : Enabled state (.init io)) :
    (secureFb 4096).Performs (initStep state io) := ⟨enabled, rfl⟩

def sampleIo : Io := ⟨1, 0, (0, ⟨5⟩), some 8192, 7⟩

def opening : Step State Event Output := initStep ⟨∅⟩ sampleIo

def failing : Step State Event Output :=
  initStep opening.post { sampleIo with sfb := 2, startSecureDisplay := -1 }

def releasing : Step State Event Output :=
  ⟨opening.post, .release 1, ⟨.code .ok, (ready 4096 sampleIo 8192).destroy⟩, ⟨∅⟩⟩

theorem opening_exec : Exec (secureFb 4096) [opening] opening.post :=
  .step .start (initStep_performs (by simp [Enabled, sampleIo]))

theorem resource_balance_iff_released : ResourceBalance 4096 [releasing, opening] := by
  have run : Exec (secureFb 4096) [releasing, opening] ⟨∅⟩ := by
    apply Exec.step opening_exec
    constructor
    · change 1 ∈ opening.post.sessions
      decide
    · rfl
  apply (resource_balance_iff run).mpr
  intro step member io isInit
  rcases List.mem_pair.mp member with rfl | rfl
  · exact nomatch isInit
  · obtain rfl : sampleIo = io := Event.init.inj isInit
    decide

/-- The failed call stops the display of the session that is live. -/
theorem failed_start_stops_display :
    Exec (secureFb 4096) [failing, opening] failing.post ∧
      failing.post.sessions.entries.length = 1 ∧
      outstanding (·.kind = .display) (ledgerOf [failing, opening]) = 0 ∧
      ¬ ResourceBalance 4096 [failing, opening] := by
  have run : Exec (secureFb 4096) [failing, opening] failing.post := by
    apply Exec.step opening_exec
    apply initStep_performs
    refine ⟨by decide, ?_, by decide⟩
    change 2 ∉ opening.post.sessions
    decide
  refine ⟨run, rfl, rfl, ?_⟩
  intro balance
  have balanced := balance.balanced [] _ _ rfl run .display
  exact absurd balanced (by decide)

end TrustyApp.SecureFb
