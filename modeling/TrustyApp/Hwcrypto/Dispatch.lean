import TrustyApp.Hwcrypto.Main
import TrustyApp.Hwkey.Isolation

/-!
# Dispatch through cookies

Between two events no handle and no address belongs to more than one service, although
the services know nothing of each other.  So the address that the kernel reports with
an event leads to the handler of the service that the handle belongs to, and the
program does what the three services do side by side.
-/

namespace TrustyApp.Hwcrypto.Main

open Ipc Reactive Refinement

def hwrngOffered : Hwrng.Event → Option Handle × Option Addr
  | .port conn => (conn.chan, conn.ctx)
  | .chan _ _ _ => (none, none)

theorem served_within {io : Hwrng.Io} {state state' : Hwrng.State} {ctx : Addr}
    {chanCtx : Hwrng.ChanCtx} {new : List Hwrng.Action} {more : Bool}
    (served : Hwrng.Served io state ctx chanCtx state' new more)
    (live : state.conns.ctxs ctx = some chanCtx) :
    Table.Within none none state.conns state'.conns := by
  cases served with
  | skipped => exact .refl
  | drawFailed | sendFailed => exact .shutdown _ _ _
  | sendBlocked | finished | more => exact .put live _

theorem unblock_within {state : Hwrng.State} {ctx : Addr} {chanCtx : Hwrng.ChanCtx}
    (live : state.conns.ctxs ctx = some chanCtx) (bits : Hwrng.Bits) :
    Table.Within none none state.conns (state.unblock ctx chanCtx bits).conns := by
  unfold Hwrng.State.unblock
  split
  · exact .put live _
  · exact .refl

theorem prepared_within {width : Nat} {state state' : Hwrng.State} {ctx : Addr}
    {chanCtx : Hwrng.ChanCtx} {bits : Hwrng.Bits} {io : Hwrng.Io} {actions : List Hwrng.Action}
    (prepared : Hwrng.Prepared width state ctx chanCtx bits io state' actions)
    (live : state.conns.ctxs ctx = some chanCtx) :
    Table.Within none none state.conns state'.conns := by
  have unblocked := unblock_within live bits
  cases prepared with
  | hungUp => exact .shutdown _ _ _
  | recvFailed => exact unblocked.trans (.shutdown _ _ _)
  | received =>
      refine unblocked.trans ?_
      unfold Hwrng.queueRequest
      split
      · exact .put (Hwrng.unblock_live live bits) _
      · exact .put (Hwrng.unblock_live live bits) _
  | noMessage => exact unblocked

theorem hwrng_within {width : Nat} {state post : Hwrng.State} {event : Hwrng.Event}
    {output : List Hwrng.Action} (invariant : Hwrng.QueueInvariant state)
    (performs : (Hwrng.service width).Performs ⟨state, event, output, post⟩) :
    Table.Within (hwrngOffered event).1 (hwrngOffered event).2 state.conns post.conns := by
  obtain ⟨enabled, handled⟩ := performs
  cases event with
  | port conn =>
      have connected : Hwrng.hwrngPortHandler state conn = (post, output) :=
        Except.ok.inj handled
      have within := Table.Within.connect enabled (fun chan => (⟨chan, 0, false⟩ : Hwrng.ChanCtx))
      have state' : post = (Hwrng.hwrngPortHandler state conn).1 := by rw [connected]
      rw [state']
      exact within
  | chan handle bits io =>
      obtain ⟨ctx, attached⟩ := enabled
      obtain ⟨chanCtx, middle, before, pass, live, -, -, prepared, kept, passed, -, -,
        dispatched⟩ := Hwrng.dispatchEvent_chan width bits io invariant attached
      obtain ⟨pass', passed', -, within⟩ := Hwrng.pass_rule
        (fun _ now _ => Table.Within none none middle.conns now.conns)
        (fun _ _ _ _ _ _ _ _ live _ _ _ within served =>
          within.trans (served_within served live)) before kept .refl
      have same : pass' = pass := Except.ok.inj (passed'.symm.trans passed)
      have reached : pass.state = post :=
        (Prod.mk.inj (Except.ok.inj (dispatched.symm.trans handled))).1
      rw [← reached, ← same]
      exact (prepared_within prepared live).trans within

def hwkeyOffered : Hwkey.Event → Option Handle × Option Addr
  | .port conn => (conn.chan, conn.ctx)
  | .chan _ _ _ => (none, none)

theorem hwkey_within {provider : Hwkey.Provider} {ifc : Hwkey.Interface}
    {state post : Hwkey.State} {event : Hwkey.Event} {output : List Hwkey.Action}
    (reached : Reachable (Hwkey.service provider ifc) state)
    (performs : (Hwkey.service provider ifc).Performs ⟨state, event, output, post⟩) :
    Table.Within (hwkeyOffered event).1 (hwkeyOffered event).2 state.conns post.conns := by
  have invariant := Hwkey.handleInvariant_of_reachable reached
  cases event with
  | port conn =>
      have handled : Hwkey.hwkeyPortHandler provider state conn = .ok (post, output) :=
        performs.2
      rw [Hwkey.hwkeyPortHandler_eq invariant performs.1] at handled
      have state' : post = (Hwkey.portOutcome provider state conn).1 := by
        rw [Except.ok.inj handled]
      rw [state']
      unfold Hwkey.portOutcome
      split
      · exact .refl
      · split
        next opened ctx granted =>
          have established : conn.established = some (opened, ctx) := by
            split at granted
            · exact granted
            · cases granted
          obtain ⟨chanIs, ctxIs⟩ := Connect.results_of_established established
          rw [hwkeyOffered, chanIs, ctxIs]
          exact .opened _ _ _ _
        next => exact .refl
  | chan handle bits io =>
      have effect : Hwkey.Effect provider ifc state (.chan handle bits io) post output :=
        Hwkey.dispatchEvent_effect invariant performs.1 performs.2
      cases effect with
      | idle => exact .refl
      | hungUp => exact .shutdown _ _ _
      | replied _ _ _ answered _ =>
          rw [(Hwkey.hwkeyChanHandleMsg_replied invariant.prepared answered).conns]
          exact .refl
      | dropped _ _ _ answered _ =>
          simp only [Hwkey.State.closeSession,
            (Hwkey.hwkeyChanHandleMsg_replied invariant.prepared answered).conns]
          exact .shutdown _ _ _

def keyboxOffered : Keybox.Event → Option Handle × Option Addr
  | .port conn => (conn.chan, conn.ctx)
  | .chan _ _ _ _ => (none, none)

theorem keybox_within {ifc : Keybox.Interface} {width : Nat} {table post : Table Keybox.ChanCtx}
    {event : Keybox.Event} {output : List Keybox.Action}
    (reached : Reachable (Keybox.service ifc width) table)
    (performs : (Keybox.service ifc width).Performs ⟨table, event, output, post⟩) :
    Table.Within (keyboxOffered event).1 (keyboxOffered event).2 table post := by
  obtain ⟨history, run⟩ := reached
  obtain ⟨enabled, handled⟩ := performs
  cases event with
  | port conn =>
      have connected : Keybox.keyboxPortHandler table conn = (post, output) :=
        Except.ok.inj handled
      have state' : post = (Keybox.keyboxPortHandler table conn).1 := by rw [connected]
      rw [state']
      exact .connect enabled _
  | chan handle msg hup io =>
      obtain ⟨ctx, chanCtx, answered, live, -, outcome⟩ :=
        Keybox.dispatchEvent_chan_cases width (Keybox.run_invariant run) enabled
      have handled := outcome.symm.trans handled
      cases hup <;> cases failed : (msg && io.fails) <;>
        simp only [failed, Keybox.chanOutcome] at handled <;> cases handled
      · exact .refl
      all_goals exact .shutdown _ _ _

def addressee : Hwcrypto.Event → Service
  | .hwrng _ _ => .hwrng
  | .hwkey _ _ => .hwkey
  | .keybox _ => .keybox

def offered : Hwcrypto.Event → Option Handle × Option Addr
  | .hwrng event _ => hwrngOffered event
  | .hwkey event _ => hwkeyOffered event
  | .keybox event => keyboxOffered event

/-- What an event of one service does to the handles and addresses of all services. -/
structure Opens (service : Service) (chan : Option Handle) (fresh : Option Addr)
    (pre post : Hwcrypto.State) : Prop where
  others : ∀ other, other ≠ service →
    chanState post other = chanState pre other ∧ hasCtx post other = hasCtx pre other
  chans : ∀ h, chanState post service h = .closed ∨
    chanState post service h = chanState pre service h ∨
    chan = some h ∧ ∃ a, chanState post service h = .attached a
  ctxs : ∀ a, hasCtx pre service a = false →
    hasCtx post service a = false ∨ fresh = some a

variable {setup : Setup}

theorem keybox_reachable {state : Hwcrypto.State} (reached : Reachable (app setup) state) :
    Reachable (Keybox.service setup.keybox setup.width) state.keybox := by
  apply reached.rule fun state => Reachable (Keybox.service setup.keybox setup.width) state.keybox
  · exact .start
  · rintro ⟨pre, event, output, post⟩ before performs
    have performed : Performed setup pre event post output := performed_of_performs performs
    cases performed with
    | hwrng | hwkey => exact before
    | keybox served => exact before.next served

theorem isSome_of_within {Ctx : Type*} {chan : Option Handle} {fresh : Option Addr}
    {before after : Table Ctx} (within : Table.Within chan fresh before after) (a : Addr)
    (unused : (before.ctxs a).isSome = false) :
    (after.ctxs a).isSome = false ∨ fresh = some a := by
  rcases within.ctxs a (by simpa using unused) with unused | new
  · exact .inl (by simp [unused])
  · exact .inr new

theorem opens_of_performed {pre post : Hwcrypto.State} {event : Hwcrypto.Event}
    {output : Hwcrypto.Output} (reached : Reachable (app setup) pre)
    (performed : Performed setup pre event post output) :
    Opens (addressee event) (offered event).1 (offered event).2 pre post := by
  obtain ⟨hwrngReached, hwkeyReached⟩ := services_reachable reached
  cases performed with
  | hwrng served =>
      have within := hwrng_within (Hwrng.queueInvariant_of_reachable hwrngReached) served
      refine ⟨?_, within.chans, isSome_of_within within⟩
      intro other ne
      cases other with
      | hwrng => exact absurd rfl ne
      | hwkey | keybox => exact ⟨rfl, rfl⟩
  | hwkey served =>
      have within := hwkey_within hwkeyReached served
      refine ⟨?_, within.chans, isSome_of_within within⟩
      intro other ne
      cases other with
      | hwkey => exact absurd rfl ne
      | hwrng | keybox => exact ⟨rfl, rfl⟩
  | keybox served =>
      have within := keybox_within (keybox_reachable reached) served
      refine ⟨?_, within.chans, isSome_of_within within⟩
      intro other ne
      cases other with
      | keybox => exact absurd rfl ne
      | hwrng | hwkey => exact ⟨rfl, rfl⟩

/-- No handle and no address belongs to two services, and the handle of a port to none. -/
structure Separate (process : Process) : Prop where
  handles : ∀ h service other, chanState process.services service h ≠ .closed →
    chanState process.services other h ≠ .closed → service = other
  attached : ∀ h service, chanState process.services service h ≠ .accepted
  addresses : ∀ a service other, hasCtx process.services service a = true →
    hasCtx process.services other a = true → service = other
  ports : ∀ h, process.ports h ≠ .closed →
    ∀ service, chanState process.services service h = .closed

structure Unused (process : Process) (chan : Option Handle) (fresh : Option Addr) : Prop where
  chan : ∀ h, chan = some h → process.ports h = .closed ∧
    ∀ service, chanState process.services service h = .closed
  fresh : ∀ a, fresh = some a → ∀ service, hasCtx process.services service a = false

variable {process : Process} {post : Hwcrypto.State} {service : Service}
  {chan : Option Handle} {fresh : Option Addr}

theorem Opens.exclusive (opens : Opens service chan fresh process.services post)
    (separate : Separate process) (unused : Unused process chan fresh) {h : Handle}
    (isOpen : chanState post service h ≠ .closed) :
    process.ports h = .closed ∧
      ∀ other, other ≠ service → chanState process.services other h = .closed := by
  rcases opens.chans h with closed | same | ⟨new, -⟩
  · exact absurd closed isOpen
  · rw [same] at isOpen
    constructor
    · by_contra isPort
      exact isOpen (separate.ports h isPort service)
    · intro other ne
      by_contra otherOpen
      exact ne (separate.handles h other service otherOpen isOpen)
  · obtain ⟨notPort, closed⟩ := unused.chan h new
    exact ⟨notPort, fun other _ => closed other⟩

theorem Opens.exclusiveCtx (opens : Opens service chan fresh process.services post)
    (separate : Separate process) (unused : Unused process chan fresh) {a : Addr}
    (live : hasCtx post service a = true) {other : Service} (ne : other ≠ service) :
    hasCtx process.services other a = false := by
  cases before : hasCtx process.services service a with
  | true =>
      by_contra otherLive
      exact ne (separate.addresses a other service (by simpa using otherLive) before)
  | false =>
      rcases opens.ctxs a before with none | new
      · rw [none] at live
        cases live
      · exact unused.fresh a new other

theorem Separate.step (separate : Separate process)
    (opens : Opens service chan fresh process.services post)
    (unused : Unused process chan fresh) :
    Separate { process with services := post } where
  handles h first second firstOpen secondOpen := by
    by_cases isFirst : first = service
    · by_contra ne
      have other : second ≠ service := fun same => ne (isFirst.trans same.symm)
      rw [(opens.others second other).1] at secondOpen
      subst isFirst
      exact secondOpen ((opens.exclusive separate unused firstOpen).2 second other)
    · rw [(opens.others first isFirst).1] at firstOpen
      by_cases isSecond : second = service
      · subst isSecond
        exact absurd ((opens.exclusive separate unused secondOpen).2 first isFirst) firstOpen
      · rw [(opens.others second isSecond).1] at secondOpen
        exact separate.handles h first second firstOpen secondOpen
  attached h other := by
    by_cases isOwn : other = service
    · subst isOwn
      rcases opens.chans h with closed | same | ⟨-, a, attached⟩
      · simp [closed]
      · rw [same]
        exact separate.attached h other
      · simp [attached]
    · rw [(opens.others other isOwn).1]
      exact separate.attached h other
  addresses a first second firstLive secondLive := by
    by_cases isFirst : first = service
    · by_contra ne
      have other : second ≠ service := fun same => ne (isFirst.trans same.symm)
      rw [(opens.others second other).2] at secondLive
      subst isFirst
      rw [opens.exclusiveCtx separate unused firstLive other] at secondLive
      cases secondLive
    · rw [(opens.others first isFirst).2] at firstLive
      by_cases isSecond : second = service
      · subst isSecond
        rw [opens.exclusiveCtx separate unused secondLive isFirst] at firstLive
        cases firstLive
      · rw [(opens.others second isSecond).2] at secondLive
        exact separate.addresses a first second firstLive secondLive
  ports h isPort other := by
    by_contra isOpen
    by_cases isOwn : other = service
    · subst isOwn
      exact isPort (opens.exclusive separate unused isOpen).1
    · rw [(opens.others other isOwn).1] at isOpen
      exact isOpen (separate.ports h isPort other)

theorem closePort_ports_of_ne {h handle : Handle} (ne : h ≠ handle) :
    (closePort process handle).ports h = process.ports h := Function.update_of_ne ne ..

theorem Separate.closePort (separate : Separate process) (handle : Handle) :
    Separate (closePort process handle) where
  handles := separate.handles
  attached := separate.attached
  addresses := separate.addresses
  ports h isPort := by
    by_cases same : h = handle
    · simp [Main.closePort, same] at isPort
    · exact separate.ports h (by simpa [Main.closePort, same] using isPort)

def portEvent (event : Uevent) : Service → Hwcrypto.Event
  | .hwrng => .hwrng (.port (anonymous event.conn)) event.lost
  | .hwkey => .hwkey (.port event.conn) 0
  | .keybox => .keybox (.port (anonymous event.conn))

def chanEvent (event : Uevent) : Service → Hwcrypto.Event
  | .hwrng =>
      .hwrng (.chan event.handle ⟨event.poll.hup, event.poll.sendUnblocked, event.poll.msg⟩
        event.hwrng) event.lost
  | .hwkey =>
      .hwkey (.chan event.handle ⟨event.poll.hup, event.poll.msg⟩ event.hwkey)
        event.lostForToken
  | .keybox => .keybox (.chan event.handle event.poll.msg event.poll.hup event.keybox)

/-- What an event means to the service that has its handle open, if there is one. -/
def serviceEvent (process : Process) (event : Uevent) : Option Hwcrypto.Event :=
  if event.poll = .none then none
  else
    match process.ports event.handle with
    | .registered service => if event.poll.ready then some (portEvent event service) else none
    | .bare => none
    | .closed =>
        (Service.all.find? fun service =>
          chanState process.services service event.handle ≠ .closed).map (chanEvent event)

theorem callPort_eq (state : Hwcrypto.State) (event : Uevent) (service : Service) :
    callPort setup state event service =
      Hwcrypto.dispatchEvent setup state (portEvent event service) := by
  cases service with
  | hwrng | keybox => rfl
  | hwkey =>
      simp only [callPort, portEvent, Hwcrypto.dispatchEvent, Hwkey.dispatchEvent, eventDraws,
        consumed]
      cases Hwkey.hwkeyPortHandler setup.provider state.hwkey event.conn with
      | error halt => rfl
      | ok result =>
          have none_released : releasedTokens setup.stream state.device.next [] result.2 = [] := by
            simp only [releasedTokens, drawTagged, List.filterMap_eq_nil_iff]
            intro action _
            cases action <;> rfl
          simp [none_released]

theorem callChan_eq {state : Hwcrypto.State} {event : Uevent} {service : Service} {a : Addr}
    (attached : chanState state service event.handle = .attached a) :
    callChan setup state event a service =
      Hwcrypto.dispatchEvent setup state (chanEvent event service) := by
  cases service with
  | hwrng =>
      have chans : state.hwrng.conns.chans event.handle = .attached a := attached
      cases result : Hwrng.hwrngChanHandler setup.width state.hwrng a event.handle
          ⟨event.poll.hup, event.poll.sendUnblocked, event.poll.msg⟩ event.hwrng <;>
        simp only [callChan, chanEvent, Hwcrypto.dispatchEvent, Hwrng.dispatchEvent, chans, result]
  | hwkey =>
      have chans : state.hwkey.conns.chans event.handle = .attached a := attached
      cases result : Hwkey.hwkeyChanHandler setup.provider setup.hwkey state.hwkey a event.handle
          ⟨event.poll.hup, event.poll.msg⟩ event.hwkey <;>
        simp only [callChan, chanEvent, Hwcrypto.dispatchEvent, Hwkey.dispatchEvent, chans, result,
          eventDraws]
  | keybox =>
      have chans : state.keybox.chans event.handle = .attached a := attached
      cases result : Keybox.keyboxChanHandler setup.keybox setup.width state.keybox a event.handle
          event.poll.msg event.poll.hup event.keybox <;>
        simp only [callChan, chanEvent, Hwcrypto.dispatchEvent, Keybox.dispatchEvent, chans, result]

theorem hasCtx_of_attached {state : Hwcrypto.State} (reached : Reachable (app setup) state)
    {handle : Handle} {service : Service} {a : Addr}
    (attached : chanState state service handle = .attached a) :
    hasCtx state service a = true := by
  obtain ⟨hwrngReached, hwkeyReached⟩ := services_reachable reached
  cases service with
  | hwrng =>
      obtain ⟨ctx, live, -⟩ :=
        (Hwrng.queueInvariant_of_reachable hwrngReached).wellFormed.attached _ _ attached
      simp [hasCtx, live]
  | hwkey =>
      obtain ⟨ctx, live, -⟩ :=
        (Hwkey.handleInvariant_of_reachable hwkeyReached).wellFormed.attached _ _ attached
      simp [hasCtx, live]
  | keybox =>
      obtain ⟨history, run⟩ := keybox_reachable reached
      obtain ⟨ctx, live, -⟩ := (Keybox.run_invariant run).wellFormed.attached _ _ attached
      simp [hasCtx, live]

theorem Service.mem_all (service : Service) : service ∈ Service.all := by
  cases service <;> decide

theorem Separate.owner (separate : Separate process) {a : Addr}
    (live : hasCtx process.services service a = true) :
    owner process.services a = some service := by
  cases found : Main.owner process.services a with
  | none =>
      have none_live := List.find?_eq_none.mp found service service.mem_all
      exact absurd live none_live
  | some other =>
      have otherLive := List.find?_some found
      rw [separate.addresses a service other live otherLive]

theorem Separate.cookie (separate : Separate process) {handle : Handle} {a : Addr}
    (attached : chanState process.services service handle = .attached a) :
    cookie process handle = some (.ctx a) := by
  have isOpen : chanState process.services service handle ≠ .closed := by simp [attached]
  have notPort : process.ports handle = .closed := by
    by_contra isPort
    exact isOpen (separate.ports handle isPort service)
  have others : ∀ other, other ≠ service →
      attachedCtx (chanState process.services other handle) = none := by
    intro other ne
    have closed : chanState process.services other handle = .closed := by
      by_contra otherOpen
      exact ne (separate.handles handle other service otherOpen isOpen)
    rw [closed]
    rfl
  have own : attachedCtx (chanState process.services service handle) = some a := by
    rw [attached]
    rfl
  simp only [Main.cookie, notPort, Service.all, List.findSome?_cons]
  cases service with
  | hwrng => rw [own]; rfl
  | hwkey => rw [others .hwrng (by decide), own]; rfl
  | keybox => rw [others .hwrng (by decide), others .hwkey (by decide), own]; rfl

theorem cookie_of_closed {handle : Handle} (notPort : process.ports handle = .closed)
    (closed : ∀ service, chanState process.services service handle = .closed) :
    cookie process handle = none := by
  simp [Main.cookie, notPort, closed, attachedCtx, List.findSome?_eq_none_iff]

/-- Dispatching through the cookie does what the event means to the service that has
the handle open. -/
theorem dispatchEvent_eq (separate : Separate process)
    (reached : Reachable (app setup) process.services) (event : Uevent) :
    (∃ appEvent, serviceEvent process event = some appEvent ∧
      dispatchEvent setup process event =
        done process (Hwcrypto.dispatchEvent setup process.services appEvent)) ∨
    serviceEvent process event = none ∧
      (dispatchEvent setup process event = .ok (process, noOutput) ∨
        cookie process event.handle = none ∧
        dispatchEvent setup process event = .ok (closePort process event.handle,
          { noOutput with closed := some event.handle })) := by
  by_cases idle : event.poll = .none
  · exact .inr ⟨by simp [serviceEvent, idle], .inl (by simp [dispatchEvent, idle])⟩
  cases isPort : process.ports event.handle with
  | registered service =>
      have found : cookie process event.handle = some (.port service) := by
        simp [Main.cookie, isPort]
      cases ready : event.poll.ready with
      | true =>
          refine .inl ⟨portEvent event service, ?_, ?_⟩
          · simp [serviceEvent, idle, isPort, ready]
          · simp [dispatchEvent, idle, found, ready, callPort_eq]
      | false =>
          exact .inr ⟨by simp [serviceEvent, idle, isPort, ready],
            .inl (by simp [dispatchEvent, idle, found, ready])⟩
  | bare =>
      have found : cookie process event.handle = none := by simp [Main.cookie, isPort]
      exact .inr ⟨by simp [serviceEvent, idle, isPort],
        .inr ⟨found, by simp [dispatchEvent, idle, found]⟩⟩
  | closed =>
      cases recipient : Service.all.find? fun service =>
          decide (chanState process.services service event.handle ≠ .closed) with
      | none =>
          have found : cookie process event.handle = none := by
            refine cookie_of_closed isPort fun service => ?_
            simpa using List.find?_eq_none.mp recipient service service.mem_all
          exact .inr ⟨by simp only [serviceEvent, if_neg idle, isPort, recipient, Option.map_none],
            .inr ⟨found, by simp [dispatchEvent, idle, found]⟩⟩
      | some service =>
          have isOpen : chanState process.services service event.handle ≠ .closed := by
            simpa using List.find?_some recipient
          cases chan : chanState process.services service event.handle with
          | closed => exact absurd chan isOpen
          | accepted => exact absurd chan (separate.attached _ _)
          | attached a =>
              have live := hasCtx_of_attached reached chan
              refine .inl ⟨chanEvent event service, ?_, ?_⟩
              · simp only [serviceEvent, if_neg idle, isPort, recipient, Option.map_some]
              · simp [dispatchEvent, idle, separate.cookie chan, separate.owner live,
                  callChan_eq chan]

theorem dispatch_of_serviceEvent (separate : Separate process)
    (reached : Reachable (app setup) process.services) {event : Uevent}
    {appEvent : Hwcrypto.Event} (meant : serviceEvent process event = some appEvent) :
    dispatchEvent setup process event =
      done process (Hwcrypto.dispatchEvent setup process.services appEvent) := by
  rcases dispatchEvent_eq separate reached event with ⟨other, found, result⟩ | ⟨none, -⟩
  · rw [meant, Option.some.injEq] at found
    rw [result, found]
  · rw [meant] at none
    cases none

theorem anonymous_offered {Ctx : Type*} {table : Table Ctx} {conn : Connect Hwkey.Uuid}
    (offered : conn.Offered table) : (anonymous conn).Offered table :=
  ⟨offered.chan, offered.ctx⟩

/-- What the kernel promises is enough for the service that the event is meant for. -/
theorem enabled_of_serviceEvent (separate : Separate process)
    (reached : Reachable (app setup) process.services) {event : Uevent}
    (enabled : Enabled setup process event) {appEvent : Hwcrypto.Event}
    (meant : serviceEvent process event = some appEvent) :
    Hwcrypto.Enabled setup process.services appEvent := by
  have dispatched := dispatch_of_serviceEvent separate reached meant
  have answered : ∀ {post output}, Hwcrypto.dispatchEvent setup process.services appEvent =
      .ok (post, output) →
      Answered setup.stream event.lost output.hwrng process.services.device := by
    intro post output result
    rw [result] at dispatched
    exact enabled.rng _ _ dispatched
  have offer : ∀ {Ctx : Type} (table : Table Ctx) (service : Service),
      table.chans = chanState process.services service →
      (∀ a, hasCtx process.services service a = false → table.ctxs a = none) →
      event.conn.Offered table := by
    intro Ctx table service chans ctxs
    refine ⟨fun h new => ?_, fun a new => ctxs a (enabled.ctx a new service)⟩
    rw [chans]
    exact (enabled.chan h new).2 service
  have hwrngOffer : event.conn.Offered process.services.hwrng.conns :=
    offer _ .hwrng rfl fun a unused => by simpa [hasCtx] using unused
  have hwkeyOffer : event.conn.Offered process.services.hwkey.conns :=
    offer _ .hwkey rfl fun a unused => by simpa [hasCtx] using unused
  have keyboxOffer : event.conn.Offered process.services.keybox :=
    offer _ .keybox rfl fun a unused => by simpa [hasCtx] using unused
  unfold serviceEvent at meant
  split at meant
  · cases meant
  split at meant
  next service isPort =>
    split at meant
    · obtain rfl := Option.some.inj meant
      cases service with
      | hwrng =>
          refine ⟨anonymous_offered hwrngOffer, fun hwrng actions result => ?_⟩
          have answer := @answered
          simp only [portEvent, Hwcrypto.dispatchEvent, result] at answer
          exact answer rfl
      | hwkey => exact ⟨hwkeyOffer, trivial⟩
      | keybox => exact anonymous_offered keyboxOffer
    · cases meant
  next => cases meant
  next notPort =>
    obtain ⟨service, recipient, rfl⟩ := Option.map_eq_some_iff.mp meant
    have isOpen : chanState process.services service event.handle ≠ .closed := by
      simpa using List.find?_some recipient
    obtain ⟨a, attached⟩ : ∃ a, chanState process.services service event.handle =
        .attached a := by
      cases chan : chanState process.services service event.handle with
      | closed => exact absurd chan isOpen
      | accepted => exact absurd chan (separate.attached _ _)
      | attached a => exact ⟨a, rfl⟩
    cases service with
    | hwrng =>
        refine ⟨⟨a, attached⟩, fun hwrng actions result => ?_⟩
        have answer := @answered
        simp only [chanEvent, Hwcrypto.dispatchEvent, result] at answer
        exact answer rfl
    | hwkey => exact ⟨⟨a, attached⟩, enabled.draws⟩
    | keybox => exact ⟨⟨a, attached⟩, enabled.keybox⟩

/-- The offer of the kernel, as far as the event takes it up. -/
theorem unused_of_serviceEvent {event : Uevent} (enabled : Enabled setup process event)
    {appEvent : Hwcrypto.Event} (meant : serviceEvent process event = some appEvent) :
    Unused process (offered appEvent).1 (offered appEvent).2 := by
  have port : Unused process event.conn.chan event.conn.ctx := ⟨enabled.chan, enabled.ctx⟩
  have chan : Unused process none none := ⟨by simp, by simp⟩
  unfold serviceEvent at meant
  split at meant
  · cases meant
  split at meant
  next service isPort =>
    split at meant
    · obtain rfl := Option.some.inj meant
      cases service <;> exact port
    · cases meant
  next => cases meant
  next notPort =>
    obtain ⟨service, -, rfl⟩ := Option.map_eq_some_iff.mp meant
    cases service <;> exact chan

def shows (step : Step Process Uevent Output) : Option (Hwcrypto.Event × Hwcrypto.Output) :=
  (serviceEvent step.pre step.event).map fun event => (event, step.output.services)

theorem initially_separate (ports : Handle → PortState) :
    Separate ⟨(app setup).initial, ports⟩ where
  handles h service other isOpen := by cases service <;> exact absurd rfl isOpen
  attached h service := by cases service <;> simp [chanState, app, Hwrng.service, Hwkey.service,
    Keybox.service, Table.empty]
  addresses a service other live := by cases service <;> simp [hasCtx, app, Hwrng.service,
    Hwkey.service, Keybox.service, Table.empty] at live
  ports h isPort service := by cases service <;> rfl

/-- One step of the program: a step of the service that the event is meant for, or
nothing but a handle that is closed because there is no handler for it. -/
theorem performs_cases {ports : Handle → PortState} {pre post : Process} {event : Uevent}
    {output : Output} (separate : Separate pre)
    (reached : Reachable (app setup) pre.services)
    (performs : (main setup ports).Performs ⟨pre, event, output, post⟩) :
    Separate post ∧
      (serviceEvent pre event = none ∧ post.services = pre.services ∧
          (post.ports = pre.ports ∨ cookie pre event.handle = none ∧
            post = closePort pre event.handle) ∨
        ∃ appEvent, serviceEvent pre event = some appEvent ∧ post.ports = pre.ports ∧
          (app setup).Performs ⟨pre.services, appEvent, output.services, post.services⟩) := by
  obtain ⟨enabled, handled⟩ := performs
  have handled : dispatchEvent setup pre event = .ok (post, output) := handled
  rcases dispatchEvent_eq separate reached event with
    ⟨appEvent, meant, result⟩ | ⟨none, idle | ⟨noCookie, closed⟩⟩
  · rw [result] at handled
    cases finished : Hwcrypto.dispatchEvent setup pre.services appEvent with
    | error halt =>
        rw [finished] at handled
        cases handled
    | ok done' =>
        obtain ⟨services, appOutput⟩ := done'
        rw [finished] at handled
        obtain ⟨rfl, rfl⟩ := Prod.mk.inj (Except.ok.inj handled)
        have performs : (app setup).Performs ⟨pre.services, appEvent, appOutput, services⟩ :=
          ⟨enabled_of_serviceEvent separate reached enabled meant, finished⟩
        have opens := opens_of_performed reached (performed_of_performs performs)
        exact ⟨separate.step opens (unused_of_serviceEvent enabled meant),
          .inr ⟨appEvent, meant, rfl, performs⟩⟩
  · obtain ⟨rfl, -⟩ := Prod.mk.inj (Except.ok.inj (idle.symm.trans handled))
    exact ⟨separate, .inl ⟨none, rfl, .inl rfl⟩⟩
  · obtain ⟨rfl, -⟩ := Prod.mk.inj (Except.ok.inj (closed.symm.trans handled))
    exact ⟨separate.closePort _, .inl ⟨none, rfl, .inr ⟨noCookie, rfl⟩⟩⟩

theorem main_simulates (setup : Setup) (ports : Handle → PortState) :
    Simulation (main setup ports) (app setup)
      (fun process state => process.services = state ∧ Separate process) shows where
  initially := ⟨rfl, initially_separate ports⟩
  stutters := by
    intro step state _ reached related performs unseen
    obtain ⟨rfl, separate⟩ := related
    obtain ⟨stillSeparate, ⟨-, same, -⟩ | ⟨appEvent, meant, -⟩⟩ :=
      performs_cases separate reached performs
    · exact ⟨same, stillSeparate⟩
    · simp [shows, meant] at unseen
  follows := by
    intro step state appEvent appOutput _ reached related performs seen
    obtain ⟨rfl, separate⟩ := related
    obtain ⟨stillSeparate, ⟨none, -⟩ | ⟨appEvent', meant, -, performed⟩⟩ :=
      performs_cases separate reached performs
    · simp [shows, none] at seen
    · simp only [shows, meant, Option.map_some, Option.some.injEq, Prod.mk.injEq] at seen
      obtain ⟨rfl, rfl⟩ := seen
      exact ⟨step.post.services, performed, rfl, stillSeparate⟩

theorem separate_of_reachable {ports : Handle → PortState}
    (reached : Reachable (main setup ports) process) :
    Separate process ∧ Reachable (app setup) process.services := by
  obtain ⟨history, run⟩ := reached
  obtain ⟨followed, state, followedRun, ⟨rfl, separate⟩, -⟩ :=
    (main_simulates setup ports).run run
  exact ⟨separate, followedRun.reachable⟩

theorem registered_of_reachable {ports : Handle → PortState}
    (reached : Reachable (main setup ports) process) {handle : Handle}
    (registered : ports handle = .registered service) :
    process.ports handle = .registered service := by
  obtain ⟨history, run⟩ := reached
  induction run with
  | start => exact registered
  | @step history step run performs inductionHypothesis =>
      obtain ⟨separate, reached⟩ := separate_of_reachable run.reachable
      obtain ⟨-, ⟨-, -, same | ⟨noCookie, closed⟩⟩ | ⟨_, -, same, -⟩⟩ :=
        performs_cases separate reached performs
      · rw [same, inductionHypothesis]
      · have ne : handle ≠ step.event.handle := by
          rintro rfl
          simp [cookie, inductionHypothesis] at noCookie
        rw [closed, closePort_ports_of_ne ne, inductionHypothesis]
      · rw [same, inductionHypothesis]

end TrustyApp.Hwcrypto.Main
