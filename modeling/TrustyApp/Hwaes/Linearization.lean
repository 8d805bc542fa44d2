import TrustyApp.Hwaes.Protocol

/-!
# Requests with handles take effect at once

A request with a handle is served as if its key had been in the request, with the key
that the handle stood for at one moment while the request was in work.
-/

namespace TrustyApp.Hwaes.Protocol

open Reactive Refinement
open Hwkey (Action fakeProvider hwaesUuid)
open Ipc (Addr Handle)

variable {setup : Setup} {state post : State setup} {event : Event} {output : Output setup}
  {history : List (Step (State setup) Event (Output setup))}
  {step : Step (State setup) Event (Output setup)}

inductive Course (setup : Setup) (pre post : State setup) (op : Option (Op setup.evp)) :
    Progress → Prop
  | waits {phase : Phase} : post.phase = phase → post.ctx = pre.ctx → op = none →
      Course setup pre post op (.wait phase)
  | finishes {args : Args} {client : HwkeyClient} {done : Op setup.evp} :
      hwaesAesOp setup.ifc client pre.ctx args = .ok done → post.phase = .idle →
      post.ctx = done.ctx → op = some done → Course setup pre post op (.finish args client)

theorem dispatch_eq_ok (handled : dispatch setup state event = .ok (post, output)) :
    serve setup state event = .ok (post.hwkey, output.hwkey) ∧
      Course setup state post output.op
        (advance setup.ifc output.hwkey state.phase event) := by
  obtain ⟨⟨hwkey, actions⟩, served, resumed⟩ := bind_eq_ok.mp handled
  simp only at resumed
  cases progress : advance setup.ifc actions state.phase event with
  | wait phase =>
      simp only [progress, resume, Except.ok.injEq, Prod.mk.injEq] at resumed
      obtain ⟨rfl, rfl⟩ := resumed
      exact ⟨served, progress ▸ .waits rfl rfl rfl⟩
  | finish args client =>
      cases operated : hwaesAesOp setup.ifc client state.ctx args with
      | error halt => simp [progress, resume, operated] at resumed
      | ok op =>
          simp only [progress, resume, operated, Except.ok.injEq, Prod.mk.injEq] at resumed
          obtain ⟨rfl, rfl⟩ := resumed
          exact ⟨served, progress ▸ .finishes operated rfl rfl rfl⟩

theorem serve_none {hwkey : Hwkey.State} {actions : List Action}
    (shown : hwkeyEvent? setup state.phase event = none)
    (served : serve setup state event = .ok (hwkey, actions)) : hwkey = state.hwkey := by
  simp only [serve, shown, Except.ok.injEq, Prod.mk.injEq] at served
  exact served.1.symm

theorem serve_some {hwkey : Hwkey.State} {actions : List Action} {keyEvent : Hwkey.Event}
    (shown : hwkeyEvent? setup state.phase event = some keyEvent)
    (served : serve setup state event = .ok (hwkey, actions)) :
    setup.hwkey.handle state.hwkey keyEvent = .ok (hwkey, actions) := by
  simp only [serve, shown] at served
  cases handled : setup.hwkey.handle state.hwkey keyEvent with
  | error halt => simp [handled] at served
  | ok result =>
      rw [handled] at served
      rw [Except.ok.inj served]

theorem advance_hwkey (ifc : Interface) (actions : List Action) (phase : Phase)
    (keyEvent : Hwkey.Event) : advance ifc actions phase (.hwkey keyEvent) = .wait phase := by
  cases phase <;> rfl

/-- Everything a step can be for the HWAES service. -/
inductive Effect (setup : Setup) (pre post : State setup) (output : Output setup) : Event → Prop
  | arrived {args : Args} : pre.phase = .idle → AsksForKey setup.ifc args →
      Course setup pre post output.op (.wait (.opening args)) →
      Effect setup pre post output (.request args)
  | atOnce {args : Args} : pre.phase = .idle → ¬ AsksForKey setup.ifc args →
      Course setup pre post output.op (.finish args noSession) →
      Effect setup pre post output (.request args)
  | openFailed {args : Args} : pre.phase = .opening args →
      Course setup pre post output.op (.finish args noSession) →
      Effect setup pre post output .openFailed
  | connected {conn : Ipc.Connect Hwkey.Uuid} {args : Args} {chan : Handle} :
      pre.phase = .opening args → conn.peer = hwaesUuid →
      output.hwkey.findSome? openedChan? = some chan →
      Course setup pre post output.op (.wait (.asking args chan)) →
      Effect setup pre post output (.connect conn)
  | refused {conn : Ipc.Connect Hwkey.Uuid} {args : Args} : pre.phase = .opening args →
      Course setup pre post output.op (.wait (.opening args)) →
      Effect setup pre post output (.connect conn)
  | lost {args : Args} :
      (pre.phase = .opening args ∨ ∃ chan, pre.phase = .asking args chan) →
      Course setup pre post output.op (.wait (.closing args none)) →
      Effect setup pre post output .lost
  | asked {opId arg1 : UInt32} {env : Hwkey.Env} {sent read : Bool} {args : Args} {chan : Handle} :
      pre.phase = .asking args chan →
      Course setup pre post output.op
        (.wait (.closing args (answer setup.ifc.aesKeyMaxSize output.hwkey read))) →
      Effect setup pre post output (.ask opId arg1 env sent read)
  | closed {args : Args} {key : Option (List UInt8)} : pre.phase = .closing args key →
      Course setup pre post output.op (.finish args ⟨true, fun _ _ => key⟩) →
      Effect setup pre post output .close
  | elsewhere {keyEvent : Hwkey.Event} : (∀ args chan bits io, pre.phase = .asking args chan →
        keyEvent ≠ .chan chan bits io) →
      Course setup pre post output.op (.wait pre.phase) →
      Effect setup pre post output (.hwkey keyEvent)

theorem effect_of_course (enabled : Enabled setup state event)
    (course : Course setup state post output.op
      (advance setup.ifc output.hwkey state.phase event)) :
    Effect setup state post output event := by
  cases event with
  | request args =>
      rw [show state.phase = .idle from enabled, advance] at course
      split at course
      next asks => exact .arrived enabled asks course
      next asks => exact .atOnce enabled asks course
  | openFailed =>
      obtain ⟨args, opening⟩ := enabled
      rw [opening] at course
      exact .openFailed opening course
  | connect conn =>
      obtain ⟨⟨args, opening⟩, peer, -⟩ := enabled
      rw [opening, advance] at course
      split at course
      next chan opened => exact .connected opening peer opened course
      next => exact .refused opening course
  | lost =>
      obtain ⟨args, opening | ⟨chan, asking⟩⟩ := enabled
      · rw [opening] at course
        exact .lost (.inl opening) course
      · rw [asking] at course
        exact .lost (.inr ⟨chan, asking⟩) course
  | ask opId arg1 env sent read =>
      obtain ⟨args, chan, asking⟩ := enabled
      rw [asking] at course
      exact .asked asking course
  | close =>
      obtain ⟨args, key, closing⟩ := enabled
      rw [closing] at course
      exact .closed closing course
  | hwkey keyEvent =>
      rw [advance_hwkey] at course
      exact .elsewhere enabled.2 course

theorem effect_of_performs (performs : (services setup).Performs step) :
    serve setup step.pre step.event = .ok (step.post.hwkey, step.output.hwkey) ∧
      Effect setup step.pre step.post step.output step.event := by
  obtain ⟨served, course⟩ := dispatch_eq_ok performs.2
  exact ⟨served, effect_of_course performs.1 course⟩

def Session (hwkey : Hwkey.State) (chan : Handle) : Prop :=
  ∃ ctx, hwkey.conns.chans chan = .attached ctx ∧ hwkey.conns.ctxs ctx = some ⟨chan, hwaesUuid⟩

section Session

variable {pre after : Hwkey.State} {keyEvent : Hwkey.Event} {actions : List Action}
  {chan : Handle} {provider : Hwkey.Provider} {keyIfc : Hwkey.Interface}

theorem Session.kept (session : Session pre chan)
    (invariant : Hwkey.HandleInvariant provider pre)
    (effect : Hwkey.Effect provider keyIfc pre keyEvent after actions)
    (other : ∀ bits io, keyEvent ≠ .chan chan bits io) : Session after chan := by
  obtain ⟨ctx, attached, live⟩ := session
  have elsewhere {closing : Hwkey.ChanCtx} {closingCtx : Addr} {bits : Hwkey.Bits}
      {io : Hwkey.Io} (event : keyEvent = .chan closing.chan bits io)
      (closingLive : pre.conns.ctxs closingCtx = some closing) :
      ctx ≠ closingCtx ∧ chan ≠ closing.chan := by
    constructor
    · rintro rfl
      obtain rfl := Option.some.inj (live.symm.trans closingLive)
      exact other bits io event
    · rintro rfl
      exact other bits io event
  cases effect with
  | refused | idle => exact ⟨ctx, attached, live⟩
  | @opened conn opened fresh closed unused =>
      have neChan : chan ≠ opened := by
        rintro rfl
        rw [attached] at closed
        cases closed
      have ne : ctx ≠ fresh := by
        rintro rfl
        rw [live] at unused
        cases unused
      exact ⟨ctx, (Ipc.Table.setChan_chans_of_ne _ _ neChan).trans attached,
        (Ipc.Table.put_ctxs_of_ne _ _ ne).trans live⟩
  | hungUp _ closingLive =>
      obtain ⟨ne, neChan⟩ := elsewhere rfl closingLive
      exact ⟨ctx, (Ipc.Table.close_chans_of_ne _ neChan).trans attached,
        (Ipc.Table.free_ctxs_of_ne _ ne).trans live⟩
  | replied _ _ _ answered =>
      have replied := Hwkey.hwkeyChanHandleMsg_replied invariant.prepared answered
      exact ⟨ctx, by rw [replied.conns, attached], by rw [replied.conns, live]⟩
  | dropped _ _ closingLive answered =>
      obtain ⟨ne, neChan⟩ := elsewhere rfl closingLive
      have replied := Hwkey.hwkeyChanHandleMsg_replied invariant.prepared answered
      refine ⟨ctx, (Ipc.Table.close_chans_of_ne _ neChan).trans ?_,
        (Ipc.Table.free_ctxs_of_ne _ ne).trans ?_⟩
      · rw [replied.conns, attached]
      · rw [Ipc.Table.close_ctxs, replied.conns, live]

theorem session_opened {conn : Ipc.Connect Hwkey.Uuid} (peer : conn.peer = hwaesUuid)
    (effect : Hwkey.Effect provider keyIfc pre (.port conn) after actions)
    (opened : actions.findSome? openedChan? = some chan) : Session after chan := by
  cases effect with
  | refused closings =>
      obtain ⟨action, member, isOpened⟩ := List.exists_of_findSome?_eq_some opened
      obtain ⟨closed, rfl, -⟩ := closings action member
      cases isOpened
  | @opened _ opened' ctx _ _ _ =>
      obtain rfl : opened' = chan := by simpa [openedChan?] using opened
      exact ⟨ctx, by simp [Hwkey.State.openSession],
        by simp [Hwkey.State.openSession, peer]⟩

end Session

/-- The HWKEY service is in order, and the session of a request in work is open. -/
structure Connected (state : State setup) : Prop where
  hwkey : Hwkey.HandleInvariant (fakeProvider setup.build) state.hwkey
  session : ∀ args chan, state.phase = .asking args chan → Session state.hwkey chan

theorem Connected.enabled (connected : Connected state) (enabled : Enabled setup state event)
    {keyEvent : Hwkey.Event} (shown : hwkeyEvent? setup state.phase event = some keyEvent) :
    Hwkey.Enabled state.hwkey keyEvent := by
  cases event with
  | request | openFailed | lost | close => simp [hwkeyEvent?] at shown
  | connect conn =>
      obtain rfl : .port conn = keyEvent := by simpa [hwkeyEvent?] using shown
      exact enabled.2.2
  | ask opId arg1 env sent read =>
      obtain ⟨args, chan, asking⟩ := enabled
      obtain ⟨ctx, attached, -⟩ := connected.session args chan asking
      simp only [hwkeyEvent?, asking, Option.some.injEq] at shown
      rw [← shown]
      exact ⟨ctx, attached⟩
  | hwkey event =>
      obtain rfl : event = keyEvent := by simpa [hwkeyEvent?] using shown
      exact enabled.1

theorem Connected.effect (connected : Connected state) (enabled : Enabled setup state event)
    {keyEvent : Hwkey.Event} (shown : hwkeyEvent? setup state.phase event = some keyEvent)
    (served : serve setup state event = .ok (post.hwkey, output.hwkey)) :
    Hwkey.Effect (fakeProvider setup.build) setup.hwkeyIfc state.hwkey keyEvent post.hwkey
      output.hwkey :=
  Hwkey.dispatchEvent_effect connected.hwkey (connected.enabled enabled shown)
    (serve_some shown served)

theorem Course.waiting {phase : Phase} {op : Option (Op setup.evp)}
    (course : Course setup state post op (.wait phase)) :
    post.phase = phase ∧ post.ctx = state.ctx ∧ op = none := by
  cases course with
  | waits phase ctx none => exact ⟨phase, ctx, none⟩

theorem Course.finished {args : Args} {client : HwkeyClient} {op : Option (Op setup.evp)}
    (course : Course setup state post op (.finish args client)) :
    post.phase = .idle ∧ ∃ done, hwaesAesOp setup.ifc client state.ctx args = .ok done ∧
      op = some done := by
  cases course with
  | finishes operated idle _ some => exact ⟨idle, _, operated, some⟩

theorem Connected.next (connected : Connected step.pre)
    (performs : (services setup).Performs step) : Connected step.post := by
  obtain ⟨served, effect⟩ := effect_of_performs performs
  constructor
  · cases shown : hwkeyEvent? setup step.pre.phase step.event with
    | none =>
        rw [serve_none shown served]
        exact connected.hwkey
    | some keyEvent => exact (connected.effect performs.1 shown served).invariant connected.hwkey
  · intro args chan asking
    generalize event : step.event = stepEvent at effect
    cases effect with
    | arrived _ _ course | refused _ course | lost _ course | asked _ course =>
        simp [course.waiting.1] at asking
    | atOnce _ _ course | openFailed _ course | closed _ course =>
        simp [course.finished.1] at asking
    | @connected conn _ _ _ peer opened course =>
        obtain ⟨-, rfl⟩ := Phase.asking.inj (course.waiting.1.symm.trans asking)
        have shown : hwkeyEvent? setup step.pre.phase step.event = some (.port conn) := by
          rw [event]
          rfl
        exact session_opened peer (connected.effect performs.1 shown served) opened
    | @elsewhere keyEvent other course =>
        have before := course.waiting.1.symm.trans asking
        have shown : hwkeyEvent? setup step.pre.phase step.event = some keyEvent := by
          rw [event]
          rfl
        exact (connected.session args chan before).kept connected.hwkey
          (connected.effect performs.1 shown served) fun bits io => other args chan bits io before

theorem connected_of_reachable (reached : Reachable (services setup) state) : Connected state := by
  apply reached.rule Connected
  · have initial : Reachable setup.hwkey setup.hwkey.initial := .start
    exact ⟨Hwkey.handleInvariant_of_reachable initial, by simp [services]⟩
  · intro step connected performs
    exact connected.next performs

def shows (setup : Setup) (step : Step (State setup) Event (Output setup)) :
    Option (Hwkey.Event × List Action) :=
  (hwkeyEvent? setup step.pre.phase step.event).map fun event => (event, step.output.hwkey)

def hwkeySteps (history : List (Step (State setup) Event (Output setup))) :
    List (Step Hwkey.State Hwkey.Event (List Action)) :=
  history.filterMap (stepOf State.hwkey (shows setup))

theorem hwkey_component : Component (services setup) setup.hwkey State.hwkey (shows setup) where
  initially := rfl
  stutters performs none := by
    obtain ⟨served, -⟩ := effect_of_performs performs
    exact serve_none (Option.map_eq_none_iff.mp none) served
  follows reached performs shown := by
    obtain ⟨served, -⟩ := effect_of_performs performs
    obtain ⟨keyEvent, shows, same⟩ := Option.map_eq_some_iff.mp shown
    obtain ⟨rfl, rfl⟩ := Prod.mk.inj same
    exact ⟨(connected_of_reachable reached).enabled performs.1 shows, serve_some shows served⟩

theorem hwkeySteps_append (later earlier : List (Step (State setup) Event (Output setup))) :
    hwkeySteps (later ++ earlier) = hwkeySteps later ++ hwkeySteps earlier :=
  List.filterMap_append

theorem hwkey_exec (run : Exec (services setup) history state) :
    Exec setup.hwkey (hwkeySteps history) state.hwkey := hwkey_component.run run

section Answer

variable {cfg : Hwkey.BuildConfig} {keyIfc : Hwkey.Interface} {pre after : Hwkey.State}
  {actions : List Action} {chan : Handle} {ctx : Addr} {id : List UInt8} {opId arg1 : UInt32}
  {env : Hwkey.Env} {sent : Bool}

theorem Session.effect_cases (session : Session pre chan)
    (invariant : Hwkey.HandleInvariant (fakeProvider cfg) pre) {io : Hwkey.Io}
    (effect : Hwkey.Effect (fakeProvider cfg) keyIfc pre (.chan chan ⟨false, true⟩ io) after
      actions) :
    ∃ ctx handled, Hwkey.hwkeyChanHandleMsg (fakeProvider cfg) keyIfc pre ctx ⟨chan, hwaesUuid⟩ io =
        .ok handled ∧
      (handled.sent = true ∧ actions = handled.actions ∨
        handled.sent = false ∧ actions = .closed chan :: handled.actions) := by
  obtain ⟨ctx, attached, live⟩ := session
  have own {other : Addr} {otherCtx : Hwkey.ChanCtx} (otherLive : pre.conns.ctxs other = some otherCtx)
      (onChan : otherCtx.chan = chan) : otherCtx = ⟨chan, hwaesUuid⟩ := by
    have owned := invariant.wellFormed.owned other otherCtx otherLive
    rw [onChan, attached] at owned
    obtain rfl := Ipc.ChanState.attached.inj owned
    exact Option.some.inj (otherLive.symm.trans live)
  generalize event : Hwkey.Event.chan chan ⟨false, true⟩ io = keyEvent at effect
  cases effect with
  | refused | opened => cases event
  | idle _ noMsg =>
      obtain ⟨rfl, rfl, rfl⟩ := Hwkey.Event.chan.inj event
      cases noMsg
  | hungUp hup =>
      obtain ⟨rfl, rfl, rfl⟩ := Hwkey.Event.chan.inj event
      cases hup
  | replied _ _ otherLive answered sent =>
      obtain ⟨onChan, rfl, rfl⟩ := Hwkey.Event.chan.inj event
      obtain rfl := own otherLive onChan.symm
      exact ⟨_, _, answered, .inl ⟨sent, rfl⟩⟩
  | dropped _ _ otherLive answered unsent =>
      obtain ⟨onChan, rfl, rfl⟩ := Hwkey.Event.chan.inj event
      obtain rfl := own otherLive onChan.symm
      exact ⟨_, _, answered, .inr ⟨unsent, rfl⟩⟩

theorem askIo_eq (exchange : Exchange) (fits : id.length ≤ Hwkey.hwkeyMaxPayloadSize) :
    askIo keyIfc id exchange.opId exchange.arg1 exchange.env true =
      exchange.io keyIfc fits := by
  simp [askIo, fits, Exchange.io, Exchange.request]

/-- What reaches the client library is the response to the request. -/
theorem Session.delivered (session : Session pre chan)
    (invariant : Hwkey.HandleInvariant (fakeProvider cfg) pre)
    (effect : Hwkey.Effect (fakeProvider cfg) keyIfc pre
      (.chan chan ⟨false, true⟩ (askIo keyIfc id opId arg1 env sent)) after actions) :
    ∃ ctx, actions.findSome? delivered? = if sent = true then
      Exchange.response cfg keyIfc pre ⟨ctx, chan, opId, arg1, env⟩ id else none := by
  obtain ⟨ctx, handled, answered, outcome⟩ := session.effect_cases invariant effect
  refine ⟨ctx, ?_⟩
  by_cases fits : id.length ≤ Hwkey.hwkeyMaxPayloadSize
  · have received : (askIo keyIfc id opId arg1 env sent).recv =
        some ⟨keyIfc.getKeyslot, opId, arg1, id, fits⟩ := dif_pos fits
    obtain ⟨found, rsp, looked, -, -, -, shape⟩ :=
      Hwkey.getKeyslot_answered invariant.prepared received rfl answered
    have silent : found.actions.findSome? delivered? = none := by
      rcases looked.actions_cases with none | ⟨slot, token, issued⟩ | ⟨slot, retrieved⟩ <;>
        simp [*, delivered?]
    have actionsAre : handled.actions = .responded chan rsp sent :: found.actions := by
      rw [shape]
      rfl
    rw [show handled.sent = sent from congrArg Hwkey.Handled.sent shape] at outcome
    rcases outcome with ⟨rfl, rfl⟩ | ⟨rfl, rfl⟩
    · rw [askIo_eq ⟨ctx, chan, opId, arg1, env⟩ fits] at answered
      simp only [if_true, Exchange.response, dif_pos fits, answered, actionsAre,
        List.findSome?_cons, delivered?]
      rfl
    · simp only [actionsAre, List.findSome?_cons, delivered?, Bool.false_eq_true, if_false, silent]
  · have unreceived : (askIo keyIfc id opId arg1 env sent).recv = none := by simp [askIo, fits]
    simp only [Hwkey.hwkeyChanHandleMsg, unreceived, Except.ok.injEq] at answered
    subst answered
    rcases outcome with ⟨isSent, -⟩ | ⟨-, rfl⟩
    · cases isSent
    · simp [Exchange.response, fits, delivered?]

end Answer

def Event.IsAsk : Event → Prop
  | .ask _ _ _ _ _ => True
  | _ => False

/-- The last request of a history asks for a key; `between` is what came after it. -/
structure InWork (setup : Setup) (args : Args)
    (history between : List (Step (State setup) Event (Output setup))) : Prop where
  asks : AsksForKey setup.ifc args
  arrived : ∃ arrival before, history = between ++ arrival :: before ∧
    arrival.event = .request args
  last : ∀ other ∈ between, ∀ args', other.event ≠ .request args'

theorem InWork.cons {args : Args} {between : List (Step (State setup) Event (Output setup))}
    (inWork : InWork setup args history between)
    (notRequest : ∀ args', step.event ≠ .request args') :
    InWork setup args (step :: history) (step :: between) := by
  obtain ⟨arrival, before, rfl, event⟩ := inWork.arrived
  exact ⟨inWork.asks, ⟨arrival, before, rfl, event⟩,
    List.forall_mem_cons.mpr ⟨notRequest, inWork.last⟩⟩

/-- The step in which the HWKEY service is asked for the key of a request, and the key
that comes of it. -/
structure Asks (args : Args) (key : Option (List UInt8)) (opId arg1 : UInt32) (env : Hwkey.Env)
    (sent read : Bool) (lookup : Step (State setup) Event (Output setup)) : Prop where
  event : lookup.event = .ask opId arg1 env sent read
  phase : ∃ chan, lookup.pre.phase = .asking args chan
  key : key = answer setup.ifc.aesKeyMaxSize lookup.output.hwkey read

structure Answered (setup : Setup) (args : Args) (key : Option (List UInt8))
    (between : List (Step (State setup) Event (Output setup))) : Prop where
  asked : ∀ lookup ∈ between, lookup.event.IsAsk →
    ∃ opId arg1 env sent read, Asks args key opId arg1 env sent read lookup
  key : key ≠ none → ∃ lookup ∈ between, lookup.event.IsAsk

structure Pending (setup : Setup) (history : List (Step (State setup) Event (Output setup)))
    (phase : Phase) : Prop where
  waiting : ∀ args, (phase = .opening args ∨ ∃ chan, phase = .asking args chan) →
    ∃ between, InWork setup args history between ∧ ∀ other ∈ between, ¬ other.event.IsAsk
  closing : ∀ args key, phase = .closing args key →
    ∃ between, InWork setup args history between ∧ Answered setup args key between

theorem Pending.idle : Pending setup history .idle := ⟨by simp, by simp⟩

theorem Pending.of_waiting {args : Args} {phase : Phase}
    {between : List (Step (State setup) Event (Output setup))}
    (isWaiting : phase = .opening args ∨ ∃ chan, phase = .asking args chan)
    (inWork : InWork setup args history between)
    (unasked : ∀ other ∈ between, ¬ other.event.IsAsk) : Pending setup history phase := by
  constructor
  · rintro args' (rfl | ⟨chan, rfl⟩)
    · obtain rfl : args' = args := by simpa using isWaiting
      exact ⟨between, inWork, unasked⟩
    · obtain rfl : args' = args := by simpa using isWaiting
      exact ⟨between, inWork, unasked⟩
  · rintro args' key rfl
    simp at isWaiting

theorem Pending.of_closing {args : Args} {key : Option (List UInt8)}
    {between : List (Step (State setup) Event (Output setup))}
    (inWork : InWork setup args history between) (answered : Answered setup args key between) :
    Pending setup history (.closing args key) := by
  constructor
  · rintro args' (closing | ⟨_, closing⟩) <;> cases closing
  · intro args' key' closing
    obtain ⟨rfl, rfl⟩ := Phase.closing.inj closing
    exact ⟨between, inWork, answered⟩

theorem Answered.of_unasked {args : Args}
    {between : List (Step (State setup) Event (Output setup))}
    (unasked : ∀ other ∈ between, ¬ other.event.IsAsk) : Answered setup args none between :=
  ⟨fun lookup member isAsk => absurd isAsk (unasked lookup member), fun some => absurd rfl some⟩

theorem pending_of_exec (run : Exec (services setup) history state) :
    Pending setup history state.phase := by
  induction run with
  | start => exact .idle
  | @step history step run performs inductionHypothesis =>
      obtain ⟨-, effect⟩ := effect_of_performs performs
      generalize event : step.event = stepEvent at effect
      cases effect with
      | @arrived args _ asks course =>
          have inWork : InWork setup args (step :: history) [] :=
            ⟨asks, ⟨step, history, rfl, event⟩, by simp⟩
          exact .of_waiting (.inl course.waiting.1) inWork (by simp)
      | atOnce _ _ course | openFailed _ course | closed _ course =>
          rw [course.finished.1]
          exact .idle
      | @connected _ args chan opening _ _ course =>
          obtain ⟨between, inWork, unasked⟩ := inductionHypothesis.waiting args (.inl opening)
          exact .of_waiting (.inr ⟨chan, course.waiting.1⟩) (inWork.cons (by simp [event]))
            (List.forall_mem_cons.mpr ⟨by simp [event, Event.IsAsk], unasked⟩)
      | @refused _ args opening course =>
          obtain ⟨between, inWork, unasked⟩ := inductionHypothesis.waiting args (.inl opening)
          exact .of_waiting (.inl course.waiting.1) (inWork.cons (by simp [event]))
            (List.forall_mem_cons.mpr ⟨by simp [event, Event.IsAsk], unasked⟩)
      | @lost args waiting course =>
          obtain ⟨between, inWork, unasked⟩ := inductionHypothesis.waiting args waiting
          rw [course.waiting.1]
          exact .of_closing (inWork.cons (by simp [event])) (.of_unasked
            (List.forall_mem_cons.mpr ⟨by simp [event, Event.IsAsk], unasked⟩))
      | @asked opId arg1 env sent read args chan asking course =>
          obtain ⟨between, inWork, unasked⟩ :=
            inductionHypothesis.waiting args (.inr ⟨chan, asking⟩)
          rw [course.waiting.1]
          refine .of_closing (inWork.cons (by simp [event]))
            ⟨?_, fun _ => ⟨step, by simp [event, Event.IsAsk]⟩⟩
          intro lookup member isAsk
          rcases List.mem_cons.mp member with rfl | earlier
          · exact ⟨opId, arg1, env, sent, read, event, ⟨chan, asking⟩, rfl⟩
          · exact absurd isAsk (unasked lookup earlier)
      | @elsewhere keyEvent _ course =>
          rw [course.waiting.1]
          have notAsk : ¬ step.event.IsAsk := by simp [event, Event.IsAsk]
          have notRequest : ∀ args', step.event ≠ .request args' := by simp [event]
          constructor
          · intro args waiting
            obtain ⟨between, inWork, unasked⟩ := inductionHypothesis.waiting args waiting
            exact ⟨_, inWork.cons notRequest, List.forall_mem_cons.mpr ⟨notAsk, unasked⟩⟩
          · intro args key closing
            obtain ⟨between, inWork, answered⟩ := inductionHypothesis.closing args key closing
            refine ⟨_, inWork.cons notRequest, ?_, fun some => ?_⟩
            · intro lookup member isAsk
              rcases List.mem_cons.mp member with rfl | earlier
              · exact absurd isAsk notAsk
              · exact answered.asked lookup earlier isAsk
            · obtain ⟨lookup, member, isAsk⟩ := answered.key some
              exact ⟨lookup, List.mem_cons_of_mem step member, isAsk⟩

section Completed

variable {final arrival : Step (State setup) Event (Output setup)} {args : Args}
  {op : Op setup.evp} {between before : List (Step (State setup) Event (Output setup))}
  {key : Option (List UInt8)}

theorem InWork.unique {other : Args}
    {between' : List (Step (State setup) Event (Output setup))}
    (inWork : InWork setup other (between ++ arrival :: before) between')
    (request : arrival.event = .request args)
    (last : ∀ step ∈ between, ∀ args', step.event ≠ .request args') :
    other = args ∧ between' = between := by
  obtain ⟨arrival', before', split, request'⟩ := inWork.arrived
  have last' := inWork.last
  rcases List.append_eq_append_iff.mp split with
    ⟨more, more', same⟩ | ⟨more, more', same⟩
  · cases more with
    | nil =>
        simp only [List.nil_append, List.cons.injEq] at same
        obtain ⟨rfl, -⟩ := same
        rw [request] at request'
        exact ⟨(Event.request.inj request').symm, by simpa using more'⟩
    | cons step more =>
        simp only [List.cons_append, List.cons.injEq] at same
        obtain ⟨rfl, -⟩ := same
        exact absurd request (last' arrival (by simp [more']) args)
  · cases more with
    | nil =>
        simp only [List.nil_append, List.cons.injEq] at same
        obtain ⟨rfl, -⟩ := same
        rw [request] at request'
        exact ⟨(Event.request.inj request').symm, by simpa using more'.symm⟩
    | cons step more =>
        simp only [List.cons_append, List.cons.injEq] at same
        obtain ⟨rfl, -⟩ := same
        exact absurd request' (last arrival' (by simp [more']) other)

theorem completed_cases (run : Exec (services setup) (final :: history) state)
    (notRequest : ∀ args, final.event ≠ .request args) (completed : final.output.op = some op) :
    ∃ args between key client, InWork setup args history between ∧
      Answered setup args key between ∧
      hwaesAesOp setup.ifc client final.pre.ctx args = .ok op ∧
      (client = noSession ∧ key = none ∨ client = ⟨true, fun _ _ => key⟩) := by
  cases run with
  | step run performs =>
      have pending := pending_of_exec run
      obtain ⟨-, effect⟩ := effect_of_performs performs
      generalize event : final.event = finalEvent at effect
      cases effect with
      | arrived _ _ course | connected _ _ _ course | refused _ course | lost _ course
      | asked _ course | elsewhere _ course =>
          rw [course.waiting.2.2] at completed
          cases completed
      | atOnce => exact absurd event (notRequest _)
      | @openFailed args opening course =>
          obtain ⟨-, done, operated, some⟩ := course.finished
          obtain rfl := Option.some.inj (some.symm.trans completed)
          obtain ⟨between, inWork, unasked⟩ := pending.waiting args (.inl opening)
          exact ⟨args, between, none, noSession, inWork, .of_unasked unasked, operated,
            .inl ⟨rfl, rfl⟩⟩
      | @closed args key closing course =>
          obtain ⟨-, done, operated, some⟩ := course.finished
          obtain rfl := Option.some.inj (some.symm.trans completed)
          obtain ⟨between, inWork, answered⟩ := pending.closing args key closing
          exact ⟨args, between, key, _, inWork, answered, operated, .inr rfl⟩

/-- The request fails and nothing is written. -/
def Refused (ctx : setup.evp.Ctx) (args : Args) (op : Op setup.evp) : Prop :=
  op.rc ≠ .noError ∧ op.ctx = ctx ∧ op.textOut = args.textOut ∧ op.tagOut = args.tagOut

/-- The operation is the one of the same request with a key in plain. -/
def ServedWith (ctx : setup.evp.Ctx) (args : Args) (key : List UInt8) (op : Op setup.evp) : Prop :=
  ∀ client, hwaesAesOp setup.ifc client ctx (args.withPlainKey key) = .ok op

theorem refused_of_rejects {client : HwkeyClient} {ctx : setup.evp.Ctx}
    (rejects : Rejects setup.ifc client ctx args)
    (operated : hwaesAesOp setup.ifc client ctx args = .ok op) : Refused ctx args op := by
  obtain ⟨rc, failure, rejected⟩ := rejects
  obtain rfl := Except.ok.inj (rejected.symm.trans operated)
  exact ⟨failure, rfl, rfl, rfl⟩

theorem AsksForKey.outcome {client : HwkeyClient} {ctx : setup.evp.Ctx}
    (asks : AsksForKey setup.ifc args)
    (operated : hwaesAesOp setup.ifc client ctx args = .ok op)
    (library : client = noSession ∧ key = none ∨ client = ⟨true, fun _ _ => key⟩) :
    (Refused ctx args op ∨ ∃ found, key = some found ∧ ServedWith ctx args found op) ∧
      ∀ found, key = some found → found ≠ [] → ServedWith ctx args found op := by
  have fetched : fetchKey setup.ifc client args = _ := asks.holds.fetchKey_eq
  rcases library with ⟨rfl, rfl⟩ | rfl
  · have fails : fetchKey setup.ifc noSession args = .error .errGeneric :=
      fetched.trans (by simp [noSession])
    exact ⟨.inl (refused_of_rejects (rejects_of_fetchKey fails (by decide)) operated), by simp⟩
  · cases key with
    | none =>
        have fails : fetchKey setup.ifc ⟨true, fun _ _ => none⟩ args = .error .errIo :=
          fetched.trans (by simp)
        exact ⟨.inl (refused_of_rejects (rejects_of_fetchKey fails (by decide)) operated), by simp⟩
    | some found =>
        have served (nonempty : found ≠ []) : ServedWith ctx args found op := by
          intro client
          rw [asks.holds.interchangeable rfl rfl nonempty] at operated
          exact operated
        refine ⟨?_, ?_⟩
        · by_cases empty : found = []
          · subst empty
            have keyIs : fetchKey setup.ifc ⟨true, fun _ _ => some []⟩ args = .ok [] :=
              fetched.trans (by simp)
            exact .inl (refused_of_rejects (rejects_of_empty keyIs) operated)
          · exact .inr ⟨found, rfl, served empty⟩
        · rintro other same nonempty
          obtain rfl := Option.some.inj same
          exact served nonempty

variable {lookup : Step (State setup) Event (Output setup)} {opId arg1 : UInt32}
  {env : Hwkey.Env} {sent read : Bool}

theorem Asks.answer_eq (asks : Asks args key opId arg1 env sent read lookup)
    (reached : Reachable (services setup) lookup.pre)
    (performs : (services setup).Performs lookup) :
    ∃ exchange : Exchange, exchange.env = env ∧
      key = if sent = true ∧ read = true then
        (exchange.response setup.build setup.hwkeyIfc lookup.pre.hwkey args.handle).bind
          (keyIn setup.ifc.aesKeyMaxSize)
      else none := by
  have connected := connected_of_reachable reached
  obtain ⟨chan, asking⟩ := asks.phase
  have shown : hwkeyEvent? setup lookup.pre.phase lookup.event = some (.chan chan ⟨false, true⟩
      (askIo setup.hwkeyIfc args.handle opId arg1 env sent)) := by
    rw [asks.event, asking]
    rfl
  have effect := connected.effect performs.1 shown (effect_of_performs performs).1
  obtain ⟨ctx, delivered⟩ :=
    (connected.session args chan asking).delivered connected.hwkey effect
  refine ⟨⟨ctx, chan, opId, arg1, env⟩, rfl, ?_⟩
  rw [asks.key, answer, delivered]
  cases sent <;> cases read <;> simp

theorem Asks.redeems {found : List UInt8}
    (asks : Asks args (some found) opId arg1 env sent read lookup)
    (reached : Reachable (services setup) lookup.pre)
    (performs : (services setup).Performs lookup) :
    Redeems setup.build lookup.pre.hwkey env args.handle found := by
  obtain ⟨exchange, rfl, same⟩ := asks.answer_eq reached performs
  split at same
  · obtain ⟨rsp, responds, delivers⟩ := Option.bind_eq_some_iff.mp same.symm
    unfold keyIn at delivers
    split at delivers
    next accepted =>
      obtain rfl := Option.some.inj delivers
      exact redeems_of_response (connected_of_reachable reached).hwkey.prepared
        (Bytes.zero_notMem_cstr _) responds accepted.1
    next => cases delivers
  · cases same

theorem Asks.of_redeems {found : List UInt8}
    (asks : Asks args key opId arg1 env true true lookup)
    (reached : Reachable (services setup) lookup.pre)
    (performs : (services setup).Performs lookup)
    (redeems : Redeems setup.build lookup.pre.hwkey env args.handle found)
    (short : found.length ≤ setup.ifc.aesKeyMaxSize) : key = some found := by
  obtain ⟨exchange, rfl, same⟩ := asks.answer_eq reached performs
  obtain ⟨rsp, responds, succeeded, rfl⟩ : ∃ rsp, exchange.response setup.build setup.hwkeyIfc
      lookup.pre.hwkey args.handle = some rsp ∧ rsp.status = .noError ∧ rsp.payload = found :=
    response_of_redeems (connected_of_reachable reached).hwkey.prepared
      (Bytes.zero_notMem_cstr _) redeems
  rw [same, responds]
  simp [keyIn, succeeded, short]

section Results

variable (run : Exec (services setup) (final :: (between ++ arrival :: before)) state)
  (request : arrival.event = .request args)
  (last : ∀ step ∈ final :: between, ∀ args', step.event ≠ .request args')
  (completed : final.output.op = some op)

include run request last completed

theorem completed_with_key : ∃ key, Answered setup args key between ∧
    (Refused final.pre.ctx args op ∨ ∃ found, key = some found ∧
      ServedWith final.pre.ctx args found op) ∧
    ∀ found, key = some found → found ≠ [] → ServedWith final.pre.ctx args found op := by
  obtain ⟨notRequest, lastBefore⟩ := List.forall_mem_cons.mp last
  obtain ⟨args', between', key, client, inWork, answered, operated, library⟩ :=
    completed_cases run notRequest completed
  obtain ⟨rfl, rfl⟩ := inWork.unique request lastBefore
  exact ⟨key, answered, inWork.asks.outcome operated library⟩

theorem refused_or_redeemed : Refused final.pre.ctx args op ∨
    ∃ lookup ∈ between, ∃ env key, Redeems setup.build lookup.pre.hwkey env args.handle key ∧
      ServedWith final.pre.ctx args key op := by
  obtain ⟨key, answered, refused | ⟨found, rfl, served⟩, -⟩ :=
    completed_with_key run request last completed
  · exact .inl refused
  · obtain ⟨lookup, member, isAsk⟩ := answered.key (by simp)
    obtain ⟨opId, arg1, env, sent, read, asks⟩ := answered.asked lookup member isAsk
    obtain ⟨reached, performs⟩ :=
      run.performed (List.mem_cons_of_mem final (List.mem_append_left _ member))
    exact .inr ⟨lookup, member, env, found, asks.redeems reached performs, served⟩

theorem served_of_redeems {found : List UInt8} (member : lookup ∈ between)
    (event : lookup.event = .ask opId arg1 env true true)
    (redeems : Redeems setup.build lookup.pre.hwkey env args.handle found)
    (short : found.length ≤ setup.ifc.aesKeyMaxSize) (nonempty : found ≠ []) :
    ServedWith final.pre.ctx args found op := by
  obtain ⟨key, answered, -, served⟩ := completed_with_key run request last completed
  obtain ⟨opId', arg1', env', sent, read, asks⟩ :=
    answered.asked lookup member (by simp [event, Event.IsAsk])
  obtain ⟨rfl, rfl, rfl, rfl, rfl⟩ := Event.ask.inj (event.symm.trans asks.event)
  obtain ⟨reached, performs⟩ :=
    run.performed (List.mem_cons_of_mem final (List.mem_append_left _ member))
  exact served found (asks.of_redeems reached performs redeems short) nonempty

/-- While a request with a handle is in work, the HWKEY service may serve others: it is
refused without a trace, or it is served exactly as with the plain key that the handle
stood for at some moment between its arrival and its completion.  If the service was asked
at a moment when the handle stood for a usable key, and its answer came through, the
request is served with that key. -/
theorem handle_request_linearized :
    (Refused final.pre.ctx args op ∨ ∃ lookup ∈ between, ∃ env key,
      Redeems setup.build lookup.pre.hwkey env args.handle key ∧
        ServedWith final.pre.ctx args key op) ∧
    ∀ lookup ∈ between, ∀ opId arg1 env key, lookup.event = .ask opId arg1 env true true →
      Redeems setup.build lookup.pre.hwkey env args.handle key →
      key.length ≤ setup.ifc.aesKeyMaxSize → key ≠ [] →
      ServedWith final.pre.ctx args key op := by
  refine ⟨refused_or_redeemed run request last completed, ?_⟩
  intro lookup member opId arg1 env key event redeems short nonempty
  exact served_of_redeems run request last completed member event redeems short nonempty

end Results

end Completed

section Sample

/-- A step of the HWKEY service for others while the HWAES service is in some phase. -/
def meanwhile (setup : Setup) (phase : Phase) (ctx : setup.evp.Ctx)
    (step : Step Hwkey.State Hwkey.Event (List Action)) :
    Step (State setup) Event (Output setup) :=
  ⟨⟨step.pre, phase, ctx⟩, .hwkey step.event, ⟨step.output, none⟩, ⟨step.post, phase, ctx⟩⟩

theorem meanwhile_performs {phase : Phase} {ctx : setup.evp.Ctx}
    {step : Step Hwkey.State Hwkey.Event (List Action)} (performs : setup.hwkey.Performs step)
    (other : ∀ args chan bits io, phase = .asking args chan → step.event ≠ .chan chan bits io) :
    (services setup).Performs (meanwhile setup phase ctx step) := by
  refine ⟨⟨performs.1, other⟩, ?_⟩
  simp [services, dispatch, serve, meanwhile, hwkeyEvent?, performs.2, advance_hwkey, resume]

def lifted (setup : Setup) (step : Step Hwkey.State Hwkey.Event (List Action)) :
    Step (State setup) Event (Output setup) :=
  meanwhile setup .idle setup.evp.new step

theorem lifted_exec {keyHistory : List (Step Hwkey.State Hwkey.Event (List Action))}
    {keyState : Hwkey.State} (run : Exec setup.hwkey keyHistory keyState) :
    Exec (services setup) (keyHistory.map (lifted setup)) ⟨keyState, .idle, setup.evp.new⟩ := by
  induction run with
  | start => exact .start
  | @step keyHistory step run performs inductionHypothesis =>
      have before : Exec (services setup) _ (lifted setup step).pre := inductionHypothesis
      exact before.step (meanwhile_performs performs (by simp))

def sampleSetup : Setup :=
  ⟨samplePrimitives.implementation, ⟨32, 128⟩, encryptBuild sampleKey, Hwkey.smallInterface⟩

/-- What is left when the apploader was given a handle. -/
def issuedState (keyData : List UInt8) : Hwkey.State :=
  let connected := (Hwkey.clientStep (encryptProvider sampleKey) Hwkey.smallInterface
    Hwkey.apploaderUuid).post
  { connected with
    opaqueHandles := [⟨2, 16, Hwkey.sampleToken⟩]
    reqData := Hwkey.slotIdOf connected.reqData encryptRequest
    keyData }

def issuingStep (keyData : List UInt8) : Step Hwkey.State Hwkey.Event (List Action) :=
  Hwkey.requestingStep (encryptProvider sampleKey) Hwkey.smallInterface Hwkey.apploaderUuid
    (Hwkey.requestIo encryptRequest) ⟨issuedState keyData,
      [.responded 3 (Hwkey.tokenRsp Hwkey.smallInterface encryptRequest Hwkey.sampleToken) true,
        .issued 2 Hwkey.sampleToken], true⟩

def connectingStep : Step Hwkey.State Hwkey.Event (List Action) :=
  Hwkey.clientStep (encryptProvider sampleKey) Hwkey.smallInterface Hwkey.apploaderUuid

theorem issuingStep_exec : ∃ keyData,
    Exec sampleSetup.hwkey [issuingStep keyData, connectingStep] (issuedState keyData) := by
  have allowed : (encryptProvider sampleKey).hwkeyClientAllowed Hwkey.apploaderUuid = true := rfl
  have connected : Exec (Hwkey.service (encryptProvider sampleKey) Hwkey.smallInterface) _ _ :=
    Hwkey.clientStep_exec allowed
  have prepared := (Hwkey.handleInvariant_of_reachable connected.reachable).prepared
  obtain ⟨keyData, handled⟩ : ∃ keyData, Hwkey.hwkeyChanHandleMsg (encryptProvider sampleKey)
      Hwkey.smallInterface _ 16 ⟨3, Hwkey.apploaderUuid⟩ (Hwkey.requestIo encryptRequest) = _ :=
    Hwkey.getKeyslot_issued prepared rfl rfl (encryptRequest_firstSlot sampleKey).namedSlot_eq
      (fun _ member => by cases member) rfl
      (show Hwkey.drawToken Hwkey.secondDraw .empty = .ok (.ok Hwkey.sampleToken) from rfl)
  exact ⟨keyData, Hwkey.requestingStep_exec allowed handled rfl⟩

def hangingUpStep (keyState : Hwkey.State) : Step Hwkey.State Hwkey.Event (List Action) :=
  ⟨keyState, .chan 3 ⟨true, false⟩ (Hwkey.requestIo encryptRequest), [.closed 3],
    keyState.closeSession 16 ⟨3, Hwkey.apploaderUuid⟩⟩

theorem hangingUpStep_performs {keyState : Hwkey.State}
    (attached : keyState.conns.chans 3 = .attached 16)
    (live : keyState.conns.ctxs 16 = some ⟨3, Hwkey.apploaderUuid⟩) :
    sampleSetup.hwkey.Performs (hangingUpStep keyState) :=
  Hwkey.hangUp_performs _ attached live rfl

theorem asksForKey_sample : AsksForKey ⟨32, 128⟩ (handleArgs .cbc) :=
  ⟨by decide, handleArgs_holds .cbc⟩

variable {keyState : Hwkey.State}

def arrivingStep (keyState : Hwkey.State) : Step (State sampleSetup) Event (Output sampleSetup) :=
  ⟨⟨keyState, .idle, sampleStep.pre⟩, .request (handleArgs .cbc), ⟨[], none⟩,
    ⟨keyState, .opening (handleArgs .cbc), sampleStep.pre⟩⟩

theorem arrivingStep_performs (keyState : Hwkey.State) :
    (services sampleSetup).Performs (arrivingStep keyState) := by
  refine ⟨rfl, ?_⟩
  simp only [services, dispatch, arrivingStep, serve, hwkeyEvent?, ok_bind, advance]
  rw [if_pos (show AsksForKey sampleSetup.ifc (handleArgs .cbc) from asksForKey_sample)]
  rfl

def sessionState (keyState : Hwkey.State) : Hwkey.State :=
  (Hwkey.connecting keyState 4 32 hwaesUuid).post

def openingStep (keyState : Hwkey.State) : Step (State sampleSetup) Event (Output sampleSetup) :=
  ⟨(arrivingStep keyState).post, .connect ⟨some 4, hwaesUuid, some 32, true⟩, ⟨[.opened 4], none⟩,
    ⟨sessionState keyState, .asking (handleArgs .cbc) 4, sampleStep.pre⟩⟩

theorem openingStep_performs (closed : keyState.conns.chans 4 = .closed)
    (unused : keyState.conns.ctxs 32 = none) :
    (services sampleSetup).Performs (openingStep keyState) := by
  have connects : sampleSetup.hwkey.Performs (Hwkey.connecting keyState 4 32 hwaesUuid) :=
    Hwkey.connecting_performs closed unused rfl
  refine ⟨⟨⟨_, rfl⟩, rfl, connects.1⟩, ?_⟩
  have served : sampleSetup.hwkey.handle keyState (.port ⟨some 4, hwaesUuid, some 32, true⟩) =
      .ok (sessionState keyState, [.opened 4]) := connects.2
  simp [services, dispatch, openingStep, arrivingStep, serve, hwkeyEvent?, served, advance,
    openedChan?, resume]

def askingStep (keyState : Hwkey.State) (handled : Hwkey.Handled) (key : Option (List UInt8)) :
    Step (State sampleSetup) Event (Output sampleSetup) :=
  ⟨(openingStep keyState).post,
    .ask sampleExchange.opId sampleExchange.arg1 sampleExchange.env true true,
    ⟨handled.actions, none⟩,
    ⟨handled.state, .closing (handleArgs .cbc) key, sampleStep.pre⟩⟩

def sampleMessage : Hwkey.Request :=
  sampleExchange.request Hwkey.smallInterface
    (show (List.replicate 31 (1 : UInt8)).length ≤ Hwkey.hwkeyMaxPayloadSize by decide)

def sampleIo : Hwkey.Io :=
  ⟨some sampleMessage, ⟨[], Nat.zero_le _⟩, sampleExchange.env, true⟩

theorem askingStep_performs {handled : Hwkey.Handled} {key : Option (List UInt8)}
    (answered : Hwkey.hwkeyChanHandleMsg (encryptProvider sampleKey) Hwkey.smallInterface
      (sessionState keyState) 32 ⟨4, hwaesUuid⟩ sampleIo = .ok handled)
    (sent : handled.sent = true) (delivers : answer 32 handled.actions true = key) :
    (services sampleSetup).Performs (askingStep keyState handled key) := by
  have handles : sampleSetup.hwkey.Performs ⟨sessionState keyState,
      .chan 4 ⟨false, true⟩ sampleIo, handled.actions, handled.state⟩ :=
    Hwkey.message_performs (by simp [sessionState, Hwkey.connecting])
      (by simp [sessionState, Hwkey.connecting]) rfl answered sent
  have asked : askIo Hwkey.smallInterface (handleArgs .cbc).handle sampleExchange.opId
      sampleExchange.arg1 sampleExchange.env true = sampleIo := by
    rw [handleArgs_handle]
    exact askIo_eq sampleExchange _
  have shown : hwkeyEvent? sampleSetup (openingStep keyState).post.phase
      (askingStep keyState handled key).event = some (.chan 4 ⟨false, true⟩ sampleIo) :=
    congrArg (fun io => some (Hwkey.Event.chan 4 ⟨false, true⟩ io)) asked
  have served : serve sampleSetup (openingStep keyState).post
      (askingStep keyState handled key).event = .ok (handled.state, handled.actions) := by
    rw [serve, shown]
    simp only [handles.2, openingStep]
  subst delivers
  refine ⟨⟨_, _, rfl⟩, ?_⟩
  simp only [services, dispatch, askingStep] at served ⊢
  rw [served]
  rfl

theorem resume_finish {client : HwkeyClient} {args : Args} {ctx : setup.evp.Ctx}
    {op : Op setup.evp} (hwkey : Hwkey.State) (actions : List Action)
    (operated : hwaesAesOp setup.ifc client ctx args = .ok op) :
    resume setup ctx hwkey actions (.finish args client) =
      .ok (⟨hwkey, .idle, op.ctx⟩, ⟨actions, some op⟩) := by
  simp only [resume, operated]

def closingStep (keyState : Hwkey.State) (key : Option (List UInt8))
    (op : Op sampleSetup.evp) : Step (State sampleSetup) Event (Output sampleSetup) :=
  ⟨⟨keyState, .closing (handleArgs .cbc) key, sampleStep.pre⟩, .close, ⟨[], some op⟩,
    ⟨keyState, .idle, op.ctx⟩⟩

theorem closingStep_performs {key : Option (List UInt8)} {op : Op sampleSetup.evp}
    (operated : hwaesAesOp sampleSetup.ifc ⟨true, fun _ _ => key⟩ sampleStep.pre
      (handleArgs .cbc) = .ok op) :
    (services sampleSetup).Performs (closingStep keyState key op) := by
  refine ⟨⟨_, _, rfl⟩, ?_⟩
  simp only [services, dispatch, closingStep, serve, hwkeyEvent?, ok_bind, advance]
  exact resume_finish keyState [] operated

theorem hwaesAesOp_sampleKey : hwaesAesOp sampleSetup.ifc ⟨true, fun _ _ => some sampleKey⟩
    sampleStep.pre (handleArgs .cbc) = .ok sampleStep.output := by
  have nonempty : sampleKey ≠ [] := by decide
  have holds : HoldsHandle sampleSetup.ifc (handleArgs .cbc) := handleArgs_holds .cbc
  rw [holds.interchangeable rfl rfl nonempty]
  rfl

/-- What is left when the handle was redeemed. -/
def redeemedState (buffer reqData keyData : List UInt8) : Hwkey.State :=
  { sessionState (issuedState buffer) with reqData, keyData }

theorem askingStep_exec : ∃ buffer handled reqData keyData,
    handled.state = redeemedState buffer reqData keyData ∧
      Redeems (encryptBuild sampleKey) (sessionState (issuedState buffer)) sampleExchange.env
        (handleArgs .cbc).handle sampleKey ∧
      Exec (services sampleSetup)
        [askingStep (issuedState buffer) handled (some sampleKey),
          openingStep (issuedState buffer), arrivingStep (issuedState buffer),
          lifted sampleSetup (issuingStep buffer), lifted sampleSetup connectingStep]
        (askingStep (issuedState buffer) handled (some sampleKey)).post := by
  obtain ⟨buffer, keyRun⟩ := issuingStep_exec
  have idle : Exec (services sampleSetup) _ (arrivingStep (issuedState buffer)).pre :=
    lifted_exec keyRun
  have arrived : Exec (services sampleSetup) _ (openingStep (issuedState buffer)).pre :=
    idle.step (arrivingStep_performs (issuedState buffer))
  have opened := arrived.step (openingStep_performs rfl rfl)
  have invariant := (connected_of_reachable opened.reachable).hwkey
  have redeems : Redeems (encryptBuild sampleKey) (sessionState (issuedState buffer))
      sampleExchange.env (List.replicate 31 1) sampleKey :=
    sampleToken_redeems rfl invariant.keyData (by decide)
  obtain ⟨rsp, slot, reqData, keyData, answered, succeeded, payload⟩ :=
    handled_of_redeems Hwkey.smallInterface invariant.prepared (by decide) (by decide) redeems
  have key : answer 32 [.responded 4 rsp true, .retrieved slot] true = some sampleKey := by
    have delivered : [.responded 4 rsp true, .retrieved slot].findSome? delivered? = some rsp :=
      rfl
    rw [answer, if_pos rfl, delivered, Option.bind_some, keyIn, payload, succeeded]
    rfl
  refine ⟨buffer, _, reqData, keyData, rfl, ?_,
    opened.step (askingStep_performs answered rfl key)⟩
  rw [handleArgs_handle]
  exact redeems

/-- The handle encrypts the sample, although it is revoked before the request is done. -/
theorem handle_request_linearized_sample : ∃ buffer handled state,
    Exec (services sampleSetup)
      (closingStep (hangingUpStep handled.state).post (some sampleKey) sampleStep.output ::
        ([meanwhile sampleSetup (.closing (handleArgs .cbc) (some sampleKey)) sampleStep.pre
            (hangingUpStep handled.state),
          askingStep (issuedState buffer) handled (some sampleKey),
          openingStep (issuedState buffer)] ++
          arrivingStep (issuedState buffer) ::
            [lifted sampleSetup (issuingStep buffer), lifted sampleSetup connectingStep])) state ∧
    state.hwkey.opaqueHandles = [] ∧
    ServedWith (arrivingStep (issuedState buffer)).pre.ctx (handleArgs .cbc) sampleKey
      sampleStep.output := by
  obtain ⟨buffer, handled, reqData, keyData, redeemed, redeems, asked⟩ := askingStep_exec
  have hangsUp : (services sampleSetup).Performs (meanwhile sampleSetup
      (.closing (handleArgs .cbc) (some sampleKey)) sampleStep.pre (hangingUpStep handled.state)) :=
    meanwhile_performs (hangingUpStep_performs (by rw [redeemed]; rfl) (by rw [redeemed]; rfl))
      (by simp)
  have beforeHangingUp : Exec (services sampleSetup) _ (meanwhile sampleSetup
      (.closing (handleArgs .cbc) (some sampleKey)) sampleStep.pre (hangingUpStep handled.state)).pre :=
    asked
  have beforeClosing : Exec (services sampleSetup) _
      (closingStep (hangingUpStep handled.state).post (some sampleKey) sampleStep.output).pre :=
    beforeHangingUp.step hangsUp
  -- the handle was issued before the request arrived, and revoked while it was in work
  have run : Exec (services sampleSetup) (_ :: ([_, _, _] ++ _ :: [_, _])) _ :=
    beforeClosing.step (closingStep_performs hwaesAesOp_sampleKey)
  refine ⟨buffer, handled, _, run, ?_, ?_⟩
  · simp only [closingStep, hangingUpStep, redeemed]
    rfl
  · exact (handle_request_linearized run rfl
      (by simp [closingStep, meanwhile, askingStep, openingStep]) rfl).2
      (askingStep (issuedState buffer) handled (some sampleKey)) (by simp) _ _ _ sampleKey rfl
      redeems (by decide) (by decide)

end Sample

end TrustyApp.Hwaes.Protocol
