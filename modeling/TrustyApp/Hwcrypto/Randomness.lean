import TrustyApp.Hwcrypto.App
import TrustyApp.Hwkey.Responses
import TrustyApp.Hwrng.Progress

/-!
# Random bytes are handed out once

Every message of the HWRNG service consists of the bytes that were drawn for it just
before, and every token of bytes of the last draw made for it.  Since the device
moves on with each draw, no two of them share a byte of the stream.
-/

namespace TrustyApp.Hwcrypto

open Hwkey Ipc Provenance Reactive

variable {setup : Setup} {stream : Nat → UInt8} {lost : Addr → Nat} {device : Device}

/-- Every message was drawn in the call right before it was sent. -/
inductive Paired : List Hwrng.Action → Prop
  | nil : Paired []
  | other {action : Hwrng.Action} {log : List Hwrng.Action} :
      (∀ chan data, action ≠ .sent chan data) → Paired log → Paired (action :: log)
  | sent {chan : Handle} {ctx : Addr} {data : List UInt8} {log : List Hwrng.Action} :
      Paired log → Paired (.sent chan data :: .drew ctx data :: log)

theorem served_paired {io : Hwrng.Io} {state state' : Hwrng.State} {ctx : Addr}
    {chanCtx : Hwrng.ChanCtx} {new log : List Hwrng.Action} {more : Bool}
    (served : Hwrng.Served io state ctx chanCtx state' new more) (paired : Paired log) :
    Paired (new ++ log) := by
  cases served with
  | skipped => exact paired
  | drawFailed | sendBlocked | sendFailed =>
      exact .other (by simp) (.other (by simp) paired)
  | finished | more => exact .sent paired

/-- The positions follow the bytes in `rng_data`. -/
def Tracked (device : Device) (state : Hwrng.State) : Prop :=
  values device.rngData = state.rngData

theorem Tracked.draw {state : Hwrng.State} {data : List UInt8} (tracked : Tracked device state)
    (drawn : data = values (draw stream device.next data.length)) :
    values (overwrite device.rngData (draw stream device.next data.length)) =
      Bytes.overwrite state.rngData data := by
  rw [values_overwrite, ← drawn, tracked]
  rfl

theorem served_tracked {io : Hwrng.Io} {state state' : Hwrng.State} {ctx : Addr}
    {chanCtx : Hwrng.ChanCtx} {new log : List Hwrng.Action} {more : Bool}
    (served : Hwrng.Served io state ctx chanCtx state' new more)
    (tracked : Answered stream lost log device → Tracked (observe stream lost log device).1 state) :
    Answered stream lost (new ++ log) device →
      Tracked (observe stream lost (new ++ log) device).1 state' := by
  cases served with
  | skipped | drawFailed => exact tracked
  | sendBlocked | sendFailed | finished | more =>
      rintro ⟨drawn, answered⟩
      exact (tracked answered).draw drawn

theorem prepared_rngData {width : Nat} {state state' : Hwrng.State} {ctx : Addr}
    {chanCtx : Hwrng.ChanCtx} {bits : Hwrng.Bits} {io : Hwrng.Io} {actions : List Hwrng.Action}
    (prepared : Hwrng.Prepared width state ctx chanCtx bits io state' actions) :
    state'.rngData = state.rngData := by
  have unblocked : (state.unblock ctx chanCtx bits).rngData = state.rngData := by
    unfold Hwrng.State.unblock
    split <;> rfl
  cases prepared with
  | hungUp => rfl
  | recvFailed | noMessage => exact unblocked
  | received =>
      unfold Hwrng.queueRequest
      split <;> exact unblocked

theorem dispatchEvent_paired {state post : Hwrng.State} {event : Hwrng.Event}
    {actions : List Hwrng.Action} {width : Nat} (invariant : Hwrng.QueueInvariant state)
    (enabled : Hwrng.Enabled state event) (tracked : Tracked device state)
    (handled : Hwrng.dispatchEvent width state event = .ok (post, actions)) :
    Paired actions ∧ ∀ stream lost, Answered stream lost actions device →
      Tracked (observe stream lost actions device).1 post := by
  cases event with
  | port conn =>
      have connected : Hwrng.hwrngPortHandler state conn = (post, actions) := Except.ok.inj handled
      obtain ⟨rfl, rfl⟩ := Prod.mk.inj connected
      split
      · exact ⟨.nil, fun _ _ _ => tracked⟩
      · exact ⟨.other (by simp) .nil, fun _ _ _ => tracked⟩
  | chan handle bits io =>
      obtain ⟨ctx, attached⟩ := enabled
      obtain ⟨chanCtx, middle, before, pass, live, -, -, prepared, kept, passed, -, -,
        dispatched⟩ := Hwrng.dispatchEvent_chan width bits io invariant attached
      obtain ⟨rfl, rfl⟩ := Prod.mk.inj (Except.ok.inj (dispatched.symm.trans handled))
      have start : Paired before ∧ ∀ stream lost, Answered stream lost before device →
          Tracked (observe stream lost before device).1 middle := by
        have still : Tracked device middle := tracked.trans (prepared_rngData prepared).symm
        cases prepared with
        | hungUp | recvFailed | received => exact ⟨.other (by simp) .nil, fun _ _ _ => still⟩
        | noMessage => exact ⟨.nil, fun _ _ _ => still⟩
      obtain ⟨again, result, -, held⟩ := Hwrng.pass_rule
        (fun _ now log => Paired log ∧ ∀ stream lost, Answered stream lost log device →
          Tracked (observe stream lost log device).1 now)
        (fun _ _ _ _ _ _ _ _ _ _ _ _ held served =>
          ⟨served_paired served held.1, fun stream lost =>
            served_tracked served (held.2 stream lost)⟩)
        before kept start
      obtain rfl := Except.ok.inj (passed.symm.trans result)
      exact held

def sentMessage : Hwrng.Action → Option (Handle × List UInt8)
  | .sent chan data => some (chan, data)
  | _ => none

def Released.message? : Released → Option (Handle × List UInt8)
  | .message chan bytes => some (chan, values bytes)
  | .token _ _ => none

def Released.token? : Released → Option (Nat × List UInt8)
  | .message _ _ => none
  | .token slot bytes => some (slot, values bytes)

/-- What is handed out comes from the device, but for the terminator of a token. -/
def Released.FromDevice (stream : Nat → UInt8) : Released → Prop
  | .message _ bytes => FromSource stream bytes
  | .token _ bytes => FromSource stream (bytes.take (hwkeyOpaqueHandleSize - 1))

theorem Paired.released {actions : List Hwrng.Action} {items : List (List TaggedByte)}
    (paired : Paired actions) (answered : Answered stream lost actions device)
    (separate : Separate device.next items) :
    Separate (observe stream lost actions device).1.next
        ((observe stream lost actions device).2.map Released.bytes ++ items) ∧
      (∀ released ∈ (observe stream lost actions device).2, released.FromDevice stream) ∧
      (observe stream lost actions device).2.filterMap Released.message? =
        actions.filterMap sentMessage ∧
      (observe stream lost actions device).2.filterMap Released.token? = [] := by
  induction paired with
  | nil => exact ⟨separate, by simp [observe], rfl, rfl⟩
  | @other action log quiet paired inductionHypothesis =>
      have earlier : Answered stream lost log device := by
        cases action with
        | drew => exact answered.2
        | _ => exact answered
      obtain ⟨separate, rest⟩ := inductionHypothesis earlier
      cases action with
      | sent chan data => exact absurd rfl (quiet chan data)
      | drew | drawFailed => exact ⟨separate.skip (Nat.le_add_right _ _), rest⟩
      | _ => exact ⟨separate, rest⟩
  | @sent chan ctx data log paired inductionHypothesis =>
      obtain ⟨drawn, earlier⟩ := answered
      obtain ⟨separate, fromDevice, messages, tokens⟩ := inductionHypothesis earlier
      let drawnNow := draw stream (observe stream lost log device).1.next data.length
      have taken : (overwrite (observe stream lost log device).1.rngData drawnNow).take
          data.length = drawnNow := by
        have read := take_overwrite (observe stream lost log device).1.rngData drawnNow
        rwa [length_draw] at read
      simp only [observe, List.map_cons, Released.bytes, List.cons_append, List.forall_mem_cons,
        List.filterMap_cons, Released.message?, Released.token?, sentMessage]
      rw [taken]
      refine ⟨?_, ⟨fromSource_draw _ _ _, fromDevice⟩, ?_, tokens⟩
      · exact separate.release (within_draw _ _ _) (Nat.le_add_right _ _)
      · rw [messages, ← drawn]

theorem fillTagged_erases (buf : List TaggedByte) {token : List TaggedByte}
    {plain : AccessToken} (offset : Nat) (same : values token = plain.bytes) :
    values (fillTagged buf token offset).1 = (fillToken (values buf) plain offset).1.bytes ∧
      (fillTagged buf token offset).2 = (fillToken (values buf) plain offset).2 := by
  induction buf generalizing token plain offset with
  | nil => exact ⟨same, rfl⟩
  | cons byte buf inductionHypothesis =>
      have written : values (token.set offset byte) = (plain.write offset byte.value).bytes := by
        rw [values, List.map_set]
        exact congrArg (List.set · offset byte.value) same
      simp only [fillTagged, values, List.map_cons, fillToken]
      split
      · split
        · exact inductionHypothesis (offset + 1) written
        · exact inductionHypothesis offset same
      · exact ⟨same, rfl⟩

/-- The loop writes bytes of the draw one after another from the offset on. -/
theorem fillTagged_spec (buf : List TaggedByte) {token : List TaggedByte} {offset : Nat}
    (size : token.length = hwkeyOpaqueHandleSize)
    (inside : offset ≤ hwkeyOpaqueHandleSize - 1) :
    ∃ fresh, fresh ⊆ buf ∧ (fillTagged buf token offset).2 = offset + fresh.length ∧
      offset + fresh.length ≤ hwkeyOpaqueHandleSize - 1 ∧
      (fillTagged buf token offset).1 =
        token.take offset ++ fresh ++ token.drop (offset + fresh.length) := by
  induction buf generalizing token offset with
  | nil => exact ⟨[], by simp, rfl, inside, by simp [fillTagged]⟩
  | cons byte buf inductionHypothesis =>
      rw [fillTagged]
      by_cases room : offset < hwkeyOpaqueHandleSize - 1
      · rw [if_pos room]
        by_cases zero : byte.value = 0
        · rw [if_neg (not_not.mpr zero)]
          obtain ⟨fresh, subset, rest⟩ := inductionHypothesis size inside
          exact ⟨fresh, List.subset_cons_of_subset byte subset, rest⟩
        · rw [if_pos zero]
          have sizeAgain : (token.set offset byte).length = hwkeyOpaqueHandleSize := by
            rw [List.length_set, size]
          obtain ⟨fresh, subset, count, bound, result⟩ := inductionHypothesis sizeAgain room
          have inToken : offset < token.length := by
            rw [size]
            omega
          refine ⟨byte :: fresh, List.cons_subset_cons byte subset, ?_, ?_, ?_⟩
          · rw [count, List.length_cons]
            omega
          · rw [List.length_cons]
            omega
          · rw [result, List.drop_set_of_lt (by omega), List.set_eq_take_append_cons_drop,
              if_pos inToken]
            have moved : offset + 1 + fresh.length = offset + (byte :: fresh).length := by
              rw [List.length_cons]
              omega
            rw [moved]
            simp [List.take_append, Nat.min_eq_left inToken.le]
      · rw [if_neg room]
        exact ⟨[], by simp, rfl, inside, by simp⟩

/-- A token under construction: what the loop has written is not yet its terminator. -/
structure Drafted (token : List TaggedByte) : Prop where
  size : token.length = hwkeyOpaqueHandleSize
  terminated : token.drop (hwkeyOpaqueHandleSize - 1) = [⟨0, none⟩]

theorem Drafted.fill {token : List TaggedByte} (drafted : Drafted token)
    (buf : List TaggedByte) : Drafted (fillTagged buf token 0).1 := by
  obtain ⟨fresh, -, -, bound, result⟩ := fillTagged_spec buf drafted.size (Nat.zero_le _)
  rw [Nat.zero_add] at bound result
  rw [result, List.take_zero, List.nil_append]
  have size := drafted.size
  constructor
  · rw [List.length_append, List.length_drop, size]
    omega
  · rw [List.drop_append, List.drop_eq_nil_of_le bound, List.nil_append, List.drop_drop,
      Nat.add_sub_cancel' bound, drafted.terminated]

theorem Drafted.full {token buf : List TaggedByte} (drafted : Drafted token)
    (full : (fillTagged buf token 0).2 = hwkeyOpaqueHandleSize - 1) :
    ∃ fresh, fresh ⊆ buf ∧ fresh.length = hwkeyOpaqueHandleSize - 1 ∧
      (fillTagged buf token 0).1 = fresh ++ [⟨0, none⟩] := by
  obtain ⟨fresh, subset, count, -, result⟩ := fillTagged_spec buf drafted.size (Nat.zero_le _)
  rw [Nat.zero_add] at count result
  have all := count.symm.trans full
  refine ⟨fresh, subset, all, ?_⟩
  rw [result, all, drafted.terminated]
  rfl

structure Fresh (stream : Nat → UInt8) (next next' : Nat) (token : AccessToken)
    (bytes : List TaggedByte) : Prop where
  same : values bytes = token.bytes
  chars : FromSource stream (bytes.take (hwkeyOpaqueHandleSize - 1))
  within : Within next next' bytes

theorem drawTagged_fresh {next : Nat} {draws : List (Except KernelError RandomBuf)}
    {tagged : List TaggedByte} {plain token : AccessToken}
    (answered : AnsweredDraws stream next draws) (same : values tagged = plain.bytes)
    (drafted : Drafted tagged) (drawn : drawToken draws plain = .ok (.ok token)) :
    ∃ bytes, drawTagged stream next draws tagged = some bytes ∧
      Fresh stream next (next + consumed draws) token bytes := by
  induction draws generalizing next tagged plain with
  | nil => cases drawn
  | cons result draws inductionHypothesis =>
      cases result with
      | error rc => cases drawn
      | ok buf =>
          obtain ⟨bufIs, answered⟩ := answered
          obtain ⟨erased, count⟩ :=
            fillTagged_erases (draw stream next buf.bytes.length) 0 same
          rw [← bufIs] at erased count
          simp only [drawToken] at drawn
          simp only [drawTagged, count, consumed]
          split at drawn
          next full =>
            rw [if_pos full]
            cases drawn
            obtain ⟨fresh, subset, all, result⟩ := drafted.full (count.trans full)
            refine ⟨_, rfl, erased, ?_, ?_⟩
            · rw [result, List.take_left' all]
              exact (fromSource_draw _ _ _).of_subset subset
            · have within := (within_draw stream next buf.bytes.length).of_subset subset
              rw [result]
              intro position member
              have inFresh : position ∈ positions fresh := by
                simpa [positions, List.filterMap_append] using member
              have bounds := within position inFresh
              omega
          next short =>
            rw [if_neg short]
            obtain ⟨bytes, result, fresh⟩ :=
              inductionHypothesis answered erased (drafted.fill _) drawn
            refine ⟨bytes, result, fresh.same, fresh.chars, ?_⟩
            intro position member
            have bounds := fresh.within position member
            omega

theorem emptyToken_drafted : Drafted emptyToken := ⟨by decide, by decide⟩

def issuedToken : Hwkey.Action → Option (Nat × AccessToken)
  | .issued slot token => some (slot, token)
  | _ => none

/-- A message hands out at most one token, the one that its draws make up. -/
theorem message_issues {provider : Provider} {ifc : Hwkey.Interface} {state : Hwkey.State}
    {ctx : Addr} {chanCtx : Hwkey.ChanCtx} {io : Hwkey.Io} {handled : Handled}
    (prepared : Hwkey.Prepared provider state)
    (result : hwkeyChanHandleMsg provider ifc state ctx chanCtx io = .ok handled) :
    handled.actions.filterMap issuedToken = [] ∨
      ∃ slot token, handled.actions.filterMap issuedToken = [(slot, token)] ∧
        drawToken io.env.draws .empty = .ok (.ok token) := by
  cases received : io.recv with
  | none =>
      simp only [hwkeyChanHandleMsg, received, Except.ok.injEq] at result
      subst result
      exact .inl rfl
  | some request =>
      obtain ⟨out, arg1, actions, answer, sent, -⟩ :=
        hwkeyChanHandleMsg_answered prepared received result
      rw [sent]
      cases answer with
      | derived | unsupported => exact .inl rfl
      | lookup _ outcome =>
          cases outcome with
          | named | retrieved | denied => exact .inl rfl
          | granted _ granted =>
              cases granted with
              | taken | noMemory | rngFailed => exact .inl rfl
              | issued _ _ drawn => exact .inr ⟨_, _, rfl, drawn⟩

theorem effect_issues {provider : Provider} {ifc : Hwkey.Interface} {pre post : Hwkey.State}
    {event : Hwkey.Event} {output : List Hwkey.Action}
    (effect : Effect provider ifc pre event post output)
    (prepared : Hwkey.Prepared provider pre) :
    output.filterMap issuedToken = [] ∨
      ∃ slot token, output.filterMap issuedToken = [(slot, token)] ∧
        drawToken (eventDraws event) .empty = .ok (.ok token) := by
  cases effect with
  | refused closings =>
      refine .inl (List.filterMap_eq_nil_iff.mpr ?_)
      intro action member
      obtain ⟨chan, rfl, -⟩ := closings action member
      rfl
  | opened | idle | hungUp => exact .inl rfl
  | replied _ _ _ answered => exact message_issues prepared answered
  | dropped _ _ _ answered => exact message_issues prepared answered

theorem releasedTokens_eq (next : Nat) (draws : List (Except KernelError RandomBuf))
    (actions : List Hwkey.Action) :
    releasedTokens stream next draws actions =
      (actions.filterMap issuedToken).filterMap fun (slot, _) =>
        (drawTagged stream next draws emptyToken).map (.token slot) := by
  rw [releasedTokens, List.filterMap_filterMap]
  congr 1
  funext action
  cases action <;> rfl

theorem releasedTokens_sound {next : Nat} {draws : List (Except KernelError RandomBuf)}
    {actions : List Hwkey.Action} {items : List (List TaggedByte)} (lost : Nat)
    (issues : actions.filterMap issuedToken = [] ∨
      ∃ slot token, actions.filterMap issuedToken = [(slot, token)] ∧
        drawToken draws .empty = .ok (.ok token))
    (answered : AnsweredDraws stream next draws) (separate : Separate next items) :
    Separate (next + consumed draws + lost)
        ((releasedTokens stream next draws actions).map Released.bytes ++ items) ∧
      (∀ released ∈ releasedTokens stream next draws actions, released.FromDevice stream) ∧
      (releasedTokens stream next draws actions).filterMap Released.token? =
        (actions.filterMap issuedToken).map (fun (slot, token) => (slot, token.bytes)) ∧
      (releasedTokens stream next draws actions).filterMap Released.message? = [] := by
  have later : next ≤ next + consumed draws + lost := by omega
  rw [releasedTokens_eq]
  rcases issues with none | ⟨slot, token, issued, drawn⟩
  · rw [none]
    exact ⟨separate.skip later, by simp, rfl, rfl⟩
  · obtain ⟨bytes, result, fresh⟩ :=
      drawTagged_fresh answered (by decide) emptyToken_drafted drawn
    rw [issued]
    simp only [List.filterMap_cons, List.filterMap_nil, result, Option.map_some, List.map_cons,
      List.map_nil, Released.token?, fresh.same, Released.message?, List.mem_singleton]
    refine ⟨?_, ?_, trivial, trivial⟩
    · exact (separate.release fresh.within (by omega)).skip (by omega)
    · rintro released rfl
      exact fresh.chars

inductive Performed (setup : Setup) (pre : State) : Event → State → Output → Prop
  | hwrng {event : Hwrng.Event} {lost : Addr → Nat} {hwrng : Hwrng.State}
      {actions : List Hwrng.Action} :
      (Hwrng.service setup.width).Performs ⟨pre.hwrng, event, actions, hwrng⟩ →
      Answered setup.stream lost actions pre.device →
      Performed setup pre (.hwrng event lost)
        { pre with
          hwrng := hwrng, device := (observe setup.stream lost actions pre.device).1 }
        ⟨actions, [], [], (observe setup.stream lost actions pre.device).2⟩
  | hwkey {event : Hwkey.Event} {lost : Nat} {hwkey : Hwkey.State}
      {actions : List Hwkey.Action} :
      (Hwkey.service setup.provider setup.hwkey).Performs ⟨pre.hwkey, event, actions, hwkey⟩ →
      AnsweredDraws setup.stream pre.device.next (eventDraws event) →
      Performed setup pre (.hwkey event lost)
        { pre with
          hwkey := hwkey
          device := { pre.device with
            next := pre.device.next + consumed (eventDraws event) + lost } }
        ⟨[], actions, [],
          releasedTokens setup.stream pre.device.next (eventDraws event) actions⟩
  | keybox {event : Keybox.Event} {keybox : Table Keybox.ChanCtx}
      {actions : List Keybox.Action} :
      (Keybox.service setup.keybox setup.width).Performs ⟨pre.keybox, event, actions, keybox⟩ →
      Performed setup pre (.keybox event) { pre with keybox := keybox } ⟨[], [], actions, []⟩

theorem performed_of_performs {step : Step State Event Output}
    (performs : (app setup).Performs step) :
    Performed setup step.pre step.event step.post step.output := by
  obtain ⟨pre, event, output, post⟩ := step
  obtain ⟨enabled, handled⟩ := performs
  simp only [app] at enabled handled
  cases event with
  | hwrng event lost =>
      simp only [dispatchEvent] at handled
      split at handled
      · cases handled
      next hwrng actions result =>
        obtain ⟨rfl, rfl⟩ := Prod.mk.inj (Except.ok.inj handled)
        exact .hwrng ⟨enabled.1, result⟩ (enabled.2 hwrng actions result)
  | hwkey event lost =>
      simp only [dispatchEvent] at handled
      split at handled
      · cases handled
      next hwkey actions result =>
        obtain ⟨rfl, rfl⟩ := Prod.mk.inj (Except.ok.inj handled)
        exact .hwkey ⟨enabled.1, result⟩ enabled.2
  | keybox event =>
      simp only [dispatchEvent] at handled
      split at handled
      · cases handled
      next keybox actions result =>
        obtain ⟨rfl, rfl⟩ := Prod.mk.inj (Except.ok.inj handled)
        exact .keybox ⟨enabled, result⟩

theorem services_reachable {state : State} (reached : Reachable (app setup) state) :
    Reachable (Hwrng.service setup.width) state.hwrng ∧
      Reachable (Hwkey.service setup.provider setup.hwkey) state.hwkey := by
  apply reached.rule fun state => Reachable (Hwrng.service setup.width) state.hwrng ∧
    Reachable (Hwkey.service setup.provider setup.hwkey) state.hwkey
  · exact ⟨.start, .start⟩
  · rintro ⟨pre, event, output, post⟩ before performs
    have performed : Performed setup pre event post output := performed_of_performs performs
    cases performed with
    | hwrng served => exact ⟨before.1.next served, before.2⟩
    | hwkey served => exact ⟨before.1, before.2.next served⟩
    | keybox => exact before

theorem tracked_of_reachable {state : State} (reached : Reachable (app setup) state) :
    Tracked state.device state.hwrng := by
  obtain ⟨history, run⟩ := reached
  induction run with
  | start => simp [Tracked, app, Hwrng.service, values]
  | @step history step run performs inductionHypothesis =>
      have invariant := Hwrng.queueInvariant_of_reachable (services_reachable run.reachable).1
      obtain ⟨pre, event, output, post⟩ := step
      have performed : Performed setup pre event post output := performed_of_performs performs
      cases performed with
      | hwrng served answered =>
          exact (dispatchEvent_paired invariant served.1 inductionHypothesis served.2).2 _ _
            answered
      | hwkey | keybox => exact inductionHypothesis

def releasedIn (history : List (Step State Event Output)) : List Released :=
  history.flatMap fun step => step.output.released

/-- The messages and tokens of a step, without their positions; every message was drawn
right before it was sent. -/
structure Accounted (output : Output) : Prop where
  paired : Paired output.hwrng
  messages : output.released.filterMap Released.message? = output.hwrng.filterMap sentMessage
  tokens : output.released.filterMap Released.token? =
    (output.hwkey.filterMap issuedToken).map fun (slot, token) => (slot, token.bytes)

theorem Performed.sound {pre post : State} {event : Event} {output : Output}
    {items : List (List TaggedByte)} (performed : Performed setup pre event post output)
    (reached : Reachable (app setup) pre) (separate : Separate pre.device.next items) :
    Separate post.device.next (output.released.map Released.bytes ++ items) ∧
      (∀ released ∈ output.released, released.FromDevice setup.stream) ∧ Accounted output := by
  obtain ⟨hwrngReached, hwkeyReached⟩ := services_reachable reached
  cases performed with
  | hwrng performs answered =>
      have invariant := Hwrng.queueInvariant_of_reachable hwrngReached
      obtain ⟨paired, -⟩ := dispatchEvent_paired invariant performs.1
        (tracked_of_reachable reached) performs.2
      obtain ⟨separate, fromDevice, messages, tokens⟩ := paired.released answered separate
      exact ⟨separate, fromDevice, paired, messages, tokens⟩
  | @hwkey event lost hwkey actions performs answered =>
      have prepared := (handleInvariant_of_reachable hwkeyReached).prepared
      have issues := effect_issues (effect_of_performs hwkeyReached performs) prepared
      obtain ⟨separate, fromDevice, tokens, messages⟩ :=
        releasedTokens_sound lost issues answered separate
      exact ⟨separate, fromDevice, .nil, messages, tokens⟩
  | keybox => exact ⟨separate, by simp, .nil, rfl, rfl⟩

theorem separate_of_exec {history : List (Step State Event Output)} {state : State}
    (run : Exec (app setup) history state) :
    Separate state.device.next ((releasedIn history).map Released.bytes) := by
  apply run.rule fun history state =>
    Separate state.device.next ((releasedIn history).map Released.bytes)
  · exact .nil
  · intro history step before separate performs
    have performed := performed_of_performs performs
    have kept := (performed.sound before.reachable separate).1
    rw [releasedIn, List.flatMap_cons, List.map_append]
    exact kept

/-- Over every run of the application the messages of the HWRNG service and the tokens
of the HWKEY service are made of bytes of the stream, each at the position it was drawn
from, and no two of them have a position in common.  A message consists of what was drawn
right before it was sent, and of nothing that `rng_data` held before that. -/
theorem random_bytes_never_shared {history : List (Step State Event Output)} {state : State}
    (run : Exec (app setup) history state) :
    (∀ step ∈ history, Paired step.output.hwrng ∧
      step.output.released.filterMap Released.message? =
        step.output.hwrng.filterMap sentMessage ∧
      step.output.released.filterMap Released.token? =
        (step.output.hwkey.filterMap issuedToken).map fun (slot, token) =>
          (slot, token.bytes)) ∧
      (∀ released ∈ releasedIn history, released.FromDevice setup.stream) ∧
      (releasedIn history).Pairwise (fun later earlier =>
        (positions later.bytes).Disjoint (positions earlier.bytes)) ∧
      values state.device.rngData = state.hwrng.rngData := by
  have steps : ∀ step ∈ history,
      (∀ released ∈ step.output.released, released.FromDevice setup.stream) ∧
        Accounted step.output := by
    intro step member
    obtain ⟨reached, performs⟩ := run.performed member
    exact ((performed_of_performs performs).sound reached .nil).2
  refine ⟨?_, ?_, ?_, tracked_of_reachable run.reachable⟩
  · intro step member
    obtain ⟨-, paired, messages, tokens⟩ := steps step member
    exact ⟨paired, messages, tokens⟩
  · intro released member
    obtain ⟨step, inHistory, inStep⟩ := List.mem_flatMap.mp member
    exact (steps step inHistory).1 released inStep
  · have disjoint := (separate_of_exec run).disjoint
    rwa [List.pairwise_map] at disjoint

theorem performs_of_performed {step : Step State Event Output}
    (performed : Performed setup step.pre step.event step.post step.output) :
    (app setup).Performs step := by
  obtain ⟨pre, event, output, post⟩ := step
  simp only at performed
  cases performed with
  | hwrng served answered =>
      refine ⟨⟨served.1, fun hwrng actions result => ?_⟩, ?_⟩
      · have same := served.2.symm.trans result
        obtain ⟨-, rfl⟩ := Prod.mk.inj (Except.ok.inj same)
        exact answered
      · have result := served.2
        simp only [Hwrng.service] at result
        simp [app, dispatchEvent, result]
  | hwkey served answered =>
      have result := served.2
      simp only [Hwkey.service] at result
      exact ⟨⟨served.1, answered⟩, by simp [app, dispatchEvent, result]⟩
  | keybox served =>
      have result := served.2
      simp only [Keybox.service] at result
      exact ⟨served.1, by simp [app, dispatchEvent, result]⟩

def hwkeyStep (setup : Setup) (pre : State) (served : Step Hwkey.State Hwkey.Event
    (List Hwkey.Action)) : Step State Event Output :=
  ⟨pre, .hwkey served.event 0,
    ⟨[], served.output, [],
      releasedTokens setup.stream pre.device.next (eventDraws served.event) served.output⟩,
    { pre with
      hwkey := served.post
      device := { pre.device with
        next := pre.device.next + consumed (eventDraws served.event) + 0 } }⟩

theorem hwkeyStep_exec {history : List (Step State Event Output)} {pre : State}
    {served : Step Hwkey.State Hwkey.Event (List Hwkey.Action)}
    (run : Exec (app setup) history pre) (before : served.pre = pre.hwkey)
    (performs : (Hwkey.service setup.provider setup.hwkey).Performs served)
    (answered : AnsweredDraws setup.stream pre.device.next (eventDraws served.event)) :
    Exec (app setup) (hwkeyStep setup pre served :: history) (hwkeyStep setup pre served).post := by
  have here : Exec (app setup) history (hwkeyStep setup pre served).pre := run
  apply here.step
  apply performs_of_performed
  obtain ⟨servedPre, event, output, post⟩ := served
  obtain rfl : servedPre = pre.hwkey := before
  exact .hwkey performs answered

def hwrngStep (setup : Setup) (pre : State) (served : Step Hwrng.State Hwrng.Event
    (List Hwrng.Action)) : Step State Event Output :=
  ⟨pre, .hwrng served.event fun _ => 0,
    ⟨served.output, [], [], (observe setup.stream (fun _ => 0) served.output pre.device).2⟩,
    { pre with
      hwrng := served.post
      device := (observe setup.stream (fun _ => 0) served.output pre.device).1 }⟩

theorem hwrngStep_exec {history : List (Step State Event Output)} {pre : State}
    {served : Step Hwrng.State Hwrng.Event (List Hwrng.Action)}
    (run : Exec (app setup) history pre) (before : served.pre = pre.hwrng)
    (performs : (Hwrng.service setup.width).Performs served)
    (answered : Answered setup.stream (fun _ => 0) served.output pre.device) :
    Exec (app setup) (hwrngStep setup pre served :: history) (hwrngStep setup pre served).post := by
  have here : Exec (app setup) history (hwrngStep setup pre served).pre := run
  apply here.step
  apply performs_of_performed
  obtain ⟨servedPre, event, output, post⟩ := served
  obtain rfl : servedPre = pre.hwrng := before
  exact .hwrng performs answered

/-- The device delivers zero bytes, enough for one draw, and then ones. -/
def sampleSetup : Setup :=
  ⟨64, Hwkey.twoSlots, Hwkey.smallInterface, ⟨0, 1, 4⟩,
    fun position => if position < 34 then 0 else 1⟩

def twoBytes : Hwrng.Event :=
  .chan 3 ⟨false, false, true⟩
    ⟨some 2, fun _ => some fun i => sampleSetup.stream (68 + i), fun _ => .sent⟩

theorem hwrng_performs {width : Nat} {state : Hwrng.State} {event : Hwrng.Event}
    {actions : List Hwrng.Action} (enabled : Hwrng.Enabled state event)
    (output : (Hwrng.dispatchEvent width state event).toOption.map Prod.snd = some actions) :
    ∃ post, (Hwrng.service width).Performs ⟨state, event, actions, post⟩ := by
  cases result : Hwrng.dispatchEvent width state event with
  | error halt =>
      rw [result] at output
      cases output
  | ok value =>
      obtain ⟨post, done⟩ := value
      rw [result] at output
      obtain rfl : done = actions := Option.some.inj output
      exact ⟨post, enabled, result⟩

theorem twoBytes_performs : ∃ post, (Hwrng.service 64).Performs
    ⟨Hwrng.connectStep.post, twoBytes,
      [.sent 3 [1, 1], .drew 16 [1, 1], .received 3 2], post⟩ :=
  hwrng_performs ⟨16, rfl⟩ (by decide)

/-- The positions of the token lie behind the rejected draw, those of the message
behind the token. -/
theorem random_bytes_never_shared_sample : ∃ history state,
    Exec (app sampleSetup) history state ∧
      ∃ message token, releasedIn history = [.message 3 message, .token 0 token] ∧
        values message = [1, 1] ∧ values token = List.replicate 31 1 ++ [0] ∧
        (positions message).Disjoint (positions token) := by
  obtain ⟨keyData, keyRun⟩ := Hwkey.requestStep_exec
  obtain ⟨post, served⟩ := twoBytes_performs
  cases keyRun with
  | step _ requested =>
      have initially : Exec (app sampleSetup) [] (app sampleSetup).initial := .start
      have connected := hwkeyStep_exec initially rfl Hwkey.connectStep_performs trivial
      have issued := hwkeyStep_exec connected rfl requested ⟨by decide, by decide, trivial⟩
      have opened := hwrngStep_exec issued rfl Hwrng.connectStep_performs trivial
      have run := hwrngStep_exec opened rfl served ⟨rfl, trivial⟩
      have disjoint := (random_bytes_never_shared run).2.2.1
      change List.Pairwise _ [Released.message 3 (draw sampleSetup.stream 68 2),
        .token 0 (draw sampleSetup.stream 34 31 ++ [⟨0, none⟩])] at disjoint
      refine ⟨_, _, run, draw sampleSetup.stream 68 2,
        draw sampleSetup.stream 34 31 ++ [⟨0, none⟩], rfl, by decide, by decide, ?_⟩
      rwa [List.pairwise_pair] at disjoint

end TrustyApp.Hwcrypto
