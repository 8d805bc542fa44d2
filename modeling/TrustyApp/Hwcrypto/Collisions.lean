import TrustyApp.Hwcrypto.Randomness
import TrustyApp.Hwkey.Statuses

/-!
# Tokens of the fake RNG

With the counter of `hwrng_srv_fake_provider.c` tokens that are drawn at different
places of its period start with different bytes, but for the zero that is skipped.
Two handles are the same when the bytes that both services have drawn in between are a
multiple of the period; nothing checks a new token against the live ones.
-/

namespace TrustyApp.Hwcrypto

open Hwkey Ipc Provenance Reactive

variable {setup : Setup} {provider : Provider} {ifc : Hwkey.Interface}
  {draws : List (Except KernelError RandomBuf)} {token : AccessToken} {next : Nat}

/-- The device is that of the fake provider: the counter starts at 1. -/
def FakeRng (setup : Setup) : Prop :=
  ∀ position len, values (draw setup.stream position len) =
    (Hwrng.hwrngDevGetRngData setup.width ((position + 1) % 2 ^ setup.width) len).1

theorem FakeRng.values_draw (fake : FakeRng setup) (wide : 8 ≤ setup.width) (position len : Nat) :
    values (draw setup.stream position len) = Hwrng.counterBytes (position + 1) len := by
  rw [fake, Hwrng.hwrngDevGetRngData_bytes wide]
  exact Hwrng.counterBytes_congr (Hwrng.mod_two_pow_mod wide) len

/-- A new token starts with the next byte of the counter that is not zero. -/
theorem head?_drawToken (fake : FakeRng setup) (wide : 8 ≤ setup.width)
    (answered : AnsweredDraws setup.stream next draws)
    (drawn : drawToken draws .empty = .ok (.ok token)) :
    token.bytes.head? = some (Hwrng.leadByte (next + 1)) := by
  cases draws with
  | nil => cases drawn
  | cons result draws =>
      cases result with
      | error rc => cases drawn
      | ok buf =>
          have bytes : buf.bytes = Hwrng.counterBytes (next + 1) (hwkeyOpaqueHandleSize + 2) := by
            rw [answered.1, buf.size, fake.values_draw wide]
          have sufficient : buf.Sufficient := by
            apply sufficient_of_counter wide
            rw [bytes, Hwrng.hwrngDevGetRngData_bytes wide]
          rw [drawToken_sufficient sufficient] at drawn
          obtain rfl := Except.ok.inj (Except.ok.inj drawn)
          have head := Hwrng.head?_filter_counterBytes (next + 1) hwkeyOpaqueHandleSize
          rw [← bytes] at head
          rw [RandomBuf.accessToken, List.head?_append, List.head?_take, head]
          rfl

/-- The message asks for a handle to a slot that has none, and there is memory for it. -/
def AsksForHandle (provider : Provider) (ifc : Hwkey.Interface) (state : Hwkey.State)
    (uuid : Uuid) (io : Hwkey.Io) : Prop :=
  ∃ request slot handle, io.recv = some request ∧ request.cmd = ifc.getKeyslot ∧
    namedSlot provider.keySlots uuid request.id = some (slot, .getKeyHandle handle) ∧
    (∀ entry ∈ state.opaqueHandles, entry.keySlot ≠ slot) ∧ io.env.calloc = true

theorem message_adds {state : Hwkey.State} {ctx : Addr} {chanCtx : Hwkey.ChanCtx}
    {io : Hwkey.Io} {handled : Handled} (prepared : Hwkey.Prepared provider state)
    (result : hwkeyChanHandleMsg provider ifc state ctx chanCtx io = .ok handled) :
    handled.state.opaqueHandles = state.opaqueHandles ∨
      AsksForHandle provider ifc state chanCtx.uuid io ∧
        ∃ slot token, drawToken io.env.draws .empty = .ok (.ok token) ∧
          handled.state.opaqueHandles = state.opaqueHandles ++ [⟨slot, ctx, token⟩] := by
  cases received : io.recv with
  | none =>
      simp only [hwkeyChanHandleMsg, received, Except.ok.injEq] at result
      subst result
      exact .inl rfl
  | some request =>
      by_cases get : request.cmd = ifc.getKeyslot
      · obtain ⟨found, rsp, outcome, -, -, -, rfl⟩ :=
          getKeyslot_answered prepared received get result
        cases outcome with
        | named | retrieved | denied => exact .inl rfl
        | granted named granted =>
            cases granted with
            | taken | noMemory | rngFailed => exact .inl rfl
            | @issued token absent allocated drawn _ =>
                exact .inr ⟨⟨request, _, _, received, get, named, absent, allocated⟩,
                  _, token, drawn, rfl⟩
      · have change := (hwkeyChanHandleMsg_replied prepared result).handles
        obtain ⟨out, arg1, actions, answer, sent, -⟩ :=
          hwkeyChanHandleMsg_answered prepared received result
        have only : handled.actions.filterMap issuedToken = [] := by
          rw [sent]
          cases answer with
          | lookup isGet => exact absurd isGet get
          | derived | unsupported => rfl
        generalize handled.actions = done at change only
        generalize handled.state.opaqueHandles = handles at change
        cases change with
        | kept => exact .inl rfl
        | added => cases only

def Distinct (handles : List OpaqueHandleNode) : Prop :=
  Grants.Exclusive OpaqueHandleNode.token handles

theorem Distinct.closeSession {state : Hwkey.State} {ctx : Addr} {chanCtx : Hwkey.ChanCtx}
    (distinct : Distinct state.opaqueHandles) :
    Distinct (state.closeSession ctx chanCtx).opaqueHandles := by
  rw [State.closeSession, deleteHandlesOf_eq_revoke]
  exact Grants.Exclusive.revoke distinct

def DrawsFresh (provider : Provider) (ifc : Hwkey.Interface) (state : Hwkey.State)
    (event : Hwkey.Event) : Prop :=
  OnMessage (AsksForHandle provider ifc state) state event →
    ∀ token, drawToken (eventDraws event) .empty = .ok (.ok token) →
      ∀ entry ∈ state.opaqueHandles, entry.token ≠ token

theorem message_distinct {state : Hwkey.State} {ctx : Addr} {chanCtx : Hwkey.ChanCtx}
    {bits : Bits} {io : Hwkey.Io} {handled : Handled}
    (invariant : HandleInvariant provider state) (distinct : Distinct state.opaqueHandles)
    (fresh : DrawsFresh provider ifc state (.chan chanCtx.chan bits io))
    (hup : bits.hup = false) (msg : bits.msg = true)
    (live : state.conns.ctxs ctx = some chanCtx)
    (result : hwkeyChanHandleMsg provider ifc state ctx chanCtx io = .ok handled) :
    Distinct handled.state.opaqueHandles := by
  rcases message_adds invariant.prepared result with same | ⟨asks, slot, token, drawn, added⟩
  · rw [same]
    exact distinct
  · rw [added]
    apply Grants.Exclusive.append distinct
    exact fresh ((onMessage_iff invariant hup msg live).mpr asks) token drawn

theorem Effect.distinct {pre post : Hwkey.State} {event : Hwkey.Event}
    {output : List Hwkey.Action} (effect : Effect provider ifc pre event post output)
    (invariant : HandleInvariant provider pre) (distinct : Distinct pre.opaqueHandles)
    (fresh : DrawsFresh provider ifc pre event) : Distinct post.opaqueHandles := by
  cases effect with
  | refused | opened | idle => exact distinct
  | hungUp => exact distinct.closeSession
  | replied hup msg live answered =>
      exact message_distinct invariant distinct fresh hup msg live answered
  | dropped hup msg live answered =>
      exact (message_distinct invariant distinct fresh hup msg live answered).closeSession

/-- A handle is asked for while the counter is about to deliver the first byte of a live
token. -/
def Collides (setup : Setup) (state : State) : Event → Prop
  | .hwkey event _ =>
      OnMessage (AsksForHandle setup.provider setup.hwkey state.hwkey) state.hwkey event ∧
        ∃ entry ∈ state.hwkey.opaqueHandles,
          entry.token.bytes.head? = some (Hwrng.leadByte (state.device.next + 1))
  | _ => False

theorem distinct_of_exec {history : List (Step State Event Output)} {state : State}
    (fake : FakeRng setup) (wide : 8 ≤ setup.width) (run : Exec (app setup) history state)
    (apart : ∀ step ∈ history, ¬ Collides setup step.pre step.event) :
    Distinct state.hwkey.opaqueHandles := by
  induction run with
  | start => exact Grants.Exclusive.nil
  | @step history step run performs inductionHypothesis =>
      obtain ⟨here, earlier⟩ := List.forall_mem_cons.mp apart
      have before := inductionHypothesis earlier
      have reached := (services_reachable run.reachable).2
      have invariant := handleInvariant_of_reachable reached
      obtain ⟨pre, event, output, post⟩ := step
      have performed : Performed setup pre event post output := performed_of_performs performs
      cases performed with
      | hwrng | keybox => exact before
      | @hwkey event lost hwkey actions served answered =>
          apply Effect.distinct (effect_of_performs reached served) invariant before
          intro asks token drawn entry member same
          have head := head?_drawToken fake wide answered drawn
          rw [← same] at head
          exact here ⟨asks, entry, member, head⟩

/-- A token that no other live entry has opens the key of its own slot. -/
theorem Distinct.getOpaqueKey_eq {slots : List KeySlot} {handles : List OpaqueHandleNode}
    {entry : OpaqueHandleNode} {handle : OpaqueHandleData} {uuid : Uuid}
    (distinct : Distinct handles) (sound : SoundHandles slots handles) (member : entry ∈ handles)
    (data : opaqueData slots entry.keySlot = some handle) (allowed : uuid ∈ handle.allowedUuids)
    (env : Env) (kbuf : List UInt8) (klen : Nat) :
    getOpaqueKey slots env handles uuid entry.token.bytes kbuf klen handles = (do
      let out ← handle.retriever.call env kbuf klen
      .ok ⟨out, handles, [.retrieved entry.keySlot]⟩) := by
  have wellFormed := (sound entry member).1
  have opened : openHandle slots handles uuid entry.token.chars = some entry := by
    apply Grants.redeem_of_mem member (mayRead_eq_true.mpr ⟨handle, data, allowed⟩)
    intro other otherMember same
    apply Grants.Exclusive.unique distinct otherMember member
    exact (sound other otherMember).1.ext wellFormed same
  rw [Hwkey.getOpaqueKey_eq sound entry.token.size.ge, wellFormed.cstr_eq, opened]
  simp only [retrieve, data]

/-- In every run with the fake RNG in which no handle is asked for at such a time, the
live tokens are different, and a token that is presented by a client that may use it
yields the key of the slot it was issued for. -/
theorem live_tokens_distinct {history : List (Step State Event Output)} {state : State}
    (fake : FakeRng setup) (wide : 8 ≤ setup.width) (run : Exec (app setup) history state)
    (apart : ∀ step ∈ history, ¬ Collides setup step.pre step.event) :
    (state.hwkey.opaqueHandles.map OpaqueHandleNode.token).Nodup ∧
      ∀ entry ∈ state.hwkey.opaqueHandles, ∀ handle,
        opaqueData setup.provider.keySlots entry.keySlot = some handle →
        ∀ uuid ∈ handle.allowedUuids, ∀ env kbuf klen,
          getOpaqueKey setup.provider.keySlots env state.hwkey.opaqueHandles uuid
              entry.token.bytes kbuf klen state.hwkey.opaqueHandles = (do
            let out ← handle.retriever.call env kbuf klen
            .ok ⟨out, state.hwkey.opaqueHandles, [.retrieved entry.keySlot]⟩) := by
  have distinct := distinct_of_exec fake wide run apart
  have reached := (services_reachable run.reachable).2
  have sound := (handleInvariant_of_reachable reached).prepared.sound
  refine ⟨distinct, ?_⟩
  intro entry member handle data uuid allowed env kbuf klen
  exact distinct.getOpaqueKey_eq sound member data allowed env kbuf klen

def counterStream (position : Nat) : UInt8 := UInt8.ofNat (position + 1)

theorem values_draw_counterStream (position len : Nat) :
    values (draw counterStream position len) = Hwrng.counterBytes (position + 1) len := by
  induction len generalizing position with
  | zero => rfl
  | succ len inductionHypothesis =>
      rw [values_draw_succ, inductionHypothesis]
      rfl

/-- A build with two encryption keys, and the fake RNG. -/
def twoKeysSetup : Setup :=
  ⟨64, fakeProvider ⟨none, none, some (List.replicate 16 7), some (List.replicate 16 9), false⟩,
    smallInterface, ⟨0, 1, 4⟩, counterStream⟩

theorem twoKeysSetup_fakeRng : FakeRng twoKeysSetup := by
  intro position len
  have wide : 8 ≤ twoKeysSetup.width := by decide
  rw [Hwrng.hwrngDevGetRngData_bytes wide,
    Hwrng.counterBytes_congr (Hwrng.mod_two_pow_mod wide)]
  exact values_draw_counterStream position len

def otherEncryptRequest : Request :=
  ⟨smallInterface.getKeyslot, 8, 0, otherEncryptKeyId.chars, by decide⟩

theorem otherEncryptRequest_firstSlot (key other : List UInt8) :
    FirstSlot (keys ⟨none, none, some key, some other, false⟩) apploaderUuid
      otherEncryptRequest.id 3
      (.getKeyHandle ⟨apploaderAllowedOpaqueKeyUuids, getApploaderKeyOpaque other⟩) := by
  have id : otherEncryptRequest.id = otherEncryptKeyId.chars :=
    Bytes.cstr_eq_self otherEncryptKeyId.noNul
  constructor
  · rw [keys_unsigned]
    refine ⟨apploaderEncryptSlot otherEncryptKeyId other, rfl, ?_⟩
    simp [KeySlot.answering, apploaderEncryptSlot, id]
  · intro j slot before at_
    by_cases early : j < 2
    · exact keys_unsigned_before early at_ _
    · obtain rfl : j = 2 := by omega
      rw [keys_unsigned] at at_
      have first : apploaderEncryptSlot encryptKeyId key = slot := Option.some.inj at_
      have differ : encryptKeyId.chars ≠ otherEncryptKeyId.chars := by decide
      simp [← first, KeySlot.answering, apploaderEncryptSlot, id, differ]

def counterBuf (counter : Nat) : RandomBuf :=
  ⟨Hwrng.counterBytes counter (hwkeyOpaqueHandleSize + 2), Hwrng.length_counterBytes _ _⟩

theorem counterBuf_sufficient (counter : Nat) : (counterBuf counter).Sufficient := by
  have wide : 8 ≤ 64 := by decide
  apply sufficient_of_counter wide
  rw [Hwrng.hwrngDevGetRngData_bytes wide]
  rfl

def counterToken (counter : Nat) : AccessToken :=
  (counterBuf counter).accessToken (counterBuf_sufficient counter)

theorem drawToken_counterBuf (counter : Nat) :
    drawToken [.ok (counterBuf counter)] .empty = .ok (.ok (counterToken counter)) :=
  drawToken_sufficient (counterBuf_sufficient counter)

theorem counterToken_period (counter : Nat) :
    counterToken (counter + 256) = counterToken counter := by
  apply AccessToken.ext_bytes
  have bytes : (counterBuf (counter + 256)).bytes = (counterBuf counter).bytes :=
    Hwrng.counterBytes_congr (Nat.add_mod_right counter 256) _
  simp only [counterToken, RandomBuf.accessToken, bytes]

def drawingIo (request : Request) (counter : Nat) : Hwkey.Io :=
  ⟨some request, ⟨[], Nat.zero_le _⟩,
    ⟨true, [.ok (counterBuf counter)], successfulOutcomes⟩, true⟩

def takeBytes (len : UInt32) : Hwrng.Event :=
  .chan 3 ⟨false, false, true⟩
    ⟨some len, fun _ => some fun i => counterStream (34 + i), fun _ => .sent⟩

def takenBytes (len : UInt32) : List UInt8 :=
  (List.range len.toNat).map fun i => counterStream (34 + i)

structure Taken (len : UInt32) : Prop where
  performs : ∃ post, (Hwrng.service 64).Performs ⟨Hwrng.connectStep.post, takeBytes len,
    [.sent 3 (takenBytes len), .drew 16 (takenBytes len), .received 3 len.toNat], post⟩
  fromDevice : takenBytes len = values (draw counterStream 34 (takenBytes len).length)

theorem drawing_performs {state : Hwkey.State} {uuid : Uuid} {request : Request} {slot : Nat}
    {handle : OpaqueHandleData} (counter : Nat) (prepared : Hwkey.Prepared provider state)
    (attached : state.conns.chans 3 = .attached 16) (live : state.conns.ctxs 16 = some ⟨3, uuid⟩)
    (cmd : request.cmd = ifc.getKeyslot)
    (firstSlot : FirstSlot provider.keySlots uuid request.id slot (.getKeyHandle handle))
    (free : ∀ entry ∈ state.opaqueHandles, entry.keySlot ≠ slot) :
    ∃ actions post, (Hwkey.service provider ifc).Performs
        ⟨state, .chan 3 ⟨false, true⟩ (drawingIo request counter), actions, post⟩ ∧
      post.conns = state.conns ∧
      post.opaqueHandles = state.opaqueHandles ++ [⟨slot, 16, counterToken counter⟩] := by
  obtain ⟨keyData, result⟩ := @getKeyslot_issued provider ifc state 16 ⟨3, uuid⟩
    (drawingIo request counter) request prepared rfl cmd slot handle (counterToken counter)
    firstSlot.namedSlot_eq free rfl (drawToken_counterBuf counter)
  exact ⟨_, _, message_performs attached live rfl result rfl, rfl, rfl⟩

theorem answered_drawing (request : Request) {counter : Nat} (now : counter = next + 1) :
    AnsweredDraws counterStream next
      (eventDraws (.chan 3 ⟨false, true⟩ (drawingIo request counter))) := by
  rw [now]
  exact ⟨(values_draw_counterStream next _).symm, trivial⟩

theorem firstHandle_exec : ∃ history state, Exec (app twoKeysSetup) history state ∧
    (∀ step ∈ history, ¬ Collides twoKeysSetup step.pre step.event) ∧
    state.hwrng = (Hwrng.service 64).initial ∧ state.device.next = 34 ∧
    state.hwkey.conns.chans 3 = .attached 16 ∧
    state.hwkey.conns.ctxs 16 = some ⟨3, apploaderUuid⟩ ∧
    state.hwkey.opaqueHandles = [⟨2, 16, counterToken 1⟩] := by
  have allowed : twoKeysSetup.provider.hwkeyClientAllowed apploaderUuid = true := by decide
  have connects : (Hwkey.service twoKeysSetup.provider twoKeysSetup.hwkey).Performs
      (clientStep _ _ apploaderUuid) := clientStep_performs allowed
  have initially : Exec (app twoKeysSetup) [] (app twoKeysSetup).initial := .start
  have connected := hwkeyStep_exec initially rfl connects trivial
  have invariant := handleInvariant_of_reachable (services_reachable connected.reachable).2
  obtain ⟨actions, post, requested, conns, handles⟩ := drawing_performs 1 invariant.prepared rfl
    rfl (show encryptRequest.cmd = twoKeysSetup.hwkey.getKeyslot from rfl)
    (encryptRequest_firstSlot _ _) (fun _ member => by cases member)
  have issued := hwkeyStep_exec connected rfl requested (answered_drawing encryptRequest rfl)
  refine ⟨_, _, issued, ?_, rfl, rfl, ?_, ?_, handles⟩
  · intro step member
    rcases List.mem_cons.mp member with rfl | member
    · rintro ⟨-, entry, inHandles, -⟩
      cases inHandles
    · obtain rfl := List.mem_singleton.mp member
      rintro ⟨asks, -⟩
      exact asks
  · exact (congrArg (fun conns => conns.chans 3) conns).trans rfl
  · exact (congrArg (fun conns => conns.ctxs 16) conns).trans rfl

theorem secondHandle_exec {len : UInt32} (taken : Taken len) :
    ∃ history state, Exec (app twoKeysSetup) history state ∧
      (Hwrng.leadByte (35 + len.toNat) ≠ 1 →
        ∀ step ∈ history, ¬ Collides twoKeysSetup step.pre step.event) ∧
      state.hwkey.opaqueHandles =
        [⟨2, 16, counterToken 1⟩, ⟨3, 16, counterToken (35 + len.toNat)⟩] := by
  obtain ⟨history, state, run, apart, hwrng, position, attached, live, handles⟩ :=
    firstHandle_exec
  obtain ⟨⟨served, serves⟩, fromDevice⟩ := taken
  rw [← position] at fromDevice
  have opened := hwrngStep_exec run hwrng.symm Hwrng.connectStep_performs trivial
  have drained := hwrngStep_exec opened rfl serves ⟨fromDevice, trivial⟩
  have invariant := handleInvariant_of_reachable (services_reachable drained.reachable).2
  have free : ∀ entry ∈ state.hwkey.opaqueHandles, entry.keySlot ≠ 3 := by
    rw [handles]
    simp
  obtain ⟨actions, post, requested, -, added⟩ := drawing_performs (35 + len.toNat)
    invariant.prepared attached live
    (show otherEncryptRequest.cmd = twoKeysSetup.hwkey.getKeyslot from rfl)
    (otherEncryptRequest_firstSlot _ _) free
  have counter : 35 + len.toNat = state.device.next + (takenBytes len).length + 1 := by
    simp [position, takenBytes]
    omega
  have issued := hwkeyStep_exec drained rfl requested
    (answered_drawing otherEncryptRequest counter)
  refine ⟨_, _, issued, ?_, added.trans (congrArg (· ++ _) handles)⟩
  intro differ step member
  rcases List.mem_cons.mp member with rfl | member
  · rintro ⟨-, entry, inHandles, head⟩
    obtain rfl : entry = ⟨2, 16, counterToken 1⟩ := by
      simpa [handles] using (show entry ∈ state.hwkey.opaqueHandles from inHandles)
    have first := head?_drawToken twoKeysSetup_fakeRng (by decide)
      (answered_drawing encryptRequest (Nat.zero_add 1).symm) (drawToken_counterBuf 1)
    have next : some (Hwrng.leadByte (0 + 1)) = some (Hwrng.leadByte (35 + len.toNat)) := by
      rw [counter]
      exact first.symm.trans head
    exact differ (Option.some.inj next).symm
  · rcases List.mem_cons.mp member with rfl | member
    · exact not_false
    · rcases List.mem_cons.mp member with rfl | member
      · exact not_false
      · exact apart step member

/-- With 223 bytes in between the second token starts one byte later than the first, and
opens the second key. -/
theorem live_tokens_distinct_twoHandles :
    ∃ state, Reachable (app twoKeysSetup) state ∧
      state.hwkey.opaqueHandles = [⟨2, 16, counterToken 1⟩, ⟨3, 16, counterToken 258⟩] ∧
      (state.hwkey.opaqueHandles.map OpaqueHandleNode.token).Nodup ∧
      ∀ env kbuf klen,
        getOpaqueKey twoKeysSetup.provider.keySlots env state.hwkey.opaqueHandles hwaesUuid
            (counterToken 258).bytes kbuf klen state.hwkey.opaqueHandles = (do
          let out ← (getApploaderKeyOpaque (List.replicate 16 9)).call env kbuf klen
          .ok ⟨out, state.hwkey.opaqueHandles, [.retrieved 3]⟩) := by
  have taken : Taken 223 := ⟨hwrng_performs ⟨16, rfl⟩ (by decide +kernel), by decide +kernel⟩
  obtain ⟨history, state, run, apart, handles⟩ := secondHandle_exec taken
  obtain ⟨distinct, opens⟩ :=
    live_tokens_distinct twoKeysSetup_fakeRng (by decide) run (apart (by decide))
  refine ⟨state, run.reachable, handles, distinct, ?_⟩
  have second : ⟨3, 16, counterToken 258⟩ ∈ state.hwkey.opaqueHandles := by simp [handles]
  exact opens _ second ⟨apploaderAllowedOpaqueKeyUuids, getApploaderKeyOpaque _⟩ rfl hwaesUuid
    List.mem_cons_self

/-- The apploader gets handles to both of its keys, and another client takes the rest of a
period in between: the handles are the same. -/
theorem handles_collide : FakeRng twoKeysSetup ∧ ∃ state, Reachable (app twoKeysSetup) state ∧
    state.hwkey.opaqueHandles = [⟨2, 16, counterToken 1⟩, ⟨3, 16, counterToken 1⟩] ∧
    ¬ (state.hwkey.opaqueHandles.map OpaqueHandleNode.token).Nodup := by
  have taken : Taken 222 := ⟨hwrng_performs ⟨16, rfl⟩ (by decide +kernel), by decide +kernel⟩
  obtain ⟨history, state, run, -, handles⟩ := secondHandle_exec taken
  have both : state.hwkey.opaqueHandles = [⟨2, 16, counterToken 1⟩, ⟨3, 16, counterToken 1⟩] := by
    rw [← counterToken_period 1]
    exact handles
  refine ⟨twoKeysSetup_fakeRng, _, run.reachable, both, ?_⟩
  simp [both]

end TrustyApp.Hwcrypto
