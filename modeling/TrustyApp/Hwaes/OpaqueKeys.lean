import TrustyApp.Hwaes.RoundTrip
import TrustyApp.Hwkey.Responses

/-!
# Opaque keys

A request with an opaque handle is served with a key that the HWKEY service hands out
for it.  The two services meet in the client library: what it gets from the HWKEY
service is the service's own response to a session of the HWAES service.
-/

namespace TrustyApp.Hwaes

open Reactive
open Hwkey (BuildConfig KeySlot OpaqueHandleNode OpaqueHandleData KeyOut fakeProvider hwaesUuid
  keys namedSlot openHandle Opens Prepared)

variable {hwkeyIfc : Hwkey.Interface} {state : Hwkey.State} {id key : List UInt8}

/-- A session of the HWAES service with the HWKEY service, and what happens while its
request is handled.  The response is sent. -/
structure Exchange where
  ctx : Ipc.Addr
  chan : Ipc.Handle
  opId : UInt32
  arg1 : UInt32
  env : Hwkey.Env

def Exchange.request (ifc : Hwkey.Interface) (exchange : Exchange)
    (fits : id.length ≤ Hwkey.hwkeyMaxPayloadSize) : Hwkey.Request :=
  ⟨ifc.getKeyslot, exchange.opId, exchange.arg1, id, fits⟩

def Exchange.io (ifc : Hwkey.Interface) (exchange : Exchange)
    (fits : id.length ≤ Hwkey.hwkeyMaxPayloadSize) : Hwkey.Io :=
  ⟨some (exchange.request ifc fits), ⟨[], Nat.zero_le _⟩, exchange.env, true⟩

/-- The response to a request for `id`.  There is none to a message that is too long or
that stops the service. -/
def Exchange.response (cfg : BuildConfig) (ifc : Hwkey.Interface) (state : Hwkey.State)
    (exchange : Exchange) (id : List UInt8) : Option Hwkey.Response :=
  if fits : id.length ≤ Hwkey.hwkeyMaxPayloadSize then
    match Hwkey.hwkeyChanHandleMsg (fakeProvider cfg) ifc state exchange.ctx
        ⟨exchange.chan, hwaesUuid⟩ (exchange.io ifc fits) with
    | .error _ => none
    | .ok handled =>
        (handled.actions.filterMap Hwkey.Action.response?).head?.map Prod.snd
  else none

/-- What the client library makes of a response. -/
structure Serves (client : HwkeyClient) (response : List UInt8 → Option Hwkey.Response) :
    Prop where
  delivers : ∀ {id room rsp}, response id = some rsp → rsp.status = .noError →
    rsp.payload.length ≤ room → client.hwkeyGetKeyslotData id room = some rsp.payload
  fails : ∀ {id room}, (∀ rsp, response id = some rsp →
    rsp.status ≠ .noError ∨ room < rsp.payload.length) → client.hwkeyGetKeyslotData id room = none

/-- `id` is the token of a handle whose slot allows the HWAES service, and the retriever
of the first such handle yields the key. -/
structure Redeems (cfg : BuildConfig) (state : Hwkey.State) (env : Hwkey.Env)
    (id key : List UInt8) : Prop where
  handle : ∃ before entry after handle out,
    state.opaqueHandles = before ++ entry :: after ∧ Opens (keys cfg) hwaesUuid id entry handle ∧
    (∀ other ∈ before, ∀ data, ¬ Opens (keys cfg) hwaesUuid id other data) ∧
    handle.retriever.run env.outcomes state.keyData 0 = .ok out ∧ out.status = .noError ∧
    out.kbuf.take out.klen = key

theorem keys_uuid (cfg : BuildConfig) : ∀ slot ∈ keys cfg, slot.uuid ≠ hwaesUuid := by
  have unittest : ∀ slot ∈ Hwkey.unittestSlots, slot.uuid ≠ hwaesUuid := by
    simp only [Hwkey.unittestSlots, List.forall_mem_cons]
    decide
  intro slot member
  simp only [keys, List.mem_append, List.mem_cons, List.not_mem_nil, or_false,
    Option.mem_toList, Option.map_eq_some_iff] at member
  rcases member with ((((device | ⟨sign, -, rfl⟩) | ⟨sign, -, rfl⟩) | ⟨key, -, rfl⟩) |
    ⟨key, -, rfl⟩) | member
  · rcases device with rfl | rfl
    · decide
    · decide
  · exact (by decide : Hwkey.apploaderUuid ≠ hwaesUuid)
  · exact (by decide : Hwkey.apploaderUuid ≠ hwaesUuid)
  · exact (by decide : Hwkey.apploaderUuid ≠ hwaesUuid)
  · exact (by decide : Hwkey.apploaderUuid ≠ hwaesUuid)
  · split at member
    · exact unittest slot member
    · cases member

theorem namedSlot_hwaesUuid (cfg : BuildConfig) (id : List UInt8) :
    namedSlot (keys cfg) hwaesUuid id = none := by
  apply Hwkey.namedSlot_eq_none
  intro slot member
  rw [KeySlot.answering, if_neg]
  rintro ⟨-, own⟩
  exact keys_uuid cfg slot member own

section Responses

variable {cfg : BuildConfig} {exchange : Exchange} {rsp : Hwkey.Response}

theorem Exchange.request_id (noNul : 0 ∉ id) (fits : id.length ≤ Hwkey.hwkeyMaxPayloadSize) :
    (exchange.request hwkeyIfc fits).id = id := Bytes.cstr_eq_self noNul

/-- A lookup for the HWAES service only looks at the handles. -/
theorem Exchange.handled_eq (prepared : Prepared (fakeProvider cfg) state) (noNul : 0 ∉ id)
    (fits : id.length ≤ Hwkey.hwkeyMaxPayloadSize) {entry : OpaqueHandleNode}
    (opened : openHandle (keys cfg) state.opaqueHandles hwaesUuid id = some entry) :
    Hwkey.hwkeyChanHandleMsg (fakeProvider cfg) hwkeyIfc state exchange.ctx
        ⟨exchange.chan, hwaesUuid⟩ (exchange.io hwkeyIfc fits) =
      Hwkey.retrieve (keys cfg) exchange.env state.opaqueHandles entry state.keyData 0 >>=
        Hwkey.respond hwkeyIfc state ⟨exchange.chan, hwaesUuid⟩ (exchange.request hwkeyIfc fits)
          true := by
  rw [Hwkey.hwkeyChanHandleMsg_getKeyslot (show (exchange.io hwkeyIfc fits).recv =
      some (exchange.request hwkeyIfc fits) from rfl) rfl,
    Hwkey.handleSlots_eq prepared.sound (prepared.long _),
    Hwkey.cstr_slotIdOf _ prepared.reqData, request_id noNul fits, Hwkey.answerFor]
  simp only [fakeProvider, namedSlot_hwaesUuid, opened]
  rfl

theorem handled_of_redeems (ifc : Hwkey.Interface) (prepared : Prepared (fakeProvider cfg) state) (noNul : 0 ∉ id)
    (fits : id.length ≤ Hwkey.hwkeyMaxPayloadSize)
    (redeems : Redeems cfg state exchange.env id key) :
    ∃ rsp slot reqData keyData, Hwkey.hwkeyChanHandleMsg (fakeProvider cfg) ifc state
        exchange.ctx ⟨exchange.chan, hwaesUuid⟩ (exchange.io ifc fits) =
          .ok ⟨{ state with reqData, keyData },
            [.responded exchange.chan rsp true, .retrieved slot], true⟩ ∧
      rsp.status = .noError ∧ rsp.payload = key := by
  obtain ⟨before, entry, after, handle, out, split, opens, first, ran, succeeded, rfl⟩ :=
    redeems.handle
  have opened : openHandle (keys cfg) state.opaqueHandles hwaesUuid id = some entry := by
    rw [split]
    exact Hwkey.openHandle_of_first opens first
  have retriever := Hwkey.opaqueData_rule (Hwkey.fakeProvider_fromRepository cfg).slots opens.2.1
  obtain ⟨leaks, -, delivered⟩ := retriever.delivered prepared.keyData ran
  have room : ¬ out.kbuf.length < out.klen := by
    rw [handle.retriever.keepsSize ran]
    exact not_lt.mpr delivered.reported.1
  let rsp := Hwkey.responseFor ifc (exchange.request ifc fits) out exchange.arg1
  have sends : Hwkey.hwkeySendRsp ifc (exchange.request ifc fits) out.status
      (exchange.request ifc fits).arg1 out.kbuf out.klen = .ok rsp := if_neg room
  refine ⟨rsp, entry.keySlot, Hwkey.slotIdOf state.reqData (exchange.request ifc fits),
    Hwkey.sanitize out.kbuf out.klen, ?_, succeeded, rfl⟩
  rw [Exchange.handled_eq prepared noNul fits opened]
  simp only [Hwkey.retrieve, opens.2.1, Hwkey.KeyFn.call, ran, ok_bind, Hwkey.respond, sends]

theorem response_of_redeems (prepared : Prepared (fakeProvider cfg) state) (noNul : 0 ∉ id)
    (redeems : Redeems cfg state exchange.env id key) :
    ∃ rsp, exchange.response cfg hwkeyIfc state id = some rsp ∧ rsp.status = .noError ∧
      rsp.payload = key := by
  have fits : id.length ≤ Hwkey.hwkeyMaxPayloadSize := by
    obtain ⟨_, entry, _, _, _, _, opens, -⟩ := redeems.handle
    rw [← opens.1, entry.token.length_chars]
    decide
  obtain ⟨rsp, slot, reqData, keyData, handled, succeeded, payload⟩ :=
    handled_of_redeems hwkeyIfc prepared noNul fits redeems
  refine ⟨rsp, ?_, succeeded, payload⟩
  simp only [Exchange.response, dif_pos fits, handled]
  rfl

theorem redeems_of_response (prepared : Prepared (fakeProvider cfg) state) (noNul : 0 ∉ id)
    (responds : exchange.response cfg hwkeyIfc state id = some rsp)
    (succeeded : rsp.status = .noError) : Redeems cfg state exchange.env id rsp.payload := by
  unfold Exchange.response at responds
  split at responds
  next fits =>
    split at responds
    · cases responds
    next handled answered =>
      obtain ⟨found, other, outcome, -, status, payload, rfl⟩ := Hwkey.getKeyslot_answered prepared
        (show (exchange.io hwkeyIfc fits).recv = some (exchange.request hwkeyIfc fits) from rfl)
        rfl answered
      obtain rfl : other = rsp := by
        simpa [Hwkey.Action.response?] using responds
      rw [Exchange.request_id noNul fits] at outcome
      rw [status] at succeeded
      cases outcome with
      | named named | granted named =>
          rw [show (fakeProvider cfg).keySlots = keys cfg from rfl, namedSlot_hwaesUuid] at named
          cases named
      | denied => cases succeeded
      | retrieved _ opened data called =>
          obtain ⟨before, after, handle, split, opens, first⟩ := Hwkey.openHandle_eq_some opened
          obtain rfl := Option.some.inj (data.symm.trans opens.2.1)
          exact ⟨before, _, after, _, _, split, opens, first, Hwkey.KeyFn.call_eq_ok called,
            succeeded, payload.symm⟩
  next => cases responds

end Responses

section Requests

variable {evp : Evp.Library} {ctx : evp.Ctx} {ifc : Interface} {client : HwkeyClient}
  {args : Args}

def Args.withPlainKey (args : Args) (key : List UInt8) : Args :=
  { args with keyType := .other, key := .pointer key }

/-- The request fails and nothing is written. -/
def Rejects (ifc : Interface) (client : HwkeyClient) (ctx : evp.Ctx) (args : Args) : Prop :=
  ∃ rc, rc ≠ .noError ∧ hwaesAesOp ifc client ctx args = .ok ⟨rc, ctx, args.textOut, args.tagOut⟩

structure HoldsHandle (ifc : Interface) (args : Args) : Prop where
  keyType : args.keyType = .opaqueHandle
  short : args.key.len ≤ ifc.opaqueHandleMaxSize
  terminated : args.key.bytes.getLast? = some 0

def Args.handle (args : Args) : List UInt8 := Bytes.cstr args.key.bytes

theorem HoldsHandle.present (holds : HoldsHandle ifc args) : args.key.Present := by
  have terminated := holds.terminated
  apply present_iff.mpr
  cases keyIs : args.key with
  | null len => simp [keyIs, Arg.bytes, Arg.dataPtr] at terminated
  | pointer data =>
      refine ⟨data, rfl, ?_⟩
      rintro rfl
      simp [keyIs, Arg.bytes, Arg.dataPtr] at terminated

theorem HoldsHandle.fetchKey_eq (holds : HoldsHandle ifc args) :
    fetchKey ifc client args =
      if ¬ client.hwkeyOpen then .error .errGeneric
      else
        match client.hwkeyGetKeyslotData args.handle ifc.aesKeyMaxSize with
        | none => .error .errIo
        | some key => .ok key := by
  have bytes : args.key.len = args.key.bytes.length := by
    obtain ⟨data, keyIs, -⟩ := present_iff.mp holds.present
    rw [keyIs]
    rfl
  have terminated := holds.terminated
  rw [List.getLast?_eq_getElem?, ← bytes] at terminated
  rw [fetchKey, if_pos holds.keyType, if_neg (not_lt.mpr holds.short),
    if_neg (not_not.mpr terminated)]
  rfl

theorem checkArgs_withPlainKey (present : args.key.Present) (nonempty : key ≠ []) :
    checkArgs (args.withPlainKey key) = checkArgs args := by
  have plain : hwaesCheckArgIn (args.withPlainKey key).key = .noError :=
    present_iff.mpr ⟨key, rfl, nonempty⟩
  have given : hwaesCheckArgIn args.key = .noError := present
  rw [checkArgs, checkArgs, plain, given]
  rfl

theorem rejects_of_fetchKey {rc : Code} (fails : fetchKey ifc client args = .error rc)
    (failure : rc ≠ .noError) : Rejects ifc client ctx args := by
  by_cases checks : checkArgs args = .noError
  · exact ⟨rc, failure, by simp [hwaesAesOp, checks, fails]⟩
  · exact ⟨checkArgs args, checks, by simp [hwaesAesOp, checks]⟩

theorem HoldsHandle.interchangeable (holds : HoldsHandle ifc args)
    (opened : client.hwkeyOpen = true)
    (fetched : client.hwkeyGetKeyslotData args.handle ifc.aesKeyMaxSize = some key)
    (nonempty : key ≠ []) :
    hwaesAesOp ifc client ctx args = hwaesAesOp ifc client ctx (args.withPlainKey key) := by
  have keyIs : fetchKey ifc client args = .ok key := by
    simp [holds.fetchKey_eq, opened, fetched]
  have plainKey : fetchKey ifc client (args.withPlainKey key) = .ok key := rfl
  simp only [hwaesAesOp, checkArgs_withPlainKey holds.present nonempty, keyIs, plainKey]
  rfl

theorem rejects_of_empty (keyIs : fetchKey ifc client args = .ok []) :
    Rejects ifc client ctx args := by
  by_cases checks : checkArgs args = .noError
  · cases chosen : selectCipher args 0 with
    | ok cipher =>
        have keyLength := (selectCipher_eq_ok.mp chosen).1
        cases cipher with
        | aes128 | aes256 => cases keyLength
    | error rc =>
        refine ⟨rc, ?_, by simp [hwaesAesOp, checks, keyIs, operate, chosen]⟩
        rintro rfl
        exact selectCipher_ne_noError args 0 chosen
  · exact ⟨checkArgs args, checks, by simp [hwaesAesOp, checks]⟩

/-- A handle that the HWKEY service honours stands for its key, and no other does.  An
empty key is refused either way. -/
theorem opaque_key_interchangeable {cfg : BuildConfig} {exchange : Exchange}
    (reached : Reachable (Hwkey.service (fakeProvider cfg) hwkeyIfc) state)
    (serves : Serves client (exchange.response cfg hwkeyIfc state))
    (holds : HoldsHandle ifc args) :
    (∀ key, client.hwkeyOpen = true → Redeems cfg state exchange.env args.handle key →
      key.length ≤ ifc.aesKeyMaxSize →
      (key ≠ [] →
        hwaesAesOp ifc client ctx args = hwaesAesOp ifc client ctx (args.withPlainKey key)) ∧
      (key = [] →
        Rejects ifc client ctx args ∧ Rejects ifc client ctx (args.withPlainKey key))) ∧
    (¬ (client.hwkeyOpen = true ∧ ∃ key, Redeems cfg state exchange.env args.handle key ∧
        key.length ≤ ifc.aesKeyMaxSize) → Rejects ifc client ctx args) := by
  have prepared := (Hwkey.handleInvariant_of_reachable reached).prepared
  have noNul : 0 ∉ args.handle := Bytes.zero_notMem_cstr _
  constructor
  · intro key opened redeems short
    obtain ⟨rsp, responds, succeeded, rfl⟩ := response_of_redeems prepared noNul redeems
    have fetched := serves.delivers responds succeeded short
    constructor
    · exact holds.interchangeable opened fetched
    · intro empty
      rw [empty] at fetched ⊢
      constructor
      · exact rejects_of_empty (by simp [holds.fetchKey_eq, opened, fetched])
      · exact rejects_of_empty rfl
  · intro unredeemed
    cases opened : client.hwkeyOpen with
    | false =>
        have fails : fetchKey ifc client args = .error .errGeneric := by
          simp [holds.fetchKey_eq, opened]
        exact rejects_of_fetchKey fails (by decide)
    | true =>
        have fetched : client.hwkeyGetKeyslotData args.handle ifc.aesKeyMaxSize = none := by
          apply serves.fails
          intro rsp responds
          by_contra accepted
          obtain ⟨succeeded, short⟩ := not_or.mp accepted
          exact unredeemed ⟨opened, rsp.payload,
            redeems_of_response prepared noNul responds (not_not.mp succeeded), not_lt.mp short⟩
        have fails : fetchKey ifc client args = .error .errIo := by
          simp [holds.fetchKey_eq, opened, fetched]
        exact rejects_of_fetchKey fails (by decide)

end Requests

section Sample

def documentedClient (response : List UInt8 → Option Hwkey.Response) : HwkeyClient where
  hwkeyOpen := true
  hwkeyGetKeyslotData id room :=
    (response id).bind fun rsp =>
      if rsp.status = .noError ∧ rsp.payload.length ≤ room then some rsp.payload else none

theorem documentedClient_serves (response : List UInt8 → Option Hwkey.Response) :
    Serves (documentedClient response) response where
  delivers responds succeeded short := by
    simp [documentedClient, responds, succeeded, short]
  fails := by
    intro id room refused
    cases responds : response id with
    | none => simp [documentedClient, responds]
    | some rsp =>
        have failed : ¬ (rsp.status = .noError ∧ rsp.payload.length ≤ room) := by
          rintro ⟨succeeded, short⟩
          rcases refused rsp responds with failed | long
          · exact failed succeeded
          · omega
        simp [documentedClient, responds, failed]

/-- A build with one apploader key. -/
def encryptBuild (key : List UInt8) : BuildConfig := ⟨none, none, some key, none, false⟩

def encryptProvider (key : List UInt8) : Hwkey.Provider := fakeProvider (encryptBuild key)

def encryptKeyId : Hwkey.CString := .ofString "com.android.trusty.apploader.encrypt.key.0"

def encryptRequest : Hwkey.Request := Hwkey.keyslotRequest encryptKeyId.chars (by decide)

theorem encryptRequest_firstSlot (key : List UInt8) :
    Hwkey.FirstSlot (keys (encryptBuild key)) Hwkey.apploaderUuid encryptRequest.id 2
      (.getKeyHandle ⟨[hwaesUuid], Hwkey.getApploaderKeyOpaque key⟩) := by
  have id : encryptRequest.id = encryptKeyId.chars := Bytes.cstr_eq_self encryptKeyId.noNul
  refine ⟨⟨_, rfl, ?_⟩, ?_⟩
  · rw [KeySlot.answering, id, if_pos ⟨rfl, rfl⟩]
    rfl
  · intro j slot before at_
    have first : j = 0 ∨ j = 1 := by omega
    have other : slot.uuid ≠ Hwkey.apploaderUuid := by
      rcases first with rfl | rfl
      · obtain rfl := Option.some.inj at_
        decide
      · obtain rfl := Option.some.inj at_
        decide
    rw [KeySlot.answering, if_neg fun both => other both.2]

theorem handleState_reachable (key : List UInt8) : ∃ state,
    Reachable (Hwkey.service (encryptProvider key) Hwkey.smallInterface) state ∧
      state.opaqueHandles = [⟨2, 16, Hwkey.sampleToken⟩] := by
  have allowed : (encryptProvider key).hwkeyClientAllowed Hwkey.apploaderUuid = true := rfl
  have connected : Exec (Hwkey.service (encryptProvider key) Hwkey.smallInterface) _ _ :=
    Hwkey.clientStep_exec allowed
  have prepared := (Hwkey.handleInvariant_of_reachable connected.reachable).prepared
  obtain ⟨keyData, handled⟩ : ∃ keyData, Hwkey.hwkeyChanHandleMsg (encryptProvider key)
      Hwkey.smallInterface _ 16 ⟨3, Hwkey.apploaderUuid⟩ (Hwkey.requestIo encryptRequest) = _ :=
    Hwkey.getKeyslot_issued prepared rfl rfl (encryptRequest_firstSlot key).namedSlot_eq
      (fun _ member => by cases member) rfl
      (show Hwkey.drawToken Hwkey.secondDraw .empty = .ok (.ok Hwkey.sampleToken) from rfl)
  exact ⟨_, (Hwkey.requestingStep_exec allowed handled rfl).reachable, rfl⟩

def sampleExchange : Exchange := ⟨32, 4, 1, 0, ⟨true, [], Hwkey.successfulOutcomes⟩⟩

theorem sampleToken_redeems {key : List UInt8}
    (handles : state.opaqueHandles = [⟨2, 16, Hwkey.sampleToken⟩])
    (size : state.keyData.length = Hwkey.hwkeyMaxPayloadSize)
    (fits : key.length ≤ Hwkey.hwkeyMaxPayloadSize) :
    Redeems (encryptBuild key) state sampleExchange.env (List.replicate 31 1) key := by
  have room : ¬ state.keyData.length < key.length := by omega
  refine ⟨[], _, [], ⟨[hwaesUuid], Hwkey.getApploaderKeyOpaque key⟩,
    ⟨.noError, Bytes.overwrite state.keyData key, key.length⟩, handles, ⟨rfl, rfl, by simp⟩,
    by simp, ?_, rfl, Bytes.take_overwrite _ _⟩
  simp only [Hwkey.getApploaderKeyOpaque, Hwkey.getApploaderKey, Hwkey.copyKey, room, if_false,
    Hwkey.store, not_lt.mp room, if_true, ok_bind]

def handleArgs (mode : Mode) : Args :=
  { sampleArgs true sampleText with
    keyType := .opaqueHandle
    key := .pointer Hwkey.sampleToken.bytes
    mode }

theorem handleArgs_holds (mode : Mode) : HoldsHandle ⟨32, 128⟩ (handleArgs mode) :=
  ⟨rfl, show 32 ≤ 128 by decide, rfl⟩

theorem handleArgs_handle (mode : Mode) : (handleArgs mode).handle = List.replicate 31 1 := by
  change Bytes.cstr Hwkey.sampleToken.bytes = _
  decide

theorem opaque_key_interchangeable_sample : ∃ state client,
    Reachable (Hwkey.service (fakeProvider (encryptBuild sampleKey)) Hwkey.smallInterface) state ∧
      Serves client (sampleExchange.response (encryptBuild sampleKey) Hwkey.smallInterface
        state) ∧
      hwaesAesOp ⟨32, 128⟩ client sampleStep.pre (handleArgs .cbc) = .ok sampleStep.output := by
  obtain ⟨state, reached, handles⟩ := handleState_reachable sampleKey
  have size := (Hwkey.handleInvariant_of_reachable reached).keyData
  have serves := documentedClient_serves
    (sampleExchange.response (encryptBuild sampleKey) Hwkey.smallInterface state)
  have redeems : Redeems (encryptBuild sampleKey) _ _ (handleArgs .cbc).handle _ :=
    handleArgs_handle .cbc ▸ sampleToken_redeems handles size (by decide)
  refine ⟨state, _, reached, serves, ?_⟩
  exact ((opaque_key_interchangeable reached serves (handleArgs_holds .cbc)).1 sampleKey rfl
    redeems (by decide)).1 (by decide)

/-- With an empty key the two requests fail for different reasons. -/
theorem empty_opaque_key_differs : ∃ state client,
    Reachable (Hwkey.service (fakeProvider (encryptBuild [])) Hwkey.smallInterface) state ∧
      Serves client (sampleExchange.response (encryptBuild []) Hwkey.smallInterface state) ∧
      HoldsHandle ⟨32, 128⟩ (handleArgs .other) ∧ client.hwkeyOpen = true ∧
      Redeems (encryptBuild []) state sampleExchange.env (handleArgs .other).handle [] ∧
      ∃ op plain, hwaesAesOp ⟨32, 128⟩ client sampleStep.pre (handleArgs .other) = .ok op ∧
        hwaesAesOp ⟨32, 128⟩ client sampleStep.pre ((handleArgs .other).withPlainKey []) =
          .ok plain ∧
        op.rc = .errNotImplemented ∧ plain.rc = .errInvalidArgs := by
  obtain ⟨state, reached, handles⟩ := handleState_reachable []
  have invariant := Hwkey.handleInvariant_of_reachable reached
  let client := documentedClient
    (sampleExchange.response (encryptBuild []) Hwkey.smallInterface state)
  have serves : Serves client _ := documentedClient_serves _
  have redeems : Redeems (encryptBuild []) _ _ (handleArgs .other).handle _ :=
    handleArgs_handle .other ▸ sampleToken_redeems handles invariant.keyData (by decide)
  obtain ⟨rsp, responds, succeeded, payload⟩ := response_of_redeems invariant.prepared
    (Bytes.zero_notMem_cstr _) redeems
  have short : rsp.payload.length ≤ 32 := by
    rw [payload]
    decide
  have keyIs : fetchKey ⟨32, 128⟩ client (handleArgs .other) = .ok [] := by
    rw [(handleArgs_holds .other).fetchKey_eq, if_neg (by simp [client, documentedClient]),
      Args.handle, serves.delivers responds succeeded short, payload]
  have fails : hwaesAesOp ⟨32, 128⟩ client sampleStep.pre (handleArgs .other) =
      .ok ⟨.errNotImplemented, sampleStep.pre, (handleArgs .other).textOut, .null 0⟩ := by
    rw [hwaesAesOp, if_neg (by decide), keyIs]
    rfl
  exact ⟨state, client, reached, serves, handleArgs_holds .other, rfl, redeems, _, _, fails, rfl,
    rfl, rfl⟩

end Sample

end TrustyApp.Hwaes
