import TrustyApp.Hwkey.Service
import TrustyApp.Hwkey.Tokens
import TrustyApp.Library.Grants

/-!
# Access to keys

Who may get which key, stated without loops: the first slot with the requested id
that belongs to the caller and has a handler, or else the first handle whose token
is the requested id and whose slot allows the caller.  The lookups of the service
compute just that as long as the handles are sound.
-/

namespace TrustyApp.Hwkey

open Ipc Reactive

variable {provider : Provider} {ifc : Interface} {slots : List KeySlot} {env : Env}
  {handles rest : List OpaqueHandleNode} {ctx : Addr} {uuid : Uuid}

def KeySlot.answering (slot : KeySlot) (uuid : Uuid) (id : List UInt8) : Option Handler :=
  if slot.keyId.chars = id ∧ slot.uuid = uuid then slot.handler else none

/-- The first slot with this id that belongs to the UUID and has a handler. -/
def namedSlot (slots : List KeySlot) (uuid : Uuid) (id : List UInt8) : Option (Nat × Handler) :=
  slots.zipIdx.findSome? fun (slot, i) => (slot.answering uuid id).map fun handler => (i, handler)

def mayRead (slots : List KeySlot) (uuid : Uuid) (entry : OpaqueHandleNode) : Bool :=
  match opaqueData slots entry.keySlot with
  | none => false
  | some handle => isAllowedToReadOpaqueKey uuid handle

/-- The first handle with this token whose slot allows the UUID. -/
def openHandle (slots : List KeySlot) (handles : List OpaqueHandleNode) (uuid : Uuid)
    (id : List UInt8) : Option OpaqueHandleNode :=
  Grants.redeem (mayRead slots uuid) (fun entry => entry.token.chars) id handles

def retrieve (slots : List KeySlot) (env : Env) (handles : List OpaqueHandleNode)
    (entry : OpaqueHandleNode) (kbuf : List UInt8) (klen : Nat) : Except Halt Lookup :=
  match opaqueData slots entry.keySlot with
  | none => .error (.notOpaque entry.keySlot)
  | some handle => do
      let out ← handle.retriever.call env kbuf klen
      .ok ⟨out, handles, [.retrieved entry.keySlot]⟩

def answerFor (slots : List KeySlot) (env : Env) (handles : List OpaqueHandleNode) (ctx : Addr)
    (uuid : Uuid) (id kbuf : List UInt8) (klen : Nat) : Except Halt Lookup :=
  match namedSlot slots uuid id with
  | some (i, handler) => callHandler env handles ctx i handler kbuf klen
  | none =>
      match openHandle slots handles uuid id with
      | some entry => retrieve slots env handles entry kbuf klen
      | none => .ok ⟨⟨.errNotFound, kbuf, klen⟩, handles, []⟩

def calledFn (slots : List KeySlot) (handles : List OpaqueHandleNode) (uuid : Uuid)
    (id : List UInt8) : Option KeyFn :=
  match namedSlot slots uuid id with
  | some (_, .other fn) => some fn
  | some (_, .getKeyHandle _) => none
  | none => (openHandle slots handles uuid id).bind fun entry =>
      (opaqueData slots entry.keySlot).map OpaqueHandleData.retriever

/-- Every entry has the token of an issued handle and belongs to an opaque slot. -/
def SoundHandles (slots : List KeySlot) (handles : List OpaqueHandleNode) : Prop :=
  ∀ entry ∈ handles, entry.token.WellFormed ∧ ∃ handle, opaqueData slots entry.keySlot = some handle

theorem isAllowedToReadOpaqueKey_eq_true {handle : OpaqueHandleData} :
    isAllowedToReadOpaqueKey uuid handle = true ↔ uuid ∈ handle.allowedUuids := by
  simp [isAllowedToReadOpaqueKey]

theorem mayRead_eq_true {entry : OpaqueHandleNode} :
    mayRead slots uuid entry = true ↔
      ∃ handle, opaqueData slots entry.keySlot = some handle ∧ uuid ∈ handle.allowedUuids := by
  unfold mayRead
  cases opaqueData slots entry.keySlot with
  | none => simp
  | some handle => simp [isAllowedToReadOpaqueKey_eq_true]

theorem getOpaqueKey_eq (sound : SoundHandles slots rest) {accessToken : List UInt8}
    (long : hwkeyOpaqueHandleSize ≤ accessToken.length) (kbuf : List UInt8) (klen : Nat) :
    getOpaqueKey slots env handles uuid accessToken kbuf klen rest =
      match openHandle slots rest uuid (Bytes.cstr accessToken) with
      | none => .ok ⟨⟨.errNotFound, kbuf, klen⟩, handles, []⟩
      | some entry => retrieve slots env handles entry kbuf klen := by
  induction rest with
  | nil => rfl
  | cons entry rest inductionHypothesis =>
      obtain ⟨wellFormed, handle, data⟩ := sound entry (by simp)
      have later := inductionHypothesis fun other member =>
        sound other (List.mem_cons_of_mem entry member)
      have notEmpty := isEmptyToken_of_wellFormed wellFormed
      have compared := take_eq_bytes_iff wellFormed long
      simp only [getOpaqueKey, notEmpty, ok_bind, data, openHandle, Grants.redeem_cons, mayRead,
        compared, eq_comm (a := entry.token.chars)]
      cases isAllowedToReadOpaqueKey uuid handle with
      | false => simpa [openHandle] using later
      | true =>
          by_cases same : Bytes.cstr accessToken = entry.token.chars
          · simp [same, retrieve, data]
          · simpa [same, openHandle] using later

theorem scanSlots_eq (slotId kbuf : List UInt8) (klen i : Nat) (remaining : List KeySlot) :
    scanSlots slots env handles ctx uuid slotId kbuf klen i remaining =
      match (remaining.zipIdx i).findSome? fun (slot, j) =>
        (slot.answering uuid (Bytes.cstr slotId)).map fun handler => (j, handler) with
      | some (j, handler) => callHandler env handles ctx j handler kbuf klen
      | none => getOpaqueKey slots env handles uuid slotId kbuf klen handles := by
  induction remaining generalizing i with
  | nil => rfl
  | cons slot remaining inductionHypothesis =>
      have later := inductionHypothesis (i + 1)
      rw [scanSlots, List.zipIdx_cons, List.findSome?_cons]
      by_cases sameId : slot.keyId.chars = Bytes.cstr slotId
      · by_cases sameUuid : uuid = slot.uuid
        · cases handlerIs : slot.handler with
          | some handler => simp [sameId, sameUuid, KeySlot.answering, handlerIs]
          | none => simpa [sameId, sameUuid, KeySlot.answering, handlerIs] using later
        · simpa [sameId, sameUuid, Ne.symm sameUuid, KeySlot.answering] using later
      · simpa [sameId, KeySlot.answering] using later

/-- `_handle_slots` follows the policy. -/
theorem handleSlots_eq (sound : SoundHandles slots handles) {slotId : List UInt8}
    (long : hwkeyOpaqueHandleSize ≤ slotId.length) (kbuf : List UInt8) (klen : Nat) :
    handleSlots (some slots) env handles ctx uuid slotId kbuf klen =
      answerFor slots env handles ctx uuid (Bytes.cstr slotId) kbuf klen := by
  rw [handleSlots, scanSlots_eq, answerFor, namedSlot]
  split
  · rfl
  · rw [getOpaqueKey_eq sound long]
    cases openHandle slots handles uuid (Bytes.cstr slotId) <;> rfl

structure FirstSlot (slots : List KeySlot) (uuid : Uuid) (id : List UInt8) (i : Nat)
    (handler : Handler) : Prop where
  answers : ∃ slot, slots[i]? = some slot ∧ slot.answering uuid id = some handler
  first : ∀ j slot, j < i → slots[j]? = some slot → slot.answering uuid id = none

theorem FirstSlot.findSome?_eq {id : List UInt8} {i : Nat} {handler : Handler}
    (firstSlot : FirstSlot slots uuid id i handler) (offset : Nat) :
    (slots.zipIdx offset).findSome? (fun (slot, j) =>
      (slot.answering uuid id).map fun handler => (j, handler)) = some (offset + i, handler) := by
  induction slots generalizing i offset with
  | nil =>
      obtain ⟨slot, at_, -⟩ := firstSlot.answers
      simp at at_
  | cons slot slots inductionHypothesis =>
      rw [List.zipIdx_cons, List.findSome?_cons]
      cases i with
      | zero =>
          obtain ⟨other, at_, answers⟩ := firstSlot.answers
          obtain rfl : slot = other := by simpa using at_
          simp [answers]
      | succ i =>
          have skipped := firstSlot.first 0 slot (Nat.succ_pos i) rfl
          have rest : FirstSlot slots uuid id i handler :=
            ⟨by simpa using firstSlot.answers, fun j other before at_ =>
              firstSlot.first (j + 1) other (Nat.succ_lt_succ before) (by simpa using at_)⟩
          have moved : offset + (i + 1) = offset + 1 + i := by omega
          simp only [skipped, Option.map_none, moved]
          exact inductionHypothesis rest (offset + 1)

theorem FirstSlot.namedSlot_eq {id : List UInt8} {i : Nat} {handler : Handler}
    (firstSlot : FirstSlot slots uuid id i handler) :
    namedSlot slots uuid id = some (i, handler) := by
  have found := firstSlot.findSome?_eq 0
  rwa [Nat.zero_add] at found

theorem firstSlot_of_findSome? {id : List UInt8} {offset k : Nat} {handler : Handler}
    (found : (slots.zipIdx offset).findSome? (fun (slot, j) =>
      (slot.answering uuid id).map fun handler => (j, handler)) = some (k, handler)) :
    ∃ i, k = offset + i ∧ FirstSlot slots uuid id i handler := by
  induction slots generalizing offset with
  | nil => cases found
  | cons slot slots inductionHypothesis =>
      rw [List.zipIdx_cons, List.findSome?_cons] at found
      cases answers : slot.answering uuid id with
      | some answering =>
          simp only [answers, Option.map_some, Option.some.injEq, Prod.mk.injEq] at found
          obtain ⟨rfl, rfl⟩ := found
          exact ⟨0, rfl, ⟨slot, rfl, answers⟩, fun j other before => absurd before (by omega)⟩
      | none =>
          simp only [answers, Option.map_none] at found
          obtain ⟨i, rfl, rest⟩ := inductionHypothesis found
          refine ⟨i + 1, by omega, by simpa using rest.answers, ?_⟩
          intro j other before at_
          cases j with
          | zero =>
              obtain rfl : slot = other := by simpa using at_
              exact answers
          | succ j => exact rest.first j other (by omega) (by simpa using at_)

theorem firstSlot_of_namedSlot {id : List UInt8} {i : Nat} {handler : Handler}
    (found : namedSlot slots uuid id = some (i, handler)) :
    FirstSlot slots uuid id i handler := by
  obtain ⟨j, moved, firstSlot⟩ := firstSlot_of_findSome? found
  obtain rfl : i = j := by omega
  exact firstSlot

theorem namedSlot_eq_some {id : List UInt8} {i : Nat} {handler : Handler}
    (found : namedSlot slots uuid id = some (i, handler)) :
    ∃ slot, slots[i]? = some slot ∧ slot.keyId.chars = id ∧ slot.uuid = uuid ∧
      slot.handler = some handler := by
  obtain ⟨slot, at_, answers⟩ := (firstSlot_of_namedSlot found).answers
  unfold KeySlot.answering at answers
  split at answers
  next matching => exact ⟨slot, at_, matching.1, matching.2, answers⟩
  next => cases answers

theorem namedSlot_eq_none {id : List UInt8}
    (unanswered : ∀ slot ∈ slots, slot.answering uuid id = none) :
    namedSlot slots uuid id = none := by
  rw [namedSlot, List.findSome?_eq_none_iff]
  rintro ⟨slot, i⟩ member
  have at_ := List.mk_mem_zipIdx_iff_getElem?.mp member
  simp [unanswered slot (List.mem_of_getElem? at_)]

/-- The handle has the token `id`, and its slot allows the UUID. -/
def Opens (slots : List KeySlot) (uuid : Uuid) (id : List UInt8) (entry : OpaqueHandleNode)
    (handle : OpaqueHandleData) : Prop :=
  entry.token.chars = id ∧ opaqueData slots entry.keySlot = some handle ∧
    uuid ∈ handle.allowedUuids

theorem openHandle_eq_none {id : List UInt8}
    (unopened : ∀ entry ∈ handles, ∀ handle, ¬ Opens slots uuid id entry handle) :
    openHandle slots handles uuid id = none := by
  rw [openHandle, Grants.redeem_eq_none]
  rintro entry member ⟨allowed, same⟩
  obtain ⟨handle, data, mayUse⟩ := mayRead_eq_true.mp allowed
  exact unopened entry member handle ⟨same, data, mayUse⟩

theorem openHandle_of_first {id : List UInt8} {before after : List OpaqueHandleNode}
    {entry : OpaqueHandleNode} {handle : OpaqueHandleData}
    (opens : Opens slots uuid id entry handle)
    (first : ∀ other ∈ before, ∀ data, ¬ Opens slots uuid id other data) :
    openHandle slots (before ++ entry :: after) uuid id = some entry := by
  induction before with
  | nil =>
      have allowed := mayRead_eq_true.mpr ⟨handle, opens.2.1, opens.2.2⟩
      rw [List.nil_append, openHandle, Grants.redeem_cons, if_pos ⟨allowed, opens.1⟩]
  | cons other before inductionHypothesis =>
      have skipped : ¬ (mayRead slots uuid other = true ∧ other.token.chars = id) := by
        rintro ⟨allowed, same⟩
        obtain ⟨data, dataIs, mayUse⟩ := mayRead_eq_true.mp allowed
        exact first other (by simp) data ⟨same, dataIs, mayUse⟩
      rw [List.cons_append, openHandle, Grants.redeem_cons, if_neg skipped]
      exact inductionHypothesis fun earlier member => first earlier (List.mem_cons_of_mem _ member)

theorem openHandle_eq_some {id : List UInt8} {entry : OpaqueHandleNode}
    (opened : openHandle slots handles uuid id = some entry) :
    ∃ before after handle, handles = before ++ entry :: after ∧
      Opens slots uuid id entry handle ∧
      ∀ other ∈ before, ∀ data, ¬ Opens slots uuid id other data := by
  obtain ⟨-, allowed, same⟩ := Grants.redeem_eq_some opened
  obtain ⟨handle, data, mayUse⟩ := mayRead_eq_true.mp allowed
  obtain ⟨-, before, after, split, first⟩ := List.find?_eq_some_iff_append.mp opened
  refine ⟨before, after, handle, split, ⟨same, data, mayUse⟩, ?_⟩
  rintro other member otherHandle ⟨otherSame, otherData, otherMayUse⟩
  have skipped := first other member
  simp [mayRead_eq_true.mpr ⟨otherHandle, otherData, otherMayUse⟩, otherSame] at skipped

theorem opaqueData_of_slot {slot : KeySlot} {i : Nat} {handle : OpaqueHandleData}
    (at_ : slots[i]? = some slot) (handler : slot.handler = some (.getKeyHandle handle)) :
    opaqueData slots i = some handle := by
  obtain ⟨keyId, uuid, _⟩ := slot
  simp only at handler
  subst handler
  simp [opaqueData, at_]

inductive Found (slots : List KeySlot) (env : Env) (handles : List OpaqueHandleNode)
    (ctx : Addr) (uuid : Uuid) (id kbuf : List UInt8) (klen : Nat) : Lookup → Prop
  | named {i : Nat} {fn : KeyFn} {out : KeyOut} :
      namedSlot slots uuid id = some (i, .other fn) → fn.call env kbuf klen = .ok out →
      Found slots env handles ctx uuid id kbuf klen ⟨out, handles, []⟩
  | granted {i : Nat} {handle : OpaqueHandleData} {lookup : Lookup} :
      namedSlot slots uuid id = some (i, .getKeyHandle handle) →
      Granted env handles ctx i kbuf klen (.ok lookup) →
      Found slots env handles ctx uuid id kbuf klen lookup
  | retrieved {entry : OpaqueHandleNode} {handle : OpaqueHandleData} {out : KeyOut} :
      namedSlot slots uuid id = none → openHandle slots handles uuid id = some entry →
      opaqueData slots entry.keySlot = some handle →
      handle.retriever.call env kbuf klen = .ok out →
      Found slots env handles ctx uuid id kbuf klen ⟨out, handles, [.retrieved entry.keySlot]⟩
  | denied : namedSlot slots uuid id = none → openHandle slots handles uuid id = none →
      Found slots env handles ctx uuid id kbuf klen ⟨⟨.errNotFound, kbuf, klen⟩, handles, []⟩

section Lookup

variable {slotId kbuf : List UInt8} {klen : Nat} {lookup : Lookup}

theorem callHandler_other_eq_ok {i : Nat} {fn : KeyFn}
    (result : callHandler env handles ctx i (.other fn) kbuf klen = .ok lookup) :
    ∃ out, fn.call env kbuf klen = .ok out ∧ lookup = ⟨out, handles, []⟩ := by
  obtain ⟨out, called, result⟩ := bind_eq_ok.mp result
  exact ⟨out, called, (Except.ok.inj result).symm⟩

theorem handleSlots_found (sound : SoundHandles slots handles)
    (long : hwkeyOpaqueHandleSize ≤ slotId.length)
    (space : hwkeyOpaqueHandleSize ≤ kbuf.length)
    (result : handleSlots (some slots) env handles ctx uuid slotId kbuf klen = .ok lookup) :
    Found slots env handles ctx uuid (Bytes.cstr slotId) kbuf klen lookup := by
  rw [handleSlots_eq sound long, answerFor] at result
  cases named : namedSlot slots uuid (Bytes.cstr slotId) with
  | some found =>
      obtain ⟨i, handler⟩ := found
      simp only [named] at result
      cases handler with
      | other fn =>
          obtain ⟨out, called, rfl⟩ := callHandler_other_eq_ok result
          exact .named named called
      | getKeyHandle handle =>
          have granted := callHandler_granted env ctx i handle klen space
            fun entry member => (sound entry member).1
          rw [result] at granted
          exact .granted named granted
  | none =>
      simp only [named] at result
      cases opened : openHandle slots handles uuid (Bytes.cstr slotId) with
      | none =>
          simp only [opened] at result
          obtain rfl := Except.ok.inj result
          exact .denied named opened
      | some entry =>
          obtain ⟨-, handle, data⟩ := sound entry (Grants.redeem_eq_some opened).1
          simp only [opened, retrieve, data] at result
          obtain ⟨out, called, result⟩ := bind_eq_ok.mp result
          obtain rfl := Except.ok.inj result
          exact .retrieved named opened data called

theorem KeyFn.call_eq_ok {fn : KeyFn} {out : KeyOut} (called : fn.call env kbuf klen = .ok out) :
    fn.run env.outcomes kbuf klen = .ok out := by
  unfold KeyFn.call at called
  split at called
  next ran =>
    obtain rfl := Except.ok.inj called
    exact ran
  next => cases called

theorem KeyFn.call_eq_error {fn : KeyFn} {halt : Halt}
    (stopped : fn.call env kbuf klen = .error halt) :
    ∃ crash, halt = .provider crash ∧ fn.run env.outcomes kbuf klen = .error crash := by
  unfold KeyFn.call at stopped
  split at stopped
  next => cases stopped
  next crash ran => exact ⟨crash, (Except.error.inj stopped).symm, ran⟩

/-- The request names an opaque slot that has no handle, and what the RNG has delivered
does not make up a token yet. -/
def AwaitsToken (slots : List KeySlot) (env : Env) (handles : List OpaqueHandleNode)
    (uuid : Uuid) (id : List UInt8) : Prop :=
  ∃ slot handle, namedSlot slots uuid id = some (slot, .getKeyHandle handle) ∧
    (∀ entry ∈ handles, entry.keySlot ≠ slot) ∧ env.calloc = true ∧
    drawToken env.draws .empty = .error .drawing

theorem AwaitsToken.stops {id : List UInt8}
    (awaits : AwaitsToken slots env handles uuid id)
    (space : hwkeyOpaqueHandleSize ≤ kbuf.length)
    (wellFormed : ∀ entry ∈ handles, entry.token.WellFormed) :
    answerFor slots env handles ctx uuid id kbuf klen = .error .drawing := by
  obtain ⟨slot, handle, named, free, allocated, short⟩ := awaits
  rw [answerFor, named]
  simp only [callHandler_of_free ctx handle klen space wellFormed free allocated, short]
  rfl

theorem KeyFn.call_of_error {fn : KeyFn} {crash : Crash}
    (ran : fn.run env.outcomes kbuf klen = .error crash) :
    fn.call env kbuf klen = .error (.provider crash) := by
  rw [KeyFn.call, ran]

theorem answerFor_aborts {id : List UInt8} {fn : KeyFn} {crash : Crash}
    (called : calledFn slots handles uuid id = some fn)
    (ran : fn.run env.outcomes kbuf klen = .error crash) :
    answerFor slots env handles ctx uuid id kbuf klen = .error (.provider crash) := by
  unfold calledFn at called
  rw [answerFor]
  split at called
  next named =>
    obtain rfl := Option.some.inj called
    simp only [named, callHandler, KeyFn.call_of_error ran]
    rfl
  next => cases called
  next unnamed =>
    obtain ⟨entry, opened, retriever⟩ := Option.bind_eq_some_iff.mp called
    obtain ⟨handle, data, rfl⟩ := Option.map_eq_some_iff.mp retriever
    simp only [unnamed, opened, retrieve, data, KeyFn.call_of_error ran]
    rfl

/-- With sound handles only a key function or an RNG that keeps the service waiting
can stop a lookup. -/
theorem handleSlots_halts {halt : Halt} (sound : SoundHandles slots handles)
    (long : hwkeyOpaqueHandleSize ≤ slotId.length)
    (space : hwkeyOpaqueHandleSize ≤ kbuf.length)
    (result : handleSlots (some slots) env handles ctx uuid slotId kbuf klen = .error halt) :
    halt = .drawing ∧ AwaitsToken slots env handles uuid (Bytes.cstr slotId) ∨
      ∃ fn crash, calledFn slots handles uuid (Bytes.cstr slotId) = some fn ∧
        fn.run env.outcomes kbuf klen = .error crash ∧ halt = .provider crash := by
  rw [handleSlots_eq sound long, answerFor] at result
  cases named : namedSlot slots uuid (Bytes.cstr slotId) with
  | some found =>
      obtain ⟨i, handler⟩ := found
      simp only [named] at result
      cases handler with
      | other fn =>
          rcases bind_eq_error.mp result with stopped | ⟨out, -, result⟩
          · obtain ⟨crash, rfl, ran⟩ := KeyFn.call_eq_error stopped
            exact .inr ⟨fn, crash, by simp [calledFn, named], ran, rfl⟩
          · cases result
      | getKeyHandle handle =>
          have granted := callHandler_granted env ctx i handle klen space
            fun entry member => (sound entry member).1
          rw [result] at granted
          cases granted with
          | drawing free allocated drawing =>
              exact .inl ⟨rfl, i, handle, named, free, allocated, drawing⟩
  | none =>
      simp only [named] at result
      cases opened : openHandle slots handles uuid (Bytes.cstr slotId) with
      | none => simp [opened] at result
      | some entry =>
          obtain ⟨-, handle, data⟩ := sound entry (Grants.redeem_eq_some opened).1
          simp only [opened, retrieve, data] at result
          rcases bind_eq_error.mp result with stopped | ⟨out, -, result⟩
          · obtain ⟨crash, rfl, ran⟩ := KeyFn.call_eq_error stopped
            exact .inr ⟨handle.retriever, crash, by simp [calledFn, named, opened, data], ran, rfl⟩
          · cases result

theorem KeyFn.call_keepsSize {fn : KeyFn} {out : KeyOut}
    (called : fn.call env kbuf klen = .ok out) : out.kbuf.length = kbuf.length :=
  fn.keepsSize (KeyFn.call_eq_ok called)

theorem Found.keepsSize {id : List UInt8} (space : hwkeyOpaqueHandleSize ≤ kbuf.length)
    (found : Found slots env handles ctx uuid id kbuf klen lookup) :
    lookup.out.kbuf.length = kbuf.length := by
  cases found with
  | named _ called | retrieved _ _ _ called => exact KeyFn.call_keepsSize called
  | denied => rfl
  | granted _ granted =>
      cases granted with
      | taken | noMemory | rngFailed => rfl
      | @issued token => exact Bytes.length_overwrite (by rw [token.size]; exact space)

end Lookup

end TrustyApp.Hwkey
