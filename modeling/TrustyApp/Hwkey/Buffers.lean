import TrustyApp.Hwkey.Requests
import TrustyApp.Library.Agreement

/-!
# The static buffers

Requests of all sessions go through `req_data`, keys through `key_data`.  With the
handlers of this repository no answer depends on what earlier requests left there.
-/

namespace TrustyApp.Hwkey

open Agreement Ipc Reactive

structure KeyOut.Same (out other : KeyOut) : Prop where
  status : out.status = other.status
  klen : out.klen = other.klen
  size : out.kbuf.length = other.kbuf.length
  key : out.kbuf.take out.klen = other.kbuf.take other.klen

/-- What a handler returns does not depend on the old content of the key buffer. -/
def KeyFn.Insensitive (fn : KeyFn) : Prop :=
  ∀ outcomes (kbuf kbuf' : List UInt8), kbuf.length = kbuf'.length →
    Agree KeyOut.Same (fn.run outcomes kbuf 0) (fn.run outcomes kbuf' 0)

/-- Buffers of one size that start with the same data. -/
structure Filled (data buf other : List UInt8) : Prop where
  size : buf.length = other.length
  first : buf.take data.length = data
  second : other.take data.length = data

theorem store_agree {kbuf kbuf' : List UInt8} (data : List UInt8)
    (size : kbuf.length = kbuf'.length) :
    Agree (Filled data) (store kbuf data) (store kbuf' data) := by
  unfold store
  by_cases fits : data.length ≤ kbuf.length
  · rw [if_pos fits, if_pos (size ▸ fits)]
    refine .done ⟨?_, Bytes.take_overwrite kbuf data, Bytes.take_overwrite kbuf' data⟩
    rw [Bytes.length_overwrite fits, Bytes.length_overwrite (size ▸ fits), size]
  · rw [if_neg fits, if_neg (size ▸ fits)]
    exact .halt _

theorem agree_error {kbuf kbuf' : List UInt8} (status : Status)
    (size : kbuf.length = kbuf'.length) :
    Agree KeyOut.Same (.ok ⟨status, kbuf, 0⟩ : Except Crash KeyOut) (.ok ⟨status, kbuf', 0⟩) :=
  .done ⟨rfl, rfl, size, by simp⟩

theorem agree_key {data kbuf kbuf' : List UInt8} {len : Nat} (filled : Filled data kbuf kbuf')
    (full : data.length = len) :
    Agree KeyOut.Same (.ok ⟨.noError, kbuf, len⟩ : Except Crash KeyOut)
      (.ok ⟨.noError, kbuf', len⟩) := by
  subst full
  exact .done ⟨rfl, rfl, filled.size, filled.first.trans filled.second.symm⟩

theorem copyKey_insensitive (key : List UInt8) : (copyKey key).Insensitive := by
  intro outcomes kbuf kbuf' size
  simp only [copyKey, size]
  split
  · exact .halt _
  · exact (store_agree key size).bind fun buf buf' filled => agree_key filled rfl

theorem decryptKey_agree (encryptedKeyData key : List UInt8) (calls : CipherCalls)
    {kbuf kbuf' : List UInt8} (size : kbuf.length = kbuf'.length) :
    Agree KeyOut.Same (decryptKey encryptedKeyData key calls kbuf 0)
      (decryptKey encryptedKeyData key calls kbuf' 0) := by
  unfold decryptKey
  split
  · exact agree_error _ size
  split
  · exact agree_error _ size
  apply (store_agree _ size).bind
  intro buf buf' filled
  split
  · exact agree_error _ filled.size
  split
  · exact .halt _
  next full =>
    split
    · exact agree_error _ filled.size
    · split
      · exact .halt _
      · exact agree_key filled (not_not.mp full)

theorem hwkeyGetDerivedKey_insensitive (data : DerivedKeyslotData) :
    (hwkeyGetDerivedKey data).Insensitive := by
  intro outcomes kbuf kbuf' size
  apply Agree.bind_same (data.retriever.run outcomes _ _)
  intro key
  simp only [deriveFrom, size]
  repeat' split
  all_goals first
    | exact decryptKey_agree _ _ _ size
    | exact agree_error _ size

/-- `derive_key_v1` sets the length itself. -/
theorem deriveKeyV1_agree (uuid : Uuid) (ikm : List UInt8) (outcomes : Outcomes)
    {kbuf kbuf' : List UInt8} (klen klen' : Nat) (size : kbuf.length = kbuf'.length) :
    Agree KeyOut.Same ((deriveKeyV1 uuid ikm).run outcomes kbuf klen)
      ((deriveKeyV1 uuid ikm).run outcomes kbuf' klen') := by
  simp only [deriveKeyV1]
  split
  · exact agree_error _ size
  apply (store_agree _ size).bind
  intro buf buf' filled
  split
  · exact (store_agree _ filled.size).bind fun _ _ cleared => agree_error _ cleared.size
  next succeeded =>
    exact agree_key filled (outcomes.hkdfFull _ _ _ _ (not_not.mp succeeded))

theorem getKmKakKey_insensitive (uuid : Uuid) : (getKmKakKey uuid).Insensitive := by
  intro outcomes kbuf kbuf' size
  simp only [getKmKakKey, size]
  split
  · exact agree_error _ size
  · exact deriveKeyV1_agree uuid kakSalt outcomes 0 0 size

theorem getRpmbSsAuthKey_insensitive : getRpmbSsAuthKey.Insensitive := by
  intro outcomes kbuf kbuf' size
  simp only [getRpmbSsAuthKey, size]
  split
  · exact agree_error _ size
  split
  · exact agree_error _ size
  split
  · exact agree_error _ size
  apply (store_agree _ size).bind
  intro buf buf' filled
  split
  · exact agree_error _ filled.size
  split
  · exact agree_error _ filled.size
  next full =>
    split
    · exact agree_error _ filled.size
    · exact agree_key filled (not_not.mp full)

theorem getApploaderSignUnlockedKey_insensitive (key : List UInt8) :
    (getApploaderSignUnlockedKey key).Insensitive := by
  intro outcomes kbuf kbuf' size
  simp only [getApploaderSignUnlockedKey]
  split
  · exact copyKey_insensitive key outcomes kbuf kbuf' size
  · exact agree_error _ size

/-- The handlers and retrievers of this repository, for any keys. -/
inductive RepositoryFn : KeyFn → Prop
  | rpmbSsAuthKey : RepositoryFn getRpmbSsAuthKey
  | kmKakKey (uuid : Uuid) : RepositoryFn (getKmKakKey uuid)
  | apploaderKey (key : List UInt8) : RepositoryFn (getApploaderKey key)
  | apploaderSignKey (key : List UInt8) : RepositoryFn (getApploaderSignKey key)
  | apploaderSignUnlockedKey (key : List UInt8) : RepositoryFn (getApploaderSignUnlockedKey key)
  | unittestKey32 : RepositoryFn getUnittestKey32
  | derivedKey (data : DerivedKeyslotData) : RepositoryFn (hwkeyGetDerivedKey data)

theorem RepositoryFn.insensitive {fn : KeyFn} (fromRepository : RepositoryFn fn) :
    fn.Insensitive := by
  cases fromRepository with
  | rpmbSsAuthKey => exact getRpmbSsAuthKey_insensitive
  | kmKakKey uuid => exact getKmKakKey_insensitive uuid
  | apploaderKey key | apploaderSignKey key => exact copyKey_insensitive key
  | apploaderSignUnlockedKey key => exact getApploaderSignUnlockedKey_insensitive key
  | unittestKey32 => exact copyKey_insensitive _
  | derivedKey data => exact hwkeyGetDerivedKey_insensitive data

def Handler.keyFn : Handler → KeyFn
  | .getKeyHandle handle => handle.retriever
  | .other fn => fn

/-- A table all of whose handlers are those of this repository. -/
structure FromRepository (provider : Provider) : Prop where
  slots : ∀ slot ∈ provider.keySlots, ∀ handler, slot.handler = some handler →
    RepositoryFn handler.keyFn
  derive : provider.deriveKeyV1 = deriveKeyV1

section Keys

variable {P : KeyFn → Prop} (rpmb : P getRpmbSsAuthKey) (kak : P (getKmKakKey kmUuid))
  (copied : ∀ key, P (copyKey key)) (unlocked : ∀ key, P (getApploaderSignUnlockedKey key))
  (derived : P (hwkeyGetDerivedKey hwcryptoUnittestDerivedData))
include copied derived

theorem unittestSlots_rule :
    ∀ slot ∈ unittestSlots, ∀ handler, slot.handler = some handler → P handler.keyFn := by
  simp only [unittestSlots, List.forall_mem_cons, Option.some.injEq, forall_eq', Handler.keyFn]
  refine ⟨?_, ?_, ?_, ?_, ?_, ?_, ?_, by simp⟩
  all_goals first
    | exact copied _
    | exact derived

include rpmb kak unlocked

/-- What holds of each key function of the fake provider holds of all its slots. -/
theorem keys_rule (cfg : BuildConfig) {slot : KeySlot} {handler : Handler}
    (member : slot ∈ keys cfg) (handles : slot.handler = some handler) : P handler.keyFn := by
  have signed (keyId : CString) (sign : SignKey)
      (handles : (apploaderSignSlot keyId sign).handler = some handler) : P handler.keyFn := by
    obtain rfl := Option.some.inj handles
    simp only [Handler.keyFn]
    split
    · exact unlocked sign.key
    · exact copied sign.key
  have encrypted (keyId : CString) (key : List UInt8)
      (handles : (apploaderEncryptSlot keyId key).handler = some handler) : P handler.keyFn := by
    obtain rfl := Option.some.inj handles
    exact copied key
  simp only [keys, List.mem_append, List.mem_cons, List.not_mem_nil, or_false,
    Option.mem_toList, Option.map_eq_some_iff] at member
  rcases member with ((((device | ⟨key, -, rfl⟩) | ⟨key, -, rfl⟩) | ⟨key, -, rfl⟩) |
    ⟨key, -, rfl⟩) | unittest
  · rcases device with rfl | rfl
    · obtain rfl := Option.some.inj handles
      exact rpmb
    · obtain rfl := Option.some.inj handles
      exact kak
  · exact signed _ key handles
  · exact signed _ key handles
  · exact encrypted _ key handles
  · exact encrypted _ key handles
  · split at unittest
    · exact unittestSlots_rule copied derived slot unittest handler handles
    · cases unittest

end Keys

theorem fakeProvider_fromRepository (cfg : BuildConfig) : FromRepository (fakeProvider cfg) := by
  refine ⟨fun slot member handler handles => ?_, rfl⟩
  exact keys_rule .rpmbSsAuthKey (.kmKakKey kmUuid) .apploaderKey .apploaderSignUnlockedKey
    (.derivedKey _) cfg member handles

variable {provider : Provider} {ifc : Interface} {env : Env} {handles : List OpaqueHandleNode}
  {ctx : Addr} {uuid : Uuid} {kbuf kbuf' : List UInt8}

structure Lookup.Same (lookup other : Lookup) : Prop where
  out : lookup.out.Same other.out
  handles : lookup.handles = other.handles
  actions : lookup.actions = other.actions

theorem KeyFn.call_agree {fn : KeyFn} {klen klen' : Nat}
    (agree : Agree KeyOut.Same (fn.run env.outcomes kbuf klen) (fn.run env.outcomes kbuf' klen')) :
    Agree KeyOut.Same (fn.call env kbuf klen) (fn.call env kbuf' klen') := by
  unfold KeyFn.call
  revert agree
  generalize fn.run env.outcomes kbuf klen = first
  generalize fn.run env.outcomes kbuf' klen' = second
  intro agree
  cases agree with
  | halt crash => exact .halt (Halt.provider crash)
  | done same => exact .done same

theorem agree_failed (status : Status) (actions : List Action)
    (size : kbuf.length = kbuf'.length) :
    Agree Lookup.Same (.ok ⟨⟨status, kbuf, 0⟩, handles, actions⟩ : Except Halt Lookup)
      (.ok ⟨⟨status, kbuf', 0⟩, handles, actions⟩) :=
  .done ⟨⟨rfl, rfl, size, by simp⟩, rfl, rfl⟩

/-- The handle is copied over what was in the buffer. -/
theorem getKeyHandle_agree (slot : Nat) (size : kbuf.length = kbuf'.length) :
    Agree Lookup.Same (getKeyHandle env handles slot kbuf 0)
      (getKeyHandle env handles slot kbuf' 0) := by
  unfold getKeyHandle
  rw [size]
  split
  · exact .halt _
  next space =>
    split
    · exact .halt _
    apply Agree.bind_same (isEmptyToken _)
    intro isEmpty
    split
    · exact agree_failed _ _ size
    apply Agree.bind_same (drawToken _ _)
    intro drawn
    split
    · exact agree_failed _ _ size
    next token =>
      split
      · exact .halt _
      have fits : token.bytes.length ≤ kbuf'.length := by
        rw [token.size]
        omega
      refine .done ⟨⟨rfl, rfl, ?_, ?_⟩, rfl, rfl⟩
      · rw [Bytes.length_overwrite fits, Bytes.length_overwrite (size ▸ fits), size]
      · simp only [← token.size, Bytes.take_overwrite]

theorem callHandler_agree (slot : Nat) {handler : Handler}
    (fromRepository : RepositoryFn handler.keyFn) (size : kbuf.length = kbuf'.length) :
    Agree Lookup.Same (callHandler env handles ctx slot handler kbuf 0)
      (callHandler env handles ctx slot handler kbuf' 0) := by
  cases handler with
  | getKeyHandle handle =>
      simp only [callHandler]
      split
      · exact agree_failed _ _ size
      · exact getKeyHandle_agree slot size
  | other fn =>
      apply (KeyFn.call_agree (fromRepository.insensitive _ _ _ size)).bind
      exact fun out out' same => .done ⟨same, rfl, rfl⟩

theorem opaqueData_rule {P : KeyFn → Prop} {slots : List KeySlot}
    (all : ∀ slot ∈ slots, ∀ handler, slot.handler = some handler → P handler.keyFn) {i : Nat}
    {handle : OpaqueHandleData} (data : opaqueData slots i = some handle) :
    P handle.retriever := by
  unfold opaqueData at data
  split at data
  next at_ =>
    obtain rfl := Option.some.inj data
    exact all _ (List.mem_of_getElem? at_) _ rfl
  next => cases data

theorem calledFn_rule {P : KeyFn → Prop} {slots : List KeySlot}
    (all : ∀ slot ∈ slots, ∀ handler, slot.handler = some handler → P handler.keyFn)
    {id : List UInt8} {fn : KeyFn} (called : calledFn slots handles uuid id = some fn) : P fn := by
  unfold calledFn at called
  split at called
  next named =>
    obtain rfl := Option.some.inj called
    obtain ⟨slot, at_, -, -, handler⟩ := namedSlot_eq_some named
    exact all slot (List.mem_of_getElem? at_) _ handler
  next => cases called
  next =>
    obtain ⟨entry, -, called⟩ := Option.bind_eq_some_iff.mp called
    obtain ⟨handle, data, rfl⟩ := Option.map_eq_some_iff.mp called
    exact opaqueData_rule all data

theorem retrieve_agree (fromRepository : FromRepository provider) (entry : OpaqueHandleNode)
    (size : kbuf.length = kbuf'.length) :
    Agree Lookup.Same (retrieve provider.keySlots env handles entry kbuf 0)
      (retrieve provider.keySlots env handles entry kbuf' 0) := by
  unfold retrieve
  split
  · exact .halt _
  next handle data =>
    have retriever := opaqueData_rule fromRepository.slots data
    apply (KeyFn.call_agree (retriever.insensitive _ _ _ size)).bind
    exact fun out out' same => .done ⟨same, rfl, rfl⟩

theorem answerFor_agree (fromRepository : FromRepository provider) (id : List UInt8)
    (size : kbuf.length = kbuf'.length) :
    Agree Lookup.Same (answerFor provider.keySlots env handles ctx uuid id kbuf 0)
      (answerFor provider.keySlots env handles ctx uuid id kbuf' 0) := by
  unfold answerFor
  split
  next named =>
    obtain ⟨slot, at_, -, -, handles⟩ := namedSlot_eq_some named
    exact callHandler_agree _ (fromRepository.slots slot (List.mem_of_getElem? at_) _ handles) size
  next =>
    split
    · exact retrieve_agree fromRepository _ size
    · exact agree_failed _ _ size

variable {state : State} {chanCtx : ChanCtx} {io : Io} {request : Request}

structure Buffers where
  reqData : List UInt8
  keyData : List UInt8
  reqSize : reqData.length = hwkeyMaxPayloadSize + 1
  keySize : keyData.length = hwkeyMaxPayloadSize

def State.withBuffers (state : State) (buffers : Buffers) : State :=
  { state with reqData := buffers.reqData, keyData := buffers.keyData }

theorem Prepared.withBuffers (prepared : Prepared provider state) (buffers : Buffers) :
    Prepared provider (state.withBuffers buffers) :=
  ⟨prepared.sound, buffers.reqSize, buffers.keySize⟩

/-- What can be observed of a message that was handled: the response and the other
actions, whether the session goes on, the handles and the sessions. -/
def Handled.view (handled : Handled) :
    List Action × Bool × List OpaqueHandleNode × Table ChanCtx :=
  (handled.actions, handled.sent, handled.state.opaqueHandles, handled.state.conns)

def Handled.Same (handled other : Handled) : Prop := handled.view = other.view

theorem hwkeySendRsp_same {out out' : KeyOut} (arg1 : UInt32) (same : out.Same out') :
    hwkeySendRsp ifc request out.status arg1 out.kbuf out.klen =
      hwkeySendRsp ifc request out'.status arg1 out'.kbuf out'.klen := by
  simp only [hwkeySendRsp, same.status, same.size, same.key]
  rw [same.klen]

theorem sendRsp_agree {out out' : KeyOut} (arg1 : UInt32) (same : out.Same out')
    {next next' : Response → Except Halt Handled}
    (continues : ∀ rsp, Agree Handled.Same (next rsp) (next' rsp)) :
    Agree Handled.Same
      (hwkeySendRsp ifc request out.status arg1 out.kbuf out.klen >>= next)
      (hwkeySendRsp ifc request out'.status arg1 out'.kbuf out'.klen >>= next') := by
  rw [hwkeySendRsp_same arg1 same]
  exact Agree.bind_same _ continues

theorem getKeyslot_agree (fromRepository : FromRepository provider)
    (prepared : Prepared provider state) (received : io.recv = some request)
    (cmd : request.cmd = ifc.getKeyslot) (buffers buffers' : Buffers) :
    Agree Handled.Same
      (hwkeyChanHandleMsg provider ifc (state.withBuffers buffers) ctx chanCtx io)
      (hwkeyChanHandleMsg provider ifc (state.withBuffers buffers') ctx chanCtx io) := by
  rw [getKeyslot_eq (prepared.withBuffers buffers) received cmd,
    getKeyslot_eq (prepared.withBuffers buffers') received cmd]
  have size : buffers.keyData.length = buffers'.keyData.length := by
    rw [buffers.keySize, buffers'.keySize]
  apply (answerFor_agree fromRepository request.id size).bind
  intro found found' same
  apply sendRsp_agree request.arg1 same.out
  intro rsp
  apply Agree.done
  simp only [Handled.Same, Handled.view, same.handles, same.actions]
  rfl

theorem deriveKey_agree (fromRepository : FromRepository provider) (ikm : List UInt8)
    {first second : State} (size : first.keyData.length = second.keyData.length) :
    Agree KeyOut.Same (deriveKey provider ifc first uuid request ikm env)
      (deriveKey provider ifc second uuid request ikm env) := by
  unfold deriveKey
  split
  · rw [fromRepository.derive]
    exact KeyFn.call_agree (deriveKeyV1_agree uuid ikm env.outcomes _ _ size)
  · refine .done ⟨rfl, rfl, size, by simp⟩

theorem take_receiveInto (reqData : List UInt8) (request : Request) :
    (receiveInto reqData request).take request.payload.length = request.payload :=
  Bytes.take_overwrite reqData request.payload

theorem derive_agree (fromRepository : FromRepository provider) (received : io.recv = some request)
    (other : request.cmd ≠ ifc.getKeyslot) (cmd : request.cmd = ifc.derive)
    (buffers buffers' : Buffers) :
    Agree Handled.Same
      (hwkeyChanHandleMsg provider ifc (state.withBuffers buffers) ctx chanCtx io)
      (hwkeyChanHandleMsg provider ifc (state.withBuffers buffers') ctx chanCtx io) := by
  have size : buffers.keyData.length = buffers'.keyData.length := by
    rw [buffers.keySize, buffers'.keySize]
  simp only [hwkeyChanHandleMsg, received, if_neg other, if_pos cmd, take_receiveInto,
    hwkeyHandleDeriveKeyCmd, bind_assoc]
  apply (deriveKey_agree fromRepository request.payload ?_).bind
  · intro out out' same
    exact sendRsp_agree _ same fun rsp => .done rfl
  · exact size

theorem hwkeyChanHandleMsg_agree (fromRepository : FromRepository provider)
    (prepared : Prepared provider state) (buffers buffers' : Buffers) :
    Agree Handled.Same
      (hwkeyChanHandleMsg provider ifc (state.withBuffers buffers) ctx chanCtx io)
      (hwkeyChanHandleMsg provider ifc (state.withBuffers buffers') ctx chanCtx io) := by
  cases received : io.recv with
  | none =>
      simp only [hwkeyChanHandleMsg, received]
      exact .done rfl
  | some request =>
      by_cases get : request.cmd = ifc.getKeyslot
      · exact getKeyslot_agree fromRepository prepared received get buffers buffers'
      by_cases derive : request.cmd = ifc.derive
      · exact derive_agree fromRepository received get derive buffers buffers'
      · simp only [hwkeyChanHandleMsg, received, get, derive, if_false]
        exact .done rfl

/-- In every reachable state the effect of a message does not depend on what the
static buffers hold: neither its response nor the handles it leaves.  In particular the
comparison of 32 bytes of `req_data` with a token is a comparison of the requested id
with its 31 characters. -/
theorem leftovers_never_matter (fromRepository : FromRepository provider)
    (reached : Reachable (service provider ifc) state) :
    (∀ ctx chanCtx io buffers buffers',
      (hwkeyChanHandleMsg provider ifc (state.withBuffers buffers) ctx chanCtx io).map
          Handled.view =
        (hwkeyChanHandleMsg provider ifc (state.withBuffers buffers') ctx chanCtx io).map
          Handled.view) ∧
      ∀ entry ∈ state.opaqueHandles, ∀ (request : Request) (buffers : Buffers),
        (slotIdOf buffers.reqData request).take hwkeyOpaqueHandleSize = entry.token.bytes ↔
          request.id = entry.token.bytes.take 31 := by
  have prepared := (handleInvariant_of_reachable reached).prepared
  constructor
  · intro ctx chanCtx io buffers buffers'
    exact (hwkeyChanHandleMsg_agree fromRepository prepared buffers buffers').map_eq
  · intro entry member request buffers
    have long : hwkeyOpaqueHandleSize ≤ (slotIdOf buffers.reqData request).length :=
      (prepared.withBuffers buffers).long request
    rw [take_eq_bytes_iff (prepared.sound entry member).1 long,
      cstr_slotIdOf request buffers.reqSize]
    rfl

def shortRequest : Request := keyslotRequest (List.replicate 30 1) (by decide)

theorem twoSlots_fromRepository : FromRepository twoSlots := by
  refine ⟨?_, rfl⟩
  simp only [twoSlots, List.forall_mem_cons, Option.some.injEq, forall_eq', Handler.keyFn]
  exact ⟨.unittestKey32, .unittestKey32, by simp⟩

def clearBuffers : Buffers :=
  ⟨List.replicate (hwkeyMaxPayloadSize + 1) 0, List.replicate hwkeyMaxPayloadSize 0,
    List.length_replicate, List.length_replicate⟩

/-- The whole token is still in the request buffer. -/
def staleBuffers : Buffers :=
  ⟨List.replicate (hwkeyMaxPayloadSize + 1) 1, List.replicate hwkeyMaxPayloadSize 1,
    List.length_replicate, List.length_replicate⟩

theorem leftovers_never_matter_shortRequest : ∃ keyData,
    Exec (service twoSlots smallInterface) [requestStep keyData, connectStep]
        (requestStep keyData).post ∧
      (hwkeyChanHandleMsg twoSlots smallInterface
          ((requestStep keyData).post.withBuffers staleBuffers) 16 ⟨3, hwcryptoUnittestUuid⟩
          (requestIo shortRequest)).map Handled.view =
        (hwkeyChanHandleMsg twoSlots smallInterface
          ((requestStep keyData).post.withBuffers clearBuffers) 16 ⟨3, hwcryptoUnittestUuid⟩
          (requestIo shortRequest)).map Handled.view := by
  obtain ⟨keyData, run⟩ := requestStep_exec
  exact ⟨keyData, run, (leftovers_never_matter twoSlots_fromRepository run.reachable).1 16 _ _ _ _⟩

end TrustyApp.Hwkey
