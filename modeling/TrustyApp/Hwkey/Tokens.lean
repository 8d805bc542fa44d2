import TrustyApp.Hwkey.Handles

/-!
# Access tokens and their creation

A token that was handed out has 31 non-zero bytes and a terminator.  Where every
entry of the list has such a token, a request for an opaque slot either finds the
slot taken, or fails and restores the list, or appends one entry.
-/

namespace TrustyApp.Hwkey

open Ipc Reactive

variable {token : AccessToken} {handles : List OpaqueHandleNode} {slot : Nat} {ctx : Addr}

def AccessToken.chars (token : AccessToken) : List UInt8 :=
  token.bytes.take (hwkeyOpaqueHandleSize - 1)

@[simp] theorem AccessToken.length_chars (token : AccessToken) :
    token.chars.length = hwkeyOpaqueHandleSize - 1 := by
  rw [AccessToken.chars, List.length_take, token.size]
  decide

structure AccessToken.WellFormed (token : AccessToken) : Prop where
  noNul : 0 ∉ token.chars
  terminated : token.bytes = token.chars ++ [0]

theorem AccessToken.ext_bytes {other : AccessToken} (same : token.bytes = other.bytes) :
    token = other := by
  cases token
  cases other
  cases same
  rfl

theorem AccessToken.WellFormed.ext {other : AccessToken} (wellFormed : token.WellFormed)
    (otherWellFormed : other.WellFormed) (same : token.chars = other.chars) : token = other := by
  apply AccessToken.ext_bytes
  rw [wellFormed.terminated, otherWellFormed.terminated, same]

theorem AccessToken.WellFormed.cstr_eq (wellFormed : token.WellFormed) :
    Bytes.cstr token.bytes = token.chars := by
  rw [wellFormed.terminated, Bytes.cstr_append_nul, Bytes.cstr_eq_self wellFormed.noNul]

theorem AccessToken.WellFormed.last_eq_zero (wellFormed : token.WellFormed) :
    token.bytes[hwkeyOpaqueHandleSize - 1]? = some 0 := by
  rw [wellFormed.terminated, List.getElem?_append_right (by simp)]
  simp

theorem isEmptyToken_of_wellFormed (wellFormed : token.WellFormed) :
    isEmptyToken token = .ok false := by
  have someChar : token.bytes.any (· ≠ 0) = true := by
    rw [List.any_eq_true]
    have positive : 0 < token.chars.length := by simp [hwkeyOpaqueHandleSize]
    refine ⟨token.chars[0], ?_, ?_⟩
    · rw [wellFormed.terminated]
      exact List.mem_append_left _ (List.getElem_mem positive)
    · have member := List.getElem_mem positive
      simp only [ne_eq, decide_not, Bool.not_eq_true', decide_eq_false_iff_not]
      intro zero
      exact wellFormed.noNul (zero ▸ member)
  rw [isEmptyToken, if_pos someChar, wellFormed.cstr_eq, if_pos token.length_chars]

theorem isEmptyToken_empty : isEmptyToken .empty = .ok true := by decide

theorem empty_terminated : AccessToken.empty.bytes.drop (hwkeyOpaqueHandleSize - 1) = [0] := by
  decide

/-- The comparison with 32 bytes of the request looks at its C string only. -/
theorem take_eq_bytes_iff (wellFormed : token.WellFormed) {bytes : List UInt8}
    (long : hwkeyOpaqueHandleSize ≤ bytes.length) :
    bytes.take hwkeyOpaqueHandleSize = token.bytes ↔ Bytes.cstr bytes = token.chars := by
  have size : token.chars.length + 1 = hwkeyOpaqueHandleSize := by simp [hwkeyOpaqueHandleSize]
  rw [wellFormed.terminated, ← size, Bytes.take_eq_terminated_iff wellFormed.noNul]
  exact and_iff_left (by omega)

/-- The bytes a draw contributes to a token. -/
def freshBytes (buf : List UInt8) (room : Nat) : List UInt8 := (buf.filter (· ≠ 0)).take room

theorem fillToken_spec (buf : List UInt8) (token : AccessToken) {offset : Nat}
    (inside : offset ≤ hwkeyOpaqueHandleSize - 1) :
    (fillToken buf token offset).2 =
        offset + (freshBytes buf (hwkeyOpaqueHandleSize - 1 - offset)).length ∧
      (fillToken buf token offset).1.bytes =
        token.bytes.take offset ++ freshBytes buf (hwkeyOpaqueHandleSize - 1 - offset) ++
          token.bytes.drop
            (offset + (freshBytes buf (hwkeyOpaqueHandleSize - 1 - offset)).length) := by
  induction buf generalizing token offset with
  | nil => simp [fillToken, freshBytes]
  | cons byte buf inductionHypothesis =>
      rw [fillToken]
      by_cases room : offset < hwkeyOpaqueHandleSize - 1
      · rw [if_pos room]
        by_cases zero : byte = 0
        · have skipped : freshBytes (byte :: buf) (hwkeyOpaqueHandleSize - 1 - offset) =
              freshBytes buf (hwkeyOpaqueHandleSize - 1 - offset) := by
            simp [freshBytes, zero]
          rw [if_neg (not_not.mpr zero), skipped]
          exact inductionHypothesis token inside
        · have taken : freshBytes (byte :: buf) (hwkeyOpaqueHandleSize - 1 - offset) =
              byte :: freshBytes buf (hwkeyOpaqueHandleSize - 1 - (offset + 1)) := by
            have more : hwkeyOpaqueHandleSize - 1 - offset =
                hwkeyOpaqueHandleSize - 1 - (offset + 1) + 1 := by omega
            simp [freshBytes, zero, more]
          obtain ⟨count, bytes⟩ := inductionHypothesis (token.write offset byte)
            (show offset + 1 ≤ hwkeyOpaqueHandleSize - 1 from room)
          have inBytes : offset < token.bytes.length := by
            rw [token.size]
            omega
          have written : (token.bytes.set offset byte).take (offset + 1) =
              token.bytes.take offset ++ [byte] := by
            rw [List.set_eq_take_append_cons_drop, if_pos inBytes]
            simp [List.take_append, Nat.min_eq_left inBytes.le]
          have later (count : Nat) : (token.bytes.set offset byte).drop (offset + 1 + count) =
              token.bytes.drop (offset + (count + 1)) := by
            rw [List.drop_set_of_lt (by omega), Nat.add_right_comm, Nat.add_assoc]
          rw [if_pos zero, taken, List.length_cons]
          refine ⟨by rw [count]; omega, ?_⟩
          rw [bytes]
          simp only [AccessToken.write]
          rw [written, later, List.append_assoc (token.bytes.take offset), List.singleton_append]
      · have full : hwkeyOpaqueHandleSize - 1 - offset = 0 := by omega
        rw [if_neg room]
        simp [freshBytes, full]

/-- A draw that fills the token leaves nothing of what was there before its terminator. -/
theorem fillToken_wellFormed {buf : List UInt8}
    (terminated : token.bytes.drop (hwkeyOpaqueHandleSize - 1) = [0])
    (full : (fillToken buf token 0).2 = hwkeyOpaqueHandleSize - 1) :
    (fillToken buf token 0).1.chars = freshBytes buf (hwkeyOpaqueHandleSize - 1) ∧
      (fillToken buf token 0).1.WellFormed := by
  obtain ⟨count, bytes⟩ := fillToken_spec buf token (Nat.zero_le _)
  simp only [Nat.sub_zero, Nat.zero_add, List.take_zero, List.nil_append] at count bytes
  rw [full] at count
  rw [← count, terminated] at bytes
  have chars : (fillToken buf token 0).1.chars = freshBytes buf (hwkeyOpaqueHandleSize - 1) := by
    rw [AccessToken.chars, bytes]
    exact List.take_left' count.symm
  refine ⟨chars, ?_, by rw [chars, bytes]⟩
  rw [chars]
  intro zero
  simpa using List.mem_of_mem_take zero

theorem fillToken_terminated {buf : List UInt8}
    (terminated : token.bytes.drop (hwkeyOpaqueHandleSize - 1) = [0]) :
    (fillToken buf token 0).1.bytes.drop (hwkeyOpaqueHandleSize - 1) = [0] := by
  obtain ⟨-, bytes⟩ := fillToken_spec buf token (Nat.zero_le _)
  simp only [Nat.sub_zero, Nat.zero_add, List.take_zero, List.nil_append] at bytes
  have short : (freshBytes buf (hwkeyOpaqueHandleSize - 1)).length ≤ hwkeyOpaqueHandleSize - 1 :=
    List.length_take_le _ _
  rw [bytes, List.drop_append, List.drop_eq_nil_of_le short, List.nil_append, List.drop_drop,
    Nat.add_sub_cancel' short, terminated]

/-- The loop ends with a well-formed token, or with the error of the RNG, or it is
still drawing. -/
theorem drawToken_cases (draws : List (Except KernelError RandomBuf))
    (terminated : token.bytes.drop (hwkeyOpaqueHandleSize - 1) = [0]) :
    drawToken draws token = .error .drawing ∨
      (∃ rc, drawToken draws token = .ok (.error rc)) ∨
      ∃ drawn, drawToken draws token = .ok (.ok drawn) ∧ drawn.WellFormed := by
  induction draws generalizing token with
  | nil => exact .inl rfl
  | cons draw draws inductionHypothesis =>
      cases draw with
      | error rc => exact .inr (.inl ⟨rc, rfl⟩)
      | ok buf =>
          by_cases full : (fillToken buf.bytes token 0).2 = hwkeyOpaqueHandleSize - 1
          · refine .inr (.inr ⟨(fillToken buf.bytes token 0).1, ?_, ?_⟩)
            · simp [drawToken, full]
            · exact (fillToken_wellFormed terminated full).2
          · have again : drawToken (.ok buf :: draws) token =
                drawToken draws (fillToken buf.bytes token 0).1 := by
              simp [drawToken, full]
            rw [again]
            exact inductionHypothesis (fillToken_terminated terminated)

theorem findOpaqueHandleForSlot_eq_none :
    findOpaqueHandleForSlot slot handles = none ↔ ∀ entry ∈ handles, entry.keySlot ≠ slot := by
  induction handles with
  | nil => simp [findOpaqueHandleForSlot]
  | cons entry handles inductionHypothesis =>
      by_cases same : entry.keySlot = slot
      · simp [findOpaqueHandleForSlot, same]
      · simp [findOpaqueHandleForSlot, same, inductionHypothesis]

theorem findOpaqueHandleForSlot_eq_some {cursor : Cursor}
    (found : findOpaqueHandleForSlot slot handles = some cursor) :
    handles = cursor.before ++ cursor.entry :: cursor.after ∧ cursor.entry.keySlot = slot := by
  induction handles generalizing cursor with
  | nil => cases found
  | cons entry handles inductionHypothesis =>
      by_cases same : entry.keySlot = slot
      · simp only [findOpaqueHandleForSlot, same, if_true, Option.some.injEq] at found
        subst found
        exact ⟨rfl, same⟩
      · simp only [findOpaqueHandleForSlot, same, if_false, Option.map_eq_some_iff] at found
        obtain ⟨rest, found, rfl⟩ := found
        obtain ⟨split, slotEq⟩ := inductionHypothesis found
        exact ⟨by rw [split]; rfl, slotEq⟩

theorem findOpaqueHandleForSlot_append {entry : OpaqueHandleNode}
    (absent : ∀ other ∈ handles, other.keySlot ≠ slot) (new : entry.keySlot = slot) :
    findOpaqueHandleForSlot slot (handles ++ [entry]) = some ⟨handles, entry, []⟩ := by
  induction handles with
  | nil => simp [findOpaqueHandleForSlot, new]
  | cons other handles inductionHypothesis =>
      have rest := inductionHypothesis fun entry member =>
        absent entry (List.mem_cons_of_mem other member)
      simp [findOpaqueHandleForSlot, absent other (by simp), rest]

section EmptyEntry

variable {env : Env} {kbuf : List UInt8} {cursor : Cursor} (klen : Nat)
  (found : findOpaqueHandleForSlot slot handles = some cursor)
  (empty : cursor.entry.token = .empty) (space : hwkeyOpaqueHandleSize ≤ kbuf.length)

include found empty space

theorem getKeyHandle_drawing (drawing : drawToken env.draws .empty = .error .drawing) :
    getKeyHandle env handles slot kbuf klen = .error .drawing := by
  simp [getKeyHandle, found, empty, not_lt.mpr space, isEmptyToken_empty, drawing]

theorem getKeyHandle_rngFailed {rc : KernelError}
    (failed : drawToken env.draws .empty = .ok (.error rc)) :
    getKeyHandle env handles slot kbuf klen =
      .ok ⟨⟨.kernel rc, kbuf, klen⟩, cursor.before ++ cursor.after, []⟩ := by
  simp [getKeyHandle, found, empty, not_lt.mpr space, isEmptyToken_empty, failed,
    deleteOpaqueHandle]

theorem getKeyHandle_issued (drawn : drawToken env.draws .empty = .ok (.ok token))
    (wellFormed : token.WellFormed) :
    getKeyHandle env handles slot kbuf klen =
      .ok ⟨⟨.noError, Bytes.overwrite kbuf token.bytes, hwkeyOpaqueHandleSize⟩,
        cursor.setToken token, [.issued slot token]⟩ := by
  simp [getKeyHandle, found, empty, not_lt.mpr space, isEmptyToken_empty, drawn,
    wellFormed.last_eq_zero]

end EmptyEntry

/-- What a request for an opaque slot can do. -/
inductive Granted (env : Env) (handles : List OpaqueHandleNode) (ctx : Addr) (slot : Nat)
    (kbuf : List UInt8) (klen : Nat) : Except Halt Lookup → Prop
  | taken {entry : OpaqueHandleNode} : entry ∈ handles → entry.keySlot = slot →
      Granted env handles ctx slot kbuf klen
        (.ok ⟨⟨.errAlreadyExists, kbuf, klen⟩, handles, []⟩)
  | noMemory : (∀ entry ∈ handles, entry.keySlot ≠ slot) → env.calloc = false →
      Granted env handles ctx slot kbuf klen (.ok ⟨⟨.errGeneric, kbuf, klen⟩, handles, []⟩)
  | drawing : (∀ entry ∈ handles, entry.keySlot ≠ slot) → env.calloc = true →
      drawToken env.draws .empty = .error .drawing →
      Granted env handles ctx slot kbuf klen (.error .drawing)
  | rngFailed {rc : KernelError} : (∀ entry ∈ handles, entry.keySlot ≠ slot) →
      env.calloc = true → drawToken env.draws .empty = .ok (.error rc) →
      Granted env handles ctx slot kbuf klen (.ok ⟨⟨.kernel rc, kbuf, klen⟩, handles, []⟩)
  | issued {token : AccessToken} : (∀ entry ∈ handles, entry.keySlot ≠ slot) →
      env.calloc = true → drawToken env.draws .empty = .ok (.ok token) → token.WellFormed →
      Granted env handles ctx slot kbuf klen
        (.ok ⟨⟨.noError, Bytes.overwrite kbuf token.bytes, hwkeyOpaqueHandleSize⟩,
          handles ++ [⟨slot, ctx, token⟩], [.issued slot token]⟩)

/-- The roll-back after an RNG failure removes the entry that this request inserted,
since the other entries have no empty token. -/
theorem getKeyHandle_granted {env : Env} (ctx : Addr) {slot : Nat} {kbuf : List UInt8}
    (klen : Nat) (space : hwkeyOpaqueHandleSize ≤ kbuf.length)
    (absent : ∀ entry ∈ handles, entry.keySlot ≠ slot) (allocated : env.calloc = true) :
    Granted env handles ctx slot kbuf klen
      (getKeyHandle env (handles ++ [⟨slot, ctx, .empty⟩]) slot kbuf klen) := by
  have inserted := findOpaqueHandleForSlot_append absent
    (show (⟨slot, ctx, .empty⟩ : OpaqueHandleNode).keySlot = slot from rfl)
  rcases drawToken_cases env.draws empty_terminated with drawing | ⟨rc, failed⟩ |
    ⟨token, drawn, wellFormed⟩
  · rw [getKeyHandle_drawing klen inserted rfl space drawing]
    exact .drawing absent allocated drawing
  · rw [getKeyHandle_rngFailed klen inserted rfl space failed, List.append_nil]
    exact .rngFailed absent allocated failed
  · rw [getKeyHandle_issued klen inserted rfl space drawn wellFormed]
    exact .issued absent allocated drawn wellFormed

theorem callHandler_granted (env : Env) (ctx : Addr) (slot : Nat) (handle : OpaqueHandleData)
    {kbuf : List UInt8} (klen : Nat) (space : hwkeyOpaqueHandleSize ≤ kbuf.length)
    (wellFormed : ∀ entry ∈ handles, entry.token.WellFormed) :
    Granted env handles ctx slot kbuf klen
      (callHandler env handles ctx slot (.getKeyHandle handle) kbuf klen) := by
  have enough : ¬ kbuf.length < hwkeyOpaqueHandleSize := by omega
  cases found : findOpaqueHandleForSlot slot handles with
  | some cursor =>
      obtain ⟨split, same⟩ := findOpaqueHandleForSlot_eq_some found
      have member : cursor.entry ∈ handles := by simp [split]
      have notEmpty := isEmptyToken_of_wellFormed (wellFormed _ member)
      have result : callHandler env handles ctx slot (.getKeyHandle handle) kbuf klen =
          .ok ⟨⟨.errAlreadyExists, kbuf, klen⟩, handles, []⟩ := by
        simp [callHandler, insertHandleNode, getKeyHandle, found, enough, notEmpty]
      rw [result]
      exact .taken member same
  | none =>
      have absent := findOpaqueHandleForSlot_eq_none.mp found
      cases allocated : env.calloc with
      | false =>
          have result : callHandler env handles ctx slot (.getKeyHandle handle) kbuf klen =
              .ok ⟨⟨.errGeneric, kbuf, klen⟩, handles, []⟩ := by
            simp [callHandler, insertHandleNode, found, allocated]
          rw [result]
          exact .noMemory absent allocated
      | true =>
          have inserts : callHandler env handles ctx slot (.getKeyHandle handle) kbuf klen =
              getKeyHandle env (handles ++ [⟨slot, ctx, .empty⟩]) slot kbuf klen := by
            simp [callHandler, insertHandleNode, found, allocated]
          rw [inserts]
          exact getKeyHandle_granted ctx klen space absent allocated

theorem callHandler_of_taken (env : Env) (ctx : Addr) (handle : OpaqueHandleData)
    {kbuf : List UInt8} (klen : Nat) (space : hwkeyOpaqueHandleSize ≤ kbuf.length)
    (wellFormed : ∀ entry ∈ handles, entry.token.WellFormed) {entry : OpaqueHandleNode}
    (member : entry ∈ handles) :
    callHandler env handles ctx entry.keySlot (.getKeyHandle handle) kbuf klen =
      .ok ⟨⟨.errAlreadyExists, kbuf, klen⟩, handles, []⟩ := by
  have granted := callHandler_granted env ctx entry.keySlot handle klen space wellFormed
  generalize callHandler env handles ctx entry.keySlot _ kbuf klen = result at granted ⊢
  cases granted with
  | taken => rfl
  | noMemory absent | drawing absent | rngFailed absent | issued absent =>
      exact absurd rfl (absent entry member)

/-- The result for a slot without an entry, once the RNG has delivered a token or failed. -/
def drawnLookup (handles : List OpaqueHandleNode) (ctx : Addr) (slot : Nat) (kbuf : List UInt8)
    (klen : Nat) : Except KernelError AccessToken → Lookup
  | .error rc => ⟨⟨.kernel rc, kbuf, klen⟩, handles, []⟩
  | .ok token => ⟨⟨.noError, Bytes.overwrite kbuf token.bytes, hwkeyOpaqueHandleSize⟩,
      handles ++ [⟨slot, ctx, token⟩], [.issued slot token]⟩

theorem callHandler_of_free {env : Env} (ctx : Addr) (handle : OpaqueHandleData)
    {kbuf : List UInt8} (klen : Nat) (space : hwkeyOpaqueHandleSize ≤ kbuf.length)
    (wellFormed : ∀ entry ∈ handles, entry.token.WellFormed)
    (free : ∀ entry ∈ handles, entry.keySlot ≠ slot) (allocated : env.calloc = true) :
    callHandler env handles ctx slot (.getKeyHandle handle) kbuf klen = (do
      let drawn ← drawToken env.draws .empty
      .ok (drawnLookup handles ctx slot kbuf klen drawn)) := by
  have granted := callHandler_granted env ctx slot handle klen space wellFormed
  generalize callHandler env handles ctx slot _ kbuf klen = result at granted ⊢
  cases granted with
  | taken member same => exact absurd same (free _ member)
  | noMemory _ unallocated =>
      rw [allocated] at unallocated
      cases unallocated
  | drawing _ _ drawn | rngFailed _ _ drawn | issued _ _ drawn =>
      rw [drawn]
      rfl

end TrustyApp.Hwkey
