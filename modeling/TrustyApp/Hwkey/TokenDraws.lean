import TrustyApp.Hwkey.Requests
import TrustyApp.Hwrng.FakeProvider

/-!
# The draws of a token

A buffer of the RNG is enough for a token or it is rejected.  What a rejected buffer
leaves in the token is overwritten by the next one, so that a token only has bytes of
the buffer that was enough.
-/

namespace TrustyApp.Hwkey

variable {token : AccessToken} {buf : RandomBuf} {rejected : List RandomBuf}
  {draws : List (Except KernelError RandomBuf)}

/-- The stores of the inner loop, each as its index in the token and its byte. -/
def tokenStores : List UInt8 → Nat → List (Nat × UInt8)
  | [], _ => []
  | byte :: rest, offset =>
      if offset < hwkeyOpaqueHandleSize - 1 then
        if byte ≠ 0 then (offset, byte) :: tokenStores rest (offset + 1)
        else tokenStores rest offset
      else []

theorem fillToken_eq_stores (bytes : List UInt8) (token : AccessToken) (offset : Nat) :
    (fillToken bytes token offset).1 =
      (tokenStores bytes offset).foldl (fun token store => token.write store.1 store.2) token := by
  induction bytes generalizing token offset with
  | nil => rfl
  | cons byte bytes inductionHypothesis =>
      rw [fillToken, tokenStores]
      by_cases room : offset < hwkeyOpaqueHandleSize - 1
      · by_cases zero : byte = 0
        · simp [room, zero, inductionHypothesis]
        · simp [room, zero, inductionHypothesis]
      · simp [room]

theorem tokenStores_inside {bytes : List UInt8} {offset : Nat} {store : Nat × UInt8}
    (member : store ∈ tokenStores bytes offset) : store.1 < hwkeyOpaqueHandleSize - 1 := by
  induction bytes generalizing offset with
  | nil => cases member
  | cons byte bytes inductionHypothesis =>
      rw [tokenStores] at member
      split at member
      next room =>
        split at member
        · rcases List.mem_cons.mp member with rfl | later
          · exact room
          · exact inductionHypothesis later
        · exact inductionHypothesis member
      next => cases member

/-- The buffer has a non-zero byte for every character of a token. -/
def RandomBuf.Sufficient (buf : RandomBuf) : Prop :=
  hwkeyOpaqueHandleSize - 1 ≤ (buf.bytes.filter (· ≠ 0)).length

instance (buf : RandomBuf) : Decidable buf.Sufficient :=
  inferInstanceAs (Decidable (_ ≤ _))

theorem RandomBuf.Sufficient.length_freshBytes (sufficient : buf.Sufficient) :
    (freshBytes buf.bytes (hwkeyOpaqueHandleSize - 1)).length = hwkeyOpaqueHandleSize - 1 := by
  rw [freshBytes, List.length_take, Nat.min_eq_left sufficient]

def RandomBuf.accessToken (buf : RandomBuf) (sufficient : buf.Sufficient) : AccessToken where
  bytes := (buf.bytes.filter (· ≠ 0)).take (hwkeyOpaqueHandleSize - 1) ++ [0]
  size := by
    rw [List.length_append, ← freshBytes, sufficient.length_freshBytes]
    rfl

theorem fillToken_full_iff (buf : RandomBuf) (token : AccessToken) :
    (fillToken buf.bytes token 0).2 = hwkeyOpaqueHandleSize - 1 ↔ buf.Sufficient := by
  rw [(fillToken_spec buf.bytes token (Nat.zero_le _)).1, Nat.zero_add, Nat.sub_zero, freshBytes,
    List.length_take, min_eq_left_iff]
  rfl

theorem fillToken_sufficient (sufficient : buf.Sufficient)
    (terminated : token.bytes.drop (hwkeyOpaqueHandleSize - 1) = [0]) :
    fillToken buf.bytes token 0 = (buf.accessToken sufficient, hwkeyOpaqueHandleSize - 1) := by
  have full := (fillToken_full_iff buf token).mpr sufficient
  obtain ⟨chars, wellFormed⟩ := fillToken_wellFormed terminated full
  apply Prod.ext
  · apply AccessToken.ext_bytes
    rw [wellFormed.terminated, chars]
    rfl
  · exact full

theorem RandomBuf.accessToken_wellFormed (buf : RandomBuf) (sufficient : buf.Sufficient) :
    (buf.accessToken sufficient).WellFormed := by
  have full := (fillToken_full_iff buf .empty).mpr sufficient
  have filled := (fillToken_wellFormed empty_terminated full).2
  rwa [fillToken_sufficient sufficient empty_terminated] at filled

/-- Rejected buffers are drawn over, and leave the terminator where it is. -/
theorem drawToken_rejected (insufficient : ∀ buf ∈ rejected, ¬ buf.Sufficient)
    (terminated : token.bytes.drop (hwkeyOpaqueHandleSize - 1) = [0]) :
    ∃ partly : AccessToken, partly.bytes.drop (hwkeyOpaqueHandleSize - 1) = [0] ∧
      drawToken (rejected.map .ok ++ draws) token = drawToken draws partly := by
  induction rejected generalizing token with
  | nil => exact ⟨token, terminated, rfl⟩
  | cons buf rejected inductionHypothesis =>
      have notFull : (fillToken buf.bytes token 0).2 ≠ hwkeyOpaqueHandleSize - 1 := by
        intro full
        exact insufficient buf (by simp) ((fillToken_full_iff buf token).mp full)
      obtain ⟨partly, partlyTerminated, continues⟩ := inductionHypothesis
        (fun other member => insufficient other (List.mem_cons_of_mem buf member))
        (fillToken_terminated terminated)
      refine ⟨partly, partlyTerminated, ?_⟩
      rw [← continues, List.map_cons, List.cons_append, drawToken]
      exact if_neg notFull

section Loop

variable (insufficient : ∀ buf ∈ rejected, ¬ buf.Sufficient)

include insufficient

theorem drawToken_first (sufficient : buf.Sufficient) :
    drawToken (rejected.map .ok ++ .ok buf :: draws) .empty =
      .ok (.ok (buf.accessToken sufficient)) := by
  obtain ⟨partly, partlyTerminated, continues⟩ := drawToken_rejected insufficient empty_terminated
  rw [continues, drawToken, fillToken_sufficient sufficient partlyTerminated]
  exact if_pos rfl

theorem drawToken_failed (rc : KernelError) (draws : List (Except KernelError RandomBuf)) :
    drawToken (rejected.map .ok ++ .error rc :: draws) .empty = .ok (.error rc) := by
  obtain ⟨partly, -, continues⟩ := drawToken_rejected insufficient empty_terminated
  rw [continues, drawToken]

theorem drawToken_pending : drawToken (rejected.map .ok) .empty = .error .drawing := by
  obtain ⟨partly, -, continues⟩ := drawToken_rejected insufficient empty_terminated
  rw [← List.append_nil (rejected.map _), continues, drawToken]

end Loop

theorem drawToken_sufficient (sufficient : buf.Sufficient) :
    drawToken (.ok buf :: draws) .empty = .ok (.ok (buf.accessToken sufficient)) :=
  drawToken_first (List.forall_mem_nil _) sufficient

/-- What the RNG can answer: rejected buffers, followed by nothing yet, by one that is
enough, or by an error. -/
inductive Answers (rejected : List RandomBuf) : List (Except KernelError RandomBuf) → Prop
  | pending : Answers rejected (rejected.map .ok)
  | first {buf : RandomBuf} (draws : List (Except KernelError RandomBuf)) : buf.Sufficient →
      Answers rejected (rejected.map .ok ++ .ok buf :: draws)
  | failed (rc : KernelError) (draws : List (Except KernelError RandomBuf)) :
      Answers rejected (rejected.map .ok ++ .error rc :: draws)

theorem answers_cases (draws : List (Except KernelError RandomBuf)) :
    ∃ rejected, (∀ buf ∈ rejected, ¬ buf.Sufficient) ∧ Answers rejected draws := by
  induction draws with
  | nil => exact ⟨[], by simp, .pending⟩
  | cons draw draws inductionHypothesis =>
      cases draw with
      | error rc => exact ⟨[], by simp, .failed rc draws⟩
      | ok buf =>
          by_cases sufficient : buf.Sufficient
          · exact ⟨[], by simp, .first draws sufficient⟩
          obtain ⟨rejected, insufficient, answers⟩ := inductionHypothesis
          refine ⟨buf :: rejected, List.forall_mem_cons.mpr ⟨sufficient, insufficient⟩, ?_⟩
          cases answers with
          | pending => exact .pending
          | first draws enough => exact .first draws enough
          | failed rc draws => exact .failed rc draws

def DrawFails (draws : List (Except KernelError RandomBuf)) : Prop :=
  ∃ (rejected : List RandomBuf) (rc : KernelError) (later : List (Except KernelError RandomBuf)),
    (∀ buf ∈ rejected, ¬ buf.Sufficient) ∧ draws = rejected.map .ok ++ .error rc :: later

theorem drawFails_iff : DrawFails draws ↔ ∃ rc, drawToken draws .empty = .ok (.error rc) := by
  constructor
  · rintro ⟨rejected, rc, later, insufficient, rfl⟩
    exact ⟨rc, drawToken_failed insufficient rc later⟩
  · rintro ⟨rc, drawn⟩
    obtain ⟨rejected, insufficient, answers⟩ := answers_cases draws
    cases answers with
    | pending =>
        rw [drawToken_pending insufficient] at drawn
        cases drawn
    | first later sufficient =>
        rw [drawToken_first insufficient sufficient] at drawn
        cases drawn
    | failed rc later => exact ⟨rejected, rc, later, insufficient, rfl⟩

theorem sufficient_of_counter {width counter : Nat} (wide : 8 ≤ width)
    (drawn : buf.bytes =
      (Hwrng.hwrngDevGetRngData width counter (hwkeyOpaqueHandleSize + 2)).1) :
    buf.Sufficient := by
  rw [Hwrng.hwrngDevGetRngData_bytes wide] at drawn
  have short : hwkeyOpaqueHandleSize + 2 ≤ 256 := by decide
  have enough : hwkeyOpaqueHandleSize + 2 ≤ ((Hwrng.counterBytes counter
      (hwkeyOpaqueHandleSize + 2)).filter (· ≠ 0)).length + 1 :=
    Hwrng.length_filter_counterBytes short
  rw [RandomBuf.Sufficient, drawn]
  omega

/-- The loop stops at the first buffer that is enough, and the token has bytes of that
buffer only; if the RNG fails before, the entry is removed.  No store goes to the
terminator or behind the token, and with the counter of the fake provider the first
buffer is enough. -/
theorem token_extraction_takes_fresh_bytes {env : Env} {handles : List OpaqueHandleNode}
    {slot : Nat} {cursor : Cursor} {kbuf : List UInt8} (klen : Nat)
    (found : findOpaqueHandleForSlot slot handles = some cursor)
    (empty : cursor.entry.token = .empty) (space : hwkeyOpaqueHandleSize ≤ kbuf.length) :
    (∀ rejected : List RandomBuf, (∀ other ∈ rejected, ¬ other.Sufficient) →
      (∀ (buf : RandomBuf) (sufficient : buf.Sufficient) draws,
        env.draws = rejected.map .ok ++ .ok buf :: draws →
        getKeyHandle env handles slot kbuf klen =
          .ok ⟨⟨.noError, Bytes.overwrite kbuf (buf.accessToken sufficient).bytes,
              hwkeyOpaqueHandleSize⟩,
            cursor.setToken (buf.accessToken sufficient),
            [.issued slot (buf.accessToken sufficient)]⟩) ∧
      (∀ rc draws, env.draws = rejected.map .ok ++ .error rc :: draws →
        getKeyHandle env handles slot kbuf klen =
          .ok ⟨⟨.kernel rc, kbuf, klen⟩, cursor.before ++ cursor.after, []⟩) ∧
      (env.draws = rejected.map .ok →
        getKeyHandle env handles slot kbuf klen = .error .drawing)) ∧
    (∀ (bytes : List UInt8) (token : AccessToken),
      (fillToken bytes token 0).1 =
          (tokenStores bytes 0).foldl (fun token store => token.write store.1 store.2) token ∧
        ∀ store ∈ tokenStores bytes 0, store.1 < hwkeyOpaqueHandleSize - 1) ∧
    ∀ width counter : Nat, width = 32 ∨ width = 64 → counter < 2 ^ width →
      ∀ (buf : RandomBuf) draws, buf.bytes =
          (Hwrng.hwrngDevGetRngData width counter (hwkeyOpaqueHandleSize + 2)).1 →
        env.draws = .ok buf :: draws →
        ∃ sufficient, getKeyHandle env handles slot kbuf klen =
          .ok ⟨⟨.noError, Bytes.overwrite kbuf (buf.accessToken sufficient).bytes,
              hwkeyOpaqueHandleSize⟩,
            cursor.setToken (buf.accessToken sufficient),
            [.issued slot (buf.accessToken sufficient)]⟩ := by
  refine ⟨?_, ?_, ?_⟩
  · intro rejected insufficient
    refine ⟨?_, ?_, ?_⟩
    · intro buf sufficient draws answers
      apply getKeyHandle_issued klen found empty space _ (buf.accessToken_wellFormed sufficient)
      rw [answers, drawToken_first insufficient sufficient]
    · intro rc draws answers
      apply getKeyHandle_rngFailed klen found empty space
      rw [answers, drawToken_failed insufficient rc draws]
    · intro answers
      apply getKeyHandle_drawing klen found empty space
      rw [answers, drawToken_pending insufficient]
  · intro bytes token
    exact ⟨fillToken_eq_stores bytes token 0, fun store => tokenStores_inside⟩
  · intro width counter sizeT inRange buf draws drawn answers
    have sufficient := sufficient_of_counter (by omega) drawn
    refine ⟨sufficient, ?_⟩
    apply getKeyHandle_issued klen found empty space _ (buf.accessToken_wellFormed sufficient)
    rw [answers, drawToken_sufficient sufficient]

/-- A draw in which `size_t` wraps. -/
def wrappingBuf : RandomBuf where
  bytes := (Hwrng.hwrngDevGetRngData 64 (2 ^ 64 - 3) (hwkeyOpaqueHandleSize + 2)).1
  size := by
    rw [Hwrng.hwrngDevGetRngData_bytes (by decide)]
    exact Hwrng.length_counterBytes _ _

def wrappingEnv : Env := ⟨true, [.ok wrappingBuf], successfulOutcomes⟩

theorem token_extraction_takes_fresh_bytes_wrapping :
    ∃ sufficient, getKeyHandle wrappingEnv [⟨0, 1, .empty⟩] 0 (List.replicate 32 0) 0 =
      .ok ⟨⟨.noError, (wrappingBuf.accessToken sufficient).bytes, 32⟩,
        [⟨0, 1, wrappingBuf.accessToken sufficient⟩],
        [.issued 0 (wrappingBuf.accessToken sufficient)]⟩ := by
  have found : findOpaqueHandleForSlot 0 [⟨0, 1, .empty⟩] = some ⟨[], ⟨0, 1, .empty⟩, []⟩ := rfl
  have space : hwkeyOpaqueHandleSize ≤ (List.replicate 32 (0 : UInt8)).length := by decide
  obtain ⟨-, -, counts⟩ := token_extraction_takes_fresh_bytes 0 found rfl space
  obtain ⟨sufficient, issued⟩ := counts 64 (2 ^ 64 - 3) (.inr rfl) (by decide) wrappingBuf []
    rfl (show wrappingEnv.draws = [.ok wrappingBuf] from rfl)
  have covers : (List.replicate 32 (0 : UInt8)).length ≤
      (wrappingBuf.accessToken sufficient).bytes.length := by
    rw [(wrappingBuf.accessToken sufficient).size]
    decide
  refine ⟨sufficient, issued.trans ?_⟩
  rw [Bytes.overwrite, List.drop_eq_nil_of_le covers, List.append_nil]
  rfl

end TrustyApp.Hwkey
