import TrustyApp.Keybox.Requests

/-!
# Wrapping of keyboxes

What `keybox_unwrap` undoes, as a function of its own.  A wrapped keybox is intact
exactly when the exclusive or of all its bytes, the checksum included, is zero, so that
a change of a single byte always shows.
-/

namespace TrustyApp.Keybox

variable {wrapped tampered rest output : List UInt8} {outputLen : Nat}

theorem checksum_cons (byte : UInt8) (bytes : List UInt8) :
    checksum (byte :: bytes) = byte ^^^ checksum bytes := by
  have accumulates (start : UInt8) :
      bytes.foldl (· ^^^ ·) start = start ^^^ bytes.foldl (· ^^^ ·) 0 := by
    induction bytes generalizing start with
    | nil => simp
    | cons next bytes inductionHypothesis =>
        simp only [List.foldl_cons]
        rw [inductionHypothesis (start ^^^ next), inductionHypothesis (0 ^^^ next),
          UInt8.zero_xor, UInt8.xor_assoc]
  rw [checksum, List.foldl_cons, accumulates, UInt8.zero_xor, checksum]

theorem checksum_append (first second : List UInt8) :
    checksum (first ++ second) = checksum first ^^^ checksum second := by
  induction first with
  | nil => simp [checksum]
  | cons byte first inductionHypothesis =>
      simp only [List.cons_append, checksum_cons, inductionHypothesis, UInt8.xor_assoc]

theorem intact_iff (notEmpty : wrapped ≠ []) :
    wrapped.getLast? = some (checksum wrapped.dropLast) ↔ checksum wrapped = 0 := by
  have split : checksum wrapped = checksum wrapped.dropLast ^^^ wrapped.getLast notEmpty := by
    nth_rewrite 1 [← List.dropLast_append_getLast notEmpty]
    rw [checksum_append]
    simp [checksum]
  rw [split, List.getLast?_eq_some_getLast notEmpty, Option.some.injEq, UInt8.xor_eq_zero_iff]
  exact eq_comm

/-- The checksum tells which byte stands at a position when the others are known. -/
theorem byte_eq_of_checksum_eq {first second : List UInt8} {byte other : UInt8}
    (same : checksum (first ++ byte :: second) = checksum (first ++ other :: second)) :
    byte = other := by
  simpa only [checksum_append, checksum_cons, UInt8.xor_right_inj, UInt8.xor_left_inj] using same

/-- The masked bytes, followed by their checksum. -/
def wrap (plaintext : List UInt8) : List UInt8 :=
  let masked := plaintext.map (· ^^^ 0x42)
  masked ++ [checksum masked]

theorem length_wrap (plaintext : List UInt8) : (wrap plaintext).length = plaintext.length + 1 := by
  simp [wrap]

theorem map_mask_map_mask (bytes : List UInt8) :
    (bytes.map (· ^^^ 0x42)).map (· ^^^ 0x42) = bytes := by
  have undone (byte : UInt8) : byte ^^^ 0x42 ^^^ 0x42 = byte := by
    rw [UInt8.xor_assoc, UInt8.xor_self, UInt8.xor_zero]
  rw [List.map_map]
  exact List.map_id'' undone bytes

theorem unwrapped_wrap (plaintext : List UInt8) : unwrapped (wrap plaintext) = plaintext := by
  rw [unwrapped, wrap, List.dropLast_concat, map_mask_map_mask]

theorem wrap_intact (plaintext : List UInt8) :
    (wrap plaintext).getLast? = some (checksum (wrap plaintext).dropLast) := by
  simp [wrap]

theorem wrap_unwrapped (intact : wrapped.getLast? = some (checksum wrapped.dropLast)) :
    wrap (unwrapped wrapped) = wrapped := by
  have notEmpty : wrapped ≠ [] := by
    rintro rfl
    simp at intact
  rw [List.getLast?_eq_some_getLast notEmpty, Option.some.injEq] at intact
  rw [wrap, unwrapped, map_mask_map_mask, ← intact, List.dropLast_append_getLast]

/-- What follows the wrapped bytes in memory is not looked at. -/
theorem keyboxUnwrap_of_room (notEmpty : 1 ≤ wrapped.length)
    (room : wrapped.length - 1 ≤ output.length) :
    keyboxUnwrap (wrapped ++ rest) wrapped.length output outputLen =
      if wrapped.getLast? ≠ some (checksum wrapped.dropLast) then
        .ok (.unwrapFail, output, outputLen)
      else .ok (.success, Bytes.overwrite output (unwrapped wrapped), wrapped.length - 1) :=
  keyboxUnwrap_eq outputLen List.take_left notEmpty room

theorem keyboxUnwrap_success {written : List UInt8} {len : Nat}
    (accepted : keyboxUnwrap (wrapped ++ rest) wrapped.length output outputLen =
      .ok (.success, written, len)) :
    1 ≤ wrapped.length ∧ wrapped.length - 1 ≤ output.length ∧
      wrapped.getLast? = some (checksum wrapped.dropLast) ∧
      written = Bytes.overwrite output (unwrapped wrapped) ∧ len = wrapped.length - 1 := by
  by_cases empty : wrapped.length < 1
  · rw [keyboxUnwrap, if_pos empty] at accepted
    cases accepted
  by_cases short : output.length < wrapped.length - 1
  · rw [keyboxUnwrap, if_neg empty, if_pos short] at accepted
    cases accepted
  rw [keyboxUnwrap_of_room (by omega) (by omega)] at accepted
  split at accepted
  · cases accepted
  next intact =>
    cases accepted
    exact ⟨by omega, by omega, not_not.mp intact, rfl, rfl⟩

structure DiffersInOneByte (wrapped tampered : List UInt8) : Prop where
  sameLength : tampered.length = wrapped.length
  oneByte : ∃ position : Nat, tampered[position]? ≠ wrapped[position]? ∧
    ∀ other : Nat, other ≠ position → tampered[other]? = wrapped[other]?

theorem DiffersInOneByte.split (differs : DiffersInOneByte wrapped tampered) :
    ∃ first second byte other, byte ≠ other ∧ wrapped = first ++ byte :: second ∧
      tampered = first ++ other :: second := by
  obtain ⟨sameLength, position, changed, kept⟩ := differs
  have inside : position < wrapped.length := by
    by_contra outside
    apply changed
    rw [List.getElem?_eq_none (by omega), List.getElem?_eq_none (by omega)]
  have insideToo : position < tampered.length := by omega
  have before : tampered.take position = wrapped.take position := by
    apply List.ext_getElem?
    intro index
    by_cases earlier : index < position
    · rw [List.getElem?_take_of_lt earlier, List.getElem?_take_of_lt earlier]
      exact kept index (by omega)
    · rw [List.getElem?_take_eq_none (by omega), List.getElem?_take_eq_none (by omega)]
  have behind : tampered.drop (position + 1) = wrapped.drop (position + 1) := by
    apply List.ext_getElem?
    intro index
    rw [List.getElem?_drop, List.getElem?_drop]
    exact kept _ (by omega)
  refine ⟨wrapped.take position, wrapped.drop (position + 1), wrapped[position],
    tampered[position], ?_, ?_, ?_⟩
  · intro same
    apply changed
    rw [List.getElem?_eq_getElem inside, List.getElem?_eq_getElem insideToo, same]
  · rw [List.getElem_cons_drop, List.take_append_drop]
  · rw [← before, ← behind, List.getElem_cons_drop, List.take_append_drop]

theorem DiffersInOneByte.not_intact (differs : DiffersInOneByte wrapped tampered)
    (intact : wrapped.getLast? = some (checksum wrapped.dropLast)) :
    tampered.getLast? ≠ some (checksum tampered.dropLast) := by
  obtain ⟨first, second, byte, other, changed, rfl, rfl⟩ := differs.split
  intro alsoIntact
  rw [intact_iff (by simp)] at intact alsoIntact
  exact changed (byte_eq_of_checksum_eq (intact.trans alsoIntact.symm))

/-- Unwrapping is the inverse of wrapping, accepts nothing but what wrapping yields, and
turns down every keybox in which one byte was changed. -/
theorem keybox_wrapping_detects_tampering (output : List UInt8) (outputLen : Nat)
    (rest : List UInt8) :
    (∀ plaintext : List UInt8, plaintext.length ≤ output.length →
      keyboxUnwrap (wrap plaintext ++ rest) (wrap plaintext).length output outputLen =
        .ok (.success, plaintext ++ output.drop plaintext.length, plaintext.length)) ∧
    ∀ (wrapped written : List UInt8) (len : Nat),
      keyboxUnwrap (wrapped ++ rest) wrapped.length output outputLen =
        .ok (.success, written, len) →
      wrapped = wrap (written.take len) ∧
        ∀ tampered, DiffersInOneByte wrapped tampered →
          keyboxUnwrap (tampered ++ rest) tampered.length output outputLen =
            .ok (.unwrapFail, output, outputLen) := by
  constructor
  · intro plaintext fits
    have len := length_wrap plaintext
    rw [keyboxUnwrap_of_room (by omega) (by omega), if_neg (not_not.mpr (wrap_intact plaintext)),
      unwrapped_wrap, len]
    rfl
  · intro wrapped written len accepted
    obtain ⟨notEmpty, room, intact, rfl, rfl⟩ := keyboxUnwrap_success accepted
    constructor
    · rw [← length_unwrapped, Bytes.take_overwrite, wrap_unwrapped intact]
    · intro tampered differs
      have len := differs.sameLength
      rw [keyboxUnwrap_of_room (by omega) (by omega), if_pos (differs.not_intact intact)]

theorem keybox_wrapping_detects_tampering_sample :
    keyboxUnwrap [0x43, 0x40, 0x03] 3 [9, 9, 9] 0 = .ok (.success, [1, 2, 9], 2) ∧
      keyboxUnwrap [0x43, 0x41, 0x03] 3 [9, 9, 9] 0 = .ok (.unwrapFail, [9, 9, 9], 0) := by
  obtain ⟨unwraps, detects⟩ := keybox_wrapping_detects_tampering [9, 9, 9] 0 []
  have accepted := unwraps [1, 2] (by decide)
  refine ⟨accepted, (detects [0x43, 0x40, 0x03] _ _ accepted).2 [0x43, 0x41, 0x03] ⟨rfl, 1, ?_⟩⟩
  refine ⟨by decide, fun other elsewhere => ?_⟩
  match other with
  | 0 | 2 => rfl
  | 1 => exact absurd rfl elsewhere
  | _ + 3 => rfl

end TrustyApp.Keybox
