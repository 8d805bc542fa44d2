import Mathlib.Data.List.Basic
import Mathlib.Data.UInt

/-!
# Byte buffers and C strings

A buffer is the list of its bytes.  Writing data at its start keeps the bytes
behind the data, which is what stays visible of earlier uses of the buffer.  A C
string is what stands before the first zero byte.
-/

namespace Bytes

/-- The buffer after writing `data` at its start. -/
def overwrite (buf data : List UInt8) : List UInt8 := data ++ buf.drop data.length

theorem length_overwrite {buf data : List UInt8} (fits : data.length ≤ buf.length) :
    (overwrite buf data).length = buf.length := by
  simp [overwrite, fits]

@[simp] theorem take_overwrite (buf data : List UInt8) :
    (overwrite buf data).take data.length = data := by
  simp [overwrite]

def Clear (bytes : List UInt8) : Prop := ∀ byte ∈ bytes, byte = 0

theorem clear_replicate (len : Nat) : Clear (List.replicate len 0) := by
  intro byte member
  exact List.eq_of_mem_replicate member

/-- Data written into a cleared buffer is all that can be seen in it. -/
theorem clear_overwrite_iff {buf data : List UInt8} (clear : Clear buf) :
    Clear (overwrite buf data) ↔ Clear data := by
  constructor
  · intro written byte member
    exact written byte (List.mem_append_left _ member)
  · intro dataClear byte member
    rcases List.mem_append.mp member with member | member
    · exact dataClear byte member
    · exact clear byte (List.mem_of_mem_drop member)

theorem overwrite_overwrite {buf data more : List UInt8} (covers : data.length ≤ more.length) :
    overwrite (overwrite buf data) more = overwrite buf more := by
  simp only [overwrite, List.drop_append, List.drop_eq_nil_of_le covers, List.nil_append,
    List.drop_drop, Nat.add_sub_cancel' covers]

theorem exists_overwrite_ne {data : List UInt8} (len : Nat) (nonempty : data ≠ [])
    (positive : 0 < len) :
    ∃ contents : List UInt8, contents.length = len ∧
      overwrite contents data ≠ contents := by
  cases data with
  | nil => exact absurd rfl nonempty
  | cons byte rest =>
      refine ⟨List.replicate len (byte + 1), List.length_replicate, ?_⟩
      intro same
      have heads := congrArg List.head? same
      rw [List.head?_replicate, if_neg positive.ne'] at heads
      have fixed : byte = byte + 1 := Option.some.inj heads
      simp at fixed

theorem exists_overwrite_ne_of_short {data whole : List UInt8} {len : Nat}
    (short : data.length < len) (wholeLength : whole.length = len) :
    ∃ contents : List UInt8, contents.length = len ∧ overwrite contents data ≠ whole := by
  have inside : len - 1 < whole.length := by omega
  refine ⟨List.replicate len (whole[len - 1] + 1), List.length_replicate, ?_⟩
  intro same
  have last := congrArg (fun bytes : List UInt8 => bytes[len - 1]?) same
  simp only [overwrite] at last
  rw [List.getElem?_append_right (by omega), List.getElem?_drop,
    show data.length + (len - 1 - data.length) = len - 1 by omega,
    List.getElem?_replicate, if_pos (by omega), List.getElem?_eq_getElem inside] at last
  have fixed := Option.some.inj last
  simp at fixed

/-- The C string that starts at the first byte. -/
def cstr : List UInt8 → List UInt8
  | [] => []
  | byte :: rest => if byte = 0 then [] else byte :: cstr rest

theorem cstr_append_nul (bytes rest : List UInt8) : cstr (bytes ++ 0 :: rest) = cstr bytes := by
  induction bytes with
  | nil => simp [cstr]
  | cons byte bytes inductionHypothesis => simp [cstr, inductionHypothesis]

theorem zero_notMem_cstr (bytes : List UInt8) : 0 ∉ cstr bytes := by
  induction bytes with
  | nil => simp [cstr]
  | cons byte bytes inductionHypothesis =>
      by_cases zero : byte = 0
      · simp [cstr, zero]
      · simpa [cstr, zero, inductionHypothesis] using Ne.symm zero

theorem cstr_eq_self {bytes : List UInt8} (noNul : 0 ∉ bytes) : cstr bytes = bytes := by
  induction bytes with
  | nil => rfl
  | cons byte bytes inductionHypothesis =>
      simp only [List.mem_cons, not_or] at noNul
      simp [cstr, Ne.symm noNul.1, inductionHypothesis noNul.2]

/-- A terminated string stands at the start of a buffer exactly when it is the C
string there and the terminator lies within the buffer. -/
theorem take_eq_terminated_iff {bytes text : List UInt8} (noNul : 0 ∉ text) :
    bytes.take (text.length + 1) = text ++ [0] ↔
      cstr bytes = text ∧ text.length < bytes.length := by
  induction text generalizing bytes with
  | nil =>
      cases bytes with
      | nil => simp
      | cons byte bytes => by_cases zero : byte = 0 <;> simp [cstr, zero]
  | cons char text inductionHypothesis =>
      simp only [List.mem_cons, not_or] at noNul
      cases bytes with
      | nil => simp
      | cons byte bytes =>
          by_cases same : byte = char
          · subst same
            simp [cstr, Ne.symm noNul.1, inductionHypothesis noNul.2]
          · have different : cstr (byte :: bytes) ≠ char :: text := by
              by_cases zero : byte = 0 <;> simp [cstr, zero, same]
            simp [same, different]

end Bytes
