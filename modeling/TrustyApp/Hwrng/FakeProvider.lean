import Mathlib.Data.List.Nodup
import Mathlib.Data.UInt

/-!
# The RNG of the fake provider

`hwrng_srv_fake_provider.c` numbers the bytes it delivers: it has a period of 256, and
no two of up to 256 successive bytes are the same.
-/

namespace TrustyApp.Hwrng

/-- The loop of `hwrng_dev_get_rng_data`: what it writes, and the static `counter`
afterwards.  `width` is the size of `size_t` in bits. -/
def hwrngDevGetRngData (width : Nat) : (counter bufLen : Nat) → List UInt8 × Nat
  | counter, 0 => ([], counter)
  | counter, bufLen + 1 =>
      let (bytes, after) := hwrngDevGetRngData width ((counter + 1) % 2 ^ width) bufLen
      (UInt8.ofNat counter :: bytes, after)

def counterBytes (counter : Nat) : (len : Nat) → List UInt8
  | 0 => []
  | len + 1 => UInt8.ofNat counter :: counterBytes (counter + 1) len

variable {width counter other len : Nat}

theorem ofNat_eq_ofNat_iff : UInt8.ofNat counter = UInt8.ofNat other ↔
    counter % 256 = other % 256 := by
  rw [← UInt8.toNat_inj, UInt8.toNat_ofNat', UInt8.toNat_ofNat']

@[simp] theorem length_counterBytes (counter len : Nat) :
    (counterBytes counter len).length = len := by
  induction len generalizing counter with
  | zero => rfl
  | succ len inductionHypothesis => simp [counterBytes, inductionHypothesis]

theorem counterBytes_congr (same : counter % 256 = other % 256) (len : Nat) :
    counterBytes counter len = counterBytes other len := by
  induction len generalizing counter other with
  | zero => rfl
  | succ len inductionHypothesis =>
      rw [counterBytes, counterBytes, ofNat_eq_ofNat_iff.mpr same,
        inductionHypothesis (show (counter + 1) % 256 = (other + 1) % 256 by omega)]

theorem mod_two_pow_mod (wide : 8 ≤ width) : counter % 2 ^ width % 256 = counter % 256 :=
  Nat.mod_mod_of_dvd counter (Nat.pow_dvd_pow 2 wide)

/-- The wrap of `size_t` does not show in the bytes. -/
theorem hwrngDevGetRngData_bytes (wide : 8 ≤ width) (counter len : Nat) :
    (hwrngDevGetRngData width counter len).1 = counterBytes counter len := by
  induction len generalizing counter with
  | zero => rfl
  | succ len inductionHypothesis =>
      have wrapped : counterBytes ((counter + 1) % 2 ^ width) len =
          counterBytes (counter + 1) len := counterBytes_congr (mod_two_pow_mod wide) len
      simp only [hwrngDevGetRngData, counterBytes, inductionHypothesis, wrapped]

theorem mem_counterBytes {byte : UInt8} (member : byte ∈ counterBytes counter len) :
    ∃ position, position < len ∧ byte = UInt8.ofNat (counter + position) := by
  induction len generalizing counter with
  | zero => cases member
  | succ len inductionHypothesis =>
      rcases List.mem_cons.mp member with first | later
      · exact ⟨0, by omega, first⟩
      · obtain ⟨position, inside, byteIs⟩ := inductionHypothesis later
        refine ⟨position + 1, by omega, ?_⟩
        rw [byteIs, Nat.add_assoc, Nat.add_comm 1]

theorem nodup_counterBytes (short : len ≤ 256) : (counterBytes counter len).Nodup := by
  induction len generalizing counter with
  | zero => exact List.nodup_nil
  | succ len inductionHypothesis =>
      rw [counterBytes, List.nodup_cons]
      refine ⟨?_, inductionHypothesis (by omega)⟩
      intro again
      obtain ⟨position, inside, same⟩ := mem_counterBytes again
      rw [ofNat_eq_ofNat_iff] at same
      omega

/-- At most one of up to 256 successive bytes is zero. -/
theorem length_filter_counterBytes (short : len ≤ 256) :
    len ≤ ((counterBytes counter len).filter (· ≠ 0)).length + 1 := by
  have distinct : (counterBytes counter len).Nodup := nodup_counterBytes short
  have once := List.nodup_iff_count_le_one.mp distinct 0
  have split := List.length_eq_countP_add_countP (· == (0 : UInt8)) (l := counterBytes counter len)
  rw [List.count_eq_countP] at once
  simp only [length_counterBytes, List.countP_eq_length_filter, beq_iff_eq] at once split
  simp only [ne_eq]
  omega

def leadByte (counter : Nat) : UInt8 :=
  if counter % 256 = 0 then 1 else UInt8.ofNat counter

theorem head?_filter_counterBytes (counter len : Nat) :
    ((counterBytes counter (len + 2)).filter (· ≠ 0)).head? = some (leadByte counter) := by
  have zero : UInt8.ofNat counter = 0 ↔ counter % 256 = 0 := ofNat_eq_ofNat_iff
  rw [counterBytes, counterBytes, leadByte]
  by_cases skipped : counter % 256 = 0
  · have one : UInt8.ofNat (counter + 1) = 1 :=
      ofNat_eq_ofNat_iff.mpr (show (counter + 1) % 256 = 1 % 256 by omega)
    simp [zero.mpr skipped, skipped, one]
  · have nonzero : UInt8.ofNat counter ≠ 0 := mt zero.mp skipped
    simp [nonzero, skipped]

end TrustyApp.Hwrng
