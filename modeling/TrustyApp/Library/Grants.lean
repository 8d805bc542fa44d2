import Mathlib.Data.List.Find
import Mathlib.Data.List.Nodup

/-!
# Grants

A service hands out secrets for its resources.  An entry of its store records a
resource, the holder to whom the secret was given, and the secret; whoever is
allowed to use the resource may redeem the secret.  What an entry is made of is a
parameter.
-/

namespace Grants

variable {Entry Resource Holder Secret : Type*}

def Exclusive (resource : Entry → Resource) (entries : List Entry) : Prop :=
  (entries.map resource).Nodup

/-- The store without the grants of a holder. -/
def revoke [DecidableEq Holder] (holder : Entry → Holder) (gone : Holder)
    (entries : List Entry) : List Entry :=
  entries.filter fun entry => holder entry ≠ gone

/-- The first entry that opens for a secret and that may be used. -/
def redeem [DecidableEq Secret] (allowed : Entry → Bool) (secret : Entry → Secret)
    (presented : Secret) (entries : List Entry) : Option Entry :=
  entries.find? fun entry => allowed entry && decide (secret entry = presented)

section Exclusive

variable {resource : Entry → Resource} {entries : List Entry} {entry other : Entry}

theorem Exclusive.nil : Exclusive resource [] := List.nodup_nil

theorem Exclusive.unique (exclusive : Exclusive resource entries) (member : entry ∈ entries)
    (otherMember : other ∈ entries) (same : resource entry = resource other) : entry = other :=
  List.inj_on_of_nodup_map exclusive member otherMember same

theorem Exclusive.append (exclusive : Exclusive resource entries)
    (fresh : ∀ entry ∈ entries, resource entry ≠ resource other) :
    Exclusive resource (entries ++ [other]) := by
  unfold Exclusive at exclusive ⊢
  rw [List.map_append, List.nodup_append]
  refine ⟨exclusive, List.nodup_singleton _, ?_⟩
  intro first isFirst second isSecond
  obtain ⟨entry, member, rfl⟩ := List.mem_map.mp isFirst
  rw [List.map_singleton, List.mem_singleton] at isSecond
  exact isSecond ▸ fresh entry member

variable [DecidableEq Holder] {holder : Entry → Holder} {gone : Holder}

theorem mem_revoke :
    entry ∈ revoke holder gone entries ↔ entry ∈ entries ∧ holder entry ≠ gone := by
  simp [revoke]

theorem Exclusive.revoke (exclusive : Exclusive resource entries) :
    Exclusive resource (revoke holder gone entries) :=
  List.Nodup.sublist (List.filter_sublist.map resource) exclusive

end Exclusive

section Redeem

variable [DecidableEq Secret] {allowed : Entry → Bool} {secret : Entry → Secret}
  {presented : Secret} {entries : List Entry} {entry : Entry}

theorem redeem_cons :
    redeem allowed secret presented (entry :: entries) =
      if allowed entry = true ∧ secret entry = presented then some entry
      else redeem allowed secret presented entries := by
  by_cases opens : allowed entry = true ∧ secret entry = presented
  · simp [redeem, opens]
  · have skipped : (allowed entry && decide (secret entry = presented)) = false := by
      simpa using opens
    simp [redeem, skipped, opens]

theorem redeem_eq_some (found : redeem allowed secret presented entries = some entry) :
    entry ∈ entries ∧ allowed entry = true ∧ secret entry = presented := by
  have opens := List.find?_some found
  simp only [Bool.and_eq_true, decide_eq_true_eq] at opens
  exact ⟨List.mem_of_find?_eq_some found, opens⟩

theorem redeem_filter {keep : Entry → Bool}
    (usableKept : ∀ entry ∈ entries, allowed entry = true → keep entry = true) :
    redeem allowed secret presented (entries.filter keep) =
      redeem allowed secret presented entries := by
  unfold redeem
  rw [List.find?_filter]
  apply List.find?_congr
  intro entry member
  cases usable : allowed entry with
  | false => simp
  | true => simp [usableKept entry member usable]

theorem redeem_eq_none :
    redeem allowed secret presented entries = none ↔
      ∀ entry ∈ entries, ¬ (allowed entry = true ∧ secret entry = presented) := by
  simp [redeem]

/-- Two stores whose entries correspond, as far as redeeming them is concerned. -/
theorem redeem_forall₂ {Other : Type*} {Corresponds : Entry → Other → Prop}
    {allowedOther : Other → Bool} {secretOther : Other → Secret} {others : List Other}
    (corresponds : List.Forall₂ Corresponds entries others)
    (sameAllowed : ∀ entry other, Corresponds entry other → allowedOther other = allowed entry)
    (sameSecret : ∀ entry other, Corresponds entry other → secretOther other = secret entry) :
    Option.Rel Corresponds (redeem allowed secret presented entries)
      (redeem allowedOther secretOther presented others) := by
  induction corresponds with
  | nil => exact .none
  | @cons entry other entries others first rest inductionHypothesis =>
      rw [redeem_cons, redeem_cons, sameAllowed entry other first, sameSecret entry other first]
      split
      · exact .some first
      · exact inductionHypothesis

theorem redeem_of_mem (member : entry ∈ entries) (usable : allowed entry = true)
    (own : ∀ other ∈ entries, secret other = secret entry → other = entry) :
    redeem allowed secret (secret entry) entries = some entry := by
  cases found : redeem allowed secret (secret entry) entries with
  | none => exact absurd ⟨usable, rfl⟩ (redeem_eq_none.mp found entry member)
  | some other =>
      obtain ⟨otherMember, -, same⟩ := redeem_eq_some found
      rw [own other otherMember same]

end Redeem

end Grants
