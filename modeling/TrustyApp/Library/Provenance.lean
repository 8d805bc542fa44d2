import Mathlib.Data.List.Basic
import Mathlib.Data.List.Lattice

/-!
# Where values come from

Values taken one after another from a source carry the position they were taken
from.  Items are handed out one after another, too; they have no position in common
as long as each consists of values taken after the items before it.
-/

namespace Provenance

/-- A value with its position in the source; other values have no position. -/
structure Tagged (Value : Type*) where
  value : Value
  origin : Option Nat
  deriving DecidableEq

variable {Value : Type*} {source : Nat → Value} {buf data item : List (Tagged Value)}
  {next next' count : Nat} {items : List (List (Tagged Value))}

def values (item : List (Tagged Value)) : List Value := item.map Tagged.value

def positions (item : List (Tagged Value)) : List Nat := item.filterMap Tagged.origin

def overwrite (buf data : List (Tagged Value)) : List (Tagged Value) :=
  data ++ buf.drop data.length

def draw (source : Nat → Value) (next count : Nat) : List (Tagged Value) :=
  (List.range count).map fun i => ⟨source (next + i), some (next + i)⟩

@[simp] theorem length_draw (source : Nat → Value) (next count : Nat) :
    (draw source next count).length = count := by simp [draw]

theorem values_draw_succ (source : Nat → Value) (next count : Nat) :
    values (draw source next (count + 1)) =
      source next :: values (draw source (next + 1) count) := by
  simp only [values, draw, List.map_map, List.range_succ_eq_map, List.map_cons,
    Function.comp_def, Nat.add_zero, Nat.succ_eq_add_one, Nat.add_assoc, Nat.add_comm 1]

theorem values_overwrite (buf data : List (Tagged Value)) :
    values (overwrite buf data) = values data ++ (values buf).drop (values data).length := by
  simp [values, overwrite]

theorem take_overwrite (buf data : List (Tagged Value)) :
    (overwrite buf data).take data.length = data := by simp [overwrite]

/-- Every value is the one that the source has at its position. -/
def FromSource (source : Nat → Value) (item : List (Tagged Value)) : Prop :=
  ∀ tagged ∈ item, ∃ position, tagged.origin = some position ∧ tagged.value = source position

def Within (next next' : Nat) (item : List (Tagged Value)) : Prop :=
  ∀ position ∈ positions item, next ≤ position ∧ position < next'

theorem fromSource_draw (source : Nat → Value) (next count : Nat) :
    FromSource source (draw source next count) := by
  intro tagged member
  obtain ⟨i, -, rfl⟩ := List.mem_map.mp member
  exact ⟨next + i, rfl, rfl⟩

theorem within_draw (source : Nat → Value) (next count : Nat) :
    Within next (next + count) (draw source next count) := by
  intro position member
  obtain ⟨tagged, drawn, origin⟩ := List.mem_filterMap.mp member
  obtain ⟨i, inRange, rfl⟩ := List.mem_map.mp drawn
  have bound := List.mem_range.mp inRange
  obtain rfl := Option.some.inj origin
  omega

theorem FromSource.of_subset (fromSource : FromSource source data) (subset : item ⊆ data) :
    FromSource source item := fun tagged member => fromSource tagged (subset member)

theorem Within.of_subset (within : Within next next' data) (subset : item ⊆ data) :
    Within next next' item := by
  intro position member
  obtain ⟨tagged, inItem, origin⟩ := List.mem_filterMap.mp member
  exact within position (List.mem_filterMap.mpr ⟨tagged, subset inItem, origin⟩)

/-- Items without a common position, all of them taken before position `next`. -/
structure Separate (next : Nat) (items : List (List (Tagged Value))) : Prop where
  disjoint : items.Pairwise fun later earlier => (positions later).Disjoint (positions earlier)
  taken : ∀ item ∈ items, ∀ position ∈ positions item, position < next

theorem Separate.nil : Separate next ([] : List (List (Tagged Value))) := ⟨.nil, by simp⟩

/-- Values that are taken and not handed out are lost. -/
theorem Separate.skip (separate : Separate next items) (later : next ≤ next') :
    Separate next' items :=
  ⟨separate.disjoint, fun item member position inItem =>
    Nat.lt_of_lt_of_le (separate.taken item member position inItem) later⟩

theorem Separate.release (separate : Separate next items) (within : Within next next' item)
    (later : next ≤ next') : Separate next' (item :: items) := by
  constructor
  · refine List.pairwise_cons.mpr ⟨?_, separate.disjoint⟩
    intro earlier member position inItem inEarlier
    have atLeast := (within position inItem).1
    have before := separate.taken earlier member position inEarlier
    omega
  · intro other member position inOther
    rcases List.mem_cons.mp member with rfl | member
    · exact (within position inOther).2
    · exact Nat.lt_of_lt_of_le (separate.taken other member position inOther) later

end Provenance
