import Mathlib.Data.List.Chain

/-!
# Exclusive ownership

A resource has at most one owner.  A client takes turns to acquire and to release it,
and each turn is an error unless the owner is the right one.
-/

namespace Ownership

inductive Turn
  | acquire
  | release
  deriving DecidableEq

variable {Client : Type*} [DecidableEq Client] {client : Client} {owner after : Option Client}
  {turn : Turn} {turns : List Turn}

def Turn.take (client : Client) (owner : Option Client) : Turn → Option (Option Client)
  | .acquire => if owner = none then some (some client) else none
  | .release => if owner = some client then some none else none

def takeAll (client : Client) : List Turn → Option Client → Option (Option Client)
  | [], owner => some owner
  | turn :: turns, owner => (turn.take client owner).bind (takeAll client turns)

/-- The first turn goes with the owner. -/
def Suits (client : Client) (owner : Option Client) (first : Turn) : Prop :=
  match owner with
  | none => first = .acquire
  | some other => other = client ∧ first = .release

/-- The turns alternate, and the first of them goes with the owner. -/
structure Fits (client : Client) (owner : Option Client) (turns : List Turn) : Prop where
  alternate : turns.IsChain (· ≠ ·)
  first : ∀ first ∈ turns.head?, Suits client owner first

def ownerAfter (client : Client) (owner : Option Client) (turns : List Turn) : Option Client :=
  match turns.getLast? with
  | none => owner
  | some .acquire => some client
  | some .release => none

def Paired (turns : List Turn) : Prop :=
  ∃ k, turns = (List.replicate k [Turn.acquire, Turn.release]).flatten

theorem take_eq_some :
    turn.take client owner = some after ↔
      Suits client owner turn ∧ after = ownerAfter client owner [turn] := by
  cases turn with
  | acquire =>
      cases owner with
      | none => simp [Turn.take, Suits, ownerAfter, eq_comm]
      | some other => simp [Turn.take, Suits]
  | release =>
      cases owner with
      | none => simp [Turn.take, Suits]
      | some other =>
          by_cases own : other = client
          · simp [Turn.take, Suits, own, ownerAfter, eq_comm]
          · simp [Turn.take, Suits, own]

omit [DecidableEq Client] in
theorem suits_ownerAfter {next : Turn} :
    Suits client (ownerAfter client owner [turn]) next ↔ turn ≠ next := by
  cases turn <;> cases next <;> simp [Suits, ownerAfter]

omit [DecidableEq Client] in
theorem fits_cons :
    Fits client owner (turn :: turns) ↔
      Suits client owner turn ∧ Fits client (ownerAfter client owner [turn]) turns := by
  constructor
  · rintro ⟨alternate, first⟩
    rw [List.isChain_cons] at alternate
    refine ⟨first turn rfl, alternate.2, ?_⟩
    intro next isNext
    exact suits_ownerAfter.mpr (alternate.1 next isNext)
  · rintro ⟨suits, alternate, first⟩
    constructor
    · rw [List.isChain_cons]
      refine ⟨?_, alternate⟩
      intro next isNext
      exact suits_ownerAfter.mp (first next isNext)
    · intro next isNext
      obtain rfl := Option.some.inj isNext
      exact suits

omit [DecidableEq Client] in
theorem ownerAfter_cons :
    ownerAfter client owner (turn :: turns) =
      ownerAfter client (ownerAfter client owner [turn]) turns := by
  unfold ownerAfter
  cases last : turns.getLast? with
  | none => simp [List.getLast?_cons, last]
  | some final => cases final <;> simp [List.getLast?_cons, last]

/-- No turn is an error exactly when the turns fit the owner. -/
theorem takeAll_eq_some :
    takeAll client turns owner = some after ↔
      Fits client owner turns ∧ after = ownerAfter client owner turns := by
  induction turns generalizing owner with
  | nil =>
      have fits : Fits client owner [] := ⟨.nil, by simp⟩
      simp [takeAll, fits, ownerAfter, eq_comm]
  | cons turn turns inductionHypothesis =>
      rw [takeAll, Option.bind_eq_some_iff, fits_cons]
      simp only [take_eq_some, inductionHypothesis]
      constructor
      · rintro ⟨_, ⟨suits, rfl⟩, fits, rfl⟩
        exact ⟨⟨suits, fits⟩, ownerAfter_cons.symm⟩
      · rintro ⟨⟨suits, fits⟩, rfl⟩
        exact ⟨_, ⟨suits, rfl⟩, fits, ownerAfter_cons⟩

theorem takeAll_of_paired (paired : Paired turns) : takeAll client turns none = some none := by
  obtain ⟨k, rfl⟩ := paired
  induction k with
  | zero => rfl
  | succ k inductionHypothesis =>
      simpa [List.replicate_succ, takeAll, Turn.take] using inductionHypothesis

end Ownership
