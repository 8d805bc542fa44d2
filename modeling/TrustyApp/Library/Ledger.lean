import Mathlib.Algebra.Order.Ring.Int
import Mathlib.Data.Multiset.Count

/-!
# Ledgers of acquired resources

A ledger lists what was acquired and released, the newest entry first.  What is
outstanding is counted over the whole ledger, whether or not a release was of
something held; a ledger that leaves a multiset of resources held releases nothing else.
-/

namespace Ledger

inductive Entry (Resource : Type*)
  | acquire (resource : Resource)
  | release (resource : Resource)
  deriving DecidableEq

variable {Resource : Type*}

/-- How many more resources of this sort were acquired than released. -/
def outstanding (sort : Resource → Prop) [DecidablePred sort] : List (Entry Resource) → Int
  | [] => 0
  | .acquire resource :: ledger => outstanding sort ledger + if sort resource then 1 else 0
  | .release resource :: ledger => outstanding sort ledger - if sort resource then 1 else 0

/-- Every release was of a resource acquired and not yet released. -/
def OnlyHeld [DecidableEq Resource] : List (Entry Resource) → Prop
  | [] => True
  | .acquire _ :: ledger => OnlyHeld ledger
  | .release resource :: ledger => 0 < outstanding (· = resource) ledger ∧ OnlyHeld ledger

inductive Holds : List (Entry Resource) → Multiset Resource → Prop
  | nil : Holds [] 0
  | acquire {ledger : List (Entry Resource)} {held : Multiset Resource} (resource : Resource) :
      Holds ledger held → Holds (.acquire resource :: ledger) (resource ::ₘ held)
  | release {ledger : List (Entry Resource)} {held : Multiset Resource} {resource : Resource} :
      Holds ledger (resource ::ₘ held) → Holds (.release resource :: ledger) held

variable {ledger : List (Entry Resource)} {held : Multiset Resource}
  {resource : Resource}

theorem Holds.outstanding_eq (holds : Holds ledger held) (sort : Resource → Prop)
    [DecidablePred sort] : outstanding sort ledger = held.countP sort := by
  induction holds with
  | nil => simp [outstanding]
  | acquire resource holds inductionHypothesis =>
      rw [outstanding, inductionHypothesis, Multiset.countP_cons]
      split <;> simp
  | release holds inductionHypothesis =>
      rw [outstanding, inductionHypothesis, Multiset.countP_cons]
      split <;> simp

theorem Holds.onlyHeld [DecidableEq Resource] (holds : Holds ledger held) : OnlyHeld ledger := by
  induction holds with
  | nil => trivial
  | acquire resource holds inductionHypothesis => exact inductionHypothesis
  | @release ledger held resource holds inductionHypothesis =>
      constructor
      · rw [holds.outstanding_eq]
        simp
      · exact inductionHypothesis

theorem acquired_of_outstanding [DecidableEq Resource]
    (positive : 0 < outstanding (· = resource) ledger) : .acquire resource ∈ ledger := by
  induction ledger with
  | nil => simp [outstanding] at positive
  | cons entry ledger inductionHypothesis =>
      cases entry with
      | acquire other =>
          by_cases same : other = resource
          · simp [same]
          · apply List.mem_cons_of_mem
            apply inductionHypothesis
            simpa [outstanding, same] using positive
      | release other =>
          apply List.mem_cons_of_mem
          apply inductionHypothesis
          rw [outstanding] at positive
          split at positive <;> omega

theorem OnlyHeld.acquired [DecidableEq Resource] (onlyHeld : OnlyHeld ledger)
    (released : .release resource ∈ ledger) : .acquire resource ∈ ledger := by
  induction ledger with
  | nil => simp at released
  | cons entry ledger inductionHypothesis =>
      apply List.mem_cons_of_mem
      cases entry with
      | acquire other =>
          exact inductionHypothesis onlyHeld (by simpa using released)
      | release other =>
          rcases List.mem_cons.mp released with same | released
          · obtain rfl := Entry.release.inj same
            exact acquired_of_outstanding onlyHeld.1
          · exact inductionHypothesis onlyHeld.2 released

end Ledger
