import Mathlib.Data.List.Basic
import Mathlib.Data.List.Nodup

/-!
# Walking a linked list while its entries are deleted

`forEverySafe` is the loop that reads the link of the current node before the
body runs, so that the body may unlink the current node.  Against the list the
body sees, not against a copy, it visits the nodes of the list as it was at the
start: the walk is a fold over that list.
-/

namespace SafeWalk

variable {State Node Error : Type*} [DecidableEq Node]

def next : List Node → Node → Option Node
  | [], _ => none
  | head :: rest, node => if head = node then rest.head? else next rest node

theorem next_append_cons (before after : List Node) (node : Node) (fresh : node ∉ before) :
    next (before ++ node :: after) node = after.head? := by
  induction before with
  | nil => simp [next]
  | cons head before inductionHypothesis =>
      have ne : head ≠ node := fun equal => fresh (by simp [equal])
      have fresh' : node ∉ before := fun member => fresh (by simp [member])
      simp [next, ne, inductionHypothesis fresh']

/-- Follow the links from `current`.  Following the link of a node that is not in
the list, or more nodes than there were, is an error. -/
def walk (nodes : State → List Node) (stale : Node → Error)
    (body : State → Node → Except Error State) :
    Nat → State → Option Node → Except Error State
  | _, state, none => .ok state
  | 0, _, some node => .error (stale node)
  | fuel + 1, state, some node =>
      if node ∈ nodes state then
        let temp := next (nodes state) node
        match body state node with
        | .error error => .error error
        | .ok state => walk nodes stale body fuel state temp
      else .error (stale node)

def forEverySafe (nodes : State → List Node) (stale : Node → Error)
    (body : State → Node → Except Error State) (state : State) : Except Error State :=
  walk nodes stale body (nodes state).length state (nodes state).head?

/-- The body leaves the list alone or unlinks the node it was called on. -/
def UnlinksOnlyCurrent (nodes : State → List Node)
    (body : State → Node → Except Error State) : Prop :=
  ∀ state node state', body state node = .ok state' →
    nodes state' = nodes state ∨ nodes state' = (nodes state).erase node

variable {nodes : State → List Node} {stale : Node → Error}
  {body : State → Node → Except Error State}

theorem walk_eq_foldlM (unlinks : UnlinksOnlyCurrent nodes body) (visited rest : List Node)
    (fuel : Nat) (state : State) (shape : nodes state = visited ++ rest)
    (nodup : (visited ++ rest).Nodup) (enough : rest.length ≤ fuel) :
    walk nodes stale body fuel state rest.head? = rest.foldlM body state := by
  induction rest generalizing visited fuel state with
  | nil => cases fuel <;> rfl
  | cons node rest inductionHypothesis =>
      obtain ⟨fuel, rfl⟩ : ∃ less, fuel = less + 1 :=
        ⟨fuel - 1, by simp only [List.length_cons] at enough; omega⟩
      have member : node ∈ nodes state := by simp [shape]
      have fresh : node ∉ visited := by
        intro inVisited
        exact (List.nodup_append.mp nodup).2.2 node inVisited node (by simp) rfl
      simp only [List.head?_cons, walk, member, if_true, List.foldlM_cons]
      rw [shape, next_append_cons visited rest node fresh]
      cases result : body state node with
      | error error => rfl
      | ok state' =>
          simp only [List.length_cons, Nat.add_le_add_iff_right] at enough
          rcases unlinks state node state' result with same | erased
          · apply inductionHypothesis (visited ++ [node]) fuel state' _ _ enough
            · simp [same, shape]
            · simpa using nodup
          · apply inductionHypothesis visited fuel state' _ _ enough
            · rw [erased, shape, List.erase_append_right _ fresh, List.erase_cons_head]
            · exact nodup.sublist
                (List.Sublist.append_left (List.sublist_cons_self node rest) visited)

/-- A safe walk is a fold over the list as it was when the walk began. -/
theorem forEverySafe_eq_foldlM (unlinks : UnlinksOnlyCurrent nodes body) (state : State)
    (nodup : (nodes state).Nodup) :
    forEverySafe nodes stale body state = (nodes state).foldlM body state :=
  walk_eq_foldlM unlinks [] (nodes state) (nodes state).length state rfl nodup
    (Nat.le_refl _)

omit [DecidableEq Node] in
/-- The rule for the loop: what holds of the nodes still to come and the state is
kept by each round, and no round fails. -/
theorem foldlM_total (Inv : List Node → State → Prop)
    (round : ∀ node rest state, Inv (node :: rest) state →
      ∃ state', body state node = .ok state' ∧ Inv rest state')
    (list : List Node) (state : State) (initially : Inv list state) :
    ∃ state', list.foldlM body state = .ok state' ∧ Inv [] state' := by
  induction list generalizing state with
  | nil => exact ⟨state, rfl, initially⟩
  | cons node rest inductionHypothesis =>
      obtain ⟨middle, result, kept⟩ := round node rest state initially
      obtain ⟨state', folded, final⟩ := inductionHypothesis middle kept
      refine ⟨state', ?_, final⟩
      simp only [List.foldlM_cons, result]
      exact folded

end SafeWalk
