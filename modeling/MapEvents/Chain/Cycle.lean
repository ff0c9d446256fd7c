import MapEvents.Chain.Graph
/-!
# Cycles of actions

`Chain.cycle` looks for a cycle that the walk can enter: a depth-first search from the entry action
that keeps the path to the action in hand and, for each action on it, the successors not tried yet.
A successor on the path closes a cycle, which is given from its first action to the same action
again.
-/

namespace MapEvents.Chain

/-- An action on the path of the search, and its successors that were not tried yet. -/
structure Pending where
  id : String
  untried : List String

/-- Ids on the path, newest first. -/
def pathIds (path : List Pending) : List String := path.map (·.id)

/-- The part of the path from an id on, and the id again. The path is given newest first. -/
def closing (path : List Pending) (id : String) : List String :=
  (pathIds path).reverse.dropWhile (· ≠ id) ++ [id]

/-- How much is left to try on the path: one for each action, and one for each untried successor. -/
def pathWork (path : List Pending) : Nat :=
  path.foldr (fun p work => p.untried.length + 1 + work) 0

/-- One search for a cycle. The path is kept newest first; `done` holds the ids from which the
search came back. A new action on the path leaves fewer actions unmet, and every other step leaves
less to try on the path. -/
def search (actions : List Action) (path : List Pending) (done : List String) :
    Option (List String) :=
  match path with
  | [] => none
  | ⟨id, []⟩ :: path => search actions path (id :: done)
  | ⟨id, next :: untried⟩ :: path =>
    if _hnew : contains actions next = true ∧ next ∉ done then
      if _hpath : next ∈ id :: pathIds path then
        some (closing (⟨id, untried⟩ :: path) next)
      else
        search actions (⟨next, successorsOf actions next⟩ :: ⟨id, untried⟩ :: path) done
    else
      search actions (⟨id, untried⟩ :: path) done
termination_by (unmet actions (pathIds path ++ done), pathWork path)
decreasing_by
  · have hle : unmet actions (pathIds path ++ id :: done) ≤
        unmet actions (pathIds (⟨id, []⟩ :: path) ++ done) :=
      unmet_le_of_subset fun x hx => by
        simp only [pathIds, List.map_cons, List.cons_append, List.mem_cons, List.mem_append] at hx ⊢
        grind
    rcases Nat.lt_or_eq_of_le hle with hlt | heq
    · exact Prod.Lex.left _ _ hlt
    · rw [heq]
      exact Prod.Lex.right _ (by simp [pathWork])
  · refine Prod.Lex.left _ _ ?_
    have hnot : next ∉ pathIds (⟨id, untried⟩ :: path) ++ done := by
      simp only [List.mem_append, not_or]
      exact ⟨_hpath, _hnew.2⟩
    exact unmet_cons_lt hnot _hnew.1
  · exact Prod.Lex.right _ (by simp [pathWork])

/-- A cycle that can be reached from the entry action. -/
def cycle (actions : List Action) : Option (List String) :=
  match entry actions with
  | some id =>
    if id = "" then none
    else search actions [⟨id, successorsOf actions id⟩] []
  | none => none

end MapEvents.Chain
