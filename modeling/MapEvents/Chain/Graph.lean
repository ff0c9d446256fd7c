import MapEvents.Event.Basic
/-!
# The graph of actions

The actions of an event form a graph: an action points at the targets of its branches and at its
successor. Of several actions with one id only the first counts; a pointer that is absent or empty
leads nowhere, and one to an id that no action has is dangling.

A search of the graph keeps the ids that it has met. An id that is met for the first time and
belongs to an action lowers `Chain.unmet`, so that every search ends.
-/

namespace MapEvents

/-- Ids that the walk may go to from the action: branch targets first, then the successor. -/
def Action.successors (a : Action) : List String :=
  (a.branches.map (·.target)).filter (· ≠ "") ++ a.next.toList.filter (· ≠ "")

namespace Chain

/-- The first action with this id. -/
def action? (actions : List Action) (id : String) : Option Action := actions.find? (·.id = id)

/-- The actions that are the first with their id. -/
def firsts : List Action → List Action
  | [] => []
  | a :: rest => a :: (firsts rest).filter (·.id ≠ a.id)

/-- Id of the entry action. -/
def entry (actions : List Action) : Option String := actions.head?.map (·.id)

/-- Whether some action has this id. -/
def contains (actions : List Action) (id : String) : Bool := actions.any (·.id = id)

/-- Ids that the walk may go to from the first action with this id. -/
def successorsOf (actions : List Action) (id : String) : List String :=
  ((action? actions id).map Action.successors).getD []

/-- Pairs of an action's id and a target that no action has. -/
def dangling (actions : List Action) : List (String × String) :=
  (firsts actions).flatMap fun a =>
    (a.successors.filter fun t => !contains actions t).map fun t => (a.id, t)

/-- How many actions have an id that is not among the given ones. -/
def unmet (actions : List Action) (met : List String) : Nat :=
  actions.countP fun a => decide (a.id ∉ met)

/-- Meeting more ids leaves no more actions unmet. -/
theorem unmet_le_of_subset {actions : List Action} {met more : List String} (h : met ⊆ more) :
    unmet actions more ≤ unmet actions met := by
  apply List.countP_mono_left
  intro a _ ha
  simp only [decide_eq_true_eq] at ha ⊢
  exact fun hm => ha (h hm)

/-- An action's id that was not met before leaves fewer actions unmet. -/
theorem unmet_cons_lt {actions : List Action} {met : List String} {id : String}
    (hid : id ∉ met) (h : contains actions id = true) :
    unmet actions (id :: met) < unmet actions met := by
  induction actions with
  | nil => simp [contains] at h
  | cons a rest ih =>
    have hle : unmet rest (id :: met) ≤ unmet rest met :=
      unmet_le_of_subset (List.subset_cons_self id met)
    simp only [unmet, List.countP_cons] at hle ih ⊢
    by_cases ha : a.id = id
    · have hafter : decide (a.id ∉ id :: met) = false := by simp [ha]
      have hbefore : decide (a.id ∉ met) = true := by simp [ha, hid]
      rw [hafter, hbefore]
      simp only [Bool.false_eq_true, if_false, if_true]
      omega
    · have hrest : contains rest id = true := by simpa [contains, ha] using h
      have hlt := ih hrest
      have hsame : decide (a.id ∉ id :: met) = decide (a.id ∉ met) := by simp [ha]
      rw [hsame]
      omega

/-- Explores the graph from a stack of ids; `seen` holds the ids found so far. Every action puts its
successors on the stack when it is found. -/
def explore (actions : List Action) (stack seen : List String) : List String :=
  match stack with
  | [] => seen
  | id :: stack =>
    if _h : id ∉ seen ∧ contains actions id = true then
      explore actions ((successorsOf actions id).reverse ++ stack) (id :: seen)
    else
      explore actions stack seen
termination_by (unmet actions seen, stack.length)
decreasing_by
  · exact Prod.Lex.left _ _ (unmet_cons_lt _h.1 _h.2)
  · exact Prod.Lex.right _ (by simp)

/-- Ids of the actions that can be reached from the entry action. -/
def reachable (actions : List Action) : List String :=
  match entry actions with
  | some id => if id = "" then [] else explore actions [id] []
  | none => []

end Chain

end MapEvents
