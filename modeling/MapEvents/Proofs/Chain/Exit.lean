import MapEvents.Proofs.Chain.Account
import MapEvents.Proofs.Chain.Firsts
import MapEvents.Proofs.Chain.Way
/-!
# Where chains run out

A chain that succeeds has come to a pointer that leads to no action: a missing one, an empty one, or
an id that no action has. It came there from the last action that it visited, whether this action
was skipped, a branch of it was taken, or none of its branches held; only the entry is not pointed
at, and the entry is the id of an action. So the last kind of exit is among the dangling pointers,
and without dangling pointers a chain runs out where its author left a pointer out or empty. A chain
without actions, or whose first action has an empty id, visits nothing.

Of several actions with one id, the first is the one that is visited and the one whose pointers
count.
-/

namespace MapEvents.Chain

variable {σ : Type} {p : Player σ} {event : Event} {actions : List Action}

/-- A pointer dangles if the first action with the one id points at the other id, which is not empty
and which no action has. -/
theorem mem_dangling_iff {id target : String} :
    (id, target) ∈ dangling actions ↔
      ∃ a, action? actions id = some a ∧ a.PointsAt (some target) ∧ target ≠ "" ∧
        contains actions target = false := by
  simp only [dangling, List.mem_flatMap, List.mem_map, List.mem_filter, mem_firsts_iff,
    Action.mem_successors_iff, Prod.mk.injEq, Bool.not_eq_true']
  constructor
  · rintro ⟨a, ha, t, ⟨⟨hpoints, ht⟩, hmissing⟩, rfl, rfl⟩
    exact ⟨a, ha, hpoints, ht, hmissing⟩
  · rintro ⟨a, ha, hpoints, ht, hmissing⟩
    obtain rfl : a.id = id := id_of_action? ha
    exact ⟨a, ha, target, ⟨⟨hpoints, ht⟩, hmissing⟩, rfl, rfl⟩

/-! ## The last visit -/

/-- A run that ended was led by this visit to the pointer that it did not follow. The run from the
visit on is the rest of the run, and nothing happens after the visit. -/
structure Sight.Leaves (p : Player σ) (event : Event) (actions : List Action)
    (ended : Option (Except Fault Stop) × Scene σ) (pointer : Option String) (e : Sight σ) :
    Prop where
  first : action? actions e.action.id = some e.action
  run : ∃ left, (walk p event actions (left + 1) (some e.action.id)).run e.reached = ended
  led : (visit p event e.action).run e.reached = (some (.ok (.to pointer)), ended.2)

/-- What is before a pointer that is not followed. -/
inductive Exit (p : Player σ) (event : Event) (actions : List Action)
    (ended : Option (Except Fault Stop) × Scene σ) (start pointer : Option String) :
    List (Sight σ) → Prop where
  /-- The run did not even follow the pointer that it started with. -/
  | start (h : pointer = start) : Exit p event actions ended start pointer []
  /-- The run was led to the pointer by its last visit. -/
  | behind (before : List (Sight σ)) (last : Sight σ)
      (h : last.Leaves p event actions ended pointer) :
      Exit p event actions ended start pointer (before ++ [last])

variable {steps : Nat} {current pointer : Option String} {scene : Scene σ}

/-- A run that makes no visit does nothing. -/
theorem run_walk_of_visits_eq_nil (h : (trail p event actions steps current scene).visits = []) :
    ((walk p event actions steps current).run scene).2 = scene := by
  induction steps, current, scene using run_induction p event actions with
  | nowhere steps current scene hnone =>
    rw [walk_nowhere p event hnone]
    rfl
  | zero id a scene hid ha =>
    rw [walk_zero p event hid ha]
    rfl
  | ended steps id a scene hid ha hends =>
    rw [trail_ended hid ha hends] at h
    cases h
  | moved steps id a scene next v hid ha hvisit ih =>
    rw [trail_moved hid ha hvisit] at h
    cases h

/-- A pointer that was not followed is the one that the run started with, or its last visit led
there. -/
theorem exit_of_standing
    (h : (trail p event actions steps current scene).standing = some pointer) :
    Exit p event actions ((walk p event actions steps current).run scene) current pointer
      (trail p event actions steps current scene).visits := by
  induction steps, current, scene using run_induction p event actions with
  | nowhere steps current scene hnone =>
    rw [trail_nowhere p event hnone] at h ⊢
    exact .start (Option.some.inj h).symm
  | zero id a scene hid ha =>
    rw [trail_zero hid ha] at h ⊢
    exact .start (Option.some.inj h).symm
  | ended steps id a scene hid ha hends =>
    rw [trail_ended hid ha hends] at h
    cases h
  | moved steps id a scene next v hid ha hvisit ih =>
    have hrun : (walk p event actions (steps + 1) (some id)).run scene =
        (walk p event actions steps next).run v := run_walk_moved hid ha hvisit
    rw [trail_moved hid ha hvisit] at h ⊢
    rw [hrun]
    have hrest := ih h
    generalize hvisits : (trail p event actions steps next v).visits = visits at hrest ⊢
    cases hrest with
    | start hpointer =>
      -- Nothing comes after this visit, which is the last one.
      obtain rfl : a.id = id := id_of_action? ha
      refine .behind [] _ ⟨ha, ⟨steps, hrun⟩, ?_⟩
      rw [run_walk_of_visits_eq_nil hvisits, hpointer]
      exact hvisit
    | behind before last hlast => exact .behind (_ :: before) last hlast

/-- A last visit that led to an id which no action has left the chain by a dangling pointer. -/
theorem Sight.Leaves.mem_dangling {ended : Option (Except Fault Stop) × Scene σ} {id : String}
    {e : Sight σ} (h : e.Leaves p event actions ended (some id)) (hid : id ≠ "")
    (hmissing : contains actions id = false) : (e.action.id, id) ∈ dangling actions := by
  have hpoints : e.action.PointsAt (some id) := pointsAt_of_visit_gives (Task.gives_of_run h.led)
  exact mem_dangling_iff.mpr ⟨e.action, h.first, hpoints, hid, hmissing⟩

/-- A run from the entry that came to an id which no action has was led there by its last visit. -/
theorem exists_leaves_of_missing {id : String} (hid : id ≠ "")
    (hmissing : contains actions id = false)
    (h : (trail p event actions steps (entry actions) scene).standing = some (some id)) :
    ∃ before last, (trail p event actions steps (entry actions) scene).visits = before ++ [last] ∧
      last.Leaves p event actions ((walk p event actions steps (entry actions)).run scene)
        (some id) ∧
      (last.action.id, id) ∈ dangling actions := by
  have hexit := exit_of_standing h
  generalize (trail p event actions steps (entry actions) scene).visits = visits at hexit ⊢
  cases hexit with
  | start hentry =>
    -- The entry is the id of an action.
    rw [contains_entry hentry.symm] at hmissing
    cases hmissing
  | behind before last hlast => exact ⟨before, last, rfl, hlast, hlast.mem_dangling hid hmissing⟩

/-! ## Announced exits -/

/-- Where a chain that succeeds has run out, by the trail of its run. -/
structure Announces (p : Player σ) (event : Event) (actions : List Action) (limit : Option Int)
    (scene : Scene σ) (t : Trail σ) : Prop where
  /-- A chain that came to an id which no action has succeeds, and was led there by a dangling
  pointer of the last action that it visited. -/
  unknown : ∀ id, t.standing = some (some id) → id ≠ "" → contains actions id = false →
    (∃ v, (runChain p event actions limit).run scene = (some (.ok .success), v)) ∧
      ∃ before last, t.visits = before ++ [last] ∧
        last.Leaves p event actions
          ((walk p event actions (p.steps limit) (entry actions)).run scene) (some id) ∧
        (last.action.id, id) ∈ dangling actions
  /-- Without dangling pointers, a chain that succeeds came to a pointer that is missing or empty.
  If it visited nothing, this is its entry: there is no action, or the first one's id is empty. -/
  closed : dangling actions = [] →
    ∀ v, (runChain p event actions limit).run scene = (some (.ok .success), v) →
      ∃ pointer, t.standing = some pointer ∧ (pointer = none ∨ pointer = some "") ∧
        Exit p event actions ((walk p event actions (p.steps limit) (entry actions)).run scene)
          (entry actions) pointer t.visits

/-- Every exit of a chain through an id which no action has is announced by a dangling pointer. Hook
and resolver look at the game state and never write it. -/
theorem unknown_exits_announced (p : Player σ) (event : Event) (actions : List Action)
    (limit : Option Int) (scene : Scene σ) :
    Announces p event actions limit scene
      (trail p event actions (p.steps limit) (entry actions) scene) := by
  constructor
  · intro id hstanding hid hmissing
    refine ⟨?_, exists_leaves_of_missing hid hmissing hstanding⟩
    simp only [run_runChain_eq_ok_iff, run_walk_succeeded_iff, leadsInto_nil_iff]
    exact ⟨some id, hstanding, .inr (.inr ⟨id, rfl, hmissing⟩)⟩
  · intro hnone v hrun
    have hsucceeds := run_walk_succeeded_iff.mp ⟨v, run_runChain_eq_ok_iff.mp hrun⟩
    obtain ⟨pointer, hstanding, hnowhere⟩ := hsucceeds
    refine ⟨pointer, hstanding, ?_, exit_of_standing hstanding⟩
    rcases leadsInto_nil_iff.mp hnowhere with hmissing | hempty | ⟨id, rfl, hmissing⟩
    · exact .inl hmissing
    · exact .inr hempty
    · by_cases hid : id = ""
      · exact .inr (congrArg some hid)
      · obtain ⟨before, last, -, -, hdangling⟩ := exists_leaves_of_missing hid hmissing hstanding
        rw [hnone] at hdangling
        cases hdangling

/-- A list whose only action has an empty id. -/
def nameless : List Action := [.passage "" [] none]

/-- Without dangling pointers, a chain that succeeds need not have visited an action. -/
theorem nameless_chain_visits_nothing :
    ¬(dangling nameless = [] →
      ∀ v, (runChain Player.idle Event.blank nameless none).run (.fresh, []) =
          (some (.ok .success), v) →
        ∃ before last pointer,
          (trail Player.idle Event.blank nameless (Player.idle.steps none) (entry nameless)
            (.fresh, [])).visits = before ++ [last] ∧
          (pointer = none ∨ pointer = some "") ∧
          last.Leaves Player.idle Event.blank nameless
            ((walk Player.idle Event.blank nameless (Player.idle.steps none)
              (entry nameless)).run (.fresh, [])) pointer) := by
  intro hclaim
  obtain ⟨before, last, pointer, hvisits, -⟩ := hclaim (by decide) _ rfl
  have hnone : (trail Player.idle Event.blank nameless (Player.idle.steps none) (entry nameless)
      (.fresh, [])).visits = [] := rfl
  rw [hnone] at hvisits
  simp at hvisits

/-- The bell beside the shut door points at a room that does not exist. -/
example : dangling shutDoor = [("bell", "gone")] := by decide

end MapEvents.Chain
