import MapEvents.Chain.Walk
import MapEvents.Proofs.Chain.Reach
import MapEvents.Proofs.Fields
import MapEvents.Proofs.Task.Laws
/-!
# Visits of actions

What a visit of an action may hand over: the walk goes on only where the action points at. With it
come the equations of the walk, by what its pointer leads to, and where the faults of a chain come
from.
-/

namespace MapEvents

variable {σ : Type}

namespace Chain

variable {p : Player σ} {event : Event} {actions : List Action}

/-! ## Where a visit leads -/

theorem mem_of_chooseBranch {s : Surroundings σ} {bs : List Branch} {w : World σ} {b : Branch}
    (h : (chooseBranch s bs w).1 = .ok (some b)) : b ∈ bs := by
  induction bs generalizing w with
  | nil => simp [chooseBranch] at h
  | cons first rest ih =>
    rw [chooseBranch] at h
    split at h
    · simp only [Except.ok.injEq, Option.some.injEq] at h
      exact h ▸ List.mem_cons_self
    · exact List.mem_cons_of_mem first (ih h)
    · cases h

/-- Whatever is chosen, the action points at it. -/
theorem pointsAt_of_choose_gives {s : Surroundings σ} {a : Action} {next : Option String}
    (h : (choose s a).Gives (.ok (.to next))) : a.PointsAt next := by
  obtain ⟨⟨w, d⟩, hr⟩ := Task.gives_step_iff.mp h
  cases hc : (chooseBranch s a.branches w).1 with
  | error fault => simp [hc, Except.map] at hr
  | ok branch =>
    have hmove : Move.to next = Move.after a branch := by simpa [hc, Except.map] using hr
    cases branch with
    | none => exact .inl (Move.to.inj hmove)
    | some b => exact .inr ⟨b, mem_of_chooseBranch hc, Move.to.inj hmove⟩

/-- An action that was played leads only where it points. -/
theorem pointsAt_of_play_gives {a : Action} {next : Option String}
    (h : (play p event a).Gives (.ok (.to next))) : a.PointsAt next := by
  rcases Task.gives_andThen_iff.mp h with ⟨outcome, -, hr⟩ | ⟨e, -, hr⟩
  · cases outcome with
    | success => exact pointsAt_of_choose_gives hr
    | failed => simp at hr
    | cancelled => simp at hr
  · cases hr

/-- The walk goes on only where the visited action points at: a skipped action hands over to its
successor, and an action that ran also to the targets of its branches. -/
theorem pointsAt_of_visit_gives {a : Action} {next : Option String}
    (h : (visit p event a).Gives (.ok (.to next))) : a.PointsAt next := by
  rcases Task.gives_andThen_iff.mp h with ⟨admitted, -, hr⟩ | ⟨e, -, hr⟩
  · cases admitted with
    | true => exact pointsAt_of_play_gives hr
    | false =>
      have hnext : next = a.next := by simpa using hr
      exact .inl hnext
  · cases hr

/-! ## The walk, by what its pointer leads to -/

/-- An id that leads nowhere stands for no action. -/
theorem LeadsInto.action?_eq_none {id : String} (h : LeadsInto actions [] (some id))
    (hid : id ≠ "") : action? actions id = none := by
  rw [action?_eq_none_iff]
  by_contra hcontains
  exact absurd (h id rfl hid (by simpa using hcontains)) List.not_mem_nil

/-- A pointer leads to no action, or it is the id of one. -/
theorem nowhere_or_action (actions : List Action) (current : Option String) :
    LeadsInto actions [] current ∨
      ∃ id a, current = some id ∧ id ≠ "" ∧ action? actions id = some a := by
  by_cases h : LeadsInto actions [] current
  · exact .inl h
  · obtain ⟨id, rfl, hid, hcontains⟩ :
        ∃ id, current = some id ∧ id ≠ "" ∧ contains actions id = true := by
      simpa [LeadsInto] using h
    obtain ⟨a, ha⟩ := exists_action? hcontains
    exact .inr ⟨id, a, rfl, hid, ha⟩

/-- Induction along a walk: its pointer leads to no action, or to one that there is no step left
for, or to one behind which the walk has a step less to go. -/
@[elab_as_elim]
theorem walk_induction (actions : List Action) {motive : Nat → Option String → Prop}
    (nowhere : ∀ steps current, LeadsInto actions [] current → motive steps current)
    (zero : ∀ id a, id ≠ "" → action? actions id = some a → motive 0 (some id))
    (succ : ∀ steps id a, id ≠ "" → action? actions id = some a → (∀ next, motive steps next) →
      motive (steps + 1) (some id))
    (steps : Nat) (current : Option String) : motive steps current := by
  induction steps generalizing current with
  | zero =>
    rcases nowhere_or_action actions current with hnone | ⟨id, a, rfl, hid, ha⟩
    · exact nowhere 0 current hnone
    · exact zero id a hid ha
  | succ steps ih =>
    rcases nowhere_or_action actions current with hnone | ⟨id, a, rfl, hid, ha⟩
    · exact nowhere (steps + 1) current hnone
    · exact succ steps id a hid ha ih

/-- A pointer that leads to no action ends the walk. -/
theorem walk_nowhere (p : Player σ) (event : Event) {current : Option String}
    (h : LeadsInto actions [] current) (steps : Nat) :
    walk p event actions steps current = .done (.ok (.finished .success)) := by
  cases current with
  | none => rw [walk]
  | some id =>
    by_cases hid : id = ""
    · rw [walk, if_pos hid]
    · rw [walk, if_neg hid, h.action?_eq_none hid]

theorem walk_zero (p : Player σ) (event : Event) {id : String} {a : Action} (hid : id ≠ "")
    (ha : action? actions id = some a) :
    walk p event actions 0 (some id) = .done (.ok (.unfinished id)) := by
  rw [walk, if_neg hid, ha]

/-- What follows a visit in a walk. -/
def proceed (p : Player σ) (event : Event) (actions : List Action) (steps : Nat) :
    Move → Work σ Stop
  | .stop outcome => .done (.ok (.finished outcome))
  | .to next => walk p event actions steps next

theorem walk_succ (p : Player σ) (event : Event) {id : String} {a : Action} (hid : id ≠ "")
    (ha : action? actions id = some a) (steps : Nat) :
    walk p event actions (steps + 1) (some id) =
      (visit p event a).andThen (proceed p event actions steps) := by
  rw [walk, if_neg hid, ha]
  rfl

/-! ## Faults of a chain -/

/-- A chain ends with a fault of its walk, or because its walk did not end. -/
theorem gives_error_runChain {limit : Option Int} {fault : Fault}
    (h : (runChain p event actions limit).Gives (.error fault)) :
    (walk p event actions (p.steps limit) (entry actions)).Gives (.error fault) ∨
      ∃ id,
        (walk p event actions (p.steps limit) (entry actions)).Gives (.ok (.unfinished id)) := by
  rcases Task.gives_andThen_iff.mp h with ⟨stop, hwalk, hr⟩ | ⟨e, hwalk, he⟩
  · cases stop with
    | finished outcome => cases hr
    | unfinished id => exact .inr ⟨id, hwalk⟩
  · obtain rfl : fault = e := Except.error.inj he
    exact .inl hwalk

/-- A run that ends with a fault has it from the walk, if the walk always ends. -/
theorem run_walk_of_run_runChain_error {limit : Option Int} {fault : Fault} {scene v : Scene σ}
    (h : (runChain p event actions limit).run scene = (some (.error fault), v))
    (hends : ∀ id, ¬(walk p event actions (p.steps limit) (entry actions)).Gives
      (.ok (.unfinished id))) :
    (walk p event actions (p.steps limit) (entry actions)).run scene =
      (some (.error fault), v) := by
  rw [runChain, Task.andThen, Task.run_bind] at h
  rcases hwalk : (walk p event actions (p.steps limit) (entry actions)).run scene with
    ⟨_ | fault' | outcome | id, u⟩ <;> rw [hwalk] at h
  · cases h
  · simpa [Task.run] using h
  · cases h
  · exact absurd (Task.gives_of_run hwalk) (hends id)

end Chain

/-! ## Samples -/

/-- Surroundings that agree to everything. -/
def Surroundings.agreeable : Surroundings Unit :=
  { draw := fun o => (.zero, o)
    hook := none
    resolver := none
    host := fun _ => .done (.ok .null) }

/-- A player without handlers. -/
def Player.idle : Player Unit :=
  { surroundings := .agreeable
    registry := []
    horizon := 100 }

/-- A new game. -/
def World.fresh : World Unit :=
  { state := .initial
    clock := .start
    recent := 0
    journal := []
    execution := none
    outside := () }

/-- An event that does nothing. -/
def Event.blank : Event :=
  { id := "blank"
    type := "custom"
    trigger := ⟨.interact, [], none⟩
    actions := []
    enabled := true
    priority := 1
    name := "" }

/-- An action that only passes on to others. -/
def Action.passage (id : String) (targets : List String) (next : Option String) : Action :=
  { id
    type := "passage"
    params := []
    conditions := none
    next
    branches := targets.map (⟨"way", ·⟩) }

end MapEvents
