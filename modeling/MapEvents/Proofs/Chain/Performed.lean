import MapEvents.Proofs.Chain.Limit
import MapEvents.Proofs.Chain.Log
import MapEvents.Proofs.Chain.Position
/-!
# The actions that a chain starts

`Chain.performed` is the walk with a log of the actions whose handlers were started, and of what the
handlers answered. An action that is skipped, or whose conditions end with a fault, is not entered.
-/

namespace MapEvents.Chain

variable {σ : Type} {p : Player σ} {event : Event} {actions : List Action}

/-- Checks whether the action is to run. -/
def admission (p : Player σ) (a : Action) : Work σ Bool :=
  Task.step fun (w, d) =>
    let (r, w) := admitted p.surroundings a w
    (r, (w, d))

/-- Visits an action, and enters it with the answer of its handler if the handler is started. -/
def attempt (p : Player σ) (event : Event) (a : Action) :
    Task (Scene σ) (List (Action × Except Fault Outcome) × Except Fault Move) :=
  (admission p a).bind fun
    | .error fault => .done ([], .error fault)
    | .ok false => .done ([], .ok (.to a.next))
    | .ok true =>
      (p.registry.dispatch p.surroundings event a).bind fun
        | .error fault => .done ([(a, .error fault)], .error fault)
        | .ok outcome => (settle p a outcome).map fun m => ([(a, .ok outcome)], m)

/-- Without its record an attempt is a visit. -/
theorem map_snd_attempt (p : Player σ) (event : Event) (a : Action) :
    (attempt p event a).map (·.2) = visit p event a := by
  rw [attempt, Task.map_bind]
  refine Task.bind_congr fun r _ => ?_
  rcases r with fault | _ | _
  · rfl
  · rfl
  · show Task.map _ (Task.bind _ _) = play p event a
    rw [play_eq_settle, Task.map_bind]
    refine Task.bind_congr fun answer _ => ?_
    rcases answer with fault | outcome
    · rfl
    · exact (Task.map_map _ _ _).trans (Task.map_id _)

/-- Follows a chain as the walk does, and enters the actions whose handlers are started. -/
def performed (p : Player σ) (event : Event) (actions : List Action) (steps : Nat)
    (current : Option String) :
    Task (Scene σ) (List (Action × Except Fault Outcome) × Except Fault Stop) :=
  logged (attempt p event) actions steps current

theorem performed_nowhere (p : Player σ) (event : Event) {current : Option String}
    (h : LeadsInto actions [] current) (steps : Nat) :
    performed p event actions steps current = .done ([], .ok (.finished .success)) :=
  logged_nowhere _ h steps

theorem performed_zero (p : Player σ) (event : Event) {id : String} {a : Action} (hid : id ≠ "")
    (ha : action? actions id = some a) :
    performed p event actions 0 (some id) = .done ([], .ok (.unfinished id)) :=
  logged_zero _ hid ha

theorem performed_succ (p : Player σ) (event : Event) {id : String} {a : Action} (hid : id ≠ "")
    (ha : action? actions id = some a) (steps : Nat) :
    performed p event actions (steps + 1) (some id) =
      (attempt p event a).bind (goingOn (performed p event actions steps)) :=
  logged_succ _ hid ha steps

/-- Without its records the performance is the walk itself. -/
theorem map_snd_performed (p : Player σ) (event : Event) (actions : List Action) (steps : Nat)
    (current : Option String) :
    (performed p event actions steps current).map (·.2) = walk p event actions steps current :=
  map_snd_logged (map_snd_attempt p event) actions steps current

/-- An attempt records nothing but its own action. -/
theorem eq_of_attempt_gives {a : Action} {entries : List (Action × Except Fault Outcome)}
    {m : Except Fault Move} (h : (attempt p event a).Gives (entries, m)) :
    ∀ e ∈ entries, e.1 = a := by
  obtain ⟨r, -, hr⟩ := Task.gives_bind_iff.mp h
  rcases r with fault | _ | _
  · obtain ⟨rfl, -⟩ : entries = [] ∧ m = .error fault := by simpa using hr
    simp
  · obtain ⟨rfl, -⟩ : entries = [] ∧ m = .ok (.to a.next) := by simpa using hr
    simp
  · obtain ⟨answer, -, hanswer⟩ := Task.gives_bind_iff.mp hr
    rcases answer with fault | outcome
    · obtain ⟨rfl, -⟩ : entries = [(a, .error fault)] ∧ m = .error fault := by
        simpa using hanswer
      simp
    · obtain ⟨m', -, heq⟩ := Task.gives_map_iff.mp hanswer
      obtain ⟨rfl, -⟩ : entries = [(a, .ok outcome)] ∧ m = m' := by simpa using heq
      simp

/-- Only the first action with an id is ever started. -/
theorem first_of_performed_gives {steps : Nat} {current : Option String}
    {log : List (Action × Except Fault Outcome)} {r : Except Fault Stop}
    (h : (performed p event actions steps current).Gives (log, r)) :
    ∀ e ∈ log, action? actions e.1.id = some e.1 := by
  refine forall_mem_of_logged_gives (fun id a ha entries m hvisit e he => ?_) h
  obtain rfl : e.1 = a := eq_of_attempt_gives hvisit e he
  rw [id_of_action? ha]
  exact ha

end MapEvents.Chain
