import MapEvents.Proofs.Chain.Visit
/-!
# Walks that keep a log

A walk may keep a log of its visits: visits that give, beside the move, what is to be entered for
them make a walk that gives all entries in order. The log is only a by-product, without which such a
walk is the walk itself.
-/

namespace MapEvents.Chain

variable {σ ι : Type} {p : Player σ} {event : Event} {actions : List Action}

/-- How a walk goes on after a visit; the rest of the walk adds to the entries of the visit. -/
def goingOn (rest : Option String → Task (Scene σ) (List ι × Except Fault Stop)) :
    List ι × Except Fault Move → Task (Scene σ) (List ι × Except Fault Stop)
  | (entries, .error fault) => .done (entries, .error fault)
  | (entries, .ok (.stop outcome)) => .done (entries, .ok (.finished outcome))
  | (entries, .ok (.to next)) => (rest next).map fun t => (entries ++ t.1, t.2)

/-- Follows a chain as the walk does, with visits that give entries for a log. -/
def logged (visits : Action → Task (Scene σ) (List ι × Except Fault Move)) (actions : List Action) :
    (steps : Nat) → (current : Option String) → Task (Scene σ) (List ι × Except Fault Stop)
  | _, none => .done ([], .ok (.finished .success))
  | steps, some id =>
    if id = "" then .done ([], .ok (.finished .success))
    else
      match action? actions id with
      | none => .done ([], .ok (.finished .success))
      | some a =>
        match steps with
        | 0 => .done ([], .ok (.unfinished id))
        | steps + 1 => (visits a).bind (goingOn (logged visits actions steps))

section

variable (visits : Action → Task (Scene σ) (List ι × Except Fault Move))

/-- A pointer that leads to no action ends the walk with an empty log. -/
theorem logged_nowhere {current : Option String} (h : LeadsInto actions [] current) (steps : Nat) :
    logged visits actions steps current = .done ([], .ok (.finished .success)) := by
  cases current with
  | none => rw [logged]
  | some id =>
    by_cases hid : id = ""
    · rw [logged, if_pos hid]
    · rw [logged, if_neg hid, h.action?_eq_none hid]

theorem logged_zero {id : String} {a : Action} (hid : id ≠ "") (ha : action? actions id = some a) :
    logged visits actions 0 (some id) = .done ([], .ok (.unfinished id)) := by
  rw [logged, if_neg hid, ha]

theorem logged_succ {id : String} {a : Action} (hid : id ≠ "") (ha : action? actions id = some a)
    (steps : Nat) :
    logged visits actions (steps + 1) (some id) =
      (visits a).bind (goingOn (logged visits actions steps)) := by
  rw [logged, if_neg hid, ha]

end

variable {visits : Action → Task (Scene σ) (List ι × Except Fault Move)}

/-- Without its log the walk is the walk itself, if the visits are the visits themselves. -/
theorem map_snd_logged (h : ∀ a, (visits a).map (·.2) = visit p event a) (actions : List Action)
    (steps : Nat) (current : Option String) :
    (logged visits actions steps current).map (·.2) = walk p event actions steps current := by
  induction steps, current using walk_induction actions with
  | nowhere steps current hnone =>
    rw [logged_nowhere visits hnone, walk_nowhere p event hnone]
    rfl
  | zero id a hid ha =>
    rw [logged_zero visits hid ha, walk_zero p event hid ha]
    rfl
  | succ steps id a hid ha ih =>
    rw [logged_succ visits hid ha, walk_succ p event hid ha, ← h a, Task.map_bind, Task.andThen,
      Task.bind_map]
    refine Task.bind_congr fun r _ => ?_
    rcases r with ⟨entries, fault | next | outcome⟩
    · rfl
    · show ((logged visits actions steps next).map _).map _ = _
      rw [Task.map_map]
      exact ih next
    · rfl

/-- What holds of the entries of every visit holds of the whole log. -/
theorem forall_mem_of_logged_gives {P : ι → Prop}
    (h : ∀ id a, action? actions id = some a → ∀ entries m, (visits a).Gives (entries, m) →
      ∀ e ∈ entries, P e)
    {steps : Nat} {current : Option String} {log : List ι} {r : Except Fault Stop}
    (hlog : (logged visits actions steps current).Gives (log, r)) : ∀ e ∈ log, P e := by
  induction steps, current using walk_induction actions generalizing log r with
  | nowhere steps current hnone =>
    rw [logged_nowhere visits hnone] at hlog
    obtain ⟨rfl, -⟩ : log = [] ∧ r = .ok (.finished .success) := by simpa using hlog
    simp
  | zero id a hid ha =>
    rw [logged_zero visits hid ha] at hlog
    obtain ⟨rfl, -⟩ : log = [] ∧ r = .ok (.unfinished id) := by simpa using hlog
    simp
  | succ steps id a hid ha ih =>
    rw [logged_succ visits hid ha] at hlog
    obtain ⟨⟨entries, m⟩, hvisit, hrest⟩ := Task.gives_bind_iff.mp hlog
    have hentries := h id a ha entries m hvisit
    rcases m with fault | next | outcome
    · obtain ⟨rfl, -⟩ : log = entries ∧ r = .error fault := by
        simpa [goingOn] using hrest
      exact hentries
    · obtain ⟨⟨rest, r'⟩, hnext, heq⟩ := Task.gives_map_iff.mp hrest
      obtain ⟨rfl, -⟩ : log = entries ++ rest ∧ r = r' := by simpa using heq
      exact fun e he => (List.mem_append.mp he).elim (hentries e) (ih next hnext e)
    · obtain ⟨rfl, -⟩ : log = entries ∧ r = .ok (.finished outcome) := by
        simpa [goingOn] using hrest
      exact hentries

end MapEvents.Chain
