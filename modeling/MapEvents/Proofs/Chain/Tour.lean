import MapEvents.Proofs.Chain.Log
import MapEvents.Proofs.Chain.Trail
/-!
# The actions that a walk visits

`Chain.tour` is the walk with the ids of the visited actions in its result, in the order in which
they are visited; skipped actions are visited too. Along a ranked order of ids a tour only goes
down, whatever conditions, handlers, host and branches answer. A chain in which the search finds no
cycle therefore visits no action twice and ends by itself within as many steps as there are ids.
-/

namespace MapEvents.Chain

variable {σ : Type} {p : Player σ} {event : Event} {actions : List Action}

/-! ## Tours -/

/-- Follows a chain as the walk does, and gives the ids of the visited actions with the result. -/
def tour (p : Player σ) (event : Event) (actions : List Action) :
    (steps : Nat) → (current : Option String) →
      Task (Scene σ) (List String × Except Fault Stop)
  | _, none => .done ([], .ok (.finished .success))
  | steps, some id =>
    if id = "" then .done ([], .ok (.finished .success))
    else
      match action? actions id with
      | none => .done ([], .ok (.finished .success))
      | some a =>
        match steps with
        | 0 => .done ([], .ok (.unfinished id))
        | steps + 1 =>
          (visit p event a).bind fun
            | .error fault => .done ([id], .error fault)
            | .ok (.stop outcome) => .done ([id], .ok (.finished outcome))
            | .ok (.to next) =>
              (tour p event actions steps next).map fun (ids, r) => (id :: ids, r)

/-- A pointer that leads to no action ends the tour. -/
theorem tour_nowhere (p : Player σ) (event : Event) {current : Option String}
    (h : LeadsInto actions [] current) (steps : Nat) :
    tour p event actions steps current = .done ([], .ok (.finished .success)) := by
  cases current with
  | none => rw [tour]
  | some id =>
    by_cases hid : id = ""
    · rw [tour, if_pos hid]
    · rw [tour, if_neg hid, h.action?_eq_none hid]

theorem tour_zero (p : Player σ) (event : Event) {id : String} {a : Action} (hid : id ≠ "")
    (ha : action? actions id = some a) :
    tour p event actions 0 (some id) = .done ([], .ok (.unfinished id)) := by
  rw [tour, if_neg hid, ha]

theorem tour_succ (p : Player σ) (event : Event) {id : String} {a : Action} (hid : id ≠ "")
    (ha : action? actions id = some a) (steps : Nat) :
    tour p event actions (steps + 1) (some id) =
      (visit p event a).bind fun
        | .error fault => .done ([id], .error fault)
        | .ok (.stop outcome) => .done ([id], .ok (.finished outcome))
        | .ok (.to next) =>
          (tour p event actions steps next).map fun (ids, r) => (id :: ids, r) := by
  rw [tour, if_neg hid, ha]

/-- A tour is a walk with a log of the visited ids. -/
theorem tour_eq_logged (p : Player σ) (event : Event) (actions : List Action) (steps : Nat)
    (current : Option String) :
    tour p event actions steps current =
      logged (fun a => (visit p event a).map fun m => ([a.id], m)) actions steps current := by
  induction steps, current using walk_induction actions with
  | nowhere steps current hnone => rw [tour_nowhere p event hnone, logged_nowhere _ hnone]
  | zero id a hid ha => rw [tour_zero p event hid ha, logged_zero _ hid ha]
  | succ steps id a hid ha ih =>
    rw [tour_succ p event hid ha, logged_succ _ hid ha, Task.bind_map, id_of_action? ha]
    refine Task.bind_congr fun r _ => ?_
    rcases r with fault | next | outcome
    · rfl
    · simp only [goingOn, ih next, List.singleton_append]
    · rfl

/-- Without the visited ids a tour is the walk itself. -/
theorem map_snd_tour (p : Player σ) (event : Event) (actions : List Action) (steps : Nat)
    (current : Option String) :
    (tour p event actions steps current).map (·.2) = walk p event actions steps current := by
  rw [tour_eq_logged]
  refine map_snd_logged (fun a => ?_) actions steps current
  rw [Task.map_map, Task.map_id]

/-- A walk may end so exactly if some tour does. -/
theorem gives_walk_iff {steps : Nat} {current : Option String} {r : Except Fault Stop} :
    (walk p event actions steps current).Gives r ↔
      ∃ ids, (tour p event actions steps current).Gives (ids, r) := by
  rw [← map_snd_tour, Task.gives_map_iff]
  constructor
  · rintro ⟨⟨ids, r'⟩, htour, rfl⟩
    exact ⟨ids, htour⟩
  · rintro ⟨ids, htour⟩
    exact ⟨(ids, r), htour, rfl⟩

/-- A tour that starts with a visit: what the visit gives decides how it goes on. -/
theorem gives_tour_succ {id : String} {a : Action} (hid : id ≠ "")
    (ha : action? actions id = some a) {steps : Nat} {ids : List String}
    {r : Except Fault Stop}
    (h : (tour p event actions (steps + 1) (some id)).Gives (ids, r)) :
    (ids = [id] ∧ ∀ next, r ≠ .ok (.unfinished next)) ∨
      ∃ next rest, (visit p event a).Gives (.ok (.to next)) ∧ ids = id :: rest ∧
        (tour p event actions steps next).Gives (rest, r) := by
  rw [tour_succ p event hid ha] at h
  obtain ⟨m, hvisit, hr⟩ := Task.gives_bind_iff.mp h
  match m with
  | .error fault =>
    obtain ⟨rfl, rfl⟩ : ids = [id] ∧ r = .error fault := by simpa using hr
    exact .inl ⟨rfl, by simp⟩
  | .ok (.stop outcome) =>
    obtain ⟨rfl, rfl⟩ : ids = [id] ∧ r = .ok (.finished outcome) := by simpa using hr
    exact .inl ⟨rfl, by simp⟩
  | .ok (.to next) =>
    obtain ⟨⟨rest, r'⟩, htour, heq⟩ := Task.gives_map_iff.mp hr
    obtain ⟨rfl, rfl⟩ : ids = id :: rest ∧ r = r' := by simpa using heq
    exact .inr ⟨next, rest, hvisit, rfl, htour⟩

/-- A tour that ends with a fault has it from the action that it visits last. -/
theorem exists_last_of_tour_gives_error {steps : Nat} {current : Option String} {ids : List String}
    {fault : Fault} (h : (tour p event actions steps current).Gives (ids, .error fault)) :
    ∃ before, ∃ a ∈ actions, ids = before ++ [a.id] ∧ (visit p event a).Gives (.error fault) := by
  induction steps, current using walk_induction actions generalizing ids with
  | nowhere steps current hnone =>
    rw [tour_nowhere p event hnone] at h
    exact absurd h (by simp)
  | zero id a hid ha =>
    rw [tour_zero p event hid ha] at h
    exact absurd h (by simp)
  | succ steps id a hid ha ih =>
    rw [tour_succ p event hid ha] at h
    obtain ⟨m, hvisit, hr⟩ := Task.gives_bind_iff.mp h
    match m with
    | .error fault' =>
      obtain ⟨rfl, rfl⟩ : ids = [id] ∧ fault = fault' := by simpa using hr
      exact ⟨[], a, mem_of_action? ha, by rw [id_of_action? ha]; rfl, hvisit⟩
    | .ok (.stop outcome) => exact absurd hr (by simp)
    | .ok (.to next) =>
      obtain ⟨⟨rest, r⟩, htour, heq⟩ := Task.gives_map_iff.mp hr
      obtain ⟨rfl, rfl⟩ : ids = id :: rest ∧ .error fault = r := by simpa using heq
      obtain ⟨before, last, hlast, hids, hgives⟩ := ih next htour
      exact ⟨id :: before, last, hlast, by rw [hids]; rfl, hgives⟩

/-- A tour that enters a ranked order goes down in it: it visits different ids of the order, and
ends by itself if it may take as many steps as the order is long. -/
theorem Ranked.gives_tour {order : List String} (h : Ranked actions order) {steps : Nat}
    {current : Option String} (hcurrent : LeadsInto actions order current) {ids : List String}
    {r : Except Fault Stop} (hr : (tour p event actions steps current).Gives (ids, r)) :
    ids.Nodup ∧ ids ⊆ order ∧ (order.length ≤ steps → ∀ id, r ≠ .ok (.unfinished id)) := by
  induction order generalizing steps current ids r with
  | nil =>
    rw [tour_nowhere p event hcurrent] at hr
    obtain ⟨rfl, rfl⟩ : ids = [] ∧ r = .ok (.finished .success) := by simpa using hr
    simp
  | cons top below ih =>
    by_cases hbelow : LeadsInto actions below current
    · obtain ⟨hnodup, hsub, hends⟩ := ih h.2.2.2 hbelow hr
      refine ⟨hnodup, List.subset_cons_of_subset top hsub, fun hsteps => hends ?_⟩
      rw [List.length_cons] at hsteps
      omega
    · -- The pointer leads to the top of the order, which is visited now and never again.
      obtain ⟨id, rfl, hid, hcontains, hnot⟩ :
          ∃ id, current = some id ∧ id ≠ "" ∧ contains actions id = true ∧ id ∉ below := by
        simpa [LeadsInto] using hbelow
      obtain rfl : id = top :=
        (List.mem_cons.mp (hcurrent id rfl hid hcontains)).resolve_right hnot
      obtain ⟨a, ha⟩ := exists_action? hcontains
      cases steps with
      | zero =>
        rw [tour_zero p event hid ha] at hr
        obtain ⟨rfl, rfl⟩ : ids = [] ∧ r = .ok (.unfinished id) := by simpa using hr
        simp
      | succ steps =>
        rcases gives_tour_succ hid ha hr with ⟨rfl, hends⟩ | ⟨next, rest, hvisit, rfl, hrest⟩
        · exact ⟨List.nodup_singleton id, by simp, fun _ => hends⟩
        · have hnext : LeadsInto actions below next :=
            leadsInto_of_pointsAt ha h.2.2.1 (pointsAt_of_visit_gives hvisit)
          obtain ⟨hnodup, hsub, hends⟩ := ih h.2.2.2 hnext hrest
          refine ⟨List.nodup_cons.mpr ⟨fun hmem => hnot (hsub hmem), hnodup⟩,
            List.cons_subset_cons id hsub, fun hsteps => hends ?_⟩
          rw [List.length_cons] at hsteps
          omega

/-! ## Chains without a cycle -/

/-- If the search finds no cycle, a chain visits no action twice, whatever its conditions, handlers,
host and branches answer. It takes at most as many steps as there are ids, and under a limit of at
least that many, or without one, its walk always ends: what makes it fail is a fault of the action
that it visits last, in the scene in which the run came to it. Hook and resolver look at the game
state and never write it. -/
theorem visits_once_of_cycle_eq_none (h : cycle actions = none) (p : Player σ) (event : Event) :
    (∀ steps ids r, (tour p event actions steps (entry actions)).Gives (ids, r) →
      ids.Nodup ∧ ids.length ≤ (firsts actions).length) ∧
    ∀ limit, (firsts actions).length ≤ p.steps limit →
      (∀ id, ¬(walk p event actions (p.steps limit) (entry actions)).Gives
        (.ok (.unfinished id))) ∧
      ∀ fault,
        ((runChain p event actions limit).Gives (.error fault) →
          ∃ before, ∃ a ∈ actions,
            (tour p event actions (p.steps limit) (entry actions)).Gives
              (before ++ [a.id], .error fault) ∧
            (visit p event a).Gives (.error fault)) ∧
        ∀ scene v, (runChain p event actions limit).run scene = (some (.error fault), v) →
          (trail p event actions (p.steps limit) (entry actions) scene).LastFaults p event
            fault v := by
  obtain ⟨order, hranked, hentry⟩ := exists_ranked_of_cycle_eq_none h
  have horder : order.length ≤ (firsts actions).length :=
    length_le_firsts hranked.nodup fun id hid => hranked.contains_of_mem hid
  refine ⟨fun steps ids r hr => ?_, fun limit hlimit => ?_⟩
  · obtain ⟨hnodup, hsub, -⟩ := hranked.gives_tour hentry hr
    have hlength : ids.length ≤ order.length := (hnodup.subperm hsub).length_le
    exact ⟨hnodup, Nat.le_trans hlength horder⟩
  · have hends : ∀ id, ¬(walk p event actions (p.steps limit) (entry actions)).Gives
        (.ok (.unfinished id)) := by
      intro id hwalk
      obtain ⟨ids, htour⟩ := gives_walk_iff.mp hwalk
      exact (hranked.gives_tour hentry htour).2.2 (Nat.le_trans horder hlimit) id rfl
    refine ⟨hends, fun fault => ⟨fun hfault => ?_, fun scene v hrun => ?_⟩⟩
    · rcases gives_error_runChain hfault with hwalk | ⟨id, hwalk⟩
      · obtain ⟨ids, htour⟩ := gives_walk_iff.mp hwalk
        obtain ⟨before, a, ha, rfl, hvisit⟩ := exists_last_of_tour_gives_error htour
        exact ⟨before, a, ha, htour, hvisit⟩
      · exact absurd hwalk (hends id)
    · exact run_walk_faulted_iff.mp (run_walk_of_run_runChain_error hrun hends)

/-- Two ways that meet again; the end points at an action that is missing, and an action that is
shadowed by an earlier one points back. -/
def fork : List Action :=
  [.passage "start" ["left", "right"] none, .passage "left" [] (some "end"),
    .passage "right" ["", "left"] (some "end"), .passage "left" [] (some "start"),
    .passage "end" ["missing"] none]

/-- The fork has no cycle: every tour of it visits at most four actions, each once, and under that
limit it fails only by a fault of its last visit. -/
theorem fork_visits_once :
    cycle fork = none ∧
      (∀ ids r, (tour Player.idle Event.blank fork 9 (entry fork)).Gives (ids, r) →
        ids.Nodup ∧ ids.length ≤ 4) ∧
      ∀ fault scene v,
        (runChain Player.idle Event.blank fork (some 4)).run scene = (some (.error fault), v) →
          (trail Player.idle Event.blank fork 4 (entry fork) scene).LastFaults Player.idle
            Event.blank fault v := by
  have hcycle : cycle fork = none := by cbv
  have hlength : (firsts fork).length ≤ Player.idle.steps (some 4) := by decide
  have h := visits_once_of_cycle_eq_none hcycle Player.idle Event.blank
  exact ⟨hcycle, h.1 9, fun fault => ((h.2 (some 4) hlength).2 fault).2⟩

end MapEvents.Chain
