import MapEvents.Proofs.Chain.Visit
/-!
# Removing actions that are never reached

An action that is not reachable from the entry plays no part in a chain: the chain of the reachable
actions alone is the same work, with the same result or fault, the same requests, draws and journal
in the same order, and the same state in the end. What holds the two walks together is that a closed
set of ids is never left: every pointer that a visit may hand over leads into it or to no action.

Custom handlers see the event with its list of actions. The two chains are the same as long as the
handlers make no use of that list.
-/

namespace MapEvents

variable {σ : Type}

/-- The custom handlers do the same for an event with any other list of actions. -/
def Registry.IgnoresActions (r : Registry σ) : Prop :=
  ∀ tag run, (tag, Handler.custom run) ∈ r → ∀ (event : Event) (shown : List Action) (a : Action),
    run { event with actions := shown } a = run event a

/-- Handlers that ignore the actions of the event do not tell two lists of actions apart. -/
theorem Registry.IgnoresActions.dispatch {r : Registry σ} (h : r.IgnoresActions)
    (s : Surroundings σ) (event : Event) (shown : List Action) (a : Action) :
    r.dispatch s { event with actions := shown } a = r.dispatch s event a := by
  unfold Registry.dispatch
  split
  · rfl
  · rfl
  · next run hrun =>
    simp only [runCustom, h _ run (Fields.mem_of_find? hrun)]

namespace Chain

theorem visit_of_ignoresActions {p : Player σ} (h : p.registry.IgnoresActions) (event : Event)
    (shown : List Action) (a : Action) :
    visit p { event with actions := shown } a = visit p event a := by
  simp only [visit, play, h.dispatch]

/-- Of the actions whose ids are among these, the first one with such an id is the first of all. -/
theorem action?_filter {actions : List Action} {ids : List String} {id : String} (h : id ∈ ids) :
    action? (actions.filter fun a => a.id ∈ ids) id = action? actions id := by
  induction actions with
  | nil => rfl
  | cons a rest ih =>
    unfold action? at ih ⊢
    by_cases ha : a.id = id
    · have hmem : a.id ∈ ids := ha ▸ h
      rw [List.filter_cons_of_pos (by simpa using hmem), List.find?_cons_of_pos (by simpa using ha),
        List.find?_cons_of_pos (by simpa using ha)]
    · rw [List.find?_cons_of_neg (by simpa using ha)]
      by_cases hmem : a.id ∈ ids
      · rw [List.filter_cons_of_pos (by simpa using hmem),
          List.find?_cons_of_neg (by simpa using ha), ih]
      · rw [List.filter_cons_of_neg (by simpa using hmem), ih]

/-- A pointer that leads to no action leads to none of some actions either. -/
theorem LeadsInto.filter {actions : List Action} {current : Option String}
    (h : LeadsInto actions [] current) (keep : Action → Bool) :
    LeadsInto (actions.filter keep) [] current := by
  intro id hcurrent hid hcontains
  obtain ⟨a, ha, haid⟩ := contains_iff.mp hcontains
  exact h id hcurrent hid (contains_iff.mpr ⟨a, List.mem_of_mem_filter ha, haid⟩)

/-- A walk that enters a closed set of ids only needs the actions with these ids. -/
theorem walk_filter {p : Player σ} (hp : p.registry.IgnoresActions) (event : Event)
    (shown : List Action) {actions : List Action} {ids : List String} (hids : Closed actions ids)
    (steps : Nat) {current : Option String} (hcurrent : LeadsInto actions ids current) :
    walk p { event with actions := shown } (actions.filter fun a => a.id ∈ ids) steps current =
      walk p event actions steps current := by
  induction steps, current using walk_induction actions with
  | nowhere steps current hnone => rw [walk_nowhere _ _ (hnone.filter _), walk_nowhere _ _ hnone]
  | zero id a hid ha =>
    have hmem : id ∈ ids := hcurrent id rfl hid (contains_of_action? ha)
    rw [walk_zero _ _ hid ((action?_filter hmem).trans ha), walk_zero _ _ hid ha]
  | succ steps id a hid ha ih =>
    have hmem : id ∈ ids := hcurrent id rfl hid (contains_of_action? ha)
    rw [walk_succ _ _ hid ((action?_filter hmem).trans ha), walk_succ _ _ hid ha,
      visit_of_ignoresActions hp]
    refine Task.andThen_congr fun m hm => ?_
    rcases m with next | outcome
    · exact ih next (leadsInto_of_pointsAt ha (hids id hmem) (pointsAt_of_visit_gives hm))
    · rfl

/-- The actions that can be reached from the entry action, in their order. -/
def live (actions : List Action) : List Action := actions.filter fun a => a.id ∈ reachable actions

/-- The entry of the live actions is that of all of them, unless it is empty. -/
theorem entry_live {actions : List Action} (h : entry actions ≠ some "") :
    entry (live actions) = entry actions := by
  cases actions with
  | nil => rfl
  | cons a rest =>
    have hid : a.id ≠ "" := by simpa [entry] using h
    have hmem : a.id ∈ reachable (a :: rest) :=
      entry_leadsInto_reachable (a :: rest) a.id rfl hid (contains_entry rfl)
    simp [live, entry, hmem]

/-- With an empty entry id nothing is reached. -/
theorem live_of_entry_empty {actions : List Action} (h : entry actions = some "") :
    live actions = [] := by
  simp [live, reachable, h]

/-- The chain of the live actions is the chain of all actions: the same work, whatever it is run
with, and whichever of the two lists the event shows to its handlers. Hook and resolver look at the
game state and never write it. -/
theorem runChain_live {p : Player σ} (hp : p.registry.IgnoresActions) (event : Event)
    (shown actions : List Action) (limit : Option Int) :
    runChain p { event with actions := shown } (live actions) limit =
      runChain p event actions limit := by
  unfold runChain
  by_cases hentry : entry actions = some ""
  · rw [live_of_entry_empty hentry, hentry]
    simp [entry, walk]
  · rw [entry_live hentry, live, walk_filter hp event shown (reachable_closed actions)
      (p.steps limit) (entry_leadsInto_reachable actions)]

/-- A loop of two actions with a way out, behind which stand actions that nothing leads to; one of
them points into the loop. One action has the id of an earlier one and is never visited. -/
def tangle : List Action :=
  [.passage "in" ["out"] (some "back"), .passage "lost" [] (some "in"),
    .passage "back" [] (some "in"), .passage "back" [] (some "lost"), .passage "out" ["gone"] none,
    .passage "alone" ["lost"] none]

/-- A handler that fails in the middle of a loop and knows the event by its id. -/
def reporter : Registry Unit :=
  [("passage", .custom fun event a =>
    .pause (if a.id = "back" then .done (.error (.collaborator event.id)) else .done (.ok .null)))]

/-- The tangle runs as its live part does, up to the fault in the middle of its loop. -/
theorem runChain_live_tangle :
    reporter.IgnoresActions ∧ (live tangle).map (·.id) = ["in", "back", "back", "out"] ∧
      runChain { Player.idle with registry := reporter } { Event.blank with actions := live tangle }
          (live tangle) (some 7) =
        runChain { Player.idle with registry := reporter } { Event.blank with actions := tangle }
          tangle (some 7) := by
  have hreporter : reporter.IgnoresActions := by
    intro tag run hrun event shown a
    obtain ⟨-, rfl⟩ : tag = "passage" ∧ run = _ := by simpa [reporter] using hrun
    rfl
  have hlive : (live tangle).map (·.id) = ["in", "back", "back", "out"] := by cbv
  exact ⟨hreporter, hlive, runChain_live (p := { Player.idle with registry := reporter }) hreporter
    { Event.blank with actions := tangle } (live tangle) tangle (some 7)⟩

end Chain

end MapEvents
