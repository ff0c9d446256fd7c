import MapEvents.Proofs.Chain.Limit
import MapEvents.Proofs.Condition.Frame
/-!
# What a chain did

What a chain answers can be read off its trail: an outcome other than success is the answer of the
last visit, whose handler leaves the scene in which the chain ends; a success means that a pointer
led to no action.
-/

namespace MapEvents.Chain

variable {σ : Type} {p : Player σ} {event : Event} {actions : List Action}

/-- A chain answers with the outcome that its walk ends with. -/
theorem run_runChain_eq_ok_iff {limit : Option Int} {scene v : Scene σ} {o : Outcome} :
    (runChain p event actions limit).run scene = (some (.ok o), v) ↔
      (walk p event actions (p.steps limit) (entry actions)).run scene =
        (some (.ok (.finished o)), v) := by
  simp only [run_runChain_eq_answer, Prod.ext_iff, Option.bind_eq_some_iff, answer_eq_ok_iff,
    exists_eq_right]

/-- A pointer leads to no action if it is missing or empty, or if its action is missing. -/
theorem leadsInto_nil_iff {current : Option String} :
    LeadsInto actions [] current ↔
      current = none ∨ current = some "" ∨
        ∃ id, current = some id ∧ contains actions id = false := by
  cases current with
  | none => simp [LeadsInto]
  | some id =>
    simp only [LeadsInto, Option.some.injEq, List.not_mem_nil, imp_false, Bool.not_eq_true]
    grind

/-- Checking the conditions of an action leaves the game state as it is. -/
theorem state_of_admitted (s : Surroundings σ) (a : Action) (w : World σ) :
    (admitted s a w).2.state = w.state := by
  unfold admitted
  cases a.conditions with
  | none => rfl
  | some cs => exact (Condition.checkAll_afterChecks s cs w).state

/-! ## What a chain did, from its trail -/

/-- What happens in a chain, and what it answers, by the trail of its run. -/
structure Account (p : Player σ) (event : Event) (actions : List Action) (limit : Option Int)
    (scene : Scene σ) (t : Trail σ) : Prop where
  /-- The run comes to every action of the trail, which is the first one with its id, in the scene
  that is noted there, with a step less for each action before. -/
  reached : ∀ before e after, t.visits = before ++ e :: after →
    e.action.id ≠ "" ∧ action? actions e.action.id = some e.action ∧
      e.fate = fate p event e.action e.reached ∧
      ∃ left, p.steps limit = before.length + (left + 1) ∧
        (walk p event actions (left + 1) (some e.action.id)).run e.reached =
          (walk p event actions (p.steps limit) (entry actions)).run scene
  /-- An action that is followed by another one was skipped or answered with success. -/
  passed : ∀ before e after, t.visits = before ++ e :: after → after ≠ [] → e.fate.Passed
  /-- Failed or cancelled is what the last visited action answered, whose handler leaves the scene
  that the chain ends in. -/
  stopped : ∀ o, o ≠ .success → ∀ v,
    (runChain p event actions limit).run scene = (some (.ok o), v) ↔
      ∃ before last, t.visits = before ++ [last] ∧ last.fate = .started (some (.ok o)) v ∧
        ∀ e ∈ before, e.fate.Passed
  /-- A chain succeeds if every action that was started did, and the walk came to a pointer that is
  missing or empty or whose action is missing. -/
  succeeded : (∃ v, (runChain p event actions limit).run scene = (some (.ok .success), v)) ↔
    (∀ e ∈ t.visits, ∀ answer left, e.fate = .started answer left → answer = some (.ok .success)) ∧
      ∃ last, t.standing = some last ∧
        (last = none ∨ last = some "" ∨ ∃ id, last = some id ∧ contains actions id = false)
  /-- An action is started only if its conditions hold in the scene in which it was reached. -/
  admitted : ∀ e ∈ t.visits, ∀ answer left, e.fate = .started answer left →
    ∃ w, Chain.admitted p.surroundings e.action e.reached.1 = (.ok true, w) ∧
      w.state = e.reached.1.state ∧
      (p.registry.dispatch p.surroundings event e.action).run (w, e.reached.2) = (answer, left)
  /-- Behind a skipped action the walk goes on at its successor, and nothing happens before. -/
  skipped : ∀ before e after, t.visits = before ++ e :: after → ∀ u, e.fate = .skipped u →
    ∃ w, Chain.admitted p.surroundings e.action e.reached.1 = (.ok false, w) ∧
      u = (w, e.reached.2) ∧
      ∃ left, p.steps limit = before.length + (left + 1) ∧
        trail p event actions left e.action.next u = ⟨after, t.standing⟩

/-- The trail of a chain tells what the chain did. Hook and resolver look at the game state and
never write it. -/
theorem account_runChain (p : Player σ) (event : Event) (actions : List Action)
    (limit : Option Int) (scene : Scene σ) :
    Account p event actions limit scene
      (trail p event actions (p.steps limit) (entry actions) scene) := by
  refine ⟨?reached, fun before e after => passed_of_followed, ?stopped, ?succeeded, ?admitted,
    ?skipped⟩
  case reached =>
    intro before e after hsplit
    obtain ⟨left, hleft, hbehind⟩ := exists_behind hsplit
    exact ⟨hbehind.named, hbehind.first, hbehind.fate, left, hleft, hbehind.run⟩
  case stopped =>
    intro o ho v
    rw [run_runChain_eq_ok_iff, run_walk_stopped_iff ho]
    constructor
    · rintro ⟨e, he, hanswer⟩
      have hnot : ¬e.fate.Passed := by
        rw [hanswer]
        exact Fate.not_passed_of_started ho v
      obtain ⟨before, hsplit⟩ := last_of_not_passed he hnot
      exact ⟨before, e, hsplit, hanswer, passed_of_mem_before hsplit⟩
    · rintro ⟨before, last, hsplit, hanswer, -⟩
      exact ⟨last, by simp [hsplit], hanswer⟩
  case succeeded =>
    simp only [run_runChain_eq_ok_iff, run_walk_succeeded_iff, leadsInto_nil_iff]
    refine ⟨fun hlast => ⟨fun e he answer left hanswer => ?_, hlast⟩, fun h => h.2⟩
    obtain ⟨last, hstanding, -⟩ := hlast
    have hpassed := passed_of_standing hstanding e he
    rwa [hanswer] at hpassed
  case admitted =>
    intro e he answer left hanswer
    rw [fate_of_mem he, fate_eq_started_iff] at hanswer
    obtain ⟨w, hadmitted, hdispatch⟩ := hanswer
    have hstate := state_of_admitted p.surroundings e.action e.reached.1
    rw [hadmitted] at hstate
    exact ⟨w, hadmitted, hstate, hdispatch⟩
  case skipped =>
    intro before e after hsplit u hskipped
    obtain ⟨left, hleft, hbehind⟩ := exists_behind hsplit
    have hvisit : (visit p event e.action).run e.reached =
        (some (.ok (.to e.action.next)), u) := by
      rw [run_visit, ← hbehind.fate, hskipped]
      rfl
    rw [hbehind.fate, fate_eq_skipped_iff] at hskipped
    obtain ⟨w, hadmitted, hu⟩ := hskipped
    exact ⟨w, hadmitted, hu, left, hleft, hbehind.moved _ _ hvisit⟩

/-- A door without its key. A branch leads to the hall behind it, and its successor is the bell. -/
def shutDoor : List Action :=
  [{ Action.passage "door" ["hall"] (some "bell") with
      conditions := some [⟨.item, .present, some "key", none, none⟩] },
    .passage "hall" [] none, .passage "bell" [] (some "gone")]

example :
    (trail Player.idle Event.blank shutDoor 9 (entry shutDoor) (.fresh, [])).visits.map
        (·.action.id) = ["door", "bell"] ∧
      (trail Player.idle Event.blank shutDoor 9 (entry shutDoor) (.fresh, [])).standing =
        some (some "gone") :=
  ⟨rfl, rfl⟩

end MapEvents.Chain
