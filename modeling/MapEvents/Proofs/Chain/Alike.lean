import MapEvents.Proofs.Chain.Frame
import MapEvents.Proofs.State.Past
import MapEvents.Proofs.Task.Alike
import MapEvents.Proofs.Trigger.Own
/-!
# Chains on worlds that are alike for an event

Two worlds are alike for an event if they are the same but for the entries of other events in the
history. A chain looks at the game through conditions, branches and handlers. If those that a game
brings along answer alike on such worlds, as they do if they take no notice of the history, then a
chain does the same on both: the same answers and the same requests in the same order, and worlds
that are alike again.
-/

namespace MapEvents

variable {σ α : Type}

/-- But for the entries of other events in the history, the worlds are the same. -/
structure World.AlikeFor (event : String) (w v : World σ) : Prop where
  state : v.state = w.state.withHistory v.state.history
  /-- The event's own entries are the same, also in whether they count as recent. -/
  own : RepeatPolicy.ownEntries event v.recent v.state.history =
    RepeatPolicy.ownEntries event w.recent w.state.history
  clock : v.clock = w.clock
  journal : v.journal = w.journal
  execution : v.execution = w.execution
  outside : v.outside = w.outside

/-- Running chains that have the same trigger data, in worlds that are alike for an event. -/
def Scene.AlikeFor (event : String) (p q : Scene σ) : Prop :=
  p.1.AlikeFor event q.1 ∧ p.2 = q.2

/-- The same answers, and worlds that are alike for an event. -/
def World.AnswersAlike (event : String) (p q : α × World σ) : Prop :=
  p.1 = q.1 ∧ p.2.AlikeFor event q.2

/-- Two answers that are alike are one value, beside worlds that are alike. -/
theorem World.AnswersAlike.exists_eq {event : String} {p q : α × World σ}
    (h : World.AnswersAlike event p q) :
    ∃ a w v, p = (a, w) ∧ q = (a, v) ∧ World.AlikeFor event w v :=
  ⟨p.1, p.2, q.2, rfl, Prod.ext h.1.symm rfl, h.2⟩

/-- Hook and resolver answer alike on states that are alike for the event. -/
structure Surroundings.BlindFor (s : Surroundings σ) (event : String) : Prop where
  hook : ∀ hook, s.hook = some hook → ∀ c o (p q : GameState), p.AlikeFor event q →
    hook c p o = hook c q o
  resolver : ∀ resolver, s.resolver = some resolver → ∀ c o (p q : GameState),
    p.AlikeFor event q → resolver c p o = resolver c q o

/-- Hook, resolver and custom handlers do not see the entries of events other than this one. -/
structure Player.BlindFor (p : Player σ) (event : Event) : Prop where
  surroundings : p.surroundings.BlindFor event.id
  handlers : ∀ tag run, (tag, Handler.custom run) ∈ p.registry → ∀ a,
    (run event a).Alike (Scene.AlikeFor event.id) (run event a)

namespace World.AlikeFor

variable {event : String} {w v : World σ}

theorem refl (event : String) (w : World σ) : w.AlikeFor event w :=
  ⟨rfl, rfl, rfl, rfl, rfl, rfl⟩

theorem states (h : w.AlikeFor event v) : w.state.AlikeFor event v.state := by
  constructor
  · exact h.state
  · rw [← RepeatPolicy.map_fst_ownEntries event v.recent, h.own, RepeatPolicy.map_fst_ownEntries]

theorem note (h : w.AlikeFor event v) (e : Entry) : (w.note e).AlikeFor event (v.note e) :=
  ⟨h.state, h.own, h.clock, congrArg (e :: ·) h.journal, h.execution, h.outside⟩

theorem showing (h : w.AlikeFor event v) (e : Execution) :
    (w.showing e).AlikeFor event (v.showing e) :=
  ⟨h.state, h.own, h.clock, h.journal, rfl, h.outside⟩

theorem withOutside (h : w.AlikeFor event v) (outside : σ) :
    { w with outside }.AlikeFor event { v with outside } :=
  ⟨h.state, h.own, h.clock, h.journal, h.execution, rfl⟩

/-- The states change alike, and keep their histories. -/
theorem withState (h : w.AlikeFor event v) {s t : GameState} (hst : s.AlikeFor event t)
    (hs : s.history = w.state.history) (ht : t.history = v.state.history) :
    { w with state := s }.AlikeFor event { v with state := t } := by
  refine ⟨hst.rest, ?_, h.clock, h.journal, h.execution, h.outside⟩
  change RepeatPolicy.ownEntries event v.recent t.history =
    RepeatPolicy.ownEntries event w.recent s.history
  rw [hs, ht]
  exact h.own

end World.AlikeFor

/-! ## Conditions -/

namespace Condition

variable {s : Surroundings σ} {event : String} {w v : World σ}

/-- A condition is decided the same in worlds that are alike, if hook and resolver do not see the
difference. -/
theorem check_alike (hs : s.BlindFor event) (h : w.AlikeFor event v) (c : Condition) :
    World.AnswersAlike event (c.check s w) (c.check s v) := by
  unfold check
  cases c.kind with
  | random =>
    simp only [h.outside]
    exact ⟨rfl, (h.note .draw).withOutside _⟩
  | custom =>
    cases hhook : s.hook with
    | none => exact ⟨rfl, h⟩
    | some hook =>
      have hsame := hs.hook hook hhook c w.outside w.state v.state h.states
      simp only [h.outside, hsame]
      exact ⟨rfl, (h.note _).withOutside _⟩
  | _ =>
    -- The other kinds look at parts of the state that are the same, and change nothing.
    refine ⟨?_, h⟩
    rw [h.state]
    rfl

/-- Several conditions in turn are decided the same in worlds that are alike. -/
theorem checkAll_alike (hs : s.BlindFor event) (h : w.AlikeFor event v) (cs : List Condition) :
    World.AnswersAlike event (checkAll s cs w) (checkAll s cs v) := by
  induction cs generalizing w v with
  | nil => exact ⟨rfl, h⟩
  | cons c rest ih =>
    obtain ⟨r, w', v', hw, hv, hworlds⟩ := (check_alike hs h c).exists_eq
    rw [checkAll, checkAll, hw, hv]
    rcases r with fault | _ | _
    · exact ⟨rfl, hworlds⟩
    · exact ⟨rfl, hworlds⟩
    · exact ih hworlds

end Condition

/-! ## Handlers -/

namespace Registry

variable {r : Registry σ} {s : Surroundings σ}

/-- A request asks the same of the host, and its answer is taken the same, in worlds that are alike.
-/
theorem ask_alike (s : Surroundings σ) (event : String) (request : Request) :
    (s.ask request).Alike (Scene.AlikeFor event) (s.ask request) := by
  refine .act (fun p q h => ⟨h.1.note _, h.2⟩) fun p q h => ?_
  refine .onPart ?_ ?_ _
  · intro p q h
    exact h.1.outside.symm
  · intro o p q h
    exact ⟨h.1.withOutside o, h.2⟩

/-- Standard actions do the same in worlds that are alike, because none of them looks into the
history. -/
theorem runStandard_alike (s : Surroundings σ) (event : String) (std : StandardAction)
    (params : Data) :
    (runStandard s std params).Alike (Scene.AlikeFor event) (runStandard s std params) := by
  refine Task.Alike.andThen (.step ?performed) fun request => ?_
  case performed =>
    intro p q h
    have hperform := std.perform_alike h.1.states params
    refine ⟨hperform.1, h.1.withState hperform.2 ?_ ?_, h.2⟩
    · exact (std.perform_afterActions params p.1.state).history
    · exact (std.perform_afterActions params q.1.state).history
  cases request with
  | none => exact .done _
  | some request => exact (ask_alike s event request).andThen fun reply => .done _

/-- Handlers do, if the custom ones among them do. -/
theorem dispatch_alike {event : Event} (hr : ∀ tag run, (tag, Handler.custom run) ∈ r → ∀ a,
    (run event a).Alike (Scene.AlikeFor event.id) (run event a)) (s : Surroundings σ)
    (a : Action) :
    (r.dispatch s event a).Alike (Scene.AlikeFor event.id) (r.dispatch s event a) := by
  unfold dispatch
  split
  · exact .act (fun p q h => ⟨h.1.note _, h.2⟩) fun p q h => .done _
  · exact runStandard_alike s event.id _ a.params
  · next run hrun =>
    refine .act ?_ fun p q h => ?_
    · rintro ⟨w, d⟩ ⟨v, _⟩ ⟨h, rfl⟩
      exact ⟨h.note _, rfl⟩
    · exact (hr _ run (Fields.mem_of_find? hrun) a).andThen fun reply => .done _

end Registry

/-! ## Chains -/

namespace Chain

variable {p : Player σ} {event : Event}

/-- The condition of a branch is decided the same in worlds that are alike. -/
theorem branchHolds_alike {s : Surroundings σ} {event : String} (hs : s.BlindFor event)
    {w v : World σ} (h : w.AlikeFor event v) (b : Branch) :
    World.AnswersAlike event (branchHolds s b w) (branchHolds s b v) := by
  unfold branchHolds
  cases hresolver : s.resolver with
  | none => exact ⟨rfl, h⟩
  | some resolver =>
    have hsame := hs.resolver resolver hresolver b.condition w.outside w.state v.state h.states
    simp only [h.outside, hsame]
    exact ⟨rfl, (h.note _).withOutside _⟩

/-- The same branch is chosen in worlds that are alike. -/
theorem chooseBranch_alike {s : Surroundings σ} {event : String} (hs : s.BlindFor event)
    {w v : World σ} (h : w.AlikeFor event v) (bs : List Branch) :
    World.AnswersAlike event (chooseBranch s bs w) (chooseBranch s bs v) := by
  induction bs generalizing w v with
  | nil => exact ⟨rfl, h⟩
  | cons b rest ih =>
    obtain ⟨r, w', v', hw, hv, hworlds⟩ := (branchHolds_alike hs h b).exists_eq
    rw [chooseBranch, chooseBranch, hw, hv]
    rcases r with fault | _ | _
    · exact ⟨rfl, hworlds⟩
    · exact ih hworlds
    · exact ⟨rfl, hworlds⟩

/-- A visit does the same in worlds that are alike, if its player is blind to the difference. -/
theorem visit_alike (hp : p.BlindFor event) (a : Action) :
    (visit p event a).Alike (Scene.AlikeFor event.id) (visit p event a) := by
  refine Task.Alike.andThen (.step ?admission) fun admitted => ?_
  case admission =>
    intro x y h
    have hadmitted : World.AnswersAlike event.id (Chain.admitted p.surroundings a x.1)
        (Chain.admitted p.surroundings a y.1) := by
      unfold Chain.admitted
      cases a.conditions with
      | none => exact ⟨rfl, h.1⟩
      | some cs => exact Condition.checkAll_alike hp.surroundings h.1 cs
    exact ⟨hadmitted.1, hadmitted.2, h.2⟩
  cases admitted with
  | false => exact .done _
  | true =>
    refine (Registry.dispatch_alike hp.handlers p.surroundings a).andThen fun outcome => ?_
    cases outcome with
    | success =>
      refine .step fun x y h => ?_
      have hbranch := chooseBranch_alike hp.surroundings h.1 a.branches
      exact ⟨congrArg (Except.map (Move.after a)) hbranch.1, hbranch.2, h.2⟩
    | failed => exact .done _
    | cancelled => exact .done _

/-- A walk does the same in worlds that are alike, if its player is blind to the difference. -/
theorem walk_alike (hp : p.BlindFor event) (actions : List Action) (steps : Nat)
    (current : Option String) :
    (walk p event actions steps current).Alike (Scene.AlikeFor event.id)
      (walk p event actions steps current) := by
  induction steps, current using walk_induction actions with
  | nowhere steps current hnone =>
    rw [walk_nowhere p event hnone]
    exact .done _
  | zero id a hid ha =>
    rw [walk_zero p event hid ha]
    exact .done _
  | succ steps id a hid ha ih =>
    rw [walk_succ p event hid ha]
    refine (visit_alike hp a).andThen fun m => ?_
    rcases m with next | outcome
    · exact ih next
    · exact .done _

/-- A chain does the same on worlds that are alike for its event. -/
theorem runChain_alike (hp : p.BlindFor event) (actions : List Action) (limit : Option Int) :
    (runChain p event actions limit).Alike (Scene.AlikeFor event.id)
      (runChain p event actions limit) := by
  refine (walk_alike hp actions _ _).andThen fun stop => ?_
  cases stop with
  | finished outcome => exact .done _
  | unfinished id =>
    cases limit with
    | none => exact .hang
    | some m => exact .done _

end Chain

end MapEvents
