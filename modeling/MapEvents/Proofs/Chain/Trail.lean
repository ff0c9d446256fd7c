import MapEvents.Proofs.Chain.Position
/-!
# The visits of a run

`Chain.trail` follows a run of a chain from visit to visit. It notes the scene in which the run
comes to an action and what becomes of the action there: it is skipped, or its handler is started
and leaves an answer and a scene, or its conditions end with a fault. At the end it notes the
pointer that was not followed any more, unless an action ended the run.

Every part of a trail from a visit on is the trail of the run from there on. How the run ends can be
read off its trail: an outcome other than success, or a fault, comes from the last visit; a success
means that a pointer led to no action.
-/

namespace MapEvents.Chain

variable {σ : Type} {p : Player σ} {event : Event} {actions : List Action}

/-! ## What becomes of an action -/

/-- What becomes of an action that a run comes to, and the scene that is left then. -/
inductive Fate (σ : Type) where
  /-- The conditions of the action end with a fault. -/
  | unclear (fault : Fault) (left : Scene σ)
  /-- The conditions do not hold. -/
  | skipped (left : Scene σ)
  /-- The handler is started, and hangs if it gives no answer. -/
  | started (answer : Option (Except Fault Outcome)) (left : Scene σ)

/-- What becomes of an action in this scene. -/
def fate (p : Player σ) (event : Event) (a : Action) (scene : Scene σ) : Fate σ :=
  match admitted p.surroundings a scene.1 with
  | (.error fault, w) => .unclear fault (w, scene.2)
  | (.ok false, w) => .skipped (w, scene.2)
  | (.ok true, w) =>
    let (answer, left) := (p.registry.dispatch p.surroundings event a).run (w, scene.2)
    .started answer left

/-- The action was skipped, or it was started and answered with success. -/
def Fate.Passed : Fate σ → Prop
  | .unclear _ _ => False
  | .skipped _ => True
  | .started answer _ => answer = some (.ok .success)

/-- How a visit goes on after this has become of its action. -/
def Fate.resume (p : Player σ) (a : Action) : Fate σ → Option (Except Fault Move) × Scene σ
  | .unclear fault left => (some (.error fault), left)
  | .skipped left => (some (.ok (.to a.next)), left)
  | .started none left => (none, left)
  | .started (some (.error fault)) left => (some (.error fault), left)
  | .started (some (.ok outcome)) left => (settle p a outcome).run left

/-- An action is skipped exactly if its conditions do not hold. -/
theorem fate_eq_skipped_iff {a : Action} {scene left : Scene σ} :
    fate p event a scene = .skipped left ↔
      ∃ w, admitted p.surroundings a scene.1 = (.ok false, w) ∧ left = (w, scene.2) := by
  unfold fate
  rcases admitted p.surroundings a scene.1 with ⟨fault | _ | _, w⟩ <;> simp [eq_comm]

/-- An action is started exactly if its conditions hold, in the world that checking them leaves. -/
theorem fate_eq_started_iff {a : Action} {scene left : Scene σ}
    {answer : Option (Except Fault Outcome)} :
    fate p event a scene = .started answer left ↔
      ∃ w, admitted p.surroundings a scene.1 = (.ok true, w) ∧
        (p.registry.dispatch p.surroundings event a).run (w, scene.2) = (answer, left) := by
  unfold fate
  rcases admitted p.surroundings a scene.1 with ⟨fault | _ | _, w⟩ <;> simp [Prod.ext_iff]

/-- A visit goes on as the fate of its action tells. -/
theorem run_visit (p : Player σ) (event : Event) (a : Action) (scene : Scene σ) :
    (visit p event a).run scene = (fate p event a scene).resume p a := by
  rw [visit, Task.andThen, Task.run_bind, Task.run_step, fate]
  rcases hadmitted : admitted p.surroundings a scene.1 with ⟨fault | _ | _, w⟩ <;>
    simp only [hadmitted]
  · rfl
  · rfl
  · rw [play_eq_settle, Task.andThen, Task.run_bind]
    rcases (p.registry.dispatch p.surroundings event a).run (w, scene.2) with
      ⟨_ | fault | outcome, left⟩ <;> rfl

/-- The walk goes on from an action that passed. -/
theorem Fate.passed_of_resume {f : Fate σ} {a : Action} {next : Option String} {v : Scene σ}
    (h : f.resume p a = (some (.ok (.to next)), v)) : f.Passed := by
  rcases f with ⟨fault, left⟩ | left | ⟨_ | fault | outcome, left⟩
  · cases h
  · trivial
  · cases h
  · cases h
  · cases outcome with
    | success => rfl
    | failed => cases h
    | cancelled => cases h

/-- A choice leads to another pointer, whichever. -/
theorem run_choose_ne_stop (s : Surroundings σ) (a : Action) (scene v : Scene σ) (o : Outcome) :
    (choose s a).run scene ≠ (some (.ok (.stop o)), v) := by
  rw [choose, Task.run_step]
  rcases hchosen : (chooseBranch s a.branches scene.1).1 with fault | _ | b <;>
    simp [hchosen, Except.map, Move.after]

/-- An outcome other than success settles a visit without choosing a branch. -/
theorem settle_of_ne_success {outcome : Outcome} (h : outcome ≠ .success) (p : Player σ)
    (a : Action) : settle p a outcome = .done (.ok (.stop outcome)) := by
  cases outcome with
  | success => exact absurd rfl h
  | failed => rfl
  | cancelled => rfl

/-- The walk is stopped by an action that was started and did not answer with success, in the scene
that its handler left. -/
theorem Fate.resume_eq_stop_iff {f : Fate σ} {a : Action} {o : Outcome} {v : Scene σ} :
    f.resume p a = (some (.ok (.stop o)), v) ↔
      o ≠ .success ∧ f = .started (some (.ok o)) v := by
  rcases f with ⟨fault, left⟩ | left | ⟨_ | fault | outcome, left⟩
  · simp [resume]
  · simp [resume]
  · simp [resume]
  · simp [resume]
  · by_cases houtcome : outcome = .success
    · have hstop := run_choose_ne_stop p.surroundings a left v o
      simp only [houtcome, resume, settle, hstop, started.injEq, Option.some.injEq, Except.ok.injEq,
        false_iff]
      rintro ⟨ho, rfl, -⟩
      exact ho rfl
    · simp only [resume, settle_of_ne_success houtcome, Task.run, Prod.mk.injEq, Option.some.injEq,
        Except.ok.injEq, Move.stop.injEq, started.injEq]
      constructor
      · rintro ⟨rfl, rfl⟩
        exact ⟨houtcome, rfl, rfl⟩
      · rintro ⟨-, hstops⟩
        exact hstops

/-! ## Trails -/

/-- An action on a trail: the scene in which the run came to it, and what became of it. -/
structure Sight (σ : Type) where
  action : Action
  reached : Scene σ
  fate : Fate σ

/-- The visits of a run in their order, and the pointer that was not followed any more; there is
none if the last visit ended the run. -/
structure Trail (σ : Type) where
  visits : List (Sight σ)
  standing : Option (Option String)

/-- The visits of a run that follows a chain from an id for at most the given number of steps. -/
def trail (p : Player σ) (event : Event) (actions : List Action) :
    (steps : Nat) → (current : Option String) → Scene σ → Trail σ
  | _, none, _ => ⟨[], some none⟩
  | steps, some id, scene =>
    if id = "" then ⟨[], some (some id)⟩
    else
      match action? actions id with
      | none => ⟨[], some (some id)⟩
      | some a =>
        match steps with
        | 0 => ⟨[], some (some id)⟩
        | steps + 1 =>
          match (visit p event a).run scene with
          | (some (.ok (.to next)), v) =>
            let rest := trail p event actions steps next v
            ⟨⟨a, scene, fate p event a scene⟩ :: rest.visits, rest.standing⟩
          | _ => ⟨[⟨a, scene, fate p event a scene⟩], none⟩

/-- A pointer that leads to no action is not followed. -/
theorem trail_nowhere (p : Player σ) (event : Event) {current : Option String}
    (h : LeadsInto actions [] current) (steps : Nat) (scene : Scene σ) :
    trail p event actions steps current scene = ⟨[], some current⟩ := by
  cases current with
  | none => rw [trail]
  | some id =>
    by_cases hid : id = ""
    · rw [trail, if_pos hid]
    · rw [trail, if_neg hid, h.action?_eq_none hid]

section

variable {id : String} {a : Action} (hid : id ≠ "") (ha : action? actions id = some a)

include hid ha

theorem trail_zero (p : Player σ) (event : Event) (scene : Scene σ) :
    trail p event actions 0 (some id) scene = ⟨[], some (some id)⟩ := by
  rw [trail, if_neg hid, ha]

/-- A visit that leads the run on is followed by the trail from there. -/
theorem trail_moved {steps : Nat} {scene v : Scene σ} {next : Option String}
    (h : (visit p event a).run scene = (some (.ok (.to next)), v)) :
    trail p event actions (steps + 1) (some id) scene =
      ⟨⟨a, scene, fate p event a scene⟩ :: (trail p event actions steps next v).visits,
        (trail p event actions steps next v).standing⟩ := by
  rw [trail, if_neg hid, ha]
  simp only [h]

/-- A visit that does not lead the run on is the last one of the trail. -/
theorem trail_ended {steps : Nat} {scene : Scene σ}
    (h : ∀ next v, (visit p event a).run scene ≠ (some (.ok (.to next)), v)) :
    trail p event actions (steps + 1) (some id) scene =
      ⟨[⟨a, scene, fate p event a scene⟩], none⟩ := by
  rw [trail, if_neg hid, ha]
  rcases hvisit : (visit p event a).run scene with ⟨_ | fault | next | outcome, v⟩
  · simp only [hvisit]
  · simp only [hvisit]
  · exact absurd hvisit (h next v)
  · simp only [hvisit]

/-- The walk goes on from where its first visit leads it. -/
theorem run_walk_moved {steps : Nat} {scene v : Scene σ} {next : Option String}
    (h : (visit p event a).run scene = (some (.ok (.to next)), v)) :
    (walk p event actions (steps + 1) (some id)).run scene =
      (walk p event actions steps next).run v := by
  rw [walk_succ p event hid ha, Task.andThen, Task.run_bind, h]
  rfl

/-- A walk that is not led on by a visit ends with it. -/
theorem run_walk_ended {steps : Nat} {scene : Scene σ}
    (h : ∀ next v, (visit p event a).run scene ≠ (some (.ok (.to next)), v)) (o : Outcome)
    (v : Scene σ) :
    (walk p event actions (steps + 1) (some id)).run scene = (some (.ok (.finished o)), v) ↔
      o ≠ .success ∧ fate p event a scene = .started (some (.ok o)) v := by
  rw [← Fate.resume_eq_stop_iff (p := p) (a := a), ← run_visit, walk_succ p event hid ha,
    Task.andThen, Task.run_bind]
  rcases hvisit : (visit p event a).run scene with ⟨_ | fault | next | outcome, u⟩
  · simp
  · simp [Task.run]
  · exact absurd hvisit (h next u)
  · simp [proceed, Task.run]

end

/-- Induction along a run: its pointer leads to no action, or to one that there is no step left for,
or to one whose visit ends the run, or to one whose visit leads it on. -/
@[elab_as_elim]
theorem run_induction (p : Player σ) (event : Event) (actions : List Action)
    {motive : Nat → Option String → Scene σ → Prop}
    (nowhere : ∀ steps current scene, LeadsInto actions [] current → motive steps current scene)
    (zero : ∀ id a scene, id ≠ "" → action? actions id = some a → motive 0 (some id) scene)
    (ended : ∀ steps id a scene, id ≠ "" → action? actions id = some a →
      (∀ next v, (visit p event a).run scene ≠ (some (.ok (.to next)), v)) →
      motive (steps + 1) (some id) scene)
    (moved : ∀ steps id a scene next v, id ≠ "" → action? actions id = some a →
      (visit p event a).run scene = (some (.ok (.to next)), v) → motive steps next v →
      motive (steps + 1) (some id) scene)
    (steps : Nat) (current : Option String) (scene : Scene σ) : motive steps current scene := by
  induction steps, current using walk_induction actions generalizing scene with
  | nowhere steps current hnone => exact nowhere steps current scene hnone
  | zero id a hid ha => exact zero id a scene hid ha
  | succ steps id a hid ha ih =>
    by_cases h : ∃ next v, (visit p event a).run scene = (some (.ok (.to next)), v)
    · obtain ⟨next, v, hvisit⟩ := h
      exact moved steps id a scene next v hid ha hvisit (ih next v)
    · exact ended steps id a scene hid ha fun next v hvisit => h ⟨next, v, hvisit⟩

/-! ## Parts of a trail -/

/-- Behind a visit, with this many steps left, the trail goes on as `rest` and the run ends as
`ended`. -/
structure Behind (p : Player σ) (event : Event) (actions : List Action) (left : Nat) (e : Sight σ)
    (rest : Trail σ) (ended : Option (Except Fault Stop) × Scene σ) : Prop where
  named : e.action.id ≠ ""
  first : action? actions e.action.id = some e.action
  fate : e.fate = fate p event e.action e.reached
  run : (walk p event actions (left + 1) (some e.action.id)).run e.reached = ended
  moved : ∀ next v, (visit p event e.action).run e.reached = (some (.ok (.to next)), v) →
    trail p event actions left next v = rest
  stayed : (∀ next v, (visit p event e.action).run e.reached ≠ (some (.ok (.to next)), v)) →
    rest = ⟨[], none⟩

/-- Behind each of its visits a trail is the trail of the run from there on. -/
theorem exists_behind {steps : Nat} {current : Option String} {scene : Scene σ}
    {before after : List (Sight σ)} {e : Sight σ}
    (h : (trail p event actions steps current scene).visits = before ++ e :: after) :
    ∃ left, steps = before.length + (left + 1) ∧
      Behind p event actions left e
        ⟨after, (trail p event actions steps current scene).standing⟩
        ((walk p event actions steps current).run scene) := by
  induction steps, current, scene using run_induction p event actions generalizing before with
  | nowhere steps current scene hnone =>
    rw [trail_nowhere p event hnone] at h
    exact absurd h (by simp)
  | zero id a scene hid ha =>
    rw [trail_zero hid ha] at h
    exact absurd h (by simp)
  | ended steps id a scene hid ha hends =>
    rw [trail_ended hid ha hends] at h ⊢
    obtain ⟨rfl, rfl, rfl⟩ : before = [] ∧ e = ⟨a, scene, fate p event a scene⟩ ∧ after = [] := by
      simpa [List.cons_eq_append_iff] using h
    obtain rfl : a.id = id := id_of_action? ha
    exact ⟨steps, (Nat.zero_add _).symm, hid, ha, rfl, rfl,
      fun next v hvisit => absurd hvisit (hends next v), fun _ => rfl⟩
  | moved steps id a scene next v hid ha hvisit ih =>
    rw [trail_moved hid ha hvisit] at h ⊢
    cases before with
    | nil =>
      obtain ⟨rfl, rfl⟩ := List.cons.inj h
      obtain rfl : a.id = id := id_of_action? ha
      refine ⟨steps, (Nat.zero_add _).symm, hid, ha, rfl, rfl, fun next' v' hvisit' => ?_,
        fun hends => ?_⟩
      · obtain ⟨rfl, rfl⟩ : next = next' ∧ v = v' := by
          simpa using hvisit.symm.trans hvisit'
        rfl
      · exact absurd hvisit (hends next v)
    | cons first before =>
      -- The visit is one of the run that the first visit leads on to.
      rw [run_walk_moved hid ha hvisit]
      obtain ⟨left, rfl, hbehind⟩ := ih (List.cons.inj h).2
      exact ⟨left, (Nat.succ_add _ _).symm, hbehind⟩

/-- Something comes behind a visit only if its action passed. -/
theorem Behind.passed {left : Nat} {e : Sight σ} {rest : Trail σ}
    {ended : Option (Except Fault Stop) × Scene σ}
    (h : Behind p event actions left e rest ended) (hrest : rest ≠ ⟨[], none⟩) :
    e.fate.Passed := by
  by_cases hmoved : ∃ next v, (visit p event e.action).run e.reached = (some (.ok (.to next)), v)
  · obtain ⟨next, v, hvisit⟩ := hmoved
    rw [run_visit, ← h.fate] at hvisit
    exact Fate.passed_of_resume hvisit
  · exact absurd (h.stayed fun next v hvisit => hmoved ⟨next, v, hvisit⟩) hrest

/-! ## What a run ends with -/

/-- The walk ends with an outcome other than success exactly if one of its visits does. -/
theorem run_walk_stopped_iff {steps : Nat} {current : Option String} {scene v : Scene σ}
    {o : Outcome} (ho : o ≠ .success) :
    (walk p event actions steps current).run scene = (some (.ok (.finished o)), v) ↔
      ∃ e ∈ (trail p event actions steps current scene).visits,
        e.fate = .started (some (.ok o)) v := by
  induction steps, current, scene using run_induction p event actions with
  | nowhere steps current scene hnone =>
    rw [walk_nowhere p event hnone, trail_nowhere p event hnone]
    simp [Task.run, ho.symm]
  | zero id a scene hid ha =>
    rw [walk_zero p event hid ha, trail_zero hid ha]
    simp [Task.run]
  | ended steps id a scene hid ha hends =>
    rw [run_walk_ended hid ha hends, trail_ended hid ha hends]
    simp [ho]
  | moved steps id a scene next u hid ha hvisit ih =>
    rw [run_walk_moved hid ha hvisit, trail_moved hid ha hvisit, ih]
    -- An action that answered otherwise than with success would not have led the walk on.
    have hgoes : fate p event a scene ≠ .started (some (.ok o)) v := by
      intro hfate
      have hstop : (visit p event a).run scene = (some (.ok (.stop o)), v) := by
        rw [run_visit]
        exact Fate.resume_eq_stop_iff.mpr ⟨ho, hfate⟩
      rw [hvisit] at hstop
      cases hstop
    simp [hgoes]

/-- The last visit of the trail ends with this fault, and leaves this scene. -/
def Trail.LastFaults (p : Player σ) (event : Event) (t : Trail σ) (fault : Fault) (v : Scene σ) :
    Prop :=
  ∃ last, t.visits.getLast? = some last ∧
    (visit p event last.action).run last.reached = (some (.error fault), v)

/-- The walk ends with a fault exactly if its last visit does. -/
theorem run_walk_faulted_iff {steps : Nat} {current : Option String} {scene v : Scene σ}
    {fault : Fault} :
    (walk p event actions steps current).run scene = (some (.error fault), v) ↔
      (trail p event actions steps current scene).LastFaults p event fault v := by
  unfold Trail.LastFaults
  induction steps, current, scene using run_induction p event actions with
  | nowhere steps current scene hnone =>
    rw [walk_nowhere p event hnone, trail_nowhere p event hnone]
    simp [Task.run]
  | zero id a scene hid ha =>
    rw [walk_zero p event hid ha, trail_zero hid ha]
    simp [Task.run]
  | ended steps id a scene hid ha hends =>
    rw [walk_succ p event hid ha, Task.andThen, Task.run_bind, trail_ended hid ha hends]
    rcases hvisit : (visit p event a).run scene with ⟨_ | fault' | next | outcome, u⟩
    · simp [hvisit]
    · simp [hvisit, Task.run]
    · exact absurd hvisit (hends next u)
    · simp [hvisit, proceed, Task.run]
  | moved steps id a scene next u hid ha hvisit ih =>
    rw [run_walk_moved hid ha hvisit, trail_moved hid ha hvisit, ih]
    cases hrest : (trail p event actions steps next u).visits.getLast? with
    | none => simp [List.getLast?_cons, hrest, hvisit]
    | some last => simp [List.getLast?_cons, hrest]

/-- The walk ends with success exactly if a pointer that was not followed leads to no action. -/
theorem run_walk_succeeded_iff {steps : Nat} {current : Option String} {scene : Scene σ} :
    (∃ v, (walk p event actions steps current).run scene = (some (.ok (.finished .success)), v)) ↔
      ∃ last, (trail p event actions steps current scene).standing = some last ∧
        LeadsInto actions [] last := by
  induction steps, current, scene using run_induction p event actions with
  | nowhere steps current scene hnone =>
    rw [walk_nowhere p event hnone, trail_nowhere p event hnone]
    simp [Task.run, hnone]
  | zero id a scene hid ha =>
    rw [walk_zero p event hid ha, trail_zero hid ha]
    have hsome : ¬LeadsInto actions [] (some id) := fun h =>
      absurd (h id rfl hid (contains_of_action? ha)) List.not_mem_nil
    simp [Task.run, hsome]
  | ended steps id a scene hid ha hends =>
    simp only [run_walk_ended hid ha hends, trail_ended hid ha hends]
    simp
  | moved steps id a scene next u hid ha hvisit ih =>
    rw [run_walk_moved hid ha hvisit, trail_moved hid ha hvisit]
    exact ih

section

variable {steps : Nat} {current : Option String} {scene : Scene σ} {before after : List (Sight σ)}
  {e : Sight σ}

theorem fate_of_mem (he : e ∈ (trail p event actions steps current scene).visits) :
    e.fate = fate p event e.action e.reached := by
  obtain ⟨before, after, hsplit⟩ := List.append_of_mem he
  obtain ⟨left, -, hbehind⟩ := exists_behind hsplit
  exact hbehind.fate

/-- An action that is followed by another one passed. -/
theorem passed_of_followed
    (h : (trail p event actions steps current scene).visits = before ++ e :: after)
    (hafter : after ≠ []) : e.fate.Passed := by
  obtain ⟨left, -, hbehind⟩ := exists_behind h
  exact hbehind.passed fun hnone => hafter (congrArg Trail.visits hnone)

theorem passed_of_mem_before
    (h : (trail p event actions steps current scene).visits = before ++ e :: after) :
    ∀ earlier ∈ before, earlier.fate.Passed := by
  intro earlier hearlier
  obtain ⟨first, last, rfl⟩ := List.append_of_mem hearlier
  rw [List.append_assoc, List.cons_append] at h
  exact passed_of_followed h (by simp)

/-- Where a pointer was not followed, all actions before passed. -/
theorem passed_of_standing {last : Option String}
    (h : (trail p event actions steps current scene).standing = some last) :
    ∀ e ∈ (trail p event actions steps current scene).visits, e.fate.Passed := by
  intro e he
  obtain ⟨before, after, hsplit⟩ := List.append_of_mem he
  obtain ⟨left, -, hbehind⟩ := exists_behind hsplit
  refine hbehind.passed fun hnone => ?_
  have hstanding := congrArg Trail.standing hnone
  rw [h] at hstanding
  cases hstanding

/-- An action that ended the run with an outcome is the last one. -/
theorem last_of_not_passed (he : e ∈ (trail p event actions steps current scene).visits)
    (hpassed : ¬e.fate.Passed) :
    ∃ before, (trail p event actions steps current scene).visits = before ++ [e] := by
  obtain ⟨before, after, hsplit⟩ := List.append_of_mem he
  cases after with
  | nil => exact ⟨before, hsplit⟩
  | cons next after => exact absurd (passed_of_followed hsplit (by simp)) hpassed

end

/-- A handler that answered otherwise than with success did not pass. -/
theorem Fate.not_passed_of_started {o : Outcome} (ho : o ≠ .success) (left : Scene σ) :
    ¬(Fate.started (some (.ok o)) left).Passed := by
  simpa [Fate.Passed] using ho

end MapEvents.Chain
