import MapEvents.Proofs.Chain.Visit
import MapEvents.Proofs.Task.Points
/-!
# Where a chain stands

Wherever a chain is interrupted, what is left of it is told by the place that it has come to: the
action to visit next and the number of steps left, or the action whose handler has been started, the
rest of this handler, and the steps left behind it. Everything after the handler is looked up in the
world only when it is due. So a chain holds no copy of the state, and nothing that happens to the
state at such a point can be undone by what the chain saw before.
-/

namespace MapEvents

variable {σ : Type}

namespace Task

variable {W α β γ ε : Type}

theorem andThen_assoc (t : Task W (Except ε α)) (k : α → Task W (Except ε β))
    (l : β → Task W (Except ε γ)) :
    (t.andThen k).andThen l = t.andThen fun a => (k a).andThen l := by
  rw [andThen, andThen, bind_assoc]
  refine bind_congr fun r _ => ?_
  cases r <;> rfl

/-- Going on after a success advances as the first task does, or as what comes after it. -/
theorem Advance.of_andThen {others : W → W → Prop} {t : Task W (Except ε α)}
    {k : α → Task W (Except ε β)} {w : W} {y : Task W (Except ε β) × W}
    (h : Advance others (t.andThen k, w) y) :
    (∃ r v, Advance others (t, w) (r, v) ∧ y = (r.andThen k, v)) ∨
      ∃ a, t = .done (.ok a) ∧ Advance others (k a, w) y := by
  rcases Advance.of_bind h with hfirst | ⟨r, rfl, hsecond⟩
  · exact .inl hfirst
  · cases r with
    | ok a => exact .inr ⟨a, rfl, hsecond⟩
    | error e => cases hsecond

end Task

namespace Chain

/-- The chain starts with this pointer, or one of its actions points there. -/
def IsPointer (actions : List Action) (current : Option String) : Prop :=
  current = entry actions ∨ ∃ a ∈ actions, a.PointsAt current

section

variable (p : Player σ) (event : Event) (actions : List Action) (limit : Option Int)

/-- What a chain makes of the end of its walk. -/
def finish : Stop → Work σ Outcome
  | .finished outcome => .done (.ok outcome)
  | .unfinished id =>
    match limit with
    | some m => .done (.error (.stepLimit event.id m id))
    | none => .hang

/-- The rest of a chain from a pointer on, with this many steps left. -/
def walkOn (steps : Nat) (current : Option String) : Work σ Outcome :=
  (walk p event actions steps current).andThen (finish event limit)

/-- The rest of a chain after a visit. -/
def moveOn (steps : Nat) : Move → Work σ Outcome
  | .stop outcome => .done (.ok outcome)
  | .to next => walkOn p event actions limit steps next

/-- Where to go after the handler of an action has given an outcome. -/
def settle (a : Action) : Outcome → Work σ Move
  | .success => choose p.surroundings a
  | outcome => .done (.ok (.stop outcome))

/-- The rest of a chain while the handler of an action has this left to do. -/
def playOn (steps : Nat) (a : Action) (rest : Work σ Outcome) : Work σ Outcome :=
  (rest.andThen (settle p a)).andThen (moveOn p event actions limit steps)

/-- A point of a chain: the chain is about to visit what a pointer leads to, or the handler of one
of its actions was started and has this left to do, or it was ended by a fault. -/
inductive Position (others : Scene σ → Scene σ → Prop) : Work σ Outcome × Scene σ → Prop where
  | visiting {steps : Nat} {current : Option String} {scene : Scene σ}
      (hsteps : steps ≤ p.steps limit) (hcurrent : IsPointer actions current) :
      Position others (walkOn p event actions limit steps current, scene)
  | playing {steps : Nat} {a : Action} {rest : Work σ Outcome} {start scene : Scene σ}
      (hsteps : steps < p.steps limit) (ha : a ∈ actions)
      (hrest : Task.Comes others (p.registry.dispatch p.surroundings event a, start)
        (rest, scene)) :
      Position others (playOn p event actions limit steps a rest, scene)
  | broken {fault : Fault} {scene : Scene σ} : Position others (.done (.error fault), scene)

end

variable {p : Player σ} {event : Event} {actions : List Action} {limit : Option Int}

/-- A chain is its walk, with the answer under its limit behind it. -/
theorem runChain_eq_walkOn (p : Player σ) (event : Event) (actions : List Action)
    (limit : Option Int) :
    runChain p event actions limit =
      walkOn p event actions limit (p.steps limit) (entry actions) := by
  refine Task.andThen_congr fun stop _ => ?_
  cases stop <;> rfl

/-- An action is played by its handler, and then settled by its outcome. -/
theorem play_eq_settle (p : Player σ) (event : Event) (a : Action) :
    play p event a = (p.registry.dispatch p.surroundings event a).andThen (settle p a) := by
  refine Task.andThen_congr fun outcome _ => ?_
  cases outcome <;> rfl

/-- With a step left, the walk visits its action and moves on from there. -/
theorem walkOn_succ {id : String} {a : Action} (hid : id ≠ "") (ha : action? actions id = some a)
    (steps : Nat) :
    walkOn p event actions limit (steps + 1) (some id) =
      (visit p event a).andThen (moveOn p event actions limit steps) := by
  rw [walkOn, walk_succ p event hid ha, Task.andThen_assoc]
  refine Task.andThen_congr fun m _ => ?_
  cases m <;> rfl

/-- A move that is known without a look at the world stops the walk. -/
theorem stop_of_settled {a : Action} {rest : Work σ Outcome} {m : Move}
    (h : rest.andThen (settle p a) = .done (.ok m)) : ∃ outcome, m = .stop outcome := by
  cases rest with
  | done r =>
    rcases r with fault | _ | _ | _
    · cases h
    · cases h
    · cases h
      exact ⟨.failed, rfl⟩
    · cases h
      exact ⟨.cancelled, rfl⟩
  | act effect next => cases h
  | pause next => cases h
  | hang => cases h

variable {others : Scene σ → Scene σ → Prop} {x y : Work σ Outcome × Scene σ}

/-- The first act of a visit checks whether the action is admitted. -/
theorem position_of_visit {steps : Nat} (hsteps : steps < p.steps limit) {a : Action}
    (ha : a ∈ actions) {scene : Scene σ}
    (h : Task.Advance others
      ((visit p event a).andThen (moveOn p event actions limit steps), scene) y) :
    Position p event actions limit others y := by
  cases h
  simp only
  rcases (admitted p.surroundings a scene.1).1 with fault | _ | _
  · exact .broken
  · exact .visiting (Nat.le_of_lt hsteps) (.inr ⟨a, ha, .inl rfl⟩)
  · show Position p event actions limit others
      ((play p event a).andThen (moveOn p event actions limit steps), _)
    rw [play_eq_settle]
    exact .playing hsteps ha .refl

/-- Every point of a chain is a position, since the next one is. -/
theorem Position.advance (hx : Position p event actions limit others x)
    (h : Task.Advance others x y) : Position p event actions limit others y := by
  cases hx with
  | @visiting steps current scene hsteps hcurrent =>
    rcases nowhere_or_action actions current with hnone | ⟨id, a, rfl, hid, ha⟩
    · rw [walkOn, walk_nowhere p event hnone] at h
      cases h
    · cases steps with
      | zero =>
        rw [walkOn, walk_zero p event hid ha] at h
        cases limit <;> cases h
      | succ steps =>
        rw [walkOn_succ hid ha] at h
        exact position_of_visit hsteps (mem_of_action? ha) h
  | @playing steps a rest start scene hsteps ha hrest =>
    rcases h.of_andThen with ⟨r, v, hfirst, rfl⟩ | ⟨m, hdone, hmove⟩
    · rcases hfirst.of_andThen with ⟨rest', v', hrest', hsame⟩ | ⟨outcome, rfl, hsettle⟩
      · obtain ⟨rfl, rfl⟩ := Prod.mk.inj hsame
        exact .playing hsteps ha (hrest.tail hrest')
      · -- The handler is done, and the branch is chosen in the world of this point.
        cases outcome with
        | success =>
          cases hsettle
          simp only
          rcases hchosen : (chooseBranch p.surroundings a.branches scene.1).1 with fault | _ | b
          · exact .broken
          · exact .visiting (Nat.le_of_lt hsteps) (.inr ⟨a, ha, .inl rfl⟩)
          · have hbranch : b ∈ a.branches := mem_of_chooseBranch hchosen
            exact .visiting (Nat.le_of_lt hsteps) (.inr ⟨a, ha, .inr ⟨b, hbranch, rfl⟩⟩)
        | failed => cases hsettle
        | cancelled => cases hsettle
    · obtain ⟨outcome, rfl⟩ := stop_of_settled hdone
      cases hmove
  | broken => cases h

/-- Wherever a chain comes to, it stands at one of its positions. -/
theorem position_of_comes {scene : Scene σ}
    (h : Task.Comes others (runChain p event actions limit, scene) y) :
    Position p event actions limit others y := by
  induction h with
  | refl =>
    rw [runChain_eq_walkOn]
    exact .visiting (Nat.le_refl _) (.inl rfl)
  | tail _ hstep ih => exact ih.advance hstep

end Chain

end MapEvents
