import MapEvents.Proofs.Chain.Tour
/-!
# What a step limit does

A chain under a limit is its tour with at most that many visits, and an answer under that limit. A
tour that ended by itself is the same tour under every limit that lets it visit as many actions, and
a tour that was cut off is the beginning of every longer one, which goes on from the scene that the
shorter one left. The limit therefore only truncates: it changes nothing about a chain that it does
not cut off, and of one that it cuts off it leaves exactly the first visits.
-/

namespace MapEvents.Chain

variable {σ : Type} {p : Player σ} {event : Event} {actions : List Action}

/-- What a chain under this limit answers once its walk has ended; one without limit hangs if there
was a further action to visit. -/
def answer (event : Event) (limit : Option Int) :
    Except Fault Stop → Option (Except Fault Outcome)
  | .ok (.finished outcome) => some (.ok outcome)
  | .ok (.unfinished id) => limit.map fun m => .error (.stepLimit event.id m id)
  | .error fault => some (.error fault)

/-- Only a finished walk is answered with an outcome. -/
theorem answer_eq_ok_iff {limit : Option Int} {stop : Except Fault Stop} {o : Outcome} :
    answer event limit stop = some (.ok o) ↔ stop = .ok (.finished o) := by
  rcases stop with fault | outcome | id
  · simp [answer]
  · simp [answer]
  · cases limit <;> simp [answer]

/-- A chain does what its walk does, and answers under its limit. -/
theorem run_runChain_eq_answer (p : Player σ) (event : Event) (actions : List Action)
    (limit : Option Int) (scene : Scene σ) :
    (runChain p event actions limit).run scene =
      (((walk p event actions (p.steps limit) (entry actions)).run scene).1.bind
          (answer event limit),
        ((walk p event actions (p.steps limit) (entry actions)).run scene).2) := by
  rw [runChain, Task.andThen, Task.run_bind]
  rcases (walk p event actions (p.steps limit) (entry actions)).run scene with
    ⟨_ | fault | outcome | id, v⟩
  · rfl
  · rfl
  · rfl
  · cases limit <;> rfl

/-- A chain does what its walk does, whatever record of the walk is kept beside the result. -/
theorem run_runChain_of_map_snd {ρ : Type} {limit : Option Int}
    {walked : Task (Scene σ) (ρ × Except Fault Stop)}
    (h : walked.map (·.2) = walk p event actions (p.steps limit) (entry actions))
    (scene : Scene σ) :
    (runChain p event actions limit).run scene =
      ((walked.run scene).1.bind fun t => answer event limit t.2, (walked.run scene).2) := by
  rw [run_runChain_eq_answer, ← h, Task.run_map, Option.bind_map]
  rfl

/-- A chain does what its tour does, and answers under its limit. -/
theorem run_runChain (p : Player σ) (event : Event) (actions : List Action) (limit : Option Int)
    (scene : Scene σ) :
    (runChain p event actions limit).run scene =
      (((tour p event actions (p.steps limit) (entry actions)).run scene).1.bind
          fun t => answer event limit t.2,
        ((tour p event actions (p.steps limit) (entry actions)).run scene).2) :=
  run_runChain_of_map_snd (map_snd_tour p event actions _ _) scene

/-- A run of a chain that ends is a run of its tour, with the answer that the tour's end is given.
-/
theorem exists_tour_of_run_runChain {limit : Option Int} {scene v : Scene σ}
    {r : Except Fault Outcome} (h : (runChain p event actions limit).run scene = (some r, v)) :
    ∃ ids stop, (tour p event actions (p.steps limit) (entry actions)).run scene =
      (some (ids, stop), v) ∧ answer event limit stop = some r := by
  rw [run_runChain] at h
  rcases htour : (tour p event actions (p.steps limit) (entry actions)).run scene with
    ⟨_ | ⟨ids, stop⟩, u⟩ <;> rw [htour] at h
  · cases h
  · obtain ⟨hanswer, rfl⟩ := Prod.mk.inj h
    exact ⟨ids, stop, rfl, hanswer⟩

/-- Only a walk that was not finished is answered by the limit. -/
theorem answer_of_ends {stop : Except Fault Stop} (h : ∀ id, stop ≠ .ok (.unfinished id))
    (limit limit' : Option Int) : answer event limit stop = answer event limit' stop := by
  rcases stop with fault | outcome | id
  · rfl
  · rfl
  · exact absurd rfl (h id)

/-- The limit of a chain plays no part in what its actions do. -/
theorem tour_horizon (p : Player σ) (horizon : Nat) (event : Event) (actions : List Action)
    (steps : Nat) (current : Option String) :
    tour { p with horizon } event actions steps current = tour p event actions steps current := by
  induction steps, current using walk_induction actions with
  | nowhere steps current hnone => rw [tour_nowhere _ event hnone, tour_nowhere _ event hnone]
  | zero id a hid ha => rw [tour_zero _ event hid ha, tour_zero _ event hid ha]
  | succ steps id a hid ha ih =>
    simp only [tour_succ _ event hid ha, ih]
    rfl

/-! ## How many actions a tour visits -/

/-- A tour takes at most as many visits as it may, and all of them if it is cut off. -/
theorem length_tour_le {steps : Nat} {current : Option String} {ids : List String}
    {r : Except Fault Stop} (h : (tour p event actions steps current).Gives (ids, r)) :
    ids.length ≤ steps ∧ ∀ id, r = .ok (.unfinished id) → ids.length = steps := by
  induction steps, current using walk_induction actions generalizing ids r with
  | nowhere steps current hnone =>
    rw [tour_nowhere p event hnone] at h
    obtain ⟨rfl, rfl⟩ : ids = [] ∧ r = .ok (.finished .success) := by simpa using h
    simp
  | zero id a hid ha =>
    rw [tour_zero p event hid ha] at h
    obtain ⟨rfl, rfl⟩ : ids = [] ∧ r = .ok (.unfinished id) := by simpa using h
    simp
  | succ steps id a hid ha ih =>
    rcases gives_tour_succ hid ha h with ⟨rfl, hends⟩ | ⟨next, rest, -, rfl, hrest⟩
    · exact ⟨by simp, fun next hr => absurd hr (hends next)⟩
    · obtain ⟨hle, hall⟩ := ih next hrest
      refine ⟨by simpa using hle, fun next hr => ?_⟩
      simpa using hall next hr

/-- A tour that ended by itself is the same under every limit that lets it visit as many actions. -/
theorem run_tour_of_length_le {steps steps' : Nat} {current : Option String} {ids : List String}
    {r : Except Fault Stop} {scene v : Scene σ}
    (h : (tour p event actions steps current).run scene = (some (ids, r), v))
    (hends : ∀ id, r ≠ .ok (.unfinished id)) (hlength : ids.length ≤ steps') :
    (tour p event actions steps' current).run scene = (some (ids, r), v) := by
  induction steps, current using walk_induction actions
    generalizing steps' ids r scene with
  | nowhere steps current hnone =>
    rw [tour_nowhere p event hnone] at h ⊢
    exact h
  | zero id a hid ha =>
    rw [tour_zero p event hid ha] at h
    obtain ⟨⟨rfl, rfl⟩, rfl⟩ : ([] = ids ∧ .ok (.unfinished id) = r) ∧ scene = v := by
      simpa [Task.run] using h
    exact absurd rfl (hends id)
  | succ steps id a hid ha ih =>
    cases steps' with
    | zero =>
      obtain rfl : ids = [] := List.eq_nil_of_length_eq_zero (Nat.le_zero.mp hlength)
      rcases gives_tour_succ hid ha (Task.gives_of_run h) with ⟨hids, -⟩ | ⟨_, _, -, hids, -⟩ <;>
        cases hids
    | succ steps' =>
      rw [tour_succ p event hid ha, Task.run_bind] at h ⊢
      rcases hvisit : (visit p event a).run scene with ⟨_ | fault | next | outcome, u⟩ <;>
        rw [hvisit] at h
      · exact h
      · exact h
      · rcases hrest : (tour p event actions steps next).run u with ⟨_ | ⟨rest, r'⟩, w⟩ <;>
          simp only [Task.run_map, hrest, Option.map, Prod.mk.injEq, Option.some.injEq] at h
        · exact absurd h.1 (by simp)
        · obtain ⟨⟨rfl, rfl⟩, rfl⟩ := h
          have hshort : rest.length ≤ steps' := by simpa using hlength
          simp only [Task.run_map, ih next hrest hends hshort, Option.map]
      · exact h

/-! ## Going on behind a limit -/

/-- How a tour goes on, for some more steps, from where it was stopped for want of steps. -/
def goOn (p : Player σ) (event : Event) (actions : List Action) (more : Nat) :
    List String × Except Fault Stop → Task (Scene σ) (List String × Except Fault Stop)
  | (ids, .ok (.unfinished id)) =>
    (tour p event actions more (some id)).map fun t => (ids ++ t.1, t.2)
  | t => .done t

/-- A longer tour is a shorter one that goes on where it was cut off. -/
theorem tour_add (p : Player σ) (event : Event) (actions : List Action) (steps more : Nat)
    (current : Option String) :
    tour p event actions (steps + more) current =
      (tour p event actions steps current).bind (goOn p event actions more) := by
  induction steps, current using walk_induction actions with
  | nowhere steps current hnone =>
    rw [tour_nowhere p event hnone, tour_nowhere p event hnone]
    rfl
  | zero id a hid ha =>
    rw [Nat.zero_add, tour_zero p event hid ha]
    exact (Task.map_id _).symm
  | succ steps id a hid ha ih =>
    rw [Nat.succ_add, tour_succ p event hid ha, tour_succ p event hid ha, Task.bind_assoc]
    refine Task.bind_congr fun r _ => ?_
    rcases r with fault | next | outcome
    · rfl
    · show (tour p event actions (steps + more) next).map _ =
        ((tour p event actions steps next).map _).bind _
      rw [ih, Task.map_bind, Task.bind_map]
      refine Task.bind_congr fun t _ => ?_
      rcases t with ⟨ids, fault | outcome | id⟩
      · rfl
      · rfl
      · exact Task.map_map _ _ _
    · rfl

/-- A tour that ends with a fault has it from the last visit of the run. -/
theorem lastFaults_of_run_tour {steps : Nat} {current : Option String} {ids : List String}
    {fault : Fault} {scene v : Scene σ}
    (h : (tour p event actions steps current).run scene = (some (ids, .error fault), v)) :
    (trail p event actions steps current scene).LastFaults p event fault v := by
  rw [← run_walk_faulted_iff, ← map_snd_tour, Task.run_map, h]
  rfl

/-! ## What a limit does -/

/-- A walk that ended by itself gives its answer under every limit that allows its visits. -/
theorem run_runChain_of_length_le {limit limit' : Option Int} {p' : Player σ}
    (hp : ∀ steps current, tour p' event actions steps current = tour p event actions steps current)
    {scene v : Scene σ} {steps : Nat} {ids : List String} {stop : Except Fault Stop}
    (h : (tour p event actions steps (entry actions)).run scene = (some (ids, stop), v))
    (hends : ∀ id, stop ≠ .ok (.unfinished id)) (hlength : ids.length ≤ p'.steps limit') :
    (runChain p' event actions limit').run scene = (answer event limit stop, v) := by
  have htour := run_tour_of_length_le h hends hlength
  rw [← hp] at htour
  rw [run_runChain, htour, answer_of_ends hends limit limit']
  rfl

/-- A limit on the steps only cuts a chain off. A chain that ends otherwise ends the same way under
every larger limit and without one, from the first horizon on that lies no nearer than the limit. A
chain that the limit cuts off has visited exactly as many actions as the limit allows, and under
every larger limit the walk comes to the same scene and goes on from there; a fault of this kind
that is not the limit's is what the last visit of the run ends with. A chain that needs no more
steps than the limit is not cut off. Hook and resolver look at the game state and never write it. -/
theorem limit_only_truncates (p : Player σ) (event : Event) (actions : List Action) (m : Int)
    (scene : Scene σ) :
    (∀ r v, (runChain p event actions (some m)).run scene = (some r, v) →
      (∀ e k id, r ≠ .error (.stepLimit e k id)) →
        (∀ m', m ≤ m' → (runChain p event actions (some m')).run scene = (some r, v)) ∧
          ∀ horizon : Nat, m ≤ horizon →
            (runChain { p with horizon } event actions none).run scene = (some r, v)) ∧
    (∀ e k id v,
      (runChain p event actions (some m)).run scene = (some (.error (.stepLimit e k id)), v) →
        (trail p event actions m.toNat (entry actions) scene).LastFaults p event
            (.stepLimit e k id) v ∨
          e = event.id ∧ k = m ∧ ∃ ids, ids.length = m.toNat ∧
            (tour p event actions m.toNat (entry actions)).run scene =
              (some (ids, .ok (.unfinished id)), v) ∧
            ∀ more, (tour p event actions (m.toNat + more) (entry actions)).run scene =
              (goOn p event actions more (ids, .ok (.unfinished id))).run v) ∧
    ∀ steps ids r v, (tour p event actions steps (entry actions)).run scene = (some (ids, r), v) →
      (∀ id, r ≠ .ok (.unfinished id)) → ids.length ≤ m.toNat →
        (runChain p event actions (some m)).run scene = (answer event (some m) r, v) := by
  refine ⟨fun r v h hr => ?_, fun e k id v h => ?_, fun steps ids r v h hends hlength => ?_⟩
  · obtain ⟨ids, stop, htour, hanswer⟩ := exists_tour_of_run_runChain h
    have hends : ∀ id, stop ≠ .ok (.unfinished id) := by
      rintro id rfl
      exact hr event.id m id (Option.some.inj hanswer).symm
    have hlength : ids.length ≤ m.toNat := (length_tour_le (Task.gives_of_run htour)).1
    refine ⟨fun m' hm' => ?_, fun horizon hhorizon => ?_⟩
    · have hsteps : ids.length ≤ p.steps (some m') := Nat.le_trans hlength (Int.toNat_le_toNat hm')
      rw [run_runChain_of_length_le (fun _ _ => rfl) htour hends hsteps, hanswer]
    · have hsteps : ids.length ≤ Player.steps { p with horizon } none :=
        Nat.le_trans hlength (Int.toNat_le.mpr hhorizon)
      rw [run_runChain_of_length_le (tour_horizon p horizon event actions) htour hends hsteps,
        hanswer]
  · obtain ⟨ids, stop, htour, hanswer⟩ := exists_tour_of_run_runChain h
    rcases stop with fault | outcome | next
    · obtain rfl : fault = .stepLimit e k id := by simpa [answer] using hanswer
      exact .inl (lastFaults_of_run_tour htour)
    · cases hanswer
    · obtain ⟨rfl, rfl, rfl⟩ : event.id = e ∧ m = k ∧ next = id := by
        simpa [answer] using hanswer
      have hlength : ids.length = m.toNat :=
        (length_tour_le (Task.gives_of_run htour)).2 next rfl
      refine .inr ⟨rfl, rfl, ids, hlength, htour, fun more => ?_⟩
      rw [tour_add, Task.run_bind]
      rw [show p.steps (some m) = m.toNat from rfl] at htour
      rw [htour]
  · exact run_runChain_of_length_le (fun _ _ => rfl) h hends hlength

end MapEvents.Chain
