import Mathlib.Combinatorics.Pigeonhole
import MapEvents.Proofs.Chain.Steer
import MapEvents.Proofs.Chain.Trail
/-!
# Chains that always take the same course

If no action has conditions, every branch passes and every handler succeeds, the next action depends
on the visited one alone, whatever the scene. Such a chain follows an orbit in the actions. There
are only as many actions to come to as there are ids: an orbit that has not ended after as many
visits has come to one of them twice, and never ends. A limit of that many steps therefore tells the
chains that end from those that do not.
-/

namespace MapEvents

variable {σ : Type}

/-- Where an action leads to after a success if every branch passes. -/
def Action.onward (a : Action) : Option String :=
  match a.branches.head? with
  | some b => some b.target
  | none => a.next

namespace Chain

variable {p : Player σ} {event : Event} {actions : List Action}

/-! ## The orbit of a pointer -/

/-- The action that a pointer leads to. -/
def leadsTo? (actions : List Action) : Option String → Option Action
  | none => none
  | some id => if id = "" then none else action? actions id

/-- The action behind one that succeeds, if the chain has not ended. -/
def ahead (actions : List Action) (a : Option Action) : Option Action :=
  a.bind fun a => leadsTo? actions a.onward

/-- A pointer that leads nowhere leads to no action. -/
theorem leadsTo?_of_nowhere {current : Option String} (h : LeadsInto actions [] current) :
    leadsTo? actions current = none := by
  cases current with
  | none => rfl
  | some id =>
    rw [leadsTo?]
    split
    · rfl
    · next hid => exact h.action?_eq_none hid

theorem leadsTo?_some {id : String} (hid : id ≠ "") :
    leadsTo? actions (some id) = action? actions id := by
  rw [leadsTo?, if_neg hid]

/-- A pointer leads to the first action with an id. -/
theorem action?_of_leadsTo? {current : Option String} {a : Action}
    (h : leadsTo? actions current = some a) : action? actions a.id = some a := by
  rcases nowhere_or_action actions current with hnone | ⟨id, b, rfl, hid, hb⟩
  · rw [leadsTo?_of_nowhere hnone] at h
    cases h
  · obtain rfl : b = a := by simpa [leadsTo?_some hid, hb] using h
    rwa [id_of_action? hb]

/-- Every action on the orbit of a pointer is the first one with its id. -/
theorem action?_of_iterate {current : Option String} {n : Nat} {a : Action}
    (h : (ahead actions)^[n] (leadsTo? actions current) = some a) :
    action? actions a.id = some a := by
  cases n with
  | zero => exact action?_of_leadsTo? h
  | succ n =>
    rw [Function.iterate_succ_apply'] at h
    obtain ⟨b, -, hb⟩ := Option.bind_eq_some_iff.mp h
    exact action?_of_leadsTo? hb

/-- An orbit that has ended stays so. -/
theorem iterate_ahead_none (actions : List Action) (n : Nat) :
    (ahead actions)^[n] none = none :=
  Function.iterate_fixed rfl n

/-- An orbit that is still inside the actions has been so all the time. -/
theorem iterate_ne_none_of_le {a : Option Action} {k n : Nat} (hk : k ≤ n)
    (h : (ahead actions)^[n] a ≠ none) : (ahead actions)^[k] a ≠ none := by
  intro hnone
  obtain ⟨d, rfl⟩ := Nat.exists_eq_add_of_le' hk
  rw [Function.iterate_add_apply, hnone, iterate_ahead_none] at h
  exact h rfl

/-- How many different ids there are. -/
def idCount (actions : List Action) : Nat := (actions.map (·.id)).toFinset.card

/-- An orbit that lasts for more actions than there are ids comes to one of them twice. -/
theorem exists_repeat {current : Option String} {n : Nat}
    (hn : idCount actions ≤ n)
    (h : (ahead actions)^[n] (leadsTo? actions current) ≠ none) :
    ∃ i j, i < j ∧ j ≤ n ∧ (ahead actions)^[i] (leadsTo? actions current) =
      (ahead actions)^[j] (leadsTo? actions current) := by
  have hfirst : ∀ k ≤ n, ∃ a, (ahead actions)^[k] (leadsTo? actions current) = some a ∧
      action? actions a.id = some a := by
    intro k hk
    obtain ⟨a, ha⟩ := Option.ne_none_iff_exists'.mp (iterate_ne_none_of_le hk h)
    exact ⟨a, ha, action?_of_iterate ha⟩
  let name (k : Nat) : String :=
    (((ahead actions)^[k] (leadsTo? actions current)).map (·.id)).getD ""
  have hmaps : ∀ k ∈ Finset.range (n + 1), name k ∈ (actions.map (·.id)).toFinset := by
    intro k hk
    obtain ⟨a, ha, hfound⟩ := hfirst k (by simpa [Nat.lt_succ_iff] using hk)
    have hmem : a.id ∈ actions.map (·.id) := List.mem_map_of_mem (mem_of_action? hfound)
    simpa [name, ha] using hmem
  have hcard : (actions.map (·.id)).toFinset.card < (Finset.range (n + 1)).card := by
    rw [Finset.card_range]
    exact Nat.lt_succ_of_le hn
  obtain ⟨i, hi, j, hj, hne, hname⟩ :=
    Finset.exists_ne_map_eq_of_card_lt_of_maps_to hcard hmaps
  have hsame : (ahead actions)^[i] (leadsTo? actions current) =
      (ahead actions)^[j] (leadsTo? actions current) := by
    obtain ⟨a, ha, hfa⟩ := hfirst i (by simpa [Nat.lt_succ_iff] using hi)
    obtain ⟨b, hb, hfb⟩ := hfirst j (by simpa [Nat.lt_succ_iff] using hj)
    have hid : a.id = b.id := by simpa [name, ha, hb] using hname
    rw [ha, hb, ← hfa, ← hfb, hid]
  rw [Finset.mem_range, Nat.lt_succ_iff] at hi hj
  rcases Nat.lt_or_gt_of_ne hne with hlt | hlt
  · exact ⟨i, j, hlt, hj, hsame⟩
  · exact ⟨j, i, hlt, hi, hsame.symm⟩

/-- An orbit that lasts for more actions than there are ids never ends. -/
theorem iterate_ne_none {current : Option String} {n : Nat}
    (hn : idCount actions ≤ n)
    (h : (ahead actions)^[n] (leadsTo? actions current) ≠ none) (k : Nat) :
    (ahead actions)^[k] (leadsTo? actions current) ≠ none := by
  obtain ⟨i, j, hij, hj, hsame⟩ := exists_repeat hn h
  induction k using Nat.strongRecOn with
  | ind k ih =>
    rcases Nat.lt_or_ge n k with hlate | hearly
    · -- From the repetition on, the orbit does what it did before.
      obtain ⟨d, rfl⟩ := Nat.exists_eq_add_of_le' (Nat.le_trans hj (Nat.le_of_lt hlate))
      rw [Function.iterate_add_apply, ← hsame, ← Function.iterate_add_apply]
      exact ih (d + i) (Nat.add_lt_add_left hij d)
    · exact iterate_ne_none_of_le hearly h

/-! ## The course of the chain -/

/-- Without a resolver the first branch passes. -/
theorem run_choose_of_default {s : Surroundings σ} (hs : s.resolver = none) (a : Action)
    (scene : Scene σ) : ((choose s a).run scene).1 = some (.ok (.to a.onward)) := by
  rw [choose, Task.run_step]
  cases hbranches : a.branches <;>
    simp [hbranches, chooseBranch, branchHolds, hs, Except.map, Move.after, Action.onward]

/-- Where a walk stops whose pointer leads to this action when its steps are used up. -/
def stopAt : Option Action → Stop
  | none => .finished .success
  | some a => .unfinished a.id

section

variable (hresolver : p.surroundings.resolver = none) (hgates : ∀ a ∈ actions, a.Ungated)
  (hsucceeds : p.AlwaysSucceeds event actions)

include hresolver hgates hsucceeds

/-- A visit of an ungated action, whose handler succeeds and whose branches pass, leads on to the
one pointer that the action always leads to, from whatever scene. -/
theorem run_visit_onward {a : Action} (ha : a ∈ actions) (scene : Scene σ) :
    ∃ v, (visit p event a).run scene = (some (.ok (.to a.onward)), v) := by
  obtain ⟨u, hdispatch⟩ := hsucceeds a ha scene
  have hfate : fate p event a scene = .started (some (.ok .success)) u :=
    fate_eq_started_iff.mpr ⟨scene.1, admitted_of_ungated (hgates a ha) _ _, hdispatch⟩
  refine ⟨((choose p.surroundings a).run u).2, ?_⟩
  rw [run_visit, hfate]
  exact Prod.ext (run_choose_of_default hresolver a u) rfl

/-- The walk goes along the orbit of its pointer. -/
theorem exists_run_walk (steps : Nat) (current : Option String) (scene : Scene σ) :
    ∃ v, (walk p event actions steps current).run scene =
      (some (.ok (stopAt ((ahead actions)^[steps] (leadsTo? actions current)))), v) := by
  induction steps, current using walk_induction actions generalizing scene with
  | nowhere steps current hnone =>
    rw [walk_nowhere p event hnone, leadsTo?_of_nowhere hnone, iterate_ahead_none]
    exact ⟨scene, rfl⟩
  | zero id a hid ha =>
    obtain rfl : a.id = id := id_of_action? ha
    rw [walk_zero p event hid ha, leadsTo?_some hid, ha]
    exact ⟨scene, rfl⟩
  | succ steps id a hid ha ih =>
    obtain ⟨u, hvisit⟩ :=
      run_visit_onward hresolver hgates hsucceeds (mem_of_action? ha) scene
    rw [run_walk_moved hid ha hvisit, leadsTo?_some hid, ha, Function.iterate_succ_apply]
    exact ih a.onward u

/-- The chain therefore ends as its orbit tells: after as many steps as it may take, it is cut off
where the orbit stands, or it has succeeded if the orbit has left the actions. -/
theorem exists_run_runChain (limit : Option Int) (scene : Scene σ) :
    ∃ v, (runChain p event actions limit).run scene =
      (answer event limit (.ok (stopAt ((ahead actions)^[p.steps limit]
        (leadsTo? actions (entry actions))))), v) := by
  obtain ⟨v, hwalk⟩ := exists_run_walk hresolver hgates hsucceeds (p.steps limit) (entry actions)
    scene
  refine ⟨v, ?_⟩
  rw [run_runChain_eq_answer, hwalk]
  rfl

/-- If actions have no conditions, every branch passes and every handler succeeds, then a limit of
as many steps as there are different ids tells whether the chain ends by itself. Either the chain
succeeds under this limit, and then it comes to the same end under every larger one and without one;
or it raises the step limit, and then so does every limit, and without one it never ends. Hook and
resolver look at the game state and never write it. -/
theorem limit_tells_endless (scene : Scene σ) :
    (∃ v, (runChain p event actions (some (idCount actions))).run scene =
        (some (.ok .success), v) ∧
      (∀ m : Int, idCount actions ≤ m →
        (runChain p event actions (some m)).run scene = (some (.ok .success), v)) ∧
      ∀ horizon, idCount actions ≤ horizon →
        (runChain { p with horizon } event actions none).run scene = (some (.ok .success), v)) ∨
    ((∀ m : Int, ∃ id v, (runChain p event actions (some m)).run scene =
        (some (.error (.stepLimit event.id m id)), v)) ∧
      ∀ horizon, ∃ v,
        (runChain { p with horizon } event actions none).run scene = (none, v)) := by
  by_cases hends : (ahead actions)^[idCount actions] (leadsTo? actions (entry actions)) = none
  · -- The chain has ended by itself, and a tour that did so is the same under a larger limit.
    left
    obtain ⟨v, hrun⟩ := exists_run_runChain hresolver hgates hsucceeds (some (idCount actions))
      scene
    have hsteps : p.steps (some (idCount actions)) = idCount actions := Int.toNat_natCast _
    rw [hsteps, hends] at hrun
    obtain ⟨ids, stop, htour, hanswer⟩ := exists_tour_of_run_runChain hrun
    obtain rfl := answer_eq_ok_iff.mp hanswer
    have hlength : ids.length ≤ idCount actions := by
      rw [← hsteps]
      exact (length_tour_le (Task.gives_of_run htour)).1
    refine ⟨v, hrun, fun m hm => ?_, fun horizon hhorizon => ?_⟩
    · have hm' : ids.length ≤ p.steps (some m) :=
        Nat.le_trans hlength (Int.toNat_le_toNat hm)
      rw [← hanswer]
      exact run_runChain_of_length_le (fun _ _ => rfl) htour (by simp) hm'
    · rw [← hanswer]
      exact run_runChain_of_length_le (tour_horizon p horizon event actions) htour (by simp)
        (Nat.le_trans hlength hhorizon)
  · right
    have hgoes := iterate_ne_none (Nat.le_refl _) hends
    refine ⟨fun m => ?_, fun horizon => ?_⟩
    · obtain ⟨a, ha⟩ := Option.ne_none_iff_exists'.mp (hgoes (p.steps (some m)))
      obtain ⟨v, hrun⟩ := exists_run_runChain hresolver hgates hsucceeds (some m) scene
      rw [ha] at hrun
      exact ⟨a.id, v, hrun⟩
    · obtain ⟨a, ha⟩ := Option.ne_none_iff_exists'.mp (hgoes horizon)
      obtain ⟨v, hrun⟩ := exists_run_runChain (p := { p with horizon }) hresolver hgates hsucceeds
        none scene
      rw [show ({ p with horizon } : Player σ).steps none = horizon from rfl, ha] at hrun
      exact ⟨v, hrun⟩

end

/-- A way into a loop. The action that would lead out of the loop is shadowed by an earlier one with
its id, one action has no name, and one points at an action that is missing. -/
def whirl : List Action :=
  [.passage "in" ["turn", "out"] (some "out"), .passage "turn" [] (some "back"),
    .passage "turn" [] none, .passage "" [] (some "in"), .passage "back" ["in"] none,
    .passage "out" ["lost"] none]

/-- The same actions without the branch that closes the loop. -/
def slide : List Action := whirl.map fun a => if a.id = "back" then { a with branches := [] } else a

/-- Of two chains with the same five ids one is cut off by every limit, and the other succeeds under
every limit from five on. -/
theorem limit_tells_whirl_from_slide :
    (∀ a ∈ whirl, a.Ungated) ∧ (∀ a ∈ slide, a.Ungated) ∧ idCount whirl = 5 ∧ idCount slide = 5 ∧
      (∀ m : Int, ∃ id v, (runChain Player.idle Event.blank whirl (some m)).run (.fresh, []) =
        (some (.error (.stepLimit "blank" m id)), v)) ∧
      ∃ v, ∀ m : Int, 5 ≤ m →
        (runChain Player.idle Event.blank slide (some m)).run (.fresh, []) =
          (some (.ok .success), v) := by
  have hwhirl : ∀ a ∈ whirl, a.Ungated := by simp [whirl, Action.Ungated, Action.passage]
  have hslide : ∀ a ∈ slide, a.Ungated := by simp [slide, whirl, Action.Ungated, Action.passage]
  have hcount : idCount whirl = 5 := by decide
  have hcount' : idCount slide = 5 := by decide
  have hsucceeds : ∀ actions, Player.idle.AlwaysSucceeds Event.blank actions :=
    fun _ _ _ _ => ⟨_, rfl⟩
  refine ⟨hwhirl, hslide, hcount, hcount', ?_, ?_⟩
  · have htells := limit_tells_endless rfl hwhirl (hsucceeds whirl) (.fresh, [])
    refine (htells.resolve_left ?_).1
    rintro ⟨v, -, hlarger, -⟩
    have hcut : ((runChain Player.idle Event.blank whirl (some 5)).run (.fresh, [])).1 =
        some (.error (.stepLimit "blank" 5 "back")) := rfl
    rw [hlarger 5 (by rw [hcount]; rfl)] at hcut
    cases hcut
  · have htells := limit_tells_endless rfl hslide (hsucceeds slide) (.fresh, [])
    obtain ⟨v, -, hlarger, -⟩ := htells.resolve_right fun hcut => by
      obtain ⟨id, v, hrun⟩ := hcut.1 5
      have hends : ((runChain Player.idle Event.blank slide (some 5)).run (.fresh, [])).1 =
          some (.ok .success) := rfl
      rw [hrun] at hends
      cases hends
    rw [hcount'] at hlarger
    exact ⟨v, hlarger⟩

end Chain

end MapEvents
