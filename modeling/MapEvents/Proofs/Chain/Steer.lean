import MapEvents.Proofs.Chain.Performed
import MapEvents.Proofs.Chain.Way
/-!
# Steering a chain

What is reported as reachable can be reached by a chain. A way through the graph that meets no id
twice tells which branches to take: the conditions of these branches pass, and no others. Where the
conditions of all branches are distinct, a branch that passes is then one that the way takes, and
with handlers that always succeed the walk follows the way to its end, and goes on from there as it
may.
-/

namespace MapEvents

variable {σ : Type}

/-- The action has no conditions of its own. -/
def Action.Ungated (a : Action) : Prop := a.conditions.getD [] = []

/-- Where an action leads to after a success if these conditions of branches pass. -/
def Action.follow (a : Action) (passing : List String) : Option String :=
  match a.branches.find? (·.condition ∈ passing) with
  | some b => some b.target
  | none => a.next

/-- The resolver that passes these conditions and no others. -/
def passer (passing : List String) : String → GameState → σ → Except Fault Bool × σ :=
  fun condition _ o => (.ok (condition ∈ passing), o)

/-- The handlers of these actions end with success, whatever they are started with. -/
def Player.AlwaysSucceeds (p : Player σ) (event : Event) (actions : List Action) : Prop :=
  ∀ a ∈ actions, ∀ scene, ∃ v,
    (p.registry.dispatch p.surroundings event a).run scene = (some (.ok .success), v)

namespace Chain

variable {p : Player σ} {event : Event} {actions : List Action} {passing : List String}

/-- The walk goes from the one id to the other if these conditions pass. -/
def Steers (actions : List Action) (passing : List String) (id next : String) : Prop :=
  ∃ a, action? actions id = some a ∧ a.follow passing = some next ∧ next ≠ "" ∧
    contains actions next = true

/-! ## Chains whose handlers succeed -/

/-- A resolver that passes some conditions chooses the first branch with one of them. -/
theorem chooseBranch_of_passer {s : Surroundings σ} (hs : s.resolver = some (passer passing))
    (bs : List Branch) (w : World σ) :
    (chooseBranch s bs w).1 = .ok (bs.find? (·.condition ∈ passing)) := by
  induction bs generalizing w with
  | nil => rfl
  | cons b rest ih =>
    rw [chooseBranch, branchHolds, hs]
    by_cases hb : b.condition ∈ passing
    · simp [passer, hb]
    · simpa [passer, hb] using ih _

/-- After a success the walk goes where the passing conditions lead. -/
theorem run_choose_of_passer {s : Surroundings σ} (hs : s.resolver = some (passer passing))
    (a : Action) (scene : Scene σ) :
    ((choose s a).run scene).1 = some (.ok (.to (a.follow passing))) := by
  rw [choose, Task.run_step]
  simp only [chooseBranch_of_passer hs, Except.map, Action.follow]
  cases a.branches.find? (·.condition ∈ passing) <;> rfl

/-- An action without conditions is admitted at once, and nothing is asked for it. -/
theorem admitted_of_ungated {a : Action} (h : a.Ungated) (s : Surroundings σ) (w : World σ) :
    admitted s a w = (.ok true, w) := by
  unfold Action.Ungated at h
  unfold admitted
  cases hc : a.conditions with
  | none => rfl
  | some cs =>
    obtain rfl : cs = [] := by simpa [hc] using h
    rfl

theorem run_admission_of_ungated {a : Action} (h : a.Ungated) (p : Player σ) (scene : Scene σ) :
    (admission p a).run scene = (some (.ok true), scene) := by
  simp [admission, admitted_of_ungated h]

section

variable (hresolver : p.surroundings.resolver = some (passer passing))
  (hgates : ∀ a ∈ actions, a.Ungated) (hsucceeds : p.AlwaysSucceeds event actions)

include hresolver hgates hsucceeds

/-- A visit starts the handler and goes where the passing conditions lead. -/
theorem run_attempt_of_succeeds {a : Action} (ha : a ∈ actions) (scene : Scene σ) :
    ∃ v, (attempt p event a).run scene =
      (some ([(a, .ok .success)], .ok (.to (a.follow passing))), v) := by
  obtain ⟨u, hdispatch⟩ := hsucceeds a ha scene
  have hmove := run_choose_of_passer hresolver a u
  refine ⟨((choose p.surroundings a).run u).2, ?_⟩
  simp only [attempt, Task.run_bind, run_admission_of_ungated (hgates a ha), hdispatch, settle,
    Task.run_map, hmove, Option.map_some]

/-- A walk that comes to an action starts it, and goes on where the passing conditions lead. -/
theorem run_performed_succ {id : String} {a : Action} (hid : id ≠ "")
    (ha : action? actions id = some a) (steps : Nat) (scene : Scene σ) :
    ∃ u, ∀ log stop v,
      (performed p event actions (steps + 1) (some id)).run scene = (some (log, stop), v) ↔
        ∃ rest, log = (a, .ok .success) :: rest ∧
          (performed p event actions steps (a.follow passing)).run u = (some (rest, stop), v) := by
  obtain ⟨u, hvisit⟩ :=
    run_attempt_of_succeeds hresolver hgates hsucceeds (mem_of_action? ha) scene
  refine ⟨u, fun log stop v => ?_⟩
  rw [performed_succ p event hid ha, Task.run_bind, hvisit]
  simp only [goingOn, Task.run_map]
  rcases (performed p event actions steps (a.follow passing)).run u with ⟨_ | ⟨rest, stop'⟩, w⟩
  · simp
  · simp [eq_comm, and_assoc]

/-- The walk of a chain always ends, and everything that it starts succeeds. -/
theorem exists_run_performed (steps : Nat) (current : Option String) (scene : Scene σ) :
    ∃ log stop v, (performed p event actions steps current).run scene = (some (log, stop), v) ∧
      ∀ e ∈ log, e.2 = .ok .success := by
  induction steps, current using walk_induction actions generalizing scene with
  | nowhere steps current hnone =>
    exact ⟨[], _, scene, by rw [performed_nowhere p event hnone, Task.run], by simp⟩
  | zero id a hid ha =>
    exact ⟨[], _, scene, by rw [performed_zero p event hid ha, Task.run], by simp⟩
  | succ steps id a hid ha ih =>
    obtain ⟨u, hrun⟩ := run_performed_succ hresolver hgates hsucceeds hid ha steps scene
    obtain ⟨rest, stop, v, hrest, hall⟩ := ih (a.follow passing) u
    exact ⟨(a, .ok .success) :: rest, stop, v, (hrun _ _ _).mpr ⟨rest, rfl, hrest⟩,
      by simpa using hall⟩

/-- A walk that is steered along a way starts the actions of the way, one after the other, before
any others. -/
theorem prefix_of_steers {way : List String} (hway : way.IsChain (Steers actions passing))
    {current : Option String}
    (hcurrent : ∀ id ∈ way.head?, current = some id ∧ id ≠ "" ∧ contains actions id = true)
    {steps : Nat} (hsteps : way.length ≤ steps) {scene v : Scene σ}
    {log : List (Action × Except Fault Outcome)} {stop : Except Fault Stop}
    (h : (performed p event actions steps current).run scene = (some (log, stop), v)) :
    way <+: log.map (·.1.id) := by
  induction way generalizing current steps scene log with
  | nil => exact List.nil_prefix
  | cons id way ih =>
    obtain ⟨rfl, hid, hcontains⟩ := hcurrent id rfl
    obtain ⟨a, ha⟩ := exists_action? hcontains
    obtain ⟨steps, rfl⟩ : ∃ n, steps = n + 1 :=
      Nat.exists_eq_add_one.mpr (Nat.lt_of_lt_of_le (Nat.succ_pos _) hsteps)
    obtain ⟨u, hrun⟩ := run_performed_succ hresolver hgates hsucceeds hid ha steps scene
    obtain ⟨rest, rfl, hrest⟩ := (hrun log stop v).mp h
    obtain ⟨hfirst, htail⟩ := List.isChain_cons.mp hway
    have hahead : way <+: rest.map (·.1.id) := by
      refine ih htail (fun next hnext => ?_) (Nat.le_of_succ_le_succ hsteps) hrest
      obtain ⟨a', ha', hfollow, hne, hexists⟩ := hfirst next hnext
      obtain rfl : a = a' := Option.some.inj (ha.symm.trans ha')
      exact ⟨hfollow, hne, hexists⟩
    rw [List.map_cons, id_of_action? ha]
    exact List.cons_prefix_cons.mpr ⟨rfl, hahead⟩

end

/-! ## Taking a way -/

/-- The branch that a way takes from the one id to the next, if it takes one. -/
def turn? (actions : List Action) (id next : String) : Option Branch :=
  (action? actions id).bind fun a => a.branches.find? (·.target = next)

/-- The conditions of the branches that a way takes. -/
def turns (actions : List Action) : List String → List String
  | id :: next :: rest =>
    ((turn? actions id next).map (·.condition)).toList ++ turns actions (next :: rest)
  | _ => []

/-- The turns of a way are the conditions of the branches that lead from an id on it to the next. -/
theorem mem_turns_iff {way : List String} {condition : String} :
    condition ∈ turns actions way ↔ ∃ before id next after b, way = before ++ id :: next :: after ∧
      turn? actions id next = some b ∧ b.condition = condition := by
  fun_induction turns actions way with
  | case1 id next rest ih =>
    rw [List.mem_append, ih]
    constructor
    · rintro (hfirst | ⟨before, x, y, after, b, hsplit, hturn, hb⟩)
      · obtain ⟨b, hturn, hb⟩ : ∃ b, turn? actions id next = some b ∧ b.condition = condition := by
          simpa using hfirst
        exact ⟨[], id, next, rest, b, rfl, hturn, hb⟩
      · exact ⟨id :: before, x, y, after, b, by rw [hsplit]; rfl, hturn, hb⟩
    · rintro ⟨before, x, y, after, b, hsplit, hturn, hb⟩
      cases before with
      | nil =>
        obtain ⟨rfl, rfl, rfl⟩ : id = x ∧ next = y ∧ rest = after := by simpa using hsplit
        exact .inl (by simpa using ⟨b, hturn, hb⟩)
      | cons first before =>
        obtain ⟨-, hrest⟩ := List.cons.inj hsplit
        exact .inr ⟨before, x, y, after, b, hrest, hturn, hb⟩
  | case2 way hshort =>
    refine ⟨fun h => absurd h List.not_mem_nil, ?_⟩
    rintro ⟨before, x, y, after, b, rfl, -⟩
    cases before with
    | nil => exact absurd rfl (hshort x y after)
    | cons first before => cases before <;> exact absurd rfl (hshort _ _ _)

/-- Where the conditions of all branches are distinct, a condition tells its branch, and the action
that has the branch. -/
theorem branch_unique (h : (actions.flatMap fun a => a.branches.map (·.condition)).Nodup)
    {a a' : Action} (ha : a ∈ actions) (ha' : a' ∈ actions) {b b' : Branch} (hb : b ∈ a.branches)
    (hb' : b' ∈ a'.branches) (heq : b.condition = b'.condition) : a = a' ∧ b = b' := by
  obtain ⟨hwithin, hacross⟩ := List.nodup_flatMap.mp h
  have hsymm : Std.Symm
      (Function.onFun List.Disjoint fun a : Action => a.branches.map (·.condition)) :=
    ⟨fun _ _ hdisjoint _ hmem hmem' => hdisjoint hmem' hmem⟩
  have hsame : a = a' := by
    by_contra hne
    have hmem : b.condition ∈ a.branches.map (·.condition) := List.mem_map_of_mem hb
    have hmem' : b.condition ∈ a'.branches.map (·.condition) := by
      rw [heq]
      exact List.mem_map_of_mem hb'
    exact hacross.forall ha ha' hne hmem hmem'
  subst hsame
  exact ⟨rfl, List.inj_on_of_nodup_map (hwithin a ha) hb hb' heq⟩

/-- A way that meets no id twice goes on from an id in one direction only. -/
theorem next_unique {way before after before' after' : List String} {id next next' : String}
    (hway : way.Nodup) (hsplit : way = before ++ id :: next :: after)
    (hsplit' : way = before' ++ id :: next' :: after') : next = next' := by
  have hfresh : id ∉ before ∧ id ∉ next :: after := by
    rw [hsplit] at hway
    simpa using (List.nodup_cons.mp (List.nodup_middle.mp hway)).1
  have hplaces : before ++ id :: next :: after = before' ++ id :: next' :: after' :=
    hsplit.symm.trans hsplit'
  obtain ⟨-, -, hrest⟩ := (List.append_cons_inj_of_notMem hfresh.1 hfresh.2).mp hplaces
  exact (List.cons.inj hrest).1

section

variable (hdistinct : (actions.flatMap fun a => a.branches.map (·.condition)).Nodup)
  {way : List String} (hway : way.Nodup)

include hdistinct hway

/-- Of the branches of an action on the way, exactly the one that the way takes passes. -/
theorem condition_mem_turns_iff {before after : List String} {id next : String}
    (hsplit : way = before ++ id :: next :: after) {a : Action} (ha : action? actions id = some a)
    {b : Branch} (hb : b ∈ a.branches) :
    b.condition ∈ turns actions way ↔ turn? actions id next = some b := by
  rw [mem_turns_iff]
  refine ⟨?_, fun hturn => ⟨before, id, next, after, b, hsplit, hturn, rfl⟩⟩
  rintro ⟨before', id', next', after', b', hsplit', hturn, heq⟩
  obtain ⟨a', ha', hfound⟩ := Option.bind_eq_some_iff.mp hturn
  obtain ⟨rfl, rfl⟩ := branch_unique hdistinct (mem_of_action? ha')
    (mem_of_action? ha) (List.mem_of_find?_eq_some hfound) hb heq
  obtain rfl : id' = id := (id_of_action? ha').symm.trans (id_of_action? ha)
  obtain rfl : next = next' := next_unique hway hsplit hsplit'
  exact hturn

/-- An action on the way leads on along the way if the conditions of the way pass. -/
theorem follow_turns {before after : List String} {id next : String}
    (hsplit : way = before ++ id :: next :: after) {a : Action} (ha : action? actions id = some a)
    (hpoints : a.PointsAt (some next)) : a.follow (turns actions way) = some next := by
  have hturn : turn? actions id next = a.branches.find? (·.target = next) := by
    rw [turn?, ha, Option.bind_some]
  have hpasses : ∀ b ∈ a.branches, b.condition ∈ turns actions way ↔
      a.branches.find? (·.target = next) = some b := fun b hb => by
    rw [condition_mem_turns_iff hdistinct hway hsplit ha hb, hturn]
  unfold Action.follow
  cases hfound : a.branches.find? (·.condition ∈ turns actions way) with
  | none =>
    -- The way takes no branch here, so it goes on at the successor.
    have hnone : a.branches.find? (·.target = next) = none := by
      by_contra hsome
      obtain ⟨b, hb⟩ := Option.ne_none_iff_exists'.mp hsome
      have hmem := List.mem_of_find?_eq_some hb
      have hfails := List.find?_eq_none.mp hfound b hmem
      exact hfails (by simpa using (hpasses b hmem).mpr hb)
    rcases hpoints with hnext | ⟨b, hb, htarget⟩
    · exact hnext.symm
    · exact absurd (Option.some.inj htarget).symm (by simpa using List.find?_eq_none.mp hnone b hb)
  | some b =>
    have hmem := List.mem_of_find?_eq_some hfound
    have htaken := (hpasses b hmem).mp (by simpa using List.find?_some hfound)
    exact congrArg some (by simpa using List.find?_some htaken)

/-- The conditions of the branches that a way takes steer along it. -/
theorem isChain_steers (hedges : way.IsChain (Edge actions)) :
    way.IsChain (Steers actions (turns actions way)) := by
  rw [List.isChain_iff_forall_rel_of_append_cons_cons] at hedges ⊢
  intro id next before after hsplit
  obtain ⟨a, ha, hpoints, hne, hcontains⟩ := hedges hsplit
  exact ⟨a, ha, follow_turns hdistinct hway hsplit ha hpoints, hne, hcontains⟩

end

/-! ## Reachable actions -/

/-- What is reported as reachable can be reached. If no action has conditions of its own and the
conditions of all branches are distinct, then for every reachable id there are conditions of
branches such that a chain in which these pass and no others, and in which every handler succeeds,
starts the action with that id, under a limit of as many steps as there are ids. The same conditions
do for every player, event and scene. Hook and resolver look at the game state but never
write it. -/
theorem exists_passing_of_mem_reachable (hgates : ∀ a ∈ actions, a.Ungated)
    (hdistinct : (actions.flatMap fun a => a.branches.map (·.condition)).Nodup) {id : String}
    (hid : id ∈ reachable actions) :
    ∃ passing : List String, ∀ {σ : Type} (p : Player σ) (event : Event) (scene : Scene σ),
      p.surroundings.resolver = some (passer passing) → p.AlwaysSucceeds event actions →
      ∃ log stop v,
        (performed p event actions (firsts actions).length (entry actions)).run scene =
          (some (log, stop), v) ∧
        (runChain p event actions (some (firsts actions).length)).run scene =
          (answer event (some (firsts actions).length) stop, v) ∧
        ∃ a, action? actions id = some a ∧ (a, .ok .success) ∈ log := by
  obtain ⟨start, hstart, hreaches⟩ := exists_reaches_of_mem_reachable hid
  obtain ⟨way, hedges, hnodup, hlast⟩ := exists_simple_way hreaches
  have hcontains : ∀ x ∈ start :: way, contains actions x = true :=
    hedges.induction (fun x => contains actions x = true) _
      (fun _ _ hedge _ => (edge_iff.mp hedge).2) fun _ => hstart.contains
  have hlength : (start :: way).length ≤ (firsts actions).length :=
    length_le_firsts hnodup hcontains
  have hsteers := isChain_steers hdistinct hnodup hedges
  refine ⟨turns actions (start :: way), fun p event scene hresolver hsucceeds => ?_⟩
  obtain ⟨log, stop, v, hrun, hall⟩ := exists_run_performed hresolver hgates hsucceeds
    (firsts actions).length (entry actions) scene
  have hahead : start :: way <+: log.map (·.1.id) := by
    refine prefix_of_steers hresolver hgates hsucceeds hsteers (fun x hx => ?_) hlength hrun
    obtain rfl : start = x := Option.some.inj hx
    exact ⟨hstart.1, hstart.2, hstart.contains⟩
  obtain ⟨⟨a, r⟩, he, rfl⟩ := List.mem_map.mp (hahead.subset (List.mem_of_getLast? hlast))
  obtain rfl : r = .ok .success := hall _ he
  refine ⟨log, stop, v, hrun, ?_,
    ⟨a, first_of_performed_gives (Task.gives_of_run hrun) _ he, he⟩⟩
  have hsteps : p.steps (some (firsts actions).length) = (firsts actions).length := rfl
  rw [run_runChain_of_map_snd (map_snd_performed p event actions _ _) scene, hsteps, hrun]
  rfl

/-- Ways that part at the gate. The roof is behind the attic, whose branch leads back to the gate; a
second attic is never entered. -/
def mansion : List Action :=
  [{ Action.passage "gate" [] (some "yard") with
      branches := [⟨"left", "cellar"⟩, ⟨"right", "attic"⟩, ⟨"back", ""⟩] },
    .passage "cellar" [] (some "gate"),
    { Action.passage "attic" [] (some "roof") with
      conditions := some []
      branches := [⟨"down", "gate"⟩] },
    .passage "attic" [] none, .passage "roof" [] (some "sky"), .passage "yard" [] none]

/-- A player without handlers whose resolver passes these conditions. -/
def guided (passing : List String) : Player Unit :=
  { Player.idle with
    surroundings := { Surroundings.agreeable with resolver := some (passer passing) } }

/-- In a mansion some conditions can be passed such that every run comes to the roof, within as many
steps as there are rooms. -/
theorem exists_passing_to_roof :
    (∀ a ∈ mansion, a.Ungated) ∧
      (mansion.flatMap fun a => a.branches.map (·.condition)).Nodup ∧
      "roof" ∈ reachable mansion ∧
      ∃ passing, (guided passing).AlwaysSucceeds Event.blank mansion ∧
        ∀ scene, ∃ log stop v,
          (performed (guided passing) Event.blank mansion 5 (entry mansion)).run scene =
            (some (log, stop), v) ∧
          ∃ a, action? mansion "roof" = some a ∧ (a, .ok .success) ∈ log := by
  have hgates : ∀ a ∈ mansion, a.Ungated := by simp [mansion, Action.Ungated, Action.passage]
  have hdistinct : (mansion.flatMap fun a => a.branches.map (·.condition)).Nodup := by decide
  have hroof : "roof" ∈ reachable mansion := by
    rw [show reachable mansion = ["cellar", "roof", "attic", "yard", "gate"] by cbv]
    decide
  obtain ⟨passing, hpassing⟩ := exists_passing_of_mem_reachable hgates hdistinct hroof
  have hsucceeds : (guided passing).AlwaysSucceeds Event.blank mansion := fun _ _ _ => ⟨_, rfl⟩
  refine ⟨hgates, hdistinct, hroof, passing, hsucceeds, fun scene => ?_⟩
  obtain ⟨log, stop, v, hrun, -, hreached⟩ :=
    hpassing (guided passing) Event.blank scene rfl hsucceeds
  exact ⟨log, stop, v, hrun, hreached⟩

end Chain

end MapEvents
