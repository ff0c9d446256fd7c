import MapEvents.Proofs.Chain.Visit
/-!
# What depends on the order of actions

Nothing does but the entry: a list of actions is only ever asked for the id that it starts with and
for the first action with an id. Two lists that answer these questions alike run alike, whatever
they are run with, and the searches of their graphs find the same; their dangling pointers are the
same up to order. Shuffling what stands behind the entry makes no difference, as long as the ids are
distinct, and neither do actions that stand behind another one with their id.
-/

namespace MapEvents.Chain

/-- The lists start with the same id, and have the same first action with every id. -/
structure SameFirsts (xs ys : List Action) : Prop where
  entry : entry xs = entry ys
  first : ∀ id, action? xs id = action? ys id

/-- The second list is the first one without some of the actions whose ids were met before them. -/
inductive Sheds : (met : List String) → (xs ys : List Action) → Prop where
  | nil {met : List String} : Sheds met [] []
  | keep {met : List String} {a : Action} {xs ys : List Action} (h : Sheds (a.id :: met) xs ys) :
      Sheds met (a :: xs) (a :: ys)
  | drop {met : List String} {a : Action} {xs ys : List Action} (ha : a.id ∈ met)
      (h : Sheds met xs ys) : Sheds met (a :: xs) ys

variable {xs ys : List Action}

theorem contains_eq_isSome (actions : List Action) (id : String) :
    contains actions id = (action? actions id).isSome := by
  cases ha : action? actions id with
  | none => exact action?_eq_none_iff.mp ha
  | some a => exact contains_of_action? ha

theorem action?_cons (a : Action) (rest : List Action) (id : String) :
    action? (a :: rest) id = if a.id = id then some a else action? rest id := by
  by_cases ha : a.id = id <;> simp [action?, ha]

/-! ## Lists with the same first actions -/

/-- Where ids are distinct, every action is the first with its id. -/
theorem action?_eq_some_iff_of_nodup {actions : List Action} (h : (actions.map (·.id)).Nodup)
    {id : String} {a : Action} : action? actions id = some a ↔ a ∈ actions ∧ a.id = id := by
  refine ⟨fun hfound => ⟨mem_of_action? hfound, id_of_action? hfound⟩, ?_⟩
  rintro ⟨ha, rfl⟩
  obtain ⟨b, hb⟩ := exists_action? (contains_iff.mpr ⟨a, ha, rfl⟩)
  have heq : b = a := List.inj_on_of_nodup_map h (mem_of_action? hb) ha (id_of_action? hb)
  rwa [heq] at hb

/-- Shuffling the actions behind the entry changes no first action, if their ids are distinct. -/
theorem SameFirsts.of_perm {a : Action} (hnodup : ((a :: xs).map (·.id)).Nodup)
    (hperm : xs.Perm ys) : SameFirsts (a :: xs) (a :: ys) := by
  refine ⟨rfl, fun id => Option.ext fun b => ?_⟩
  have hall : (a :: xs).Perm (a :: ys) := hperm.cons a
  have hnodup' : ((a :: ys).map (·.id)).Nodup := (hall.map _).nodup_iff.mp hnodup
  rw [action?_eq_some_iff_of_nodup hnodup, action?_eq_some_iff_of_nodup hnodup', hall.mem_iff]

/-- Shedding shadowed actions does not change what an id stands for. -/
theorem Sheds.action?_eq {met : List String} (h : Sheds met xs ys) {id : String} (hid : id ∉ met) :
    action? xs id = action? ys id := by
  induction h with
  | nil => rfl
  | @keep met a xs ys _ ih =>
    rw [action?_cons, action?_cons]
    split
    · rfl
    · next hne => exact ih fun hmem => (List.mem_cons.mp hmem).elim (fun heq => hne heq.symm) hid
  | @drop met a xs ys ha _ ih =>
    have hne : a.id ≠ id := fun heq => hid (heq ▸ ha)
    rw [action?_cons, if_neg hne]
    exact ih hid

/-- Removing actions that stand behind another one with their id changes no first action. -/
theorem SameFirsts.of_sheds (h : Sheds [] xs ys) : SameFirsts xs ys := by
  refine ⟨?_, fun id => h.action?_eq List.not_mem_nil⟩
  cases h with
  | nil => rfl
  | keep _ => rfl
  | drop ha _ => cases ha

namespace SameFirsts

theorem contains_eq (h : SameFirsts xs ys) (id : String) : contains xs id = contains ys id := by
  rw [contains_eq_isSome, contains_eq_isSome, h.first]

theorem successorsOf_eq (h : SameFirsts xs ys) (id : String) :
    successorsOf xs id = successorsOf ys id := by
  rw [successorsOf, successorsOf, h.first]

/-! ## Searches of the graph -/

theorem explore_eq (h : SameFirsts xs ys) (stack seen : List String) :
    explore xs stack seen = explore ys stack seen := by
  fun_induction explore xs stack seen with
  | case1 seen => rw [explore]
  | case2 seen id stack hnew ih =>
    rw [h.contains_eq] at hnew
    rw [explore, dif_pos hnew, ih, h.successorsOf_eq]
  | case3 seen id stack hold ih =>
    rw [h.contains_eq] at hold
    rw [explore, dif_neg hold, ih]

theorem search_eq (h : SameFirsts xs ys) (path : List Pending) (done : List String) :
    search xs path done = search ys path done := by
  fun_induction search xs path done with
  | case1 done => rw [search]
  | case2 done id path ih => rw [search, ih]
  | case3 done id next untried path hnew hclosed =>
    rw [h.contains_eq] at hnew
    rw [search, dif_pos hnew, dif_pos hclosed]
  | case4 done id next untried path hnew hopen ih =>
    rw [h.contains_eq] at hnew
    rw [search, dif_pos hnew, dif_neg hopen, ih, h.successorsOf_eq]
  | case5 done id next untried path hskip ih =>
    rw [h.contains_eq] at hskip
    rw [search, dif_neg hskip, ih]

/-- Lists with the same first actions have the same reachable ids, in the same order. -/
theorem reachable_eq (h : SameFirsts xs ys) : reachable xs = reachable ys := by
  simp only [reachable, h.entry, h.explore_eq]

/-- The search finds the same cycle in them, or none in either. -/
theorem cycle_eq (h : SameFirsts xs ys) : cycle xs = cycle ys := by
  simp only [cycle, h.entry, h.search_eq, h.successorsOf_eq]

end SameFirsts

/-! ## Dangling pointers -/

/-- The first actions are those that are found by their own ids. -/
theorem mem_firsts_iff {actions : List Action} {a : Action} :
    a ∈ firsts actions ↔ action? actions a.id = some a := by
  induction actions with
  | nil => simp [firsts, action?]
  | cons b rest ih =>
    rw [firsts, List.mem_cons, List.mem_filter, ih, action?_cons]
    by_cases hb : b.id = a.id
    · simp [hb, eq_comm]
    · have hne : a ≠ b := fun heq => hb (heq ▸ rfl)
      simp [hb, hne, Ne.symm hb]

/-- No two first actions are the same. -/
theorem nodup_firsts (actions : List Action) : (firsts actions).Nodup := by
  induction actions with
  | nil => exact List.nodup_nil
  | cons a rest ih =>
    refine List.nodup_cons.mpr ⟨fun hmem => ?_, ih.filter _⟩
    simpa using (List.mem_filter.mp hmem).2

/-- The dangling pointers are the same, as often, in another order. -/
theorem SameFirsts.dangling_perm (h : SameFirsts xs ys) : (dangling xs).Perm (dangling ys) := by
  have hfirsts : (firsts xs).Perm (firsts ys) := by
    refine (List.perm_ext_iff_of_nodup (nodup_firsts xs) (nodup_firsts ys)).mpr fun a => ?_
    rw [mem_firsts_iff, mem_firsts_iff, h.first]
  simp only [dangling, h.contains_eq]
  exact hfirsts.flatMap_right _

/-! ## Chains -/

variable {σ : Type}

/-- A pointer that leads nowhere in the one list leads nowhere in the other. -/
theorem SameFirsts.leadsInto_nil (h : SameFirsts xs ys) {current : Option String}
    (hcurrent : LeadsInto xs [] current) : LeadsInto ys [] current :=
  fun id heq hid hcontains => hcurrent id heq hid ((h.contains_eq id).trans hcontains)

/-- Walks along both lists are the same task. -/
theorem SameFirsts.walk_eq (h : SameFirsts xs ys) (p : Player σ) (event : Event) (steps : Nat)
    (current : Option String) : walk p event xs steps current = walk p event ys steps current := by
  induction steps, current using walk_induction xs with
  | nowhere steps current hnone =>
    rw [walk_nowhere p event hnone, walk_nowhere p event (h.leadsInto_nil hnone)]
  | zero id a hid ha =>
    rw [walk_zero p event hid ha, walk_zero p event hid ((h.first id).symm.trans ha)]
  | succ steps id a hid ha ih =>
    rw [walk_succ p event hid ha, walk_succ p event hid ((h.first id).symm.trans ha)]
    refine Task.andThen_congr fun m _ => ?_
    rcases m with next | outcome
    · exact ih next
    · rfl

/-- A chain is the same work for both lists. -/
theorem SameFirsts.runChain_eq (h : SameFirsts xs ys) (p : Player σ) (event : Event)
    (limit : Option Int) : runChain p event xs limit = runChain p event ys limit := by
  rw [runChain, runChain, h.entry, h.walk_eq]

/-- Lists that start with the same id and have the same first action with every id make the same
chain: the same work, and so the same result or fault, state, requests, draws and journal, whatever
it is run with. The same actions are reachable, the same cycle is found, and the same pointers
dangle, up to their order. This holds for lists that differ in the order of actions with distinct
ids behind the entry, and for lists that differ in actions that stand behind another one with their
id. Hook and resolver look at the game state and never write it. -/
theorem only_firsts_matter :
    (∀ xs ys, SameFirsts xs ys →
      (∀ (p : Player σ) (event : Event) (limit : Option Int),
        runChain p event xs limit = runChain p event ys limit) ∧
      reachable xs = reachable ys ∧ cycle xs = cycle ys ∧ (dangling xs).Perm (dangling ys)) ∧
    (∀ a xs ys, ((a :: xs).map (·.id)).Nodup → xs.Perm ys → SameFirsts (a :: xs) (a :: ys)) ∧
    ∀ xs ys, Sheds [] xs ys → SameFirsts xs ys := by
  refine ⟨fun xs ys h => ?_, fun a xs ys hnodup hperm => .of_perm hnodup hperm,
    fun xs ys h => .of_sheds h⟩
  exact ⟨fun p event limit => h.runChain_eq p event limit, h.reachable_eq, h.cycle_eq,
    h.dangling_perm⟩

end MapEvents.Chain
