import MapEvents.Chain.Cycle
import Mathlib.Data.List.Nodup
import Mathlib.Data.List.Perm.Subperm
/-!
# What the searches of the graph find

A set of ids is closed if no pointer of its actions leaves it for another action, and an order of
ids is ranked if pointers of its actions only lead further down. The ids found from the entry action
are closed, and a search for cycles that finds none leaves a ranked order behind: the order in which
it came back from the actions, latest first. Both hold for duplicate ids, of which the first action
counts, and for pointers that are empty or dangling.
-/

namespace MapEvents

/-- The action points at `next`: by a branch or as its successor, which may be absent. -/
def Action.PointsAt (a : Action) (next : Option String) : Prop :=
  next = a.next ∨ ∃ b ∈ a.branches, next = some b.target

/-- A pointer that is present and not empty is one of the successors. -/
theorem Action.PointsAt.mem_successors {a : Action} {id : String} (h : a.PointsAt (some id))
    (hid : id ≠ "") : id ∈ a.successors := by
  simp only [Action.successors, List.mem_append, List.mem_filter, List.mem_map, Option.mem_toList,
    decide_eq_true_eq]
  rcases h with hnext | ⟨b, hb, htarget⟩
  · exact .inr ⟨hnext.symm, hid⟩
  · exact .inl ⟨⟨b, hb, (Option.some.inj htarget).symm⟩, hid⟩

namespace Chain

variable {actions : List Action}

theorem contains_iff {id : String} : contains actions id = true ↔ ∃ a ∈ actions, a.id = id := by
  simp [contains]

theorem mem_of_action? {id : String} {a : Action} (h : action? actions id = some a) :
    a ∈ actions :=
  List.mem_of_find?_eq_some h

theorem id_of_action? {id : String} {a : Action} (h : action? actions id = some a) : a.id = id := by
  simpa using List.find?_some h

theorem contains_of_action? {id : String} {a : Action} (h : action? actions id = some a) :
    contains actions id = true :=
  contains_iff.mpr ⟨a, mem_of_action? h, id_of_action? h⟩

/-- An id stands for no action exactly if it is not there. -/
theorem action?_eq_none_iff {id : String} :
    action? actions id = none ↔ contains actions id = false := by
  simp [action?, contains]

theorem exists_action? {id : String} (h : contains actions id = true) :
    ∃ a, action? actions id = some a := by
  cases ha : action? actions id with
  | none =>
    rw [action?_eq_none_iff.mp ha] at h
    cases h
  | some a => exact ⟨a, rfl⟩

/-- The successors of an id are those of the action that it stands for. -/
theorem successorsOf_of_action? {id : String} {a : Action} (h : action? actions id = some a) :
    successorsOf actions id = a.successors := by
  simp [successorsOf, h]

/-- The entry action, if its id is not empty, exists. -/
theorem contains_entry {id : String} (h : entry actions = some id) :
    contains actions id = true := by
  cases actions with
  | nil => simp [entry] at h
  | cons a rest =>
    have hid : a.id = id := by simpa [entry] using h
    exact contains_iff.mpr ⟨a, List.mem_cons_self, hid⟩

/-- A pointer that leads to an action leads to one of these. -/
def LeadsInto (actions : List Action) (ids : List String) (pointer : Option String) : Prop :=
  ∀ id, pointer = some id → id ≠ "" → contains actions id = true → id ∈ ids

theorem leadsInto_none (ids : List String) : LeadsInto actions ids none := by
  intro id h
  cases h

/-- If the successors that exist are among some ids, then so is all that the action points at. -/
theorem leadsInto_of_pointsAt {ids : List String} {id : String} {a : Action}
    {next : Option String} (ha : action? actions id = some a)
    (h : ∀ t ∈ successorsOf actions id, contains actions t = true → t ∈ ids)
    (hnext : a.PointsAt next) : LeadsInto actions ids next := by
  rintro t rfl ht hcontains
  refine h t ?_ hcontains
  rw [successorsOf_of_action? ha]
  exact hnext.mem_successors ht

/-! ## Closed sets of ids -/

/-- No pointer of an action among these ids leads to an action that is not. -/
def Closed (actions : List Action) (ids : List String) : Prop :=
  ∀ id ∈ ids, ∀ t ∈ successorsOf actions id, contains actions t = true → t ∈ ids

/-- Exploring forgets nothing that was seen. -/
theorem subset_explore (actions : List Action) (stack seen : List String) :
    seen ⊆ explore actions stack seen := by
  fun_induction explore actions stack seen with
  | case1 seen => exact List.Subset.refl seen
  | case2 seen id stack h ih => exact fun x hx => ih (List.mem_cons_of_mem id hx)
  | case3 seen id stack h ih => exact ih

/-- What is on the stack and belongs to an action is found. -/
theorem mem_explore_of_mem_stack {stack seen : List String} {id : String} (hid : id ∈ stack)
    (h : contains actions id = true) : id ∈ explore actions stack seen := by
  fun_induction explore actions stack seen with
  | case1 seen => cases hid
  | case2 seen top stack hnew ih =>
    rcases List.mem_cons.mp hid with rfl | hrest
    · exact subset_explore _ _ _ List.mem_cons_self
    · exact ih (List.mem_append_right _ hrest)
  | case3 seen top stack hold ih =>
    rcases List.mem_cons.mp hid with rfl | hrest
    · have hseen : id ∈ seen := by
        by_contra hnot
        exact hold ⟨hnot, h⟩
      exact subset_explore _ _ _ hseen
    · exact ih hrest

/-- The exploration ends in a closed set, if the successors of what it found before are found or
still on the stack. -/
theorem explore_closed {stack seen : List String}
    (h : ∀ id ∈ seen, ∀ t ∈ successorsOf actions id, contains actions t = true →
      t ∈ seen ∨ t ∈ stack) :
    Closed actions (explore actions stack seen) := by
  fun_induction explore actions stack seen with
  | case1 seen =>
    intro id hid t ht hcontains
    exact (h id hid t ht hcontains).resolve_right List.not_mem_nil
  | case2 seen top stack hnew ih =>
    refine ih fun id hid t ht hcontains => ?_
    rw [List.mem_append, List.mem_reverse]
    rcases List.mem_cons.mp hid with rfl | hid
    · exact .inr (.inl ht)
    · rcases h id hid t ht hcontains with hseen | hstack
      · exact .inl (List.mem_cons_of_mem top hseen)
      · rcases List.mem_cons.mp hstack with rfl | hstack
        · exact .inl List.mem_cons_self
        · exact .inr (.inr hstack)
  | case3 seen top stack hold ih =>
    refine ih fun id hid t ht hcontains => ?_
    rcases h id hid t ht hcontains with hseen | hstack
    · exact .inl hseen
    · rcases List.mem_cons.mp hstack with rfl | hstack
      · by_contra hnot
        exact hold ⟨fun hseen => hnot (.inl hseen), hcontains⟩
      · exact .inr hstack

/-- The reachable ids are closed under the successors that exist. -/
theorem reachable_closed (actions : List Action) : Closed actions (reachable actions) := by
  unfold reachable
  split
  · split
    · exact fun id hid => absurd hid List.not_mem_nil
    · exact explore_closed fun id hid => absurd hid List.not_mem_nil
  · exact fun id hid => absurd hid List.not_mem_nil

/-- The entry leads to what is reachable. -/
theorem entry_leadsInto_reachable (actions : List Action) :
    LeadsInto actions (reachable actions) (entry actions) := by
  intro id hentry hid hcontains
  simp only [reachable, hentry, if_neg hid]
  exact mem_explore_of_mem_stack List.mem_cons_self hcontains

/-! ## Ranked orders of ids -/

/-- An order of different ids that belong to actions, in which pointers only lead further down. -/
def Ranked (actions : List Action) : List String → Prop
  | [] => True
  | id :: below =>
    id ∉ below ∧ contains actions id = true ∧
      (∀ t ∈ successorsOf actions id, contains actions t = true → t ∈ below) ∧
      Ranked actions below

/-- No id stands twice in a ranked order. -/
theorem Ranked.nodup {order : List String} (h : Ranked actions order) : order.Nodup := by
  induction order with
  | nil => exact List.nodup_nil
  | cons id below ih => exact List.nodup_cons.mpr ⟨h.1, ih h.2.2.2⟩

/-- All ids of a ranked order are there. -/
theorem Ranked.contains_of_mem {order : List String} (h : Ranked actions order) {id : String}
    (hid : id ∈ order) : contains actions id = true := by
  induction order with
  | nil => cases hid
  | cons top below ih =>
    rcases List.mem_cons.mp hid with rfl | hbelow
    · exact h.2.1
    · exact ih h.2.2.2 hbelow

/-- Of the actions on the path, the successors are done, untried, or next on the path. `above` is
the id that comes next. -/
def Tried (actions : List Action) (done : List String) : Option String → List Pending → Prop
  | _, [] => True
  | above, ⟨id, untried⟩ :: path =>
    (∀ t ∈ successorsOf actions id, contains actions t = true →
      t ∈ done ∨ t ∈ untried ∨ above = some t) ∧ Tried actions done (some id) path

/-- Coming back from the newest action of a path moves its id to those that are done. -/
theorem Tried.pop {done : List String} {id : String} {path : List Pending}
    (h : Tried actions done (some id) path) : Tried actions (id :: done) none path := by
  have hmono : ∀ (path : List Pending) (above : Option String),
      Tried actions done above path → Tried actions (id :: done) above path := by
    intro path
    induction path with
    | nil => exact fun _ _ => trivial
    | cons p path ih =>
      refine fun above hp => ⟨fun t ht hcontains => ?_, ih _ hp.2⟩
      exact (hp.1 t ht hcontains).imp (List.mem_cons_of_mem id) fun h => h
  cases path with
  | nil => trivial
  | cons p path =>
    refine ⟨fun t ht hcontains => ?_, hmono path _ h.2⟩
    rcases h.1 t ht hcontains with hdone | huntried | hnext
    · exact .inl (List.mem_cons_of_mem id hdone)
    · exact .inr (.inl huntried)
    · exact .inl (List.mem_cons.mpr (.inl (Option.some.inj hnext).symm))

/-- What a search for cycles knows on its way: it is done with a ranked order, and the ids on its
path are different actions whose successors are accounted for. -/
structure Searching (actions : List Action) (path : List Pending) (done : List String) : Prop where
  ranked : Ranked actions done
  nodup : (pathIds path ++ done).Nodup
  exist : ∀ id ∈ pathIds path, contains actions id = true
  tried : Tried actions done none path

/-- With nothing left to try, the newest action of the path is put on top of the ranked order. -/
theorem Searching.pop {id : String} {path : List Pending} {done : List String}
    (h : Searching actions (⟨id, []⟩ :: path) done) : Searching actions path (id :: done) := by
  have hperm : (pathIds (⟨id, []⟩ :: path) ++ done).Perm (pathIds path ++ id :: done) := by
    have hmiddle : (pathIds path ++ id :: done).Perm (id :: (pathIds path ++ done)) :=
      List.perm_middle
    exact hmiddle.symm
  have hnodup : (id :: (pathIds path ++ done)).Nodup := h.nodup
  have hnew : id ∉ done := fun hid =>
    (List.nodup_cons.mp hnodup).1 (List.mem_append_right _ hid)
  refine ⟨⟨hnew, h.exist id List.mem_cons_self, fun t ht hcontains => ?_, h.ranked⟩,
    hperm.nodup_iff.mp h.nodup, fun x hx => h.exist x (List.mem_cons_of_mem id hx),
    h.tried.2.pop⟩
  rcases h.tried.1 t ht hcontains with hdone | huntried | hnext
  · exact hdone
  · cases huntried
  · cases hnext

/-- A successor that is neither done nor on the path becomes the newest action of the path. -/
theorem Searching.push {id next : String} {untried : List String} {path : List Pending}
    {done : List String} (h : Searching actions (⟨id, next :: untried⟩ :: path) done)
    (hcontains : contains actions next = true) (hdone : next ∉ done)
    (hpath : next ∉ id :: pathIds path) :
    Searching actions (⟨next, successorsOf actions next⟩ :: ⟨id, untried⟩ :: path) done := by
  refine ⟨h.ranked, ?_, ?_, ⟨fun t ht _ => .inr (.inl ht), ⟨fun t ht hexists => ?_, h.tried.2⟩⟩⟩
  · have hfresh : next ∉ pathIds (⟨id, untried⟩ :: path) ++ done :=
      fun hmem => (List.mem_append.mp hmem).elim hpath hdone
    exact List.nodup_cons.mpr ⟨hfresh, h.nodup⟩
  · intro x hx
    rcases List.mem_cons.mp hx with rfl | hx
    · exact hcontains
    · exact h.exist x hx
  · rcases h.tried.1 t ht hexists with hd | hu | hn
    · exact .inl hd
    · rcases List.mem_cons.mp hu with rfl | hu
      · exact .inr (.inr rfl)
      · exact .inr (.inl hu)
    · cases hn

/-- A successor that does not exist or is done needs no trying. -/
theorem Searching.skip {id next : String} {untried : List String} {path : List Pending}
    {done : List String} (h : Searching actions (⟨id, next :: untried⟩ :: path) done)
    (hskip : ¬(contains actions next = true ∧ next ∉ done)) :
    Searching actions (⟨id, untried⟩ :: path) done := by
  refine ⟨h.ranked, h.nodup, h.exist, ⟨fun t ht hexists => ?_, h.tried.2⟩⟩
  rcases h.tried.1 t ht hexists with hd | hu | hn
  · exact .inl hd
  · rcases List.mem_cons.mp hu with rfl | hu
    · by_contra hnot
      exact hskip ⟨hexists, fun hd => hnot (.inl hd)⟩
    · exact .inr (.inl hu)
  · cases hn

/-- A search that finds no cycle ends with a ranked order of all that it met. -/
theorem exists_ranked_of_search_eq_none {path : List Pending} {done : List String}
    (h : search actions path done = none) (hs : Searching actions path done) :
    ∃ order, Ranked actions order ∧ pathIds path ++ done ⊆ order := by
  fun_induction search actions path done with
  | case1 done => exact ⟨done, hs.ranked, fun x hx => hx⟩
  | case2 done id path ih =>
    obtain ⟨order, hranked, hsub⟩ := ih h hs.pop
    refine ⟨order, hranked, fun x hx => hsub ?_⟩
    simp only [pathIds, List.map_cons, List.cons_append, List.mem_cons, List.mem_append] at hx ⊢
    grind
  | case3 done id next untried path hnew hpath => cases h
  | case4 done id next untried path hnew hpath ih =>
    obtain ⟨order, hranked, hsub⟩ := ih h (hs.push hnew.1 hnew.2 hpath)
    exact ⟨order, hranked, fun x hx => hsub (List.mem_cons_of_mem next hx)⟩
  | case5 done id next untried path hskip ih => exact ih h (hs.skip hskip)

/-- Without a cycle there is a ranked order that the entry leads into. -/
theorem exists_ranked_of_cycle_eq_none (h : cycle actions = none) :
    ∃ order, Ranked actions order ∧ LeadsInto actions order (entry actions) := by
  cases hentry : entry actions with
  | none => exact ⟨[], trivial, leadsInto_none []⟩
  | some id =>
    by_cases hid : id = ""
    · refine ⟨[], trivial, ?_⟩
      rintro t ht hne
      exact absurd ((Option.some.inj ht).symm.trans hid) hne
    · have hsearch : search actions [⟨id, successorsOf actions id⟩] [] = none := by
        simpa [cycle, hentry, hid] using h
      have hstart : Searching actions [⟨id, successorsOf actions id⟩] [] := by
        refine ⟨trivial, by simp [pathIds], ?_, ⟨fun t ht _ => .inr (.inl ht), trivial⟩⟩
        intro x hx
        obtain rfl : x = id := by simpa [pathIds] using hx
        exact contains_entry hentry
      obtain ⟨order, hranked, hsub⟩ := exists_ranked_of_search_eq_none hsearch hstart
      refine ⟨order, hranked, ?_⟩
      rintro t ht - -
      obtain rfl : id = t := Option.some.inj ht
      exact hsub (by simp [pathIds])

/-! ## Counting ids -/

theorem mem_map_firsts {id : String} (h : contains actions id = true) :
    id ∈ (firsts actions).map (·.id) := by
  induction actions with
  | nil => simp [contains] at h
  | cons a rest ih =>
    rw [firsts, List.map_cons, List.mem_cons]
    by_cases ha : id = a.id
    · exact .inl ha
    · right
      have hrest : contains rest id = true := by
        obtain ⟨b, hb, hid⟩ := contains_iff.mp h
        rcases List.mem_cons.mp hb with rfl | hb
        · exact absurd hid.symm ha
        · exact contains_iff.mpr ⟨b, hb, hid⟩
      obtain ⟨b, hb, hid⟩ := List.mem_map.mp (ih hrest)
      refine List.mem_map.mpr ⟨b, List.mem_filter.mpr ⟨hb, ?_⟩, hid⟩
      simpa [hid] using ha

/-- There are at most as many different ids of actions as actions that are the first with theirs. -/
theorem length_le_firsts {ids : List String} (hnodup : ids.Nodup)
    (h : ∀ id ∈ ids, contains actions id = true) : ids.length ≤ (firsts actions).length := by
  have hsub : ids ⊆ (firsts actions).map (·.id) := fun id hid => mem_map_firsts (h id hid)
  simpa using (hnodup.subperm hsub).length_le

end Chain

end MapEvents
