import MapEvents.Proofs.Chain.Visit
import MapEvents.Proofs.Chain.Way
/-!
# Loops

A loop is a way from an id back to itself. The search for cycles keeps on its path a way from the
entry, so that the cycle it reports is a loop that the walk can come to; a search that reports none
leaves a ranked order behind, and along a ranked order no way leads back. An entry action with an
empty id counts as none, whatever its pointers say.
-/

namespace MapEvents.Chain

variable {actions : List Action}

/-! ## What a search reports -/

/-- What the path of a search is: a way from the start to its newest action that meets no id twice,
with successors of each action left to try. -/
structure Leading (actions : List Action) (start : String) (path : List Pending) : Prop where
  edges : (pathIds path).IsChain fun id earlier => Edge actions earlier id
  nodup : (pathIds path).Nodup
  oldest : ∀ id ∈ (pathIds path).getLast?, id = start
  untried : ∀ p ∈ path, p.untried ⊆ successorsOf actions p.id

namespace Leading

variable {start id next : String} {untried : List String} {path : List Pending}

/-- A path that is shortened by its last id still leads from its start. -/
theorem pop (h : Leading actions start (⟨id, untried⟩ :: path)) : Leading actions start path := by
  refine ⟨h.edges.tail, h.nodup.tail, fun t ht => h.oldest t ?_,
    fun p hp => h.untried p (List.mem_cons_of_mem _ hp)⟩
  show t ∈ (id :: pathIds path).getLast?
  cases hids : pathIds path with
  | nil => simp [hids] at ht
  | cons top rest => rwa [List.getLast?_cons_cons, ← hids]

/-- A successor that was tried can be dropped from the path. -/
theorem skip (h : Leading actions start (⟨id, next :: untried⟩ :: path)) :
    Leading actions start (⟨id, untried⟩ :: path) := by
  refine ⟨h.edges, h.nodup, h.oldest, fun p hp => ?_⟩
  rcases List.mem_cons.mp hp with rfl | hp
  · exact fun t ht => h.untried _ List.mem_cons_self (List.mem_cons_of_mem next ht)
  · exact h.untried p (List.mem_cons_of_mem _ hp)

/-- The next untried successor of the last id is one of its edges, if its action is there. -/
theorem edge (h : Leading actions start (⟨id, next :: untried⟩ :: path))
    (hnext : contains actions next = true) : Edge actions id next :=
  edge_iff.mpr ⟨h.untried _ List.mem_cons_self List.mem_cons_self, hnext⟩

/-- A path can be extended by an untried successor that is not on it yet. -/
theorem push (h : Leading actions start (⟨id, next :: untried⟩ :: path))
    (hnext : contains actions next = true) (hnew : next ∉ id :: pathIds path) :
    Leading actions start (⟨next, successorsOf actions next⟩ :: ⟨id, untried⟩ :: path) := by
  refine ⟨List.isChain_cons_cons.mpr ⟨h.edge hnext, h.edges⟩, List.nodup_cons.mpr ⟨hnew, h.nodup⟩,
    fun t ht => h.oldest t ?_, fun p hp => ?_⟩
  · rwa [pathIds, List.map_cons, List.map_cons, List.getLast?_cons_cons] at ht
  · rcases List.mem_cons.mp hp with rfl | hp
    · exact List.Subset.refl _
    · exact h.skip.untried p hp

/-- The way leads from the start to every id on it. -/
theorem reaches (h : Leading actions start path) {t : String} (ht : t ∈ pathIds path) :
    Reaches actions start t := by
  induction path generalizing t with
  | nil => cases ht
  | cons p path ih =>
    rcases List.mem_cons.mp ht with rfl | hrest
    · cases hids : pathIds path with
      | nil =>
        have hstart : p.id = start :=
          h.oldest p.id (by simp [pathIds] at hids; simp [pathIds, hids])
        exact hstart ▸ .refl
      | cons earlier rest =>
        have hedge : Edge actions earlier p.id := by
          have hedges := h.edges
          rw [pathIds, List.map_cons, ← pathIds, hids] at hedges
          exact (List.isChain_cons_cons.mp hedges).1
        have hearlier : earlier ∈ pathIds path := by
          rw [hids]
          exact List.mem_cons_self
        exact (ih h.pop hearlier).tail hedge
    · exact ih h.pop hrest

end Leading

/-- Closing the path at an id on it keeps what is newer than this id. -/
theorem exists_closing_eq {path : List Pending} {id : String} (hnodup : (pathIds path).Nodup)
    (hid : id ∈ pathIds path) :
    ∃ newer older, pathIds path = (newer ++ [id]) ++ older ∧
      closing path id = (newer ++ [id]).reverse ++ [id] := by
  obtain ⟨newer, older, hsplit⟩ := List.append_of_mem hid
  have hpath : pathIds path = (newer ++ [id]) ++ older := by simp [hsplit]
  refine ⟨newer, older, hpath, ?_⟩
  have hnot : id ∉ older := by
    rw [hsplit, List.nodup_append] at hnodup
    exact (List.nodup_cons.mp hnodup.2.1).1
  have holder : ∀ x ∈ older.reverse, decide (x ≠ id) = true := by
    intro x hx
    have hne : x ≠ id := fun heq => hnot (heq ▸ List.mem_reverse.mp hx)
    simpa using hne
  rw [closing, hpath, List.reverse_append, List.dropWhile_append_of_pos holder,
    List.reverse_append, List.reverse_singleton, List.singleton_append,
    List.dropWhile_cons_of_neg (by simp)]

/-- A loop that can be reached from the start: a way from an id back to it that meets no other id
twice. -/
structure Loop (actions : List Action) (start : String) (ids : List String) : Prop where
  proper : 2 ≤ ids.length
  closed : ids.head? = ids.getLast?
  simple : ids.dropLast.Nodup
  edges : ids.IsChain (Edge actions)
  reached : ∀ id ∈ ids, Reaches actions start id

/-- A successor of the newest action of the path that lies on the path closes a loop. -/
theorem Leading.closing {start id next : String} {untried : List String} {path : List Pending}
    (h : Leading actions start (⟨id, next :: untried⟩ :: path))
    (hnext : contains actions next = true) (hpath : next ∈ id :: pathIds path) :
    Loop actions start (closing (⟨id, untried⟩ :: path) next) := by
  obtain ⟨newer, older, hsplit, hclosing⟩ := exists_closing_eq h.skip.nodup hpath
  have hnodup : (newer ++ [next]).Nodup := by
    have hall := h.skip.nodup
    rw [hsplit, List.nodup_append] at hall
    exact hall.1
  have hway : (newer ++ [next]).IsChain fun id earlier => Edge actions earlier id := by
    have hall := h.skip.edges
    rw [hsplit] at hall
    exact hall.left_of_append
  have hnewest : (newer ++ [next]).head? = some id := by
    have hhead : (pathIds (⟨id, untried⟩ :: path)).head? = some id := rfl
    rw [hsplit] at hhead
    cases newer <;> exact hhead
  rw [hclosing]
  refine ⟨by simp, ?_, ?_, ?_, fun t ht => ?_⟩
  · rw [List.getLast?_concat, List.reverse_append]
    rfl
  · rw [List.dropLast_concat]
    exact List.nodup_reverse.mpr hnodup
  · refine List.isChain_append.mpr ⟨List.isChain_reverse.mpr hway, List.isChain_singleton next, ?_⟩
    intro x hx y hy
    rw [List.getLast?_reverse, hnewest] at hx
    obtain rfl : id = x := Option.some.inj hx
    obtain rfl : y = next := by simpa [eq_comm] using hy
    exact h.edge hnext
  · have hmem : t ∈ newer ++ [next] := by simpa [or_comm] using ht
    refine h.skip.reaches ?_
    rw [hsplit]
    exact List.mem_append_left older hmem

/-- What a search reports is a loop that can be reached from where it started. -/
theorem loop_of_search {start : String} {path : List Pending} {done ids : List String}
    (h : search actions path done = some ids) (hpath : Leading actions start path) :
    Loop actions start ids := by
  fun_induction search actions path done with
  | case1 done => cases h
  | case2 done id path ih => exact ih h hpath.pop
  | case3 done id next untried path hnew hclosed =>
    cases h
    exact hpath.closing hnew.1 hclosed
  | case4 done id next untried path hnew hopen ih => exact ih h (hpath.push hnew.1 hopen)
  | case5 done id next untried path hskip ih => exact ih h hpath.skip

/-- A reported cycle is a loop that can be reached from the entry. -/
theorem exists_loop_of_cycle {ids : List String} (h : cycle actions = some ids) :
    ∃ start, Starts actions start ∧ Loop actions start ids := by
  unfold cycle at h
  split at h
  · next start hentry =>
    split at h
    · cases h
    · next hstart =>
      have hpath : Leading actions start [⟨start, successorsOf actions start⟩] := by
        refine ⟨List.isChain_singleton start, List.nodup_singleton start, ?_, ?_⟩
        · intro id hid
          simpa [pathIds, eq_comm] using hid
        · intro p hp
          obtain rfl := List.mem_singleton.mp hp
          exact List.Subset.refl _
      exact ⟨start, ⟨hentry, hstart⟩, loop_of_search h hpath⟩
  · cases h

/-- A loop leads from each of its ids back to it. -/
theorem Loop.exists_transGen {start : String} {ids : List String} (h : Loop actions start ids) :
    ∃ id, Reaches actions start id ∧ Relation.TransGen (Edge actions) id id := by
  obtain ⟨hproper, hclosed, -, hedges, hreached⟩ := h
  match ids with
  | [] => exact absurd hproper (by simp)
  | [id] => exact absurd hproper (by simp)
  | id :: next :: rest =>
    obtain ⟨hfirst, hrest⟩ := List.isChain_cons_cons.mp hedges
    have hlast : (next :: rest).getLast (List.cons_ne_nil next rest) = id := by
      rw [List.head?_cons, List.getLast?_cons_cons, List.getLast?_eq_some_getLast] at hclosed
      exact (Option.some.inj hclosed).symm
    have hback : Reaches actions next id :=
      List.relationReflTransGen_of_exists_isChain_cons rest hrest hlast
    exact ⟨id, hreached id List.mem_cons_self, .head' hfirst hback⟩

/-! ## Where there are no loops -/

/-- A ranked order is closed under the edges, since edges only go down in it. -/
theorem Ranked.closed {order : List String} (h : Ranked actions order) : Closed actions order := by
  induction order with
  | nil => exact fun id hid => absurd hid List.not_mem_nil
  | cons top below ih =>
    intro id hid t ht hcontains
    rcases List.mem_cons.mp hid with rfl | hbelow
    · exact List.mem_cons_of_mem _ (h.2.2.1 t ht hcontains)
    · exact List.mem_cons_of_mem top (ih h.2.2.2 id hbelow t ht hcontains)

/-- No way leads from an id of a ranked order back to it. -/
theorem Ranked.not_transGen {order : List String} (h : Ranked actions order) {id : String}
    (hid : id ∈ order) : ¬Relation.TransGen (Edge actions) id id := by
  induction order with
  | nil => cases hid
  | cons top below ih =>
    rcases List.mem_cons.mp hid with rfl | hbelow
    · intro hloop
      obtain ⟨next, hfirst, hback⟩ := Relation.TransGen.head'_iff.mp hloop
      obtain ⟨hnext, hcontains⟩ := edge_iff.mp hfirst
      exact h.1 (h.2.2.2.closed.mem_of_reaches (h.2.2.1 next hnext hcontains) hback)
    · exact ih h.2.2.2 hbelow

/-- If the search finds no cycle, no id that can be reached leads back to itself. -/
theorem not_transGen_of_cycle_eq_none (h : cycle actions = none) {start id : String}
    (hstart : Starts actions start) (hid : Reaches actions start id) :
    ¬Relation.TransGen (Edge actions) id id := by
  obtain ⟨order, hranked, hentry⟩ := exists_ranked_of_cycle_eq_none h
  have hmem : start ∈ order := hentry start hstart.1 hstart.2 hstart.contains
  exact hranked.not_transGen (hranked.closed.mem_of_reaches hmem hid)

/-! ## The search for cycles -/

/-- The search for cycles ends for every list of actions. It reports a cycle exactly if the entry
has a name and a way from it comes to an id from which a way leads back; what it reports is a loop
that can be reached from the entry. -/
theorem cycle_reports_loops (actions : List Action) :
    ((cycle actions).isSome = true ↔ ∃ start id, Starts actions start ∧ Reaches actions start id ∧
      Relation.TransGen (Edge actions) id id) ∧
    ∀ ids, cycle actions = some ids → ∃ start, Starts actions start ∧ Loop actions start ids := by
  refine ⟨⟨fun h => ?_, fun h => ?_⟩, fun ids h => exists_loop_of_cycle h⟩
  · obtain ⟨ids, hids⟩ := Option.isSome_iff_exists.mp h
    obtain ⟨start, hstart, hloop⟩ := exists_loop_of_cycle hids
    obtain ⟨id, hreached, hback⟩ := hloop.exists_transGen
    exact ⟨start, id, hstart, hreached, hback⟩
  · obtain ⟨start, id, hstart, hreached, hback⟩ := h
    cases hcycle : cycle actions with
    | none => exact absurd hback (not_transGen_of_cycle_eq_none hcycle hstart hreached)
    | some ids => rfl

/-- The way to a loop is no part of what is reported. -/
example :
    cycle [.passage "gate" ["yard"] none, .passage "yard" ["gone", "hall"] none,
      .passage "hall" [] (some "yard")] = some ["yard", "hall", "yard"] := by
  cbv

/-- An entry without a name, which points at an action that points at itself. -/
def unnamed : List Action := [.passage "" [] (some "again"), .passage "again" [] (some "again")]

/-- A named entry that points at an action without a name, which points back. -/
def halfNamed : List Action := [.passage "there" [] (some ""), .passage "" [] (some "there")]

/-- Where an empty id is taken for a name, not every loop is found: not one behind an entry without
a name, and not one that leads over a pointer without a name. -/
theorem unnamed_loops_go_unreported :
    ¬((cycle unnamed).isSome = true ↔ ∃ start id, entry unnamed = some start ∧
      Reaches unnamed start id ∧ Relation.TransGen (Edge unnamed) id id) ∧
    cycle halfNamed = none ∧ entry halfNamed = some "there" ∧
      (∃ a, action? halfNamed "there" = some a ∧ a.PointsAt (some "")) ∧
      ∃ a, action? halfNamed "" = some a ∧ a.PointsAt (some "there") := by
  have hcycle : cycle unnamed = none := by cbv
  have hfirst : Edge unnamed "" "again" := edge_iff.mpr (by decide)
  have hagain : Edge unnamed "again" "again" := edge_iff.mpr (by decide)
  refine ⟨fun h => ?_, by cbv, rfl, ⟨_, rfl, .inl rfl⟩, ⟨_, rfl, .inl rfl⟩⟩
  have hsome := h.mpr ⟨"", "again", rfl, .single hfirst, .single hagain⟩
  rw [hcycle] at hsome
  cases hsome

end MapEvents.Chain
