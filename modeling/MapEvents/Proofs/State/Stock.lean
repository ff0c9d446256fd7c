import Mathlib.Logic.Function.Basic
import MapEvents.Proofs.State.Valid
/-!
# The inventory as a finite map

An inventory in which no id stands twice is a finite map from ids to counts, and its entries have an
order besides. A change adds a whole number of an item or removes one. `StockChange.Does` says what
each change comes to, entry by entry, and `StockChange.book` says the same of the map. Changes that
fail are part of a run like all others: they leave the state as it was.

Removing what is used up removes by id and not by place. It takes one entry away because every
change keeps the ids distinct.
-/

namespace MapEvents

/-- The integer that a number is, unless it is a double. -/
def Number.whole? : Number → Option Int
  | .whole n => some n
  | .real _ => none

/-- A change of the inventory by a whole number of an item. -/
inductive StockChange where
  /-- Adds some of an item. The name is for a new entry. -/
  | add (id : String) (count : Int) (name : Option String)
  /-- Removes some of an item. -/
  | remove (id : String) (count : Int)

namespace Inventory

/-- No id stands twice, and every count is a whole number, as all counts are in a state that was
read. -/
structure IsMap (items : List Item) : Prop where
  ids : (items.map (·.id)).Nodup
  counts : ∀ i ∈ items, ∃ n : Int, i.count = .whole n

/-- How many there are of each item. -/
def stock (items : List Item) (id : String) : Option Int :=
  (items.find? (·.id = id)).bind (·.count.whole?)

/-- Name of a new entry: the given one, or one made of the id. -/
def title (id : String) (name : Option String) : String :=
  (name.filter (· ≠ "")).getD ("Item " ++ id)

end Inventory

namespace StockChange

open Inventory

/-- Id of the item that is added or removed. -/
def id : StockChange → String
  | add id _ _ => id
  | remove id _ => id

/-- The inventory after the change. -/
def change (items : List Item) : StockChange → Except Fault (List Item)
  | add id count name => Inventory.add id (.int count) (.ofScalar? (name.map .str)) items
  | remove id count => Inventory.remove id (.int count) items

/-- Makes the change in a state. -/
def apply (s : GameState) : StockChange → Except Fault GameState
  | add id count name => s.addItem id (.int count) (.ofScalar? (name.map .str))
  | remove id count => s.removeItem id (.int count)

/-- The state after the change, or the same state if the change fails. -/
def leave (s : GameState) (c : StockChange) : GameState := (c.apply s).toOption.getD s

/-- What a change of an inventory comes to. -/
inductive Does : StockChange → List Item → Except Fault (List Item) → Prop where
  /-- A count that is there is raised in its place. -/
  | raised {before after : List Item} {i : Item} {n count : Int} {name : Option String}
      (hn : i.count = .whole n) :
      Does (add i.id count name) (before ++ i :: after)
        (.ok (before ++ { i with count := .whole (n + count) } :: after))
  /-- An entry that is not there comes in at the end. -/
  | entered {items : List Item} {id : String} {count : Int} {name : Option String}
      (habsent : ∀ i ∈ items, i.id ≠ id) (hcount : 0 ≤ count) :
      Does (add id count name) items (.ok (items ++ [⟨id, title id name, .whole count⟩]))
  /-- No entry comes in with a negative count. -/
  | refused {items : List Item} {id : String} {count : Int} {name : Option String}
      (habsent : ∀ i ∈ items, i.id ≠ id) (hcount : count < 0) :
      Does (add id count name) items
        (.error (.invalid [⟨.belowMinimum, [.key "count"], .int count⟩]))
  /-- Nothing is removed of what is not there. -/
  | ignored {items : List Item} {id : String} {count : Int}
      (habsent : ∀ i ∈ items, i.id ≠ id) : Does (remove id count) items (.ok items)
  /-- A count is lowered in its place if something is left. -/
  | lowered {before after : List Item} {i : Item} {n count : Int}
      (hn : i.count = .whole n) (hleft : 0 < n - count) :
      Does (remove i.id count) (before ++ i :: after)
        (.ok (before ++ { i with count := .whole (n - count) } :: after))
  /-- An entry of which nothing is left goes. -/
  | dropped {before after : List Item} {i : Item} {n count : Int}
      (hn : i.count = .whole n) (hleft : n - count ≤ 0) :
      Does (remove i.id count) (before ++ i :: after) (.ok (before ++ after))

/-- What a change makes of the count of its item. -/
def newCount : StockChange → Option Int → Option Int
  | add _ count _, some n => some (n + count)
  | add _ count _, none => if 0 ≤ count then some count else none
  | remove _ count, some n => if 0 < n - count then some (n - count) else none
  | remove _ _, none => none

/-- What a change makes of the map: only the count of its item is another one. -/
def book (counts : String → Option Int) (c : StockChange) : String → Option Int :=
  Function.update counts c.id (c.newCount (counts c.id))

end StockChange

namespace GameState

/-- The state after changes in order, of which some may fail. -/
def afterChanges (s : GameState) (cs : List StockChange) : GameState := cs.foldl StockChange.leave s

end GameState

namespace Inventory

variable {items before after : List Item} {id key : String}

/-! ## Entries by their ids -/

/-- An entry that is found is the first one with its id. -/
theorem exists_split {i : Item} (h : items.find? (·.id = id) = some i) :
    ∃ before after, items = before ++ i :: after ∧ i.id = id ∧ ∀ j ∈ before, j.id ≠ id := by
  obtain ⟨hid, before, after, hitems, hbefore⟩ := List.find?_eq_some_iff_append.mp h
  exact ⟨before, after, hitems, by simpa using hid, by simpa using hbefore⟩

/-- Setting a count changes the first entry with the id. -/
theorem setCount_of_split {i : Item} (hbefore : ∀ j ∈ before, j.id ≠ i.id) (count : Number) :
    setCount i.id count (before ++ i :: after) = before ++ { i with count } :: after := by
  induction before with
  | nil => simp [setCount, modifyFirst]
  | cons j rest ih =>
    obtain ⟨hj, hrest⟩ := List.forall_mem_cons.mp hbefore
    simp only [setCount] at ih ⊢
    simp [modifyFirst, hj, ih hrest]

/-- Distinct ids: the entries around one have other ids. -/
theorem IsMap.around {i : Item} (h : IsMap (before ++ i :: after)) :
    (∀ j ∈ before, j.id ≠ i.id) ∧ ∀ j ∈ after, j.id ≠ i.id := by
  have hids := h.ids
  simp only [List.map_append, List.map_cons, List.nodup_append, List.nodup_cons] at hids
  obtain ⟨-, ⟨hafter, -⟩, hapart⟩ := hids
  refine ⟨fun j hj => hapart j.id (List.mem_map_of_mem hj) i.id List.mem_cons_self, fun j hj => ?_⟩
  exact fun heq => hafter (heq ▸ List.mem_map_of_mem hj)

/-- Another count in the place of one. -/
theorem IsMap.replace {i : Item} (h : IsMap (before ++ i :: after)) (n : Int) :
    IsMap (before ++ { i with count := .whole n } :: after) := by
  refine ⟨by simpa using h.ids, fun j hj => ?_⟩
  rcases List.mem_append.mp hj with hj | hj
  · exact h.counts j (List.mem_append_left _ hj)
  · rcases List.mem_cons.mp hj with rfl | hj
    · exact ⟨n, rfl⟩
    · exact h.counts j (List.mem_append_right _ (List.mem_cons_of_mem i hj))

/-- A new id at the end. -/
theorem IsMap.enter (h : IsMap items) (habsent : ∀ i ∈ items, i.id ≠ id) (name : String) (n : Int) :
    IsMap (items ++ [⟨id, name, .whole n⟩]) := by
  refine ⟨?_, fun j hj => ?_⟩
  · rw [List.map_append, List.map_cons, List.map_nil]
    refine List.nodup_append.mpr ⟨h.ids, by simp, fun key hkey other hother => ?_⟩
    obtain ⟨j, hj, rfl⟩ := List.mem_map.mp hkey
    obtain rfl := List.mem_singleton.mp hother
    exact habsent j hj
  · rcases List.mem_append.mp hj with hj | hj
    · exact h.counts j hj
    · obtain rfl := List.mem_singleton.mp hj
      exact ⟨n, rfl⟩

/-- One entry less. -/
theorem IsMap.drop {i : Item} (h : IsMap (before ++ i :: after)) : IsMap (before ++ after) := by
  have hsub : (before ++ after).Sublist (before ++ i :: after) :=
    (List.sublist_cons_self i after).append_left before
  exact ⟨h.ids.sublist (hsub.map _), fun j hj => h.counts j (hsub.subset hj)⟩

theorem filter_others {items : List Item} (h : ∀ j ∈ items, j.id ≠ id) :
    items.filter (·.id ≠ id) = items :=
  List.filter_eq_self.mpr fun j hj => by simpa using h j hj

/-- In a map just the one entry with the id is removed. -/
theorem IsMap.filter_of_split {i : Item} (h : IsMap (before ++ i :: after)) :
    (before ++ i :: after).filter (·.id ≠ i.id) = before ++ after := by
  rw [List.filter_append, List.filter_cons_of_neg (by simp), filter_others h.around.1,
    filter_others h.around.2]

/-! ## Counts by ids -/

/-- An id without entry has no stock. -/
theorem stock_eq_none (h : ∀ j ∈ items, j.id ≠ id) : stock items id = none := by
  rw [stock, List.find?_eq_none.mpr (by simpa using h), Option.bind_none]

/-- The first entry with an id has the count. -/
theorem stock_of_split {i : Item} (hbefore : ∀ j ∈ before, j.id ≠ i.id) :
    stock (before ++ i :: after) i.id = i.count.whole? := by
  have hnone : before.find? (·.id = i.id) = none := List.find?_eq_none.mpr (by simpa using hbefore)
  simp [stock, List.find?_append, hnone]

/-- Entries with another id do not count. -/
theorem stock_filter_of_ne (h : key ≠ id) :
    stock (items.filter (·.id ≠ id)) key = stock items key := by
  have hsame : (fun j : Item => decide (decide (j.id ≠ id) = true ∧ decide (j.id = key) = true)) =
      fun j => decide (j.id = key) := by
    funext j
    by_cases hj : j.id = key
    · simp [hj, h]
    · simp [hj]
  rw [stock, stock, List.find?_filter, hsame]

/-- The stock of an id is the count of its entry. -/
theorem IsMap.stock_of_split {i : Item} {n : Int} (h : IsMap (before ++ i :: after))
    (hn : i.count = .whole n) : stock (before ++ i :: after) i.id = some n := by
  rw [Inventory.stock_of_split h.around.1, hn, Number.whole?]

/-! ## New entries -/

theorem orElse_title (id : String) (name : Option String) :
    (Value.ofScalar? (name.map .str)).orElse (.str ("Item " ++ id)) = .str (title id name) := by
  cases name with
  | none => rfl
  | some t => by_cases ht : t = "" <;>
      simp [ht, Value.ofScalar?, Scalar.toValue, Value.orElse, Value.truthy, title, Option.filter]

/-- An entry with an id and a name is read if its count is. -/
theorem read_entry (id name : String) (count : Value) :
    Item.read (.obj [("id", .str id), ("name", .str name), ("count", count)]) =
      ((Leaf.count.check count).under (.key "count")).map fun n => (⟨id, name, n⟩ : Item) := by
  have hfields : (Shape.record Item.record).read
        (.obj [("id", .str id), ("name", .str name), ("count", count)]) =
      Checked.both (.ok id) (Checked.both (.ok name)
        (Checked.both ((Leaf.count.check count).under (.key "count")) (.ok ()))) := rfl
  rw [Item.read, hfields]
  cases (Leaf.count.check count).under (.key "count") <;> rfl

/-- A new entry is refused exactly if its count is negative. -/
theorem newItem_int (id : String) (count : Int) (name : Option String) :
    newItem (.str id) (.int count) (.ofScalar? (name.map .str)) =
      if count < 0 then .error (.invalid [⟨.belowMinimum, [.key "count"], .int count⟩])
      else .ok ⟨id, title id name, .whole count⟩ := by
  have hcheck : Leaf.count.check (.int count) =
      if count < 0 then .error [⟨.belowMinimum, [], .int count⟩] else .ok (.whole count) := by
    have hread : Leaf.readCount (.int count) =
        if count < 0 then .error .belowMinimum else .ok (.whole count) := rfl
    rw [Leaf.check, hread]
    split <;> rfl
  rw [newItem, Value.text, orElse_title, read_entry, hcheck]
  by_cases hcount : count < 0
  · rw [if_pos hcount, if_pos hcount]
    rfl
  · rw [if_neg hcount, if_neg hcount]
    rfl

end Inventory

namespace StockChange

open Inventory

variable {items : List Item} {c : StockChange} {r : Except Fault (List Item)}

/-! ## What a change comes to -/

theorem does_add (h : IsMap items) (id : String) (count : Int) (name : Option String) :
    Does (add id count name) items ((add id count name).change items) := by
  cases hfind : items.find? (·.id = id) with
  | none =>
    have habsent : ∀ i ∈ items, i.id ≠ id := by simpa using List.find?_eq_none.mp hfind
    rw [change, Inventory.add, hfind, newItem_int]
    by_cases hcount : count < 0
    · rw [if_pos hcount]
      exact .refused habsent hcount
    · rw [if_neg hcount]
      exact .entered habsent (Int.not_lt.mp hcount)
  | some i =>
    obtain ⟨n, hn⟩ := h.counts i (List.mem_of_find?_eq_some hfind)
    rw [change, add_of_find? hfind hn]
    obtain ⟨before, after, rfl, rfl, hbefore⟩ := exists_split hfind
    rw [setCount_of_split hbefore]
    exact .raised hn

theorem does_remove (h : IsMap items) (id : String) (count : Int) :
    Does (remove id count) items ((remove id count).change items) := by
  cases hfind : items.find? (·.id = id) with
  | none =>
    rw [change, Inventory.remove, hfind]
    exact .ignored (by simpa using List.find?_eq_none.mp hfind)
  | some i =>
    obtain ⟨n, hn⟩ := h.counts i (List.mem_of_find?_eq_some hfind)
    rw [change, remove_of_find? hfind hn]
    obtain ⟨before, after, rfl, rfl, hbefore⟩ := exists_split hfind
    by_cases hleft : 0 < n - count
    · rw [if_pos hleft, setCount_of_split hbefore]
      exact .lowered hn hleft
    · rw [if_neg hleft, h.filter_of_split]
      exact .dropped hn (Int.not_lt.mp hleft)

/-- A change does to a map what it stands for. -/
theorem does_change (h : IsMap items) (c : StockChange) : c.Does items (c.change items) := by
  cases c with
  | add id count name => exact does_add h id count name
  | remove id count => exact does_remove h id count

/-- A change of a state is a change of its inventory, and of nothing else. -/
theorem apply_eq (s : GameState) (c : StockChange) :
    c.apply s = (c.change s.inventory).map fun items => { s with inventory := items } := by
  cases c <;> rfl

/-- A change leaves the changed inventory, or the old one if it fails. -/
theorem leave_eq (s : GameState) (c : StockChange) :
    leave s c = { s with inventory := (c.change s.inventory).toOption.getD s.inventory } := by
  rw [leave, apply_eq]
  cases c.change s.inventory <;> rfl

/-! ## What a change leaves -/

/-- Distinct ids stay distinct, and whole counts whole. -/
theorem Does.isMap (h : c.Does items r) (hmap : IsMap items) : IsMap (r.toOption.getD items) := by
  cases h with
  | raised _ => exact hmap.replace _
  | entered habsent _ => exact hmap.enter habsent _ _
  | refused _ _ => exact hmap
  | ignored _ => exact hmap
  | lowered _ _ => exact hmap.replace _
  | dropped _ _ => exact hmap.drop

/-- Entries with other ids stay as they are, in the same order. -/
theorem Does.others (h : c.Does items r) :
    (r.toOption.getD items).filter (·.id ≠ c.id) = items.filter (·.id ≠ c.id) := by
  cases h <;> simp [Except.toOption, id]

/-- The stock of the changed id is what the change books. -/
theorem Does.stock_self (h : c.Does items r) (hmap : IsMap items) :
    stock (r.toOption.getD items) c.id = c.newCount (stock items c.id) := by
  cases h with
  | raised hn =>
    rw [id, hmap.stock_of_split hn]
    exact stock_of_split hmap.around.1
  | entered habsent hcount =>
    rw [id, stock_eq_none habsent, newCount, if_pos hcount]
    exact stock_of_split habsent
  | refused habsent hcount =>
    rw [id, stock_eq_none habsent, newCount, if_neg (Int.not_le.mpr hcount)]
    exact stock_eq_none habsent
  | ignored habsent =>
    rw [id, stock_eq_none habsent]
    exact stock_eq_none habsent
  | lowered hn hleft =>
    rw [id, hmap.stock_of_split hn, newCount, if_pos hleft]
    exact stock_of_split hmap.around.1
  | dropped hn hleft =>
    rw [id, hmap.stock_of_split hn, newCount, if_neg (Int.not_lt.mpr hleft)]
    exact stock_eq_none fun j hj =>
      (List.mem_append.mp hj).elim (hmap.around.1 j) (hmap.around.2 j)

/-- The map changes at one id, as the book says. -/
theorem Does.stock_eq (h : c.Does items r) (hmap : IsMap items) :
    stock (r.toOption.getD items) = c.book (stock items) := by
  funext key
  by_cases hkey : key = c.id
  · rw [hkey, book, Function.update_self]
    exact h.stock_self hmap
  · rw [book, Function.update_of_ne hkey, ← stock_filter_of_ne hkey, h.others,
      stock_filter_of_ne hkey]

end StockChange

namespace GameState

open Inventory

/-- A run of changes keeps the inventory a map, and changes that map as the book says. -/
theorem afterChanges_isMap {s : GameState} (h : IsMap s.inventory) (cs : List StockChange) :
    IsMap (s.afterChanges cs).inventory ∧
      stock (s.afterChanges cs).inventory = cs.foldl StockChange.book (stock s.inventory) := by
  induction cs generalizing s with
  | nil => exact ⟨h, rfl⟩
  | cons c rest ih =>
    have hdoes := c.does_change h
    have hmap : IsMap (StockChange.leave s c).inventory := c.leave_eq s ▸ hdoes.isMap h
    have hstock : stock (StockChange.leave s c).inventory = c.book (stock s.inventory) :=
      c.leave_eq s ▸ hdoes.stock_eq h
    rw [List.foldl_cons, ← hstock]
    exact ih hmap

theorem afterChanges_snoc (s : GameState) (past : List StockChange) (next : StockChange) :
    s.afterChanges (past ++ [next]) = StockChange.leave (s.afterChanges past) next := by
  rw [afterChanges, List.foldl_append]
  rfl

/-- Wherever a run of changes has come to, failed ones included, no id stands twice, and the counts
are those of the map that was changed in the same way. The next change does there what `Does` says,
and nothing else to the state: it leaves the entries with other ids as they are, in their order, and
changes nothing if it fails. -/
theorem changes_follow_map {s : GameState} (h : IsMap s.inventory) (past : List StockChange) :
    IsMap (s.afterChanges past).inventory ∧
      stock (s.afterChanges past).inventory = past.foldl StockChange.book (stock s.inventory) ∧
      ∀ next : StockChange,
        next.Does (s.afterChanges past).inventory (next.change (s.afterChanges past).inventory) ∧
        next.apply (s.afterChanges past) = (next.change (s.afterChanges past).inventory).map
          (fun items => { s.afterChanges past with inventory := items }) ∧
        (∀ t, next.apply (s.afterChanges past) = .ok t →
          s.afterChanges (past ++ [next]) = t ∧
            t.inventory.filter (·.id ≠ next.id) =
              (s.afterChanges past).inventory.filter (·.id ≠ next.id)) ∧
        ∀ fault, next.apply (s.afterChanges past) = .error fault →
          s.afterChanges (past ++ [next]) = s.afterChanges past := by
  obtain ⟨hmap, hstock⟩ := afterChanges_isMap h past
  refine ⟨hmap, hstock, fun next => ?_⟩
  have hdoes := next.does_change hmap
  refine ⟨hdoes, next.apply_eq _, fun t ht => ?_, fun fault hfault => ?_⟩
  · have hnext : s.afterChanges (past ++ [next]) = t := by
      rw [afterChanges_snoc, StockChange.leave, ht]
      rfl
    have hothers := hdoes.others
    refine ⟨hnext, ?_⟩
    rw [← hnext, afterChanges_snoc, StockChange.leave_eq]
    exact hothers
  · rw [afterChanges_snoc, StockChange.leave, hfault]
    rfl

/-- A state with three potions and a key. -/
def outfitted : GameState :=
  { initial with
    inventory := [⟨"potion", "Potion", .whole 3⟩, ⟨"key", "Key", .whole 1⟩] }

/-- A potion is drunk, a debt of gems is refused, and the other potions go. -/
def journey : List StockChange :=
  [.remove "potion" 1, .add "gem" (-2) none, .remove "potion" 10, .add "gem" 2 none]

/-- On a journey with a refused debt the inventory stays a map, and goes with its book. -/
theorem changes_follow_map_journey :
    IsMap outfitted.inventory ∧ IsMap (outfitted.afterChanges journey).inventory ∧
      stock (outfitted.afterChanges journey).inventory =
        journey.foldl StockChange.book (stock outfitted.inventory) ∧
      (outfitted.afterChanges journey).inventory =
        [⟨"key", "Key", .whole 1⟩, ⟨"gem", "Item gem", .whole 2⟩] := by
  have hmap : IsMap outfitted.inventory := ⟨by decide, by simp [outfitted]⟩
  obtain ⟨hafter, hstock, -⟩ := changes_follow_map hmap journey
  exact ⟨hmap, hafter, hstock, rfl⟩

end GameState

end MapEvents
