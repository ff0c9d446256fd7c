import MapEvents.Proofs.Schema.RoundTrip
import MapEvents.Proofs.State.Frame
/-!
# Valid game states

A state that was read is valid: its counts are whole numbers and not negative, and its stamps can be
written. What its other fields hold is valid by its type. A valid state is read back from the value
that stands for it, in either style, and a state that is not valid is not.

Updates keep a state valid, and so do standard actions, but for one thing. Raising an existing count
is not checked, so that an action that adds a negative number of an item drains it: its count may
become negative. `GameState.ValidUpTo` allows this for some items and for no others.
-/

namespace MapEvents

/-- The count is a whole number, and negative only if the item is drained. -/
def Item.Fits (drained : String → Prop) (i : Item) : Prop :=
  ∃ n : Int, i.count = .whole n ∧ (n < 0 → drained i.id)

namespace GameState

/-- Every count fits, and every stamp can be written. -/
structure ValidUpTo (drained : String → Prop) (s : GameState) : Prop where
  counts : ∀ i ∈ s.inventory, i.Fits drained
  stamps : ∀ e ∈ s.history, e.stamp.Writable

/-- No count is negative, and every stamp can be written. -/
def Valid (s : GameState) : Prop := s.ValidUpTo fun _ => False

variable {drained : String → Prop} {s s' : GameState}

theorem ValidUpTo.mono {drained' : String → Prop} (h : s.ValidUpTo drained)
    (hdrained : ∀ id, drained id → drained' id) : s.ValidUpTo drained' := by
  refine ⟨fun i hi => ?_, h.stamps⟩
  obtain ⟨n, hn, hneg⟩ := h.counts i hi
  exact ⟨n, hn, fun hlt => hdrained i.id (hneg hlt)⟩

/-- A valid state is valid but for any. -/
theorem Valid.validUpTo (h : s.Valid) (drained : String → Prop) : s.ValidUpTo drained :=
  h.mono fun _ hfalse => hfalse.elim

/-- A state is valid if, besides, no count is negative. -/
theorem ValidUpTo.valid_iff (h : s.ValidUpTo drained) :
    s.Valid ↔ ∀ i ∈ s.inventory, ∀ n : Int, i.count = .whole n → 0 ≤ n := by
  constructor
  · intro hvalid i hi n hn
    obtain ⟨m, hm, hneg⟩ := hvalid.counts i hi
    obtain rfl : m = n := Number.whole.inj (hm.symm.trans hn)
    exact Int.not_lt.mp hneg
  · intro hcounts
    refine ⟨fun i hi => ?_, h.stamps⟩
    obtain ⟨n, hn, -⟩ := h.counts i hi
    exact ⟨n, hn, Int.not_lt.mpr (hcounts i hi n hn)⟩

/-! ## Reading and writing a state -/

theorem proper_shape : shape.Proper := by
  simp [Shape.Proper, Record.Proper, Record.names, Shape.NeverNull, Leaf.Proper]

/-- A state is made of its data again. -/
theorem ofData_toData (s : GameState) : ofData s.toData = s := by
  have hentry : ∀ e : HistoryEntry, HistoryEntry.ofData e.toData = e := by
    rintro ⟨event, stamp, outcome⟩
    cases outcome <;> rfl
  have hinventory : (s.inventory.map Item.toData).map Item.ofData = s.inventory := by
    rw [List.map_map]
    exact List.map_id'' (fun _ => rfl) _
  have hhistory : (s.history.map HistoryEntry.toData).map HistoryEntry.ofData = s.history := by
    rw [List.map_map]
    exact List.map_id'' hentry _
  show { s with
    inventory := (s.inventory.map Item.toData).map Item.ofData
    history := (s.history.map HistoryEntry.toData).map HistoryEntry.ofData } = s
  rw [hinventory, hhistory]

/-- Items that were read fit. -/
theorem fits_of_sound {x : inventoryShape.Of} (h : inventoryShape.Sound x) :
    ∀ i ∈ List.map Item.ofData x, i.Fits drained := by
  intro i hi
  obtain ⟨y, hy, rfl⟩ := List.mem_map.mp hi
  obtain ⟨-, -, ⟨n, hn, hcount⟩, -⟩ := h y hy
  exact ⟨n, hcount, fun hlt => absurd hn (Int.not_le.mpr hlt)⟩

/-- Entries that were read have stamps that can be written. -/
theorem writable_of_sound {x : historyShape.Of} (h : historyShape.Sound x) :
    ∀ e ∈ List.map HistoryEntry.ofData x, e.stamp.Writable := by
  intro e he
  obtain ⟨y, hy, rfl⟩ := List.mem_map.mp he
  exact (h y hy).2.1

/-- A state that was read is valid. -/
theorem valid_ofData {x : fields.Of} (h : fields.Sound x) : (ofData x).Valid := by
  obtain ⟨-, hinventory, -, -, -, hhistory, -⟩ := h
  exact ⟨fits_of_sound hinventory, writable_of_sound hhistory⟩

/-- The data of a valid state is what is read. -/
theorem Valid.sound (h : s.Valid) : fields.Sound s.toData := by
  have hinventory : inventoryShape.Sound (s.inventory.map Item.toData) := by
    intro x hx
    obtain ⟨i, hi, rfl⟩ := List.mem_map.mp hx
    obtain ⟨n, hn, hneg⟩ := h.counts i hi
    exact ⟨trivial, trivial, ⟨n, Int.not_lt.mp hneg, hn⟩, trivial⟩
  have hhistory : historyShape.Sound (s.history.map HistoryEntry.toData) := by
    intro x hx
    obtain ⟨e, he, rfl⟩ := List.mem_map.mp hx
    exact ⟨trivial, h.stamps e he, trivial, trivial⟩
  refine ⟨?_, hinventory, trivial, ⟨trivial, trivial, trivial, trivial⟩, trivial, hhistory, trivial⟩
  exact fun p hp y hy => trivial

/-- A state that a value stands for is valid. -/
theorem valid_of_read {v : Value} (h : read v = .ok s) : s.Valid := by
  obtain ⟨x, hx, rfl⟩ := Checked.map_eq_ok.mp h
  exact valid_ofData (Shape.sound_of_check .notRecord shape hx)

/-- Exactly a valid state is read back from the value that stands for it. -/
theorem read_toValue_iff (style : UtcStyle) :
    read (s.toValue style) = .ok s ↔ s.Valid := by
  refine ⟨valid_of_read, fun h => ?_⟩
  have hcheck := Shape.check_dump .notRecord style shape proper_shape s.toData h.sound
  rw [read, toValue, Shape.read, hcheck]
  exact congrArg Except.ok (ofData_toData s)

/-! ## Updates -/

/-- Replacing a field by a checked value keeps a state valid. -/
theorem ValidUpTo.replace {f : Field} {v : Value} {change : GameState → GameState}
    (h : f.replace v = .ok change) (hs : s.ValidUpTo drained) : (change s).ValidUpTo drained := by
  cases f <;> obtain ⟨x, hx, rfl⟩ := Checked.map_eq_ok.mp h
  case inventory =>
    exact ⟨fits_of_sound (Shape.sound_of_check .notRecord _ hx), hs.stamps⟩
  case history =>
    exact ⟨hs.counts, writable_of_sound (Shape.sound_of_check .notRecord _ hx)⟩
  all_goals exact ⟨hs.counts, hs.stamps⟩

/-- An update keeps a state valid. -/
theorem ValidUpTo.update {given : Data} (h : update given s = .ok s') (hs : s.ValidUpTo drained) :
    s'.ValidUpTo drained :=
  update_induction (fun _ _ _ _ hreplace _ ht => ht.replace hreplace) h hs

end GameState

/-! ## Changes of the inventory -/

namespace Inventory

variable {drained : String → Prop} {items items' : List Item} {id : String}

/-- Entries still fit when a count is set, unless it is negative and its item is not excepted. -/
theorem fits_setCount (h : ∀ i ∈ items, i.Fits drained) {n : Int} (hn : n < 0 → drained id) :
    ∀ i ∈ setCount id (.whole n) items, i.Fits drained := by
  induction items with
  | nil => exact h
  | cons first rest ih =>
    have hrest := ih fun i hi => h i (List.mem_cons_of_mem first hi)
    simp only [setCount, modifyFirst] at hrest ⊢
    split
    · next hid =>
      refine List.forall_mem_cons.mpr ⟨⟨n, rfl, fun hlt => ?_⟩, fun i hi => ?_⟩
      · exact hid ▸ hn hlt
      · exact h i (List.mem_cons_of_mem first hi)
    · exact List.forall_mem_cons.mpr ⟨h first List.mem_cons_self, hrest⟩

/-- A new entry is checked, so that its count fits. -/
theorem fits_of_newItem {v count name : Value} {i : Item} (h : newItem v count name = .ok i) :
    i.Fits drained := by
  unfold newItem at h
  split at h
  · next item hitem =>
    cases h
    obtain ⟨x, hx, rfl⟩ := Checked.map_eq_ok.mp hitem
    obtain ⟨-, -, ⟨n, hn, hcount⟩, -⟩ := Shape.sound_of_check .notRecord _ hx
    exact ⟨n, hcount, fun hlt => absurd hn (Int.not_le.mpr hlt)⟩
  · cases h

theorem mem_of_find? {i : Item} (h : items.find? (·.id = id) = some i) : i ∈ items ∧ i.id = id :=
  ⟨List.mem_of_find?_eq_some h, by simpa using List.find?_some h⟩

/-- A whole number is added exactly, whatever its sign. -/
theorem add_of_find? {i : Item} {m : Int} (h : items.find? (·.id = id) = some i)
    (hcount : i.count = .whole m) (n : Int) (name : Value) :
    add id (.int n) name items = .ok (setCount id (.whole (m + n)) items) := by
  simp only [add, h, Number.ofValue, hcount, bind, Except.bind, Number.plus_whole]
  rfl

/-- A whole number is taken away exactly, and nothing that is not greater than zero is left. -/
theorem remove_of_find? {i : Item} {m : Int} (h : items.find? (·.id = id) = some i)
    (hcount : i.count = .whole m) (n : Int) :
    remove id (.int n) items =
      .ok (if 0 < m - n then setCount id (.whole (m - n)) items
        else items.filter (·.id ≠ id)) := by
  simp only [remove, h, Number.ofValue, hcount, bind, Except.bind, Number.minus_whole,
    Number.isPositive, decide_eq_true_eq]
  rfl

/-- Adding a negative number drains the item. -/
theorem fits_of_add {n : Int} {name : Value} (hitems : ∀ i ∈ items, i.Fits drained)
    (hn : n < 0 → drained id) (h : add id (.int n) name items = .ok items') :
    ∀ i ∈ items', i.Fits drained := by
  cases hfind : items.find? (·.id = id) with
  | none =>
    rw [add, hfind] at h
    obtain ⟨i, hi, rfl⟩ := Checked.map_eq_ok.mp h
    intro j hj
    rcases List.mem_append.mp hj with hj | hj
    · exact hitems j hj
    · obtain rfl : j = i := List.mem_singleton.mp hj
      exact fits_of_newItem hi
  | some i =>
    obtain ⟨hi, hid⟩ := mem_of_find? hfind
    obtain ⟨m, hm, hneg⟩ := hitems i hi
    rw [add_of_find? hfind hm] at h
    cases h
    refine fits_setCount hitems fun hsum => ?_
    -- A sum below zero has a part below zero: the count that was there, or the number added.
    by_cases hlt : n < 0
    · exact hn hlt
    · exact hid ▸ hneg (by omega)

/-- Removing some of an item drains nothing, whatever the number. -/
theorem fits_of_remove {n : Int} (hitems : ∀ i ∈ items, i.Fits drained)
    (h : remove id (.int n) items = .ok items') : ∀ i ∈ items', i.Fits drained := by
  cases hfind : items.find? (·.id = id) with
  | none =>
    rw [remove, hfind] at h
    cases h
    exact hitems
  | some i =>
    obtain ⟨hi, hid⟩ := mem_of_find? hfind
    obtain ⟨m, hm, hneg⟩ := hitems i hi
    rw [remove_of_find? hfind hm] at h
    cases h
    by_cases hleft : 0 < m - n
    · rw [if_pos hleft]
      exact fits_setCount hitems fun hlt => absurd hlt (Int.not_lt.mpr (Int.le_of_lt hleft))
    · rw [if_neg hleft]
      exact fun j hj => hitems j (List.mem_filter.mp hj).1

end Inventory

/-! ## Standard actions -/

namespace GameState

variable {drained : String → Prop} {s s' : GameState}

/-- Adding keeps a state valid, unless it drains an item that is not excepted. -/
theorem ValidUpTo.addItem {id : String} {n : Int} {name : Value} (hn : n < 0 → drained id)
    (h : s.addItem id (.int n) name = .ok s') (hs : s.ValidUpTo drained) :
    s'.ValidUpTo drained := by
  obtain ⟨items, hitems, rfl⟩ := Checked.map_eq_ok.mp h
  exact ⟨Inventory.fits_of_add hs.counts hn hitems, hs.stamps⟩

/-- Removing keeps a state valid, since it leaves no count below zero. -/
theorem ValidUpTo.removeItem {id : String} {n : Int} (h : s.removeItem id (.int n) = .ok s')
    (hs : s.ValidUpTo drained) : s'.ValidUpTo drained := by
  obtain ⟨items, hitems, rfl⟩ := Checked.map_eq_ok.mp h
  exact ⟨Inventory.fits_of_remove hs.counts hitems, hs.stamps⟩

theorem ValidUpTo.setFlag {key : String} {v : Value} (h : s.setFlag key v = .ok s')
    (hs : s.ValidUpTo drained) : s'.ValidUpTo drained := by
  unfold GameState.setFlag at h
  split at h <;> cases h
  exact ⟨hs.counts, hs.stamps⟩

theorem ValidUpTo.raiseFlag {key : String} {v : Value} (h : s.raiseFlag key v = .ok s')
    (hs : s.ValidUpTo drained) : s'.ValidUpTo drained := by
  obtain ⟨sum, -, rfl⟩ := Checked.map_eq_ok.mp h
  exact ⟨hs.counts, hs.stamps⟩

end GameState

namespace StandardAction

/-- The entry of a treasure adds a negative number of this item. -/
def EntryDrains (entry : Value) (id : String) : Prop :=
  ∃ fields v n, entry = .obj fields ∧ Fields.find? "id" fields = some v ∧ v.text = id ∧
    wholeParam fields "count" 1 = .ok n ∧ n < 0

/-- The action adds a negative number of this item. -/
def Drains : StandardAction → Data → String → Prop
  | item, params, id =>
    isText (Fields.find? "operation" params) "add" = true ∧ textParam params "itemId" = id ∧
      ∃ n, wholeParam params "count" 1 = .ok n ∧ n < 0
  | treasure, params, id => ∃ entry ∈ treasureEntries params, EntryDrains entry id
  | _, _, _ => False

variable {drained : String → Prop} {s s' : GameState}

/-- Adding an entry of a treasure keeps a state valid but for the items that it drains. -/
theorem validUpTo_of_addEntry {entry : Value} (hentry : ∀ id, EntryDrains entry id → drained id)
    (h : addEntry s entry = .ok s') (hs : s.ValidUpTo drained) : s'.ValidUpTo drained := by
  unfold addEntry at h
  split at h
  · next fields =>
    split at h
    · cases h
    · next v hv =>
      split at h
      · cases h
      · next n hn =>
        exact hs.addItem (fun hlt => hentry v.text ⟨fields, v, n, rfl, hv, rfl, hn, hlt⟩) h
  · cases h

/-- Adding several entries, up to the first that is refused, keeps a state valid but for the items
that they drain. -/
theorem addEntries_validUpTo {entries : List Value}
    (hentries : ∀ entry ∈ entries, ∀ id, EntryDrains entry id → drained id)
    (hs : s.ValidUpTo drained) : (addEntries s entries).1.ValidUpTo drained := by
  induction entries generalizing s with
  | nil => exact hs
  | cons entry rest ih =>
    rw [addEntries]
    split
    · next t ht =>
      refine ih (fun e he => hentries e (List.mem_cons_of_mem entry he)) ?_
      exact validUpTo_of_addEntry (hentries entry List.mem_cons_self) ht hs
    · exact hs

/-- A flag action keeps a state valid. -/
theorem validUpTo_of_performFlag {params : Data} (h : performFlag params s = .ok s')
    (hs : s.ValidUpTo drained) : s'.ValidUpTo drained := by
  simp only [performFlag] at h
  split at h
  · exact hs.setFlag h
  · split at h
    · exact hs.raiseFlag h
    · split at h <;> cases h
      · exact ⟨hs.counts, hs.stamps⟩
      · exact hs

/-- An item action keeps a state valid but for the items that it drains. -/
theorem validUpTo_of_performItem {params : Data}
    (hdrains : ∀ id, Drains item params id → drained id) (h : performItem params s = .ok s')
    (hs : s.ValidUpTo drained) : s'.ValidUpTo drained := by
  simp only [performItem] at h
  split at h
  · cases h
  · next n hn =>
    split at h
    · next hadd => exact hs.addItem (fun hlt => hdrains _ ⟨hadd, rfl, n, hn, hlt⟩) h
    · split at h
      · exact hs.removeItem h
      · cases h
        exact hs

/-- A change that may fail keeps a state valid if it does where it succeeds. -/
theorem changing_validUpTo {r : Except Fault GameState}
    (h : ∀ t, r = .ok t → t.ValidUpTo drained) (hs : s.ValidUpTo drained) :
    (changing s r).1.ValidUpTo drained := by
  cases r with
  | ok t => exact h t rfl
  | error fault => exact hs

/-- A standard action keeps a state valid up to the items that it drains, also when it ends with a
fault. -/
theorem perform_validUpTo (a : StandardAction) (params : Data)
    (hdrains : ∀ id, a.Drains params id → drained id) (hs : s.ValidUpTo drained) :
    (a.perform params s).1.ValidUpTo drained := by
  cases a with
  | treasure =>
    have hentries := addEntries_validUpTo
      (fun entry hentry id h => hdrains id ⟨entry, hentry, h⟩) hs
    simp only [perform, performTreasure]
    split <;> next t _ ht =>
      rw [ht] at hentries
      exact hentries
  | flag => exact changing_validUpTo (fun t ht => validUpTo_of_performFlag ht hs) hs
  | item => exact changing_validUpTo (fun t ht => validUpTo_of_performItem hdrains ht hs) hs
  | _ => exact hs

end StandardAction

end MapEvents
