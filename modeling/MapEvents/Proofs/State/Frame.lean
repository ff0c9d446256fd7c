import MapEvents.Action.Standard
import MapEvents.State.Update
/-!
# What standard actions and updates leave alone

A standard action changes flags and inventory and nothing else of the game state. An update changes
the fields that it names: a part of the state that none of the named fields belongs to is left as it
was, whatever values are given. The fields are told apart by what they hold: replacing one is
setting it to what was read, and leaves every other one alone.
-/

namespace MapEvents

namespace GameState

/-- The second state is the first one after standard actions: only flags and inventory may
differ. -/
structure AfterActions (before after : GameState) : Prop where
  level : after.level = before.level
  position : after.position = before.position
  time : after.time = before.time
  history : after.history = before.history

namespace AfterActions

theorem refl (s : GameState) : s.AfterActions s := ⟨rfl, rfl, rfl, rfl⟩

theorem trans {r s t : GameState} (hrs : r.AfterActions s) (hst : s.AfterActions t) :
    r.AfterActions t :=
  ⟨hst.level.trans hrs.level, hst.position.trans hrs.position, hst.time.trans hrs.time,
    hst.history.trans hrs.history⟩

theorem of_map_inventory {s s' : GameState} {r : Except Fault (List Item)}
    (h : r.map (fun items => { s with inventory := items }) = .ok s') : s.AfterActions s' := by
  cases r with
  | error fault => cases h
  | ok items =>
    cases h
    exact ⟨rfl, rfl, rfl, rfl⟩

end AfterActions

variable {s s' : GameState}

theorem afterActions_of_addItem {id : String} {count name : Value}
    (h : s.addItem id count name = .ok s') : s.AfterActions s' :=
  .of_map_inventory h

theorem afterActions_of_removeItem {id : String} {count : Value}
    (h : s.removeItem id count = .ok s') : s.AfterActions s' :=
  .of_map_inventory h

theorem afterActions_of_setFlag {key : String} {v : Value} (h : s.setFlag key v = .ok s') :
    s.AfterActions s' := by
  unfold setFlag at h
  split at h
  · cases h
    exact ⟨rfl, rfl, rfl, rfl⟩
  · cases h

theorem afterActions_of_raiseFlag {key : String} {v : Value} (h : s.raiseFlag key v = .ok s') :
    s.AfterActions s' := by
  unfold raiseFlag at h
  cases hsum : Flags.raised key (s.flag? key) v with
  | error fault =>
    rw [hsum] at h
    cases h
  | ok sum =>
    rw [hsum] at h
    cases h
    exact ⟨rfl, rfl, rfl, rfl⟩

end GameState

/-! ## Standard actions -/

namespace StandardAction

open GameState

variable {s s' : GameState}

theorem afterActions_of_addEntry {v : Value} (h : addEntry s v = .ok s') : s.AfterActions s' := by
  unfold addEntry at h
  split at h
  · split at h
    · cases h
    · split at h
      · cases h
      · exact afterActions_of_addItem h
  · cases h

/-- The entries that were added before a faulty one stay added. -/
theorem addEntries_afterActions (entries : List Value) (s : GameState) :
    s.AfterActions (addEntries s entries).1 := by
  induction entries generalizing s with
  | nil => exact .refl s
  | cons v rest ih =>
    rw [addEntries]
    split
    · next t ht => exact (afterActions_of_addEntry ht).trans (ih t)
    · exact .refl s

/-- A treasure changes nothing but inventory and flags, also where it ends with a fault. -/
theorem performTreasure_afterActions (params : Data) (s : GameState) :
    s.AfterActions (performTreasure params s).1 := by
  have hentries := addEntries_afterActions (treasureEntries params) s
  unfold performTreasure
  split <;> next t _ ht =>
    rw [ht] at hentries
    exact hentries

/-- A change of a flag changes nothing but inventory and flags. -/
theorem afterActions_of_performFlag {params : Data} (h : performFlag params s = .ok s') :
    s.AfterActions s' := by
  simp only [performFlag] at h
  split at h
  · exact afterActions_of_setFlag h
  · split at h
    · exact afterActions_of_raiseFlag h
    · split at h
      · cases h
        exact ⟨rfl, rfl, rfl, rfl⟩
      · cases h
        exact .refl s

/-- An item action changes nothing but inventory and flags. -/
theorem afterActions_of_performItem {params : Data} (h : performItem params s = .ok s') :
    s.AfterActions s' := by
  simp only [performItem] at h
  split at h
  · cases h
  · split at h
    · exact afterActions_of_addItem h
    · split at h
      · exact afterActions_of_removeItem h
      · cases h
        exact .refl s

/-- A change that may fail does what actions may do, if it does so where it succeeds. -/
theorem changing_afterActions {r : Except Fault GameState}
    (h : ∀ t, r = .ok t → s.AfterActions t) : s.AfterActions (changing s r).1 := by
  cases r with
  | ok t => exact h t rfl
  | error fault => exact .refl s

/-- A standard action changes at most flags and inventory, also when it ends with a fault. -/
theorem perform_afterActions (a : StandardAction) (params : Data) (s : GameState) :
    s.AfterActions (a.perform params s).1 := by
  unfold perform
  split
  · exact .refl s
  · exact performTreasure_afterActions params s
  · exact changing_afterActions fun t ht => afterActions_of_performFlag ht
  · exact changing_afterActions fun t ht => afterActions_of_performItem ht
  · exact .refl s

end StandardAction

/-! ## What the fields hold -/

theorem Checked.map_map {ε α β γ : Type} (r : Except ε α) (f : α → β) (g : β → γ) :
    (r.map f).map g = r.map fun x => g (f x) := by
  cases r <;> rfl

namespace GameState

namespace Field

/-- What a field of the game state holds. -/
def Held : Field → Type
  | flags => Flags
  | inventory => List Item
  | level => Int
  | position => Position
  | time => Double
  | history => List HistoryEntry

/-- What the field holds in a state. -/
def get : (f : Field) → GameState → f.Held
  | flags, s => s.flags
  | inventory, s => s.inventory
  | level, s => s.level
  | position, s => s.position
  | time, s => s.time
  | history, s => s.history

/-- The state in which the field holds this. -/
def set : (f : Field) → f.Held → GameState → GameState
  | flags, x, s => { s with flags := x }
  | inventory, x, s => { s with inventory := x }
  | level, x, s => { s with level := x }
  | position, x, s => { s with position := x }
  | time, x, s => { s with time := x }
  | history, x, s => { s with history := x }

/-- What a value stands for in the field. -/
def read : (f : Field) → Value → Checked f.Held
  | flags, v => flagsShape.read v
  | inventory, v => (inventoryShape.read v).map (List.map Item.ofData)
  | level, v => Shape.whole.read v
  | position, v => (positionShape.read v).map Position.ofData
  | time, v => Shape.real.read v
  | history, v => (historyShape.read v).map (List.map HistoryEntry.ofData)

/-- A field that was set holds what it was set to. -/
@[simp]
theorem get_set (f : Field) (x : f.Held) (s : GameState) : f.get (f.set x s) = x := by
  cases f <;> rfl

/-- The other fields hold what they held. -/
theorem get_set_of_ne {f g : Field} (h : g ≠ f) (x : f.Held) (s : GameState) :
    g.get (f.set x s) = g.get s := by
  cases f <;> cases g <;> first | exact absurd rfl h | rfl

/-- Replacing a field is reading the value for it and setting it. -/
theorem replace_eq (f : Field) (v : Value) : f.replace v = (f.read v).map f.set := by
  cases f with
  | inventory => exact (Checked.map_map (inventoryShape.read v) _ inventory.set).symm
  | position => exact (Checked.map_map (positionShape.read v) _ position.set).symm
  | history => exact (Checked.map_map (historyShape.read v) _ history.set).symm
  | _ => rfl

end Field

/-! ## Updates -/

/-- The update names the field, in either spelling. -/
def Names (given : Data) (f : Field) : Prop := ∃ p ∈ given, Field.ofKey? p.1 = some f

/-- What was collected from an update was there before or is named by it. -/
theorem names_of_touched {given : Data} {found named : List (Field × Value)}
    (h : touched given found = .ok named) :
    ∀ q ∈ named, q ∈ found ∨ Names given q.1 := by
  induction given generalizing found with
  | nil =>
    obtain rfl : found = named := by simpa [touched] using h
    exact fun q hq => .inl hq
  | cons p rest ih =>
    obtain ⟨key, v⟩ := p
    unfold touched at h
    split at h
    · cases h
    · next f hf =>
      intro q hq
      rcases ih h q hq with hfound | ⟨p, hp, hnames⟩
      · rcases List.mem_append.mp hfound with hfound | hnew
        · exact .inl (List.mem_filter.mp hfound).1
        · obtain rfl : q = (f, v) := by simpa using hnew
          exact .inr ⟨(key, v), List.mem_cons_self, hf⟩
      · exact .inr ⟨p, List.mem_cons_of_mem _ hp, hnames⟩

theorem mem_of_lookup {found : List (Field × Value)} {f : Field} {v : Value}
    (h : found.lookup f = some v) : (f, v) ∈ found := by
  obtain ⟨before, after, hfound, -⟩ := List.lookup_eq_some_iff.mp h
  rw [hfound]
  exact List.mem_append_right before List.mem_cons_self

/-- Each change replaces a field that was found, by the value that was found for it. -/
theorem exists_replace_of_changes {found : List (Field × Value)} {fields : List Field}
    {changed : List (GameState → GameState)} (h : changes found fields = .ok changed) :
    ∀ g ∈ changed, ∃ f v, (f, v) ∈ found ∧ f.replace v = .ok g := by
  induction fields generalizing changed with
  | nil =>
    obtain rfl : [] = changed := by simpa [changes] using h
    simp
  | cons f rest ih =>
    rw [changes] at h
    split at h
    · exact ih h
    · next v hv =>
      cases hf : f.replace v with
      | error issues =>
        rw [hf] at h
        cases hrest : changes found rest <;> rw [hrest] at h <;> cases h
      | ok first =>
        rw [hf] at h
        cases hrest : changes found rest with
        | error issues =>
          rw [hrest] at h
          cases h
        | ok others =>
          rw [hrest] at h
          cases h
          intro g hg
          rcases List.mem_cons.mp hg with rfl | hg
          · exact ⟨f, v, mem_of_lookup hv, hf⟩
          · exact ih hrest g hg

/-- What the replacement of every named field keeps, an update keeps. -/
theorem update_induction {P : GameState → Prop} {given : Data} {s s' : GameState}
    (hreplace : ∀ f v change, Names given f → f.replace v = .ok change → ∀ t, P t → P (change t))
    (h : update given s = .ok s') (hs : P s) : P s' := by
  unfold update at h
  split at h
  · cases h
  · next found hfound =>
    split at h
    · cases h
    · next changed hchanged =>
      obtain rfl : changed.foldl (fun s f => f s) s = s' := by simpa using h
      have hkeeps : ∀ change ∈ changed, ∀ t, P t → P (change t) := by
        intro change hchange
        obtain ⟨f, v, hf, hchanges⟩ := exists_replace_of_changes hchanged change hchange
        have hnames : Names given f := by simpa using names_of_touched hfound (f, v) hf
        exact hreplace f v change hnames hchanges
      clear h hchanged
      induction changed generalizing s with
      | nil => exact hs
      | cons first rest ih =>
        exact ih (hkeeps first List.mem_cons_self s hs)
          fun change hchange => hkeeps change (List.mem_cons_of_mem first hchange)

/-- A part of the state that no named field belongs to is left alone by an update. -/
theorem update_frame {δ : Type} {part : GameState → δ} {given : Data} {s s' : GameState}
    (hpart : ∀ f v change, Names given f → f.replace v = .ok change →
      ∀ t, part (change t) = part t)
    (h : update given s = .ok s') : part s' = part s :=
  update_induction (fun f v change hnames hreplace t ht =>
    (hpart f v change hnames hreplace t).trans ht) h rfl

/-- An update leaves alone the fields that it does not name. -/
theorem get_of_update {given : Data} {s s' : GameState} (h : update given s = .ok s') {f : Field}
    (hf : ¬Names given f) : f.get s' = f.get s := by
  refine update_frame (fun g v change hnames hreplace t => ?_) h
  have hne : f ≠ g := by
    rintro rfl
    exact hf hnames
  rw [Field.replace_eq] at hreplace
  cases hread : g.read v with
  | error issues =>
    rw [hread] at hreplace
    cases hreplace
  | ok x =>
    rw [hread] at hreplace
    obtain rfl : g.set x = change := Except.ok.inj hreplace
    exact Field.get_set_of_ne hne x t

/-- An update that does not name the history leaves it alone. -/
theorem history_of_update {given : Data} {s s' : GameState} (hgiven : ¬Names given .history)
    (h : update given s = .ok s') : s'.history = s.history :=
  get_of_update h hgiven

end GameState

end MapEvents
