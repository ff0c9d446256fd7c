import MapEvents.Proofs.State.Frame
/-!
# Standard actions and the past

A standard action does not look at the history. On a state with another history it does the same,
ends in the same request or fault, and keeps that other history.
-/

namespace MapEvents

namespace GameState

/-- The state with this history in place of its own. -/
def withHistory (history : List HistoryEntry) (s : GameState) : GameState := { s with history }

/-- But for the entries of other events in the history, the states are the same. -/
structure AlikeFor (event : String) (s t : GameState) : Prop where
  rest : t = s.withHistory t.history
  own : t.history.filter (·.event = event) = s.history.filter (·.event = event)

/-- The history plays no part in the flags. -/
@[simp]
theorem flag?_withHistory (history : List HistoryEntry) (s : GameState) (key : String) :
    (s.withHistory history).flag? key = s.flag? key := rfl

variable {history : List HistoryEntry}

/-- The history plays no part in adding items. -/
theorem addItem_withHistory (s : GameState) (id : String) (count name : Value) :
    (s.withHistory history).addItem id count name =
      (s.addItem id count name).map (withHistory history) := by
  rw [addItem, addItem, Checked.map_map]
  rfl

theorem removeItem_withHistory (s : GameState) (id : String) (count : Value) :
    (s.withHistory history).removeItem id count =
      (s.removeItem id count).map (withHistory history) := by
  rw [removeItem, removeItem, Checked.map_map]
  rfl

theorem setFlag_withHistory (s : GameState) (key : String) (v : Value) :
    (s.withHistory history).setFlag key v = (s.setFlag key v).map (withHistory history) := by
  unfold setFlag
  cases Shape.flag.read v <;> rfl

theorem raiseFlag_withHistory (s : GameState) (key : String) (amount : Value) :
    (s.withHistory history).raiseFlag key amount =
      (s.raiseFlag key amount).map (withHistory history) := by
  unfold raiseFlag
  rw [flag?_withHistory, Checked.map_map]
  rfl

end GameState

namespace StandardAction

open GameState

variable {history : List HistoryEntry}

/-- The history plays no part in adding an entry of a treasure. -/
theorem addEntry_withHistory (s : GameState) (v : Value) :
    addEntry (s.withHistory history) v = (addEntry s v).map (withHistory history) := by
  unfold addEntry
  split
  · split
    · rfl
    · split
      · rfl
      · exact addItem_withHistory s _ _ _
  · rfl

theorem addEntries_withHistory (s : GameState) (entries : List Value) :
    addEntries (s.withHistory history) entries =
      ((addEntries s entries).1.withHistory history, (addEntries s entries).2) := by
  induction entries generalizing s with
  | nil => rfl
  | cons v rest ih =>
    rw [addEntries, addEntries, addEntry_withHistory]
    cases addEntry s v with
    | error fault => rfl
    | ok t => exact ih t

/-- A treasure gives the same under every history. -/
theorem performTreasure_withHistory (params : Data) (s : GameState) :
    performTreasure params (s.withHistory history) =
      ((performTreasure params s).1.withHistory history, (performTreasure params s).2) := by
  unfold performTreasure
  rw [addEntries_withHistory]
  obtain ⟨t, r⟩ := addEntries s (treasureEntries params)
  cases r <;> rfl

/-- A change of a flag gives the same under every history. -/
theorem performFlag_withHistory (params : Data) (s : GameState) :
    performFlag params (s.withHistory history) =
      (performFlag params s).map (withHistory history) := by
  simp only [performFlag]
  split
  · exact setFlag_withHistory s _ _
  · split
    · exact raiseFlag_withHistory s _ _
    · split <;> rfl

/-- A change of the inventory gives the same under every history. -/
theorem performItem_withHistory (params : Data) (s : GameState) :
    performItem params (s.withHistory history) =
      (performItem params s).map (withHistory history) := by
  simp only [performItem]
  split
  · rfl
  · split
    · exact addItem_withHistory s _ _ _
    · split
      · exact removeItem_withHistory s _ _
      · rfl

/-- A change that may fail fails under every history or under none. -/
theorem changing_map_withHistory (s : GameState) (r : Except Fault GameState) :
    changing (s.withHistory history) (r.map (withHistory history)) =
      ((changing s r).1.withHistory history, (changing s r).2) := by
  cases r <;> rfl

/-- A standard action does the same whatever the history, and keeps it. -/
theorem perform_withHistory (a : StandardAction) (params : Data) (s : GameState) :
    a.perform params (s.withHistory history) =
      ((a.perform params s).1.withHistory history, (a.perform params s).2) := by
  cases a with
  | treasure => simp only [perform, performTreasure_withHistory]
  | flag => simp only [perform, performFlag_withHistory, changing_map_withHistory]
  | item => simp only [perform, performItem_withHistory, changing_map_withHistory]
  | _ => rfl

/-- On states that are alike for an event, a standard action does the same, and leaves states that
are alike for it. -/
theorem perform_alike {event : String} {s t : GameState} (h : s.AlikeFor event t)
    (a : StandardAction) (params : Data) :
    (a.perform params s).2 = (a.perform params t).2 ∧
      (a.perform params s).1.AlikeFor event (a.perform params t).1 := by
  have hs := (a.perform_afterActions params s).history
  have ht := (a.perform_afterActions params t).history
  have hperform : a.perform params t =
      ((a.perform params s).1.withHistory t.history, (a.perform params s).2) := by
    rw [h.rest]
    exact perform_withHistory a params s
  refine ⟨?_, ?_, ?_⟩
  · rw [hperform]
  · rw [ht, hperform]
  · rw [ht, hs]
    exact h.own

end StandardAction

/-! ## Updates -/

namespace GameState

variable {event : String} {s t : GameState}

/-- States that are alike for an event stay so if one field of both is replaced alike, be it the
history. -/
theorem AlikeFor.set (h : s.AlikeFor event t) (f : Field) (x : f.Held) :
    (f.set x s).AlikeFor event (f.set x t) := by
  by_cases hf : f = .history
  · subst hf
    refine ⟨?_, rfl⟩
    rw [h.rest]
    rfl
  · have hs : (f.set x s).history = s.history := Field.get_set_of_ne (Ne.symm hf) x s
    have ht : (f.set x t).history = t.history := Field.get_set_of_ne (Ne.symm hf) x t
    refine ⟨?_, by rw [hs, ht, h.own]⟩
    rw [ht, h.rest]
    cases f with
    | history => exact absurd rfl hf
    | _ => rfl

/-- An update is refused on both of two states that are alike for an event, or leaves states that
are alike for it. -/
theorem AlikeFor.update (h : s.AlikeFor event t) (given : Data) :
    (∃ fault, update given s = .error fault ∧ update given t = .error fault) ∨
      ∃ s' t', update given s = .ok s' ∧ update given t = .ok t' ∧ s'.AlikeFor event t' := by
  unfold GameState.update
  cases hnamed : touched given [] with
  | error fault => exact .inl ⟨fault, rfl, rfl⟩
  | ok named =>
    dsimp only
    cases hchanged : changes named Field.all with
    | error issues => exact .inl ⟨.invalid issues, rfl, rfl⟩
    | ok changed =>
      refine .inr ⟨_, _, rfl, rfl, ?_⟩
      have hset : ∀ change ∈ changed, ∃ f x, change = Field.set f x := by
        intro change hchange
        obtain ⟨f, v, -, hreplace⟩ := exists_replace_of_changes hchanged change hchange
        rw [Field.replace_eq] at hreplace
        cases hread : f.read v with
        | error issues =>
          rw [hread] at hreplace
          cases hreplace
        | ok x =>
          rw [hread] at hreplace
          exact ⟨f, x, (Except.ok.inj hreplace).symm⟩
      clear hchanged
      induction changed generalizing s t with
      | nil => exact h
      | cons first rest ih =>
        obtain ⟨f, x, rfl⟩ := hset first List.mem_cons_self
        exact ih (h.set f x) fun change hchange =>
          hset change (List.mem_cons_of_mem _ hchange)

end GameState

end MapEvents
