import MapEvents.Proofs.Chain.Frame
/-!
# What a failed action leaves behind

A standard action changes the game state before it asks the host, and not afterwards. All but the
treasure either ask the host and change nothing, or change something and ask nobody; so one that
ends with a fault has changed nothing, whether the fault is its own or comes from the host. A
treasure adds its entries one by one, and only then reads the gold and the experience and asks the
host. If it ends with a fault, the entries before the first that cannot be added stay added.
-/

namespace MapEvents

/-- Adding to the inventory leaves the flags alone. -/
theorem GameState.flags_of_addItem {s t : GameState} {id : String} {count name : Value}
    (h : s.addItem id count name = .ok t) : t.flags = s.flags := by
  unfold addItem at h
  cases hitems : Inventory.add id count name s.inventory with
  | error fault =>
    rw [hitems] at h
    cases h
  | ok items =>
    rw [hitems] at h
    cases h
    rfl

namespace StandardAction

/-- The entries of a treasure before the first that cannot be added. -/
def addable (s : GameState) : List Value → List Value
  | [] => []
  | v :: rest =>
    match addEntry s v with
    | .ok s => v :: addable s rest
    | .error _ => []

/-- Behind the addable entries comes one that cannot be added to what they leave, or none at all. -/
theorem exists_rest_of_addable (s : GameState) (entries : List Value) :
    ∃ rest, entries = addable s entries ++ rest ∧ ∀ v ∈ rest.head?,
      ∃ fault, addEntry (addEntries s entries).1 v = .error fault := by
  induction entries generalizing s with
  | nil => exact ⟨[], rfl, by simp⟩
  | cons v rest ih =>
    rw [addable, addEntries]
    cases hv : addEntry s v with
    | ok t =>
      obtain ⟨rejected, hsplit, hfirst⟩ := ih t
      exact ⟨rejected, congrArg (v :: ·) hsplit, hfirst⟩
    | error fault => exact ⟨v :: rest, rfl, by simpa using ⟨fault, hv⟩⟩

/-- Adding the entries up to the first that cannot be added is adding the addable ones. -/
theorem addEntries_addable (s : GameState) (entries : List Value) :
    addEntries s (addable s entries) = ((addEntries s entries).1, .ok ()) := by
  induction entries generalizing s with
  | nil => rfl
  | cons v rest ih =>
    rw [addable, addEntries]
    cases hv : addEntry s v with
    | ok t => simpa only [addEntries, hv] using ih t
    | error fault => rfl

/-- Adding one entry of a treasure leaves the flags as they are. -/
theorem flags_of_addEntry {s t : GameState} {v : Value} (h : addEntry s v = .ok t) :
    t.flags = s.flags := by
  unfold addEntry at h
  split at h
  · split at h
    · cases h
    · split at h
      · cases h
      · exact GameState.flags_of_addItem h
  · cases h

/-- Adding the entries of a treasure, up to one that is refused, leaves the flags as they are. -/
theorem flags_of_addEntries (entries : List Value) (s : GameState) :
    (addEntries s entries).1.flags = s.flags := by
  induction entries generalizing s with
  | nil => rfl
  | cons v rest ih =>
    rw [addEntries]
    cases hv : addEntry s v with
    | ok t => exact (ih t).trans (flags_of_addEntry hv)
    | error fault => rfl

/-- What a treasure leaves does not depend on the gold and the experience. -/
theorem perform_treasure_state (params : Data) (s : GameState) :
    (treasure.perform params s).1 = (addEntries s (treasureEntries params)).1 := by
  show (performTreasure params s).1 = _
  unfold performTreasure
  rcases addEntries s (treasureEntries params) with ⟨t, fault | _⟩ <;> rfl

/-- Every other standard action changes nothing, or has nothing to ask of the host. -/
theorem perform_keeps_or_done {a : StandardAction} (ha : a ≠ treasure) (params : Data)
    (s : GameState) : (a.perform params s).1 = s ∨ (a.perform params s).2 = .ok none := by
  have hchanging : ∀ r, (changing s r).1 = s ∨ (changing s r).2 = .ok none := by
    intro r
    cases r with
    | ok t => exact .inr rfl
    | error fault => exact .inl rfl
  cases a with
  | treasure => exact absurd rfl ha
  | flag => exact hchanging _
  | item => exact hchanging _
  | _ => exact .inl rfl

end StandardAction

namespace Registry

open StandardAction

variable {σ : Type} {r : Registry σ} {std : StandardAction} {a : Action}

/-- What a standard action does once it is performed. -/
def askFor (s : Surroundings σ) : Option Request → Work σ Outcome
  | none => .done (.ok .success)
  | some request => (s.ask request).andThen fun reply => .done (Outcome.ofReply reply)

/-- The host leaves the game state alone. -/
theorem run_askFor_state (s : Surroundings σ) (request : Option Request) (p : Scene σ) :
    ((askFor s request).run p).2.1.state = p.1.state := by
  have hR : World.Admits fun w v : World σ => v.state = w.state :=
    ⟨fun _ => rfl, fun _ _ _ huv hvw => hvw.trans huv, fun _ _ => rfl, fun _ _ => rfl⟩
  have hobeys : (askFor s request).Obeys fun p q => q.1.state = p.1.state := by
    cases request with
    | none => trivial
    | some request => exact (ask_obeys hR s request).andThen fun _ => trivial
  refine hobeys.run ?_ ?_ p
  · exact fun _ => rfl
  · exact fun huv hvw => hvw.trans huv

/-- A standard action is performed, and then the host is asked for what it requests; a fault of its
own ends it at once. -/
theorem run_dispatch_standard (hstd : r.handler? a.type = some (.standard std))
    (s : Surroundings σ) (event : Event) (w : World σ) (d : Data) :
    (r.dispatch s event a).run (w, d) =
      match std.perform a.params w.state with
      | (state, .ok request) => (askFor s request).run ({ w with state }, d)
      | (state, .error fault) => (some (.error fault), ({ w with state }, d)) := by
  have hdispatch : r.dispatch s event a = runStandard s std a.params := by
    rw [dispatch, hstd]
  rw [hdispatch, runStandard, Task.andThen, Task.run_bind, Task.run_step]
  rcases hperform : std.perform a.params w.state with ⟨state, fault | _ | request⟩ <;>
    simp only [hperform] <;> rfl

/-- A standard action that ends with a fault leaves what performing it left, and it had a request to
the host or a fault of its own. -/
theorem state_of_dispatch_fault (hstd : r.handler? a.type = some (.standard std))
    {s : Surroundings σ} {event : Event} {w v : World σ} {d d' : Data} {fault : Fault}
    (h : (r.dispatch s event a).run (w, d) = (some (.error fault), (v, d'))) :
    v.state = (std.perform a.params w.state).1 ∧ (std.perform a.params w.state).2 ≠ .ok none := by
  rw [run_dispatch_standard hstd] at h
  rcases hperform : std.perform a.params w.state with ⟨state, own | _ | request⟩ <;>
    rw [hperform] at h
  · cases h
    exact ⟨rfl, by simp⟩
  · cases h
  · have hasked : (askFor s (some request)).run ({ w with state }, d) =
        (some (.error fault), (v, d')) := h
    have hstate := run_askFor_state s (some request) ({ w with state }, d)
    rw [hasked] at hstate
    exact ⟨hstate, by simp⟩

/-- A standard action that ends with a fault, its own or one of the host, leaves the game state as
it was, unless it is a treasure; a treasure leaves exactly the entries added that come before the
first one that cannot be added. So flags never change, and nothing changes if no entry could be
added. -/
theorem fault_leaves_addable (hstd : r.handler? a.type = some (.standard std))
    {s : Surroundings σ} {event : Event} {w v : World σ} {d d' : Data} {fault : Fault}
    (h : (r.dispatch s event a).run (w, d) = (some (.error fault), (v, d'))) :
    v.state.flags = w.state.flags ∧
      (std ≠ .treasure ∨ addable w.state (treasureEntries a.params) = [] → v.state = w.state) ∧
      (std = .treasure →
        addEntries w.state (addable w.state (treasureEntries a.params)) = (v.state, .ok ()) ∧
          ∃ rest, treasureEntries a.params =
              addable w.state (treasureEntries a.params) ++ rest ∧
            ∀ entry ∈ rest.head?, ∃ cause, addEntry v.state entry = .error cause) := by
  obtain ⟨hstate, hrequest⟩ := state_of_dispatch_fault hstd h
  by_cases htreasure : std = .treasure
  · subst htreasure
    rw [perform_treasure_state] at hstate
    have hadded := addEntries_addable w.state (treasureEntries a.params)
    have hrest := exists_rest_of_addable w.state (treasureEntries a.params)
    rw [← hstate] at hadded hrest
    refine ⟨hstate ▸ flags_of_addEntries _ _, fun hcase => ?_, fun _ => ⟨hadded, hrest⟩⟩
    rw [hcase.resolve_left (· rfl)] at hadded
    exact (congrArg Prod.fst hadded).symm
  · have hkeeps : v.state = w.state :=
      hstate.trans ((perform_keeps_or_done htreasure a.params w.state).resolve_right hrequest)
    exact ⟨congrArg GameState.flags hkeeps, fun _ => hkeeps, fun heq => absurd heq htreasure⟩

/-- A chest with a gem, with gold that is no number. -/
def chest : Action :=
  { Action.passage "chest" [] none with
    type := "treasure"
    params := [("items", .list [.obj [("id", .str "gem")]]), ("gold", .str "lots")] }

/-- A chest whose gold cannot be read leaves its gem in the inventory, and the flags as they were.
-/
theorem fault_leaves_addable_chest :
    (standard : Registry Unit).handler? chest.type = some (.standard .treasure) ∧
      ∃ v, (standard.dispatch .agreeable Event.blank chest).run (World.fresh, []) =
          (some (.error .unreadableNumber), (v, [])) ∧
        v.state.flags = World.fresh.state.flags ∧
        addEntries World.fresh.state [.obj [("id", .str "gem")]] = (v.state, .ok ()) := by
  have hstd : (standard : Registry Unit).handler? chest.type = some (.standard .treasure) := rfl
  have hrun : (standard.dispatch .agreeable Event.blank chest).run (World.fresh, []) =
      (some (.error .unreadableNumber),
        ((standard.dispatch .agreeable Event.blank chest).run (World.fresh, [])).2) := rfl
  obtain ⟨hflags, -, hadded⟩ := fault_leaves_addable hstd hrun
  exact ⟨hstd, _, hrun, hflags, (hadded rfl).1⟩

/-- The gold cannot be read, and the gem is taken all the same. -/
theorem chest_gives_gem_and_faults :
    ((standard.dispatch .agreeable Event.blank chest).run (World.fresh, [])).1 =
        some (.error .unreadableNumber) ∧
      World.fresh.state.inventory = [] ∧
      ((standard.dispatch .agreeable Event.blank chest).run (World.fresh, [])).2.1.state.inventory =
        [⟨"gem", "Item gem", .whole 1⟩] :=
  ⟨rfl, rfl, rfl⟩

end Registry

end MapEvents
