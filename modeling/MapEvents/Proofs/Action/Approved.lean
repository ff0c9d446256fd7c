import MapEvents.Proofs.Action.Leftover
import MapEvents.Proofs.Review.Verdict
import MapEvents.Proofs.State.Stock
/-!
# Approved item actions

The review of an item action and its performance read the same free-form parameters, each on its
own. The review asks for a positive integer count and for an id; performing the action takes any
value for either, and makes one out of what is absent. What the review approves is read as it
stands. The action then adds a positive number of an item or removes one, or does nothing if its
operation is another one, and an inventory that is in order stays so.
-/

namespace MapEvents

namespace Inventory

/-- No id stands twice, and counts are integers that are not negative. -/
structure InOrder (items : List Item) : Prop where
  ids : (items.map (·.id)).Nodup
  counts : ∀ i ∈ items, ∃ n : Int, i.count = .whole n ∧ 0 ≤ n

variable {items : List Item}

/-- An inventory is in order if it is a map and all its entries fit, with no exception. -/
theorem inOrder_iff : InOrder items ↔ IsMap items ∧ ∀ i ∈ items, i.Fits fun _ => False := by
  constructor
  · intro h
    refine ⟨⟨h.ids, fun i hi => ?_⟩, fun i hi => ?_⟩ <;> obtain ⟨n, hn, hnonneg⟩ := h.counts i hi
    · exact ⟨n, hn⟩
    · exact ⟨n, hn, Int.not_lt.mpr hnonneg⟩
  · rintro ⟨hmap, hfits⟩
    refine ⟨hmap.ids, fun i hi => ?_⟩
    obtain ⟨n, hn, hnonneg⟩ := hfits i hi
    exact ⟨n, hn, Int.not_lt.mp hnonneg⟩

end Inventory

namespace StockChange

open Inventory

variable {items : List Item}

/-- The change adds nothing negative. -/
def Fair : StockChange → Prop
  | add _ count _ => 0 ≤ count
  | remove _ _ => True

/-- A fair change succeeds, and leaves an inventory in order. -/
theorem Fair.exists_change {c : StockChange} (hc : c.Fair) (h : InOrder items) :
    ∃ items', c.change items = .ok items' ∧ InOrder items' ∧
      items'.filter (·.id ≠ c.id) = items.filter (·.id ≠ c.id) := by
  obtain ⟨hmap, hfits⟩ := inOrder_iff.mp h
  have hdoes := c.does_change hmap
  cases hchange : c.change items with
  | error fault =>
    rw [hchange] at hdoes
    cases hdoes with
    | refused _ hcount => exact absurd hc (Int.not_le.mpr hcount)
  | ok items' =>
    have hmap' := hdoes.isMap hmap
    have hothers := hdoes.others
    rw [hchange] at hmap' hothers
    refine ⟨items', rfl, inOrder_iff.mpr ⟨hmap', ?_⟩, hothers⟩
    cases c with
    | add id count name => exact fits_of_add hfits (fun hneg => Int.not_lt.mpr hc hneg) hchange
    | remove id count => exact fits_of_remove hfits hchange

/-- A fair change succeeds in an inventory in order, leaves it in order, and does to the counts what
it stands for. -/
theorem Fair.exists_apply {c : StockChange} {s : GameState} (hc : c.Fair)
    (h : InOrder s.inventory) :
    ∃ items, c.apply s = .ok { s with inventory := items } ∧ InOrder items ∧
      items.filter (·.id ≠ c.id) = s.inventory.filter (·.id ≠ c.id) := by
  obtain ⟨items, hchange, hrest⟩ := hc.exists_change h
  refine ⟨items, ?_, hrest⟩
  rw [apply_eq, hchange]
  rfl

end StockChange

namespace StandardAction

open Inventory

variable {params : Data} {n : Int} {id : String} {s : GameState}

/-- A positive integer count is read as it stands. -/
theorem wholeParam_of_pos (hcount : Fields.find? "count" params = some (.int n)) (hn : 0 < n) :
    wholeParam params "count" 1 = .ok n := by
  have htruthy : (Value.int n).truthy = true := by simp [Value.truthy, hn.ne']
  rw [wholeParam, param, hcount, Option.getD_some, Value.orElse, if_pos htruthy, Value.whole]

/-- With a positive count and an id, an item action succeeds, whatever its operation. -/
theorem exists_performItem (hid : Fields.find? "itemId" params = some (.str id))
    (hcount : Fields.find? "count" params = some (.int n)) (hn : 0 < n)
    (h : InOrder s.inventory) :
    ∃ items, performItem params s = .ok { s with inventory := items } ∧ InOrder items ∧
      items.filter (·.id ≠ id) = s.inventory.filter (·.id ≠ id) := by
  have htext : textParam params "itemId" = id := by
    rw [textParam, hid]
    rfl
  simp only [performItem, wholeParam_of_pos hcount hn, htext]
  split
  · exact StockChange.Fair.exists_apply (c := .add id n none) hn.le h
  · split
    · exact StockChange.Fair.exists_apply (c := .remove id n) trivial h
    · exact ⟨s.inventory, rfl, h, rfl⟩

end StandardAction

namespace Registry

open Inventory

variable {σ : Type} {e : Event} {i : Nat} {a : Action} {id : String}

/-- An item action whose id is a text and of which the review of its event approves succeeds when
the standard actions run it, in any event and whatever its operation. It keeps the inventory in
order, touches only the item of its id, and changes nothing else. -/
theorem approved_item_succeeds (happroved : Review.Approves e i a) (htype : a.type = "item")
    (hid : Fields.find? "itemId" a.params = some (.str id)) (s : Surroundings σ) (event : Event)
    {w : World σ} (d : Data) (h : InOrder w.state.inventory) :
    ∃ items, (standard.dispatch s event a).run (w, d) =
        (some (.ok .success), ({ w with state := { w.state with inventory := items } }, d)) ∧
      InOrder items ∧
      items.filter (·.id ≠ id) = w.state.inventory.filter (·.id ≠ id) := by
  obtain ⟨⟨-, -, hparams⟩, -⟩ := (Review.clean_action _ _ _).mp happroved.2
  obtain ⟨-, n, hcount, hn⟩ : a.Gives "itemId" ∧
      ∃ n, Fields.find? "count" a.params = some (.int n) ∧ 0 < n := by
    simpa only [Action.HasParams, htype] using hparams
  obtain ⟨items, hperform, horder, hothers⟩ := StandardAction.exists_performItem hid hcount hn h
  have hstd : (standard : Registry σ).handler? a.type = some (.standard .item) := by
    rw [htype]
    rfl
  refine ⟨items, ?_, horder, hothers⟩
  rw [run_dispatch_standard hstd, StandardAction.perform, hperform]
  rfl

/-- Takes five potions away. -/
def toll : Action :=
  { Action.passage "toll" [] none with
    type := "item"
    params := [("operation", .str "remove"), ("itemId", .str "potion"), ("count", .int 5)] }

/-- An event that takes a toll. -/
def bridge : Event := { Event.blank with actions := [toll] }

/-- A toll of five potions is approved, and takes the three that there are from an inventory in
order. -/
theorem approved_item_succeeds_toll :
    Review.Approves bridge 0 toll ∧ InOrder GameState.outfitted.inventory ∧
      ∃ items, (standard.dispatch .agreeable Event.blank toll).run
          ({ World.fresh with state := .outfitted }, []) =
        (some (.ok .success), ({ World.fresh with
          state := { GameState.outfitted with inventory := items } }, [])) ∧
        InOrder items := by
  have happroved : Review.Approves bridge 0 toll :=
    (Review.isValid_actions_iff Review.maxActions).mp (by decide) 0 toll rfl
  have horder : InOrder GameState.outfitted.inventory :=
    ⟨by decide, by simp [GameState.outfitted]⟩
  obtain ⟨items, hrun, hitems, -⟩ := approved_item_succeeds happroved rfl rfl .agreeable Event.blank
    (w := { World.fresh with state := .outfitted }) [] horder
  exact ⟨happroved, horder, items, hrun, hitems⟩

end Registry

end MapEvents
