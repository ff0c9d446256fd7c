import MapEvents.Proofs.Chain.Loop
import Mathlib.Order.Bounds.Basic
/-!
# What counts as reachable

The ids that are reported as reachable are the least set that holds the entry and is never left
along edges: every id in it can be reached, and no id that can be reached is missing. The
exploration may put an id on its stack many times, but finds it once.

A pointer without a name is no edge. An action that has no name either is therefore not reported,
though a pointer and its id agree.
-/

namespace MapEvents.Chain

variable {actions : List Action}

/-! ## The exploration and the edges -/

theorem nodup_explore {stack seen : List String} (h : seen.Nodup) :
    (explore actions stack seen).Nodup := by
  fun_induction explore actions stack seen with
  | case1 seen => exact h
  | case2 seen top stack hnew ih => exact ih (List.nodup_cons.mpr ⟨hnew.1, h⟩)
  | case3 seen top stack hold ih => exact ih h

/-- No id is listed twice as reachable. -/
theorem nodup_reachable (actions : List Action) : (reachable actions).Nodup := by
  unfold reachable
  split
  · split
    · exact List.nodup_nil
    · exact nodup_explore List.nodup_nil
  · exact List.nodup_nil

/-- The entry is reported, if it has a name. -/
theorem Starts.mem_reachable {start : String} (h : Starts actions start) :
    start ∈ reachable actions :=
  entry_leadsInto_reachable actions start h.1 h.2 h.contains

/-- Reported are the ids that edges lead to from the entry. -/
theorem mem_reachable_iff {id : String} :
    id ∈ reachable actions ↔ ∃ start, Starts actions start ∧ Reaches actions start id := by
  refine ⟨exists_reaches_of_mem_reachable, ?_⟩
  rintro ⟨start, hstart, hreaches⟩
  exact (reachable_closed actions).mem_of_reaches hstart.mem_reachable hreaches

/-! ## The least set -/

/-- The set holds the entry, if that has a name, and no edge leaves it. -/
structure Encloses (actions : List Action) (ids : Set String) : Prop where
  entry : ∀ start, Starts actions start → start ∈ ids
  edges : ∀ id ∈ ids, ∀ next, Edge actions id next → next ∈ ids

/-- What edges lead to from the entry lies in every such set. -/
theorem Encloses.mem_of_reaches {ids : Set String} (h : Encloses actions ids) {start id : String}
    (hstart : Starts actions start) (hreaches : Reaches actions start id) : id ∈ ids := by
  induction hreaches with
  | refl => exact h.entry start hstart
  | tail _ hedge ih => exact h.edges _ ih _ hedge

/-- The reachable ids hold the entry and are closed under the edges. -/
theorem encloses_reachable (actions : List Action) :
    Encloses actions {id | id ∈ reachable actions} := by
  refine ⟨fun start hstart => hstart.mem_reachable, fun id hid next hedge => ?_⟩
  obtain ⟨start, hstart, hreaches⟩ := mem_reachable_iff.mp hid
  exact mem_reachable_iff.mpr ⟨start, hstart, hreaches.tail hedge⟩

/-- The exploration ends for every list of actions, and reports exactly the least set that holds the
entry, if that has a name, and with each id what the first action with this id points at, as far as
it has a name and there is an action with it. It reports no id twice. -/
theorem reachable_isLeast (actions : List Action) :
    IsLeast {ids : Set String | Encloses actions ids} {id | id ∈ reachable actions} ∧
      (reachable actions).Nodup := by
  refine ⟨⟨encloses_reachable actions, fun ids hids id hid => ?_⟩, nodup_reachable actions⟩
  obtain ⟨start, hstart, hreaches⟩ := mem_reachable_iff.mp hid
  exact hids.mem_of_reaches hstart hreaches

/-- If pointers without a name counted as edges, the reported ids would not be the least set: an
action without a name would have to be among them. -/
theorem unnamed_target_goes_unreported :
    ¬IsLeast {ids : Set String | (∀ start, Starts halfNamed start → start ∈ ids) ∧
        ∀ id ∈ ids, ∀ a, action? halfNamed id = some a → ∀ next, a.PointsAt (some next) →
          contains halfNamed next = true → next ∈ ids}
      {id | id ∈ reachable halfNamed} := by
  have hreported : reachable halfNamed = ["there"] := by cbv
  rw [hreported]
  rintro ⟨⟨-, hclosed⟩, -⟩
  have hunnamed : "" ∈ ["there"] :=
    hclosed "there" List.mem_cons_self _ rfl "" (.inl rfl) (by decide)
  exact absurd hunnamed (by decide)

end MapEvents.Chain
