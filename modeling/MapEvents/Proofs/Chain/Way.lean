import MapEvents.Proofs.Chain.Reach
import Mathlib.Data.List.Chain
import Mathlib.Logic.Relation
/-!
# Ways through the graph of actions

An edge leads from an id to another if the first action with the one id points at the other and some
action has it; an empty pointer is no edge. A closed set of ids is never left along edges, and every
id that the exploration finds can be reached from the entry. What can be reached at all can be
reached without meeting an id twice.
-/

namespace MapEvents

/-- The successors of an action are the ids that it points at, but for the empty one. -/
theorem Action.mem_successors_iff {a : Action} {id : String} :
    id ∈ a.successors ↔ a.PointsAt (some id) ∧ id ≠ "" := by
  refine ⟨fun h => ?_, fun h => h.1.mem_successors h.2⟩
  simp only [Action.successors, List.mem_append, List.mem_filter, List.mem_map, Option.mem_toList,
    decide_eq_true_eq] at h
  rcases h with ⟨⟨b, hb, rfl⟩, hid⟩ | ⟨hnext, hid⟩
  · exact ⟨.inr ⟨b, hb, rfl⟩, hid⟩
  · exact ⟨.inl hnext.symm, hid⟩

namespace Chain

variable {actions : List Action}

/-- The first action with the id points at `next`, which is not empty and belongs to an action. -/
def Edge (actions : List Action) (id next : String) : Prop :=
  ∃ a, action? actions id = some a ∧ a.PointsAt (some next) ∧ next ≠ "" ∧
    contains actions next = true

/-- Edges lead from the one id to the other. -/
abbrev Reaches (actions : List Action) : String → String → Prop :=
  Relation.ReflTransGen (Edge actions)

/-- The walk starts with the action of this id. -/
def Starts (actions : List Action) (id : String) : Prop := entry actions = some id ∧ id ≠ ""

/-- An edge leads to a successor that is there. -/
theorem edge_iff {id next : String} :
    Edge actions id next ↔ next ∈ successorsOf actions id ∧ contains actions next = true := by
  constructor
  · rintro ⟨a, ha, hpoints, hne, hcontains⟩
    rw [successorsOf_of_action? ha]
    exact ⟨hpoints.mem_successors hne, hcontains⟩
  · rintro ⟨hnext, hcontains⟩
    cases ha : action? actions id with
    | none => simp [successorsOf, ha] at hnext
    | some a =>
      rw [successorsOf_of_action? ha] at hnext
      obtain ⟨hpoints, hne⟩ := Action.mem_successors_iff.mp hnext
      exact ⟨a, ha, hpoints, hne, hcontains⟩

theorem Starts.contains {id : String} (h : Starts actions id) : contains actions id = true :=
  contains_entry h.1

/-- A closed set of ids is not left along edges. -/
theorem Closed.mem_of_reaches {ids : List String} (h : Closed actions ids) {id t : String}
    (hid : id ∈ ids) (ht : Reaches actions id t) : t ∈ ids := by
  induction ht with
  | refl => exact hid
  | tail _ hedge ih =>
    obtain ⟨hnext, hcontains⟩ := edge_iff.mp hedge
    exact h _ ih _ hnext hcontains

/-! ## What the exploration finds -/

/-- What is found was found before, or can be reached from an id on the stack. -/
theorem reaches_of_mem_explore {stack seen : List String} {id : String}
    (h : id ∈ explore actions stack seen) :
    id ∈ seen ∨ ∃ top ∈ stack, contains actions top = true ∧ Reaches actions top id := by
  fun_induction explore actions stack seen with
  | case1 seen => exact .inl h
  | case2 seen top stack hnew ih =>
    rcases ih h with hseen | ⟨t, ht, hcontains, hreaches⟩
    · rcases List.mem_cons.mp hseen with rfl | hseen
      · exact .inr ⟨id, List.mem_cons_self, hnew.2, .refl⟩
      · exact .inl hseen
    · rw [List.mem_append, List.mem_reverse] at ht
      rcases ht with hsucc | hstack
      · have hedge : Edge actions top t := edge_iff.mpr ⟨hsucc, hcontains⟩
        exact .inr ⟨top, List.mem_cons_self, hnew.2, hreaches.head hedge⟩
      · exact .inr ⟨t, List.mem_cons_of_mem top hstack, hcontains, hreaches⟩
  | case3 seen top stack hold ih =>
    rcases ih h with hseen | ⟨t, ht, hreaches⟩
    · exact .inl hseen
    · exact .inr ⟨t, List.mem_cons_of_mem top ht, hreaches⟩

/-- Every id that is reported as reachable can be reached from the entry. -/
theorem exists_reaches_of_mem_reachable {id : String} (h : id ∈ reachable actions) :
    ∃ start, Starts actions start ∧ Reaches actions start id := by
  unfold reachable at h
  split at h
  · next start hentry =>
    split at h
    · cases h
    · next hstart =>
      rcases reaches_of_mem_explore h with hseen | ⟨t, ht, -, hreaches⟩
      · cases hseen
      · obtain rfl : t = start := List.mem_singleton.mp ht
        exact ⟨t, ⟨hentry, hstart⟩, hreaches⟩
  · cases h

/-! ## Ways without repetition -/

/-- What can be reached can be reached along a way that meets no id twice. -/
theorem exists_simple_way {start id : String} (h : Reaches actions start id) :
    ∃ way, (start :: way).IsChain (Edge actions) ∧ (start :: way).Nodup ∧
      (start :: way).getLast? = some id := by
  induction h using Relation.ReflTransGen.head_induction_on with
  | refl => exact ⟨[], by simp, by simp, rfl⟩
  | @head start next hedge _ ih =>
    obtain ⟨way, hchain, hnodup, hlast⟩ := ih
    by_cases hmem : start ∈ next :: way
    · -- The way comes back to its start: what lies before that is left out.
      obtain ⟨detour, rest, hsplit⟩ := List.append_of_mem hmem
      rw [hsplit] at hchain hnodup hlast
      refine ⟨rest, hchain.right_of_append, (List.nodup_append.mp hnodup).2.1, ?_⟩
      rwa [List.getLast?_append_cons] at hlast
    · refine ⟨next :: way, List.isChain_cons_cons.mpr ⟨hedge, hchain⟩,
        List.nodup_cons.mpr ⟨hmem, hnodup⟩, ?_⟩
      rwa [List.getLast?_cons_cons]

end Chain

end MapEvents
