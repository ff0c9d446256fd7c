import Mathlib.Algebra.BigOperators.Group.List.Basic
import Mathlib.Algebra.Ring.Int.Defs
import MapEvents.Action.Standard
import MapEvents.Proofs.Double.Value
import MapEvents.Proofs.Fields
/-!
# Flags that count

A flag counts if it is raised by integers only, with true and false in their places. Where it starts
depends on what it holds: a flag that is absent or counts as false starts at zero, whatever its
kind, and true starts at one. The first delta makes an integer of it. From then on a total of zero
counts as false again, and so it is replaced by zero before the next delta is added, which changes
nothing. Hence only the sum of the deltas matters, and not their order.

Other values may be refused: a text cannot be raised, nor by one, and a list cannot be set. The new
value is worked out before it is stored, so that a refused call leaves the state as it was.
-/

namespace MapEvents

/-- What a counting flag is raised by: an integer, or true or false in its place. -/
inductive Delta where
  | whole (n : Int)
  | switch (b : Bool)
  deriving DecidableEq

namespace Delta

/-- The delta as a free-form value. -/
def toValue : Delta → Value
  | whole n => .int n
  | switch b => .bool b

/-- By how much the flag is raised. -/
def amount : Delta → Int
  | whole n => n
  | switch b => if b then 1 else 0

theorem ofValue_toValue (d : Delta) : Number.ofValue d.toValue = .ok (.whole d.amount) := by
  cases d <;> rfl

end Delta

namespace Flags

/-- Where a flag starts to count, by what it holds. -/
inductive StartsAt : Option Scalar → Int → Prop where
  /-- The flag is absent or null. -/
  | absent : StartsAt none 0
  | off : StartsAt (some (.bool false)) 0
  | on : StartsAt (some (.bool true)) 1
  | whole (n : Int) : StartsAt (some (.int n)) n
  /-- The flag holds a double that is zero, of either sign. -/
  | zero {x : Double} (h : x.value? = some (.of 0)) : StartsAt (some (.float x)) 0
  | empty : StartsAt (some (.str "")) 0

variable {held : Option Scalar} {n : Int}

/-- A flag that starts at a number is raised from there. -/
theorem StartsAt.base_eq (h : StartsAt held n) (key : String) : base key held = .ok (.whole n) := by
  cases h with
  | absent => rfl
  | off => rfl
  | on => rfl
  | whole n =>
    by_cases hn : n = 0
    · rw [hn]
      rfl
    · simp [base, Scalar.truthy, hn]
  | zero hx => simp [base, Scalar.truthy, (Double.isZero_iff _).mpr hx]
  | empty => rfl

/-- The first delta makes an integer of the flag. -/
theorem StartsAt.raised_eq (h : StartsAt held n) (key : String) (d : Delta) :
    raised key held d.toValue = .ok (.int (n + d.amount)) := by
  rw [raised, h.base_eq key, d.ofValue_toValue]
  rfl

end Flags

namespace GameState

/-- The state with this total in a flag. -/
def withTotal (s : GameState) (key : String) (total : Int) : GameState :=
  { s with flags := Fields.insert key (some (.int total)) s.flags }

/-- Raises a flag by one delta after the other. -/
def raiseAll (s : GameState) (key : String) (deltas : List Delta) : Except Fault GameState :=
  deltas.foldlM (fun s d => s.raiseFlag key d.toValue) s

variable {s : GameState} {key : String} {n : Int}

@[simp] theorem flag?_withTotal (s : GameState) (key : String) (total : Int) :
    (s.withTotal key total).flag? key = some (.int total) := by
  rw [flag?, withTotal, Fields.find?_insert_self]
  rfl

@[simp] theorem withTotal_withTotal (s : GameState) (key : String) (m n : Int) :
    (s.withTotal key m).withTotal key n = s.withTotal key n := by
  simp only [withTotal, Fields.insert_insert]

/-- Raising a flag adds the amount of the delta to what it starts at. -/
theorem raiseFlag_eq (h : Flags.StartsAt (s.flag? key) n) (d : Delta) :
    s.raiseFlag key d.toValue = .ok (s.withTotal key (n + d.amount)) := by
  rw [raiseFlag, h.raised_eq key d]
  rfl

/-- Raising by several deltas goes on from what the first one leaves. -/
theorem raiseAll_cons (h : Flags.StartsAt (s.flag? key) n) (d : Delta) (rest : List Delta) :
    s.raiseAll key (d :: rest) = (s.withTotal key (n + d.amount)).raiseAll key rest := by
  rw [raiseAll, List.foldlM_cons, raiseFlag_eq h d]
  rfl

/-- A flag that holds an integer is raised by the sum, wherever the running total passes. -/
theorem raiseAll_withTotal (s : GameState) (key : String) (n : Int) (deltas : List Delta) :
    (s.withTotal key n).raiseAll key deltas =
      .ok (s.withTotal key (n + (deltas.map Delta.amount).sum)) := by
  induction deltas generalizing n with
  | nil =>
    rw [List.map_nil, List.sum_nil, Int.add_zero]
    rfl
  | cons d rest ih =>
    have hstart : Flags.StartsAt ((s.withTotal key n).flag? key) n := by
      rw [flag?_withTotal]
      exact .whole n
    rw [raiseAll_cons hstart, withTotal_withTotal, ih, List.map_cons, List.sum_cons, Int.add_assoc]

/-- A run of at least one delta leaves where the flag started and their sum. -/
theorem raiseAll_eq (h : Flags.StartsAt (s.flag? key) n) {deltas : List Delta}
    (hne : deltas ≠ []) :
    s.raiseAll key deltas = .ok (s.withTotal key (n + (deltas.map Delta.amount).sum)) := by
  obtain ⟨d, rest, rfl⟩ := List.exists_cons_of_ne_nil hne
  rw [raiseAll_cons h, raiseAll_withTotal, List.map_cons, List.sum_cons, Int.add_assoc]

end GameState

/-! ## Refused calls -/

/-- A call that sets a flag or raises it, by any value. -/
inductive FlagCall where
  | set (key : String) (value : Value)
  | raise (key : String) (amount : Value)

namespace FlagCall

/-- Makes the call in a state. -/
def apply (s : GameState) : FlagCall → Except Fault GameState
  | set key value => s.setFlag key value
  | raise key amount => s.raiseFlag key amount

/-- Parameters of the flag action that makes the call. -/
def params : FlagCall → Data
  | set key value => [("operation", .str "set"), ("key", .str key), ("value", value)]
  | raise key amount => [("operation", .str "add"), ("key", .str key), ("value", amount)]

/-- The handler of a flag action does what its parameters stand for. -/
theorem performFlag_params (c : FlagCall) (s : GameState) :
    StandardAction.performFlag c.params s = c.apply s := by
  cases c <;> rfl

/-- A refused call leaves the state as it was. -/
theorem perform_of_fault {c : FlagCall} {s : GameState} {fault : Fault}
    (h : c.apply s = .error fault) :
    StandardAction.flag.perform c.params s = (s, .error fault) := by
  rw [StandardAction.perform, performFlag_params, h, StandardAction.changing]

end FlagCall

namespace GameState

/-- Deltas add up: in whatever order a flag that counts is raised by them, no call is refused, and
the flag is left at an integer, where it started and the sum of the deltas, with every other flag
and the rest of the state as they were. And whatever a flag holds, a call that sets or raises it and
is refused changes nothing. -/
theorem deltas_add_up (s : GameState) :
    (∀ (key : String) (start : Int) (deltas : List Delta),
      Flags.StartsAt (s.flag? key) start → deltas ≠ [] →
        ∃ after, (∀ order, order.Perm deltas → s.raiseAll key order = .ok after) ∧
          after.flag? key = some (.int (start + (deltas.map Delta.amount).sum)) ∧
          (∀ other, other ≠ key → Fields.find? other after.flags = Fields.find? other s.flags) ∧
          after = { s with flags := after.flags }) ∧
      ∀ (c : FlagCall) (fault : Fault), c.apply s = .error fault →
        StandardAction.flag.perform c.params s = (s, .error fault) := by
  refine ⟨fun key start deltas hstart hne => ?_, fun c fault h => c.perform_of_fault h⟩
  refine ⟨s.withTotal key (start + (deltas.map Delta.amount).sum), fun order horder => ?_,
    flag?_withTotal s key _, fun other hother => ?_, rfl⟩
  · have hsum : (order.map Delta.amount).sum = (deltas.map Delta.amount).sum :=
      (horder.map Delta.amount).sum_eq
    have horderne : order ≠ [] := fun hnil => hne (List.nil_perm.mp (hnil ▸ horder))
    rw [raiseAll_eq hstart horderne, hsum]
  · exact Fields.find?_insert_other hother.symm _ s.flags

/-- A game with a switch that is on, and a name. -/
def named : GameState :=
  { initial with flags := [("name", some (.str "hero")), ("switch", some (.bool true))] }

/-- The total passes zero on its way, or not, as the order has it; the name cannot be raised. -/
theorem deltas_add_up_named :
    Flags.StartsAt (named.flag? "switch") 1 ∧
      (∃ after, named.raiseAll "switch" [.whole (-1), .switch true, .whole 7] = .ok after ∧
        named.raiseAll "switch" [.whole 7, .whole (-1), .switch true] = .ok after ∧
        after.flags = [("name", some (.str "hero")), ("switch", some (.int 8))]) ∧
      named.raiseFlag "name" (.int 1) = .error (.textFlag "name") ∧
      StandardAction.flag.perform (FlagCall.raise "name" (.int 1)).params named =
        (named, .error (.textFlag "name")) := by
  have hstart : Flags.StartsAt (named.flag? "switch") 1 := .on
  have hrefused : named.raiseFlag "name" (.int 1) = .error (.textFlag "name") := rfl
  obtain ⟨hcounts, hkeeps⟩ := deltas_add_up named
  obtain ⟨after, hall, -, -, -⟩ :=
    hcounts "switch" 1 [.whole (-1), .switch true, .whole 7] hstart (by simp)
  have hsum : named.raiseAll "switch" [.whole (-1), .switch true, .whole 7] = .ok after :=
    hall _ (by decide)
  have hother : named.raiseAll "switch" [.whole 7, .whole (-1), .switch true] = .ok after :=
    hall _ (by decide)
  refine ⟨hstart, ⟨after, hsum, hother, ?_⟩, hrefused, hkeeps (.raise "name" (.int 1)) _ hrefused⟩
  rw [raiseAll_eq hstart (by simp)] at hsum
  cases hsum
  rfl

end GameState

end MapEvents
