import Mathlib.Data.String.Basic
import Mathlib.Order.RelClasses
import MapEvents.Condition.Compare
import MapEvents.Proofs.Double.Value
/-!
# The order of compared values

Null, true and false, integers of any size, doubles and texts are compared for equality and for
order. Numbers are compared as rational numbers or infinities, texts by their code points; other
pairs have no order. The places on which the comparison computes are counted in units, so each law
is shown for values and carried over.
-/

namespace MapEvents

/-- What stands on one side of a comparison. -/
abbrev Operand := Option Scalar

namespace Operand

/-- The number that an operand counts as. True is one and false is zero; not-a-number is none. -/
def number? : Operand → Option Line
  | some (.bool b) => some (.of (if b then 1 else 0))
  | some (.int n) => some (.of n)
  | some (.float x) => x.value?
  | some (.str _) => none
  | none => none

/-- Whether the operand counts as a number. -/
def IsNumber (a : Operand) : Prop := ∃ x, a.number? = some x

/-- Whether the operand is a text. -/
def IsText (a : Operand) : Prop := ∃ s, a = some (.str s)

/-- Whether the operand is true or false. -/
def IsBool (a : Operand) : Prop := ∃ b, a = some (.bool b)

/-- Whether the operands have an order: two numbers, or two texts. -/
def Comparable (a b : Operand) : Prop := (a.IsNumber ∧ b.IsNumber) ∨ (a.IsText ∧ b.IsText)

/-- Whether the operands are equal. Numbers are equal by value, but true and false equal only
themselves. -/
inductive Same : Operand → Operand → Prop
  | null : Same none none
  | text (s : String) : Same (some (.str s)) (some (.str s))
  | number {a b : Operand} {x : Line} (ha : a.number? = some x) (hb : b.number? = some x)
      (hkind : a.IsBool ↔ b.IsBool) : Same a b

end Operand

namespace Operator

/-- The laws of a comparison. -/
structure Lawful (holds : Operand → Operand → Operator → Bool) : Prop where
  unequal : ∀ a b, holds a b .unequal = !holds a b .equal
  equal : ∀ a b, holds a b .equal = true ↔ a.Same b
  /-- Numbers are ordered by their exact values. -/
  less_numbers : ∀ {a b : Operand} {x y : Line}, a.number? = some x → b.number? = some y →
    (holds a b .less = true ↔ x < y)
  /-- Texts are ordered by code points. -/
  less_texts : ∀ s t, holds (some (.str s)) (some (.str t)) .less = true ↔ s < t
  weak_numbers : IsStrictWeakOrder {a : Operand // a.IsNumber} fun a b => holds a b .less = true
  weak_texts : IsStrictWeakOrder {a : Operand // a.IsText} fun a b => holds a b .less = true
  greater : ∀ a b, holds a b .greater = holds b a .less
  atMost : ∀ {a b : Operand}, a.Comparable b → holds a b .atMost = !holds a b .greater
  atLeast : ∀ {a b : Operand}, a.Comparable b → holds a b .atLeast = !holds a b .less
  unordered : ∀ {a b : Operand}, ¬a.Comparable b →
    ∀ op ∈ [Operator.less, .greater, .atMost, .atLeast], holds a b op = false
  /-- Exactly one of three comparisons holds where true and false do not meet another kind. -/
  trichotomy : ∀ {a b : Operand}, a.Comparable b → (a.IsBool ↔ b.IsBool) →
    ∃! op, op ∈ [Operator.less, .equal, .greater] ∧ holds a b op = true

end Operator

namespace Operand

@[simp] theorem isBool_some (a : Scalar) : IsBool (some a) ↔ ∃ b, a = .bool b := by
  simp only [IsBool, Option.some.injEq]

/-- The number is the value of the place on which the comparison computes. -/
theorem number?_some (a : Scalar) : number? (some a) = a.extent?.map Extent.value := by
  cases a with
  | bool b => cases b <;> simp [number?, Scalar.extent?, Extent.value_ofInt]
  | int n => simp [number?, Scalar.extent?, Extent.value_ofInt]
  | float x => exact Double.value?_eq x
  | str s => rfl

/-- The number of a scalar is the place of its extent on the line. -/
theorem number?_of_extent? {a : Scalar} {e : Extent} (h : a.extent? = some e) :
    number? (some a) = some e.value := by
  rw [number?_some, h, Option.map_some]

/-- An operand has a number exactly if it is a scalar with an extent at that place. -/
theorem number?_eq_some_iff {a : Operand} {x : Line} :
    a.number? = some x ↔ ∃ s e, a = some s ∧ s.extent? = some e ∧ e.value = x := by
  cases a with
  | none => simp [number?]
  | some s => simp [number?_some]

/-- Numbers that are both or neither true or false are equal by value. -/
theorem same_numbers_iff {a b : Operand} {x y : Line} (ha : a.number? = some x)
    (hb : b.number? = some y) (hkind : a.IsBool ↔ b.IsBool) : a.Same b ↔ x = y := by
  constructor
  · intro h
    cases h with
    | null => cases ha
    | text s => cases ha
    | number ha' hb' _ => exact Option.some.inj ((ha.symm.trans ha').trans (hb'.symm.trans hb))
  · rintro rfl
    exact .number ha hb hkind

theorem Comparable.symm {a b : Operand} (h : a.Comparable b) : b.Comparable a :=
  h.imp And.symm And.symm

end Operand

namespace Scalar

open Operand

/-- True and false stand at different places. -/
theorem ofInt_ite_inj (a b : Bool) :
    Extent.ofInt (if a then 1 else 0) = Extent.ofInt (if b then 1 else 0) ↔ a = b := by
  rw [← Extent.value_inj, Extent.value_ofInt, Extent.value_ofInt]
  cases a <;> cases b <;> simp

/-- Equal values stand at the same place and agree in whether they are true or false, or they are
the same text. -/
theorem equals_iff (a b : Scalar) : a.equals b = true ↔
    (∃ e, a.extent? = some e ∧ b.extent? = some e ∧ (IsBool (some a) ↔ IsBool (some b))) ∨
      ∃ s, a = .str s ∧ b = .str s := by
  simp only [isBool_some]
  fun_cases equals a b with
  | case1 a b => simpa [extent?, eq_comm] using (ofInt_ite_inj a b).symm
  | case2 a b hb => grind
  | case3 a b ha => grind
  | case4 s t => grind [extent?]
  | case5 a b hbools ha hb htexts e f he hf => grind
  | case6 a b hbools ha hb htexts hnone => grind

/-- Values with an order both stand at places, or both are texts. -/
theorem less?_eq_some_iff (a b : Scalar) (r : Bool) : a.less? b = some r ↔
    (∃ e f, a.extent? = some e ∧ b.extent? = some f ∧ e.lt f = r) ∨
      ∃ s t, a = .str s ∧ b = .str t ∧ decide (s < t) = r := by
  fun_cases less? a b with
  | case1 s t => grind [extent?]
  | case2 a b htexts e f he hf => grind
  | case3 a b htexts hnone => grind

end Scalar

namespace Operator

open Operand

/-- Operands with numbers are compared by the places of these numbers. -/
theorem less?_numbers {a b : Operand} {x y : Line} (ha : a.number? = some x)
    (hb : b.number? = some y) : ∃ r, less? a b = some r ∧ (r = true ↔ x < y) := by
  obtain ⟨s, e, rfl, he, rfl⟩ := number?_eq_some_iff.mp ha
  obtain ⟨t, f, rfl, hf, rfl⟩ := number?_eq_some_iff.mp hb
  exact ⟨e.lt f, (s.less?_eq_some_iff t _).mpr (.inl ⟨e, f, he, hf, rfl⟩), Extent.lt_iff e f⟩

theorem less?_texts (s t : String) :
    less? (some (.str s)) (some (.str t)) = some (decide (s < t)) := rfl

/-- A pair without order is not compared at all. -/
theorem less?_eq_none {a b : Operand} (h : ¬a.Comparable b) : less? a b = none := by
  cases hless : less? a b with
  | none => rfl
  | some r =>
    refine absurd ?_ h
    cases a with
    | none => cases hless
    | some s =>
      cases b with
      | none => cases hless
      | some t =>
        obtain ⟨e, f, he, hf, _⟩ | ⟨u, v, rfl, rfl, _⟩ := (s.less?_eq_some_iff t r).mp hless
        · exact .inl ⟨⟨e.value, number?_of_extent? he⟩, ⟨f.value, number?_of_extent? hf⟩⟩
        · exact .inr ⟨⟨u, rfl⟩, ⟨v, rfl⟩⟩

/-- Comparable operands are compared. -/
theorem exists_less? {a b : Operand} (h : a.Comparable b) : ∃ r, less? a b = some r := by
  obtain ⟨⟨x, ha⟩, ⟨y, hb⟩⟩ | ⟨⟨s, rfl⟩, ⟨t, rfl⟩⟩ := h
  · obtain ⟨r, hr, _⟩ := less?_numbers ha hb
    exact ⟨r, hr⟩
  · exact ⟨_, less?_texts s t⟩

/-- Of two operands with numbers one is less if its number is. -/
theorem holds_less_numbers {a b : Operand} {x y : Line} (ha : a.number? = some x)
    (hb : b.number? = some y) : less.holds a b = true ↔ x < y := by
  obtain ⟨r, hr, hlt⟩ := less?_numbers ha hb
  rw [holds, hr, Option.getD_some, hlt]

theorem holds_less_texts (s t : String) :
    less.holds (some (.str s)) (some (.str t)) = true ↔ s < t := by
  rw [holds, less?_texts, Option.getD_some, decide_eq_true_iff]

/-- Equality of operands is sameness: of one kind with one value, numbers by value, or both null. -/
theorem equalOrNull_iff (a b : Operand) : equalOrNull a b = true ↔ a.Same b := by
  constructor
  · intro h
    cases a with
    | none =>
      cases b with
      | none => exact .null
      | some t => cases h
    | some s =>
      cases b with
      | none => cases h
      | some t =>
        obtain ⟨e, he, hf, hkind⟩ | ⟨u, rfl, rfl⟩ := (s.equals_iff t).mp h
        · exact .number (number?_of_extent? he) (number?_of_extent? hf) hkind
        · exact .text u
  · intro h
    cases h with
    | null => rfl
    | text s => exact decide_eq_true rfl
    | number ha hb hkind =>
      obtain ⟨s, e, rfl, he, rfl⟩ := number?_eq_some_iff.mp ha
      obtain ⟨t, f, rfl, hf, hvalue⟩ := number?_eq_some_iff.mp hb
      rw [Extent.value_inj] at hvalue
      exact (s.equals_iff t).mpr (.inl ⟨e, he, hvalue ▸ hf, hkind⟩)

/-- A relation that compares places in a linear order is a strict weak order. -/
theorem isStrictWeakOrder_of_places {α β : Type*} [LinearOrder β] {r : α → α → Prop}
    (place : α → β → Prop) (hplace : ∀ a, ∃ x, place a x)
    (h : ∀ {a b x y}, place a x → place b y → (r a b ↔ x < y)) : IsStrictWeakOrder α r := by
  -- Whatever places are chosen, the relation is the order of them.
  choose key hkey using hplace
  have hr : r = Function.onFun (· < ·) key := by
    funext a b
    exact propext (h (hkey a) (hkey b))
  have hplaces : IsStrictWeakOrder β (· < ·) := isStrictWeakOrder_of_isOrderConnected
  rw [hr]
  infer_instance

/-- Exactly one of three comparisons holds where operands are compared by places in a linear
order. -/
theorem existsUnique_of_places {β : Type*} [LinearOrder β] {a b : Operand} {x y : β}
    (hless : less.holds a b = true ↔ x < y) (hequal : equal.holds a b = true ↔ x = y)
    (hgreater : greater.holds a b = true ↔ y < x) :
    ∃! op, op ∈ [less, equal, greater] ∧ holds a b op = true := by
  have honly {op : Operator} (hop : op ∈ [less, equal, greater]) (hholds : holds a b op = true) :
      x < y ∧ op = less ∨ x = y ∧ op = equal ∨ y < x ∧ op = greater := by
    simp only [List.mem_cons, List.not_mem_nil, or_false] at hop
    obtain rfl | rfl | rfl := hop
    · exact .inl ⟨hless.mp hholds, rfl⟩
    · exact .inr (.inl ⟨hequal.mp hholds, rfl⟩)
    · exact .inr (.inr ⟨hgreater.mp hholds, rfl⟩)
  rcases lt_trichotomy x y with h | h | h
  · exact ⟨less, ⟨by simp, hless.mpr h⟩, fun op ⟨hop, hholds⟩ => by grind⟩
  · exact ⟨equal, ⟨by simp, hequal.mpr h⟩, fun op ⟨hop, hholds⟩ => by grind⟩
  · exact ⟨greater, ⟨by simp, hgreater.mpr h⟩, fun op ⟨hop, hholds⟩ => by grind⟩

/-- The comparison is lawful. -/
theorem lawful_holds : Lawful holds where
  unequal _ _ := rfl
  equal := equalOrNull_iff
  less_numbers := holds_less_numbers
  less_texts := holds_less_texts
  weak_numbers :=
    isStrictWeakOrder_of_places (fun a x => a.1.number? = some x) (fun a => a.2) holds_less_numbers
  weak_texts := by
    refine isStrictWeakOrder_of_places (fun a s => a.1 = some (.str s)) (fun a => a.2) ?_
    intro a b s t ha hb
    rw [ha, hb]
    exact holds_less_texts s t
  greater _ _ := rfl
  atMost h := by
    obtain ⟨r, hr⟩ := exists_less? h.symm
    simp [holds, hr]
  atLeast h := by
    obtain ⟨r, hr⟩ := exists_less? h
    simp [holds, hr]
  unordered h := by
    have hback := less?_eq_none fun hback => h hback.symm
    simp [holds, less?_eq_none h, hback]
  trichotomy h hkind := by
    obtain ⟨⟨x, ha⟩, ⟨y, hb⟩⟩ | ⟨⟨s, rfl⟩, ⟨t, rfl⟩⟩ := h
    · refine existsUnique_of_places (holds_less_numbers ha hb) ?_ (holds_less_numbers hb ha)
      exact (equalOrNull_iff _ _).trans (same_numbers_iff ha hb hkind)
    · refine existsUnique_of_places (holds_less_texts s t) ?_ (holds_less_texts t s)
      exact decide_eq_true_iff

/-- The double and the integer differ by one, and the integer is no double. -/
example : less.holds (some (.float (.ofInt 9007199254740992))) (some (.int 9007199254740993)) =
    true := by
  decide +kernel

end Operator

end MapEvents
