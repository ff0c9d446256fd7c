import Mathlib.Data.List.TakeWhile
import MapEvents.Text.Blank
/-!
# Trimmed text

Trimming takes everything if all is blank, and otherwise stops at both sides before a character that
is not. A text that has no blank at its ends is left as it is, so that trimming by fewer blanks
after trimming by more changes nothing.
-/

namespace MapEvents.Blank

/-- Something is left of the text when blanks are trimmed. -/
def Filled (s : String) : Prop := trim isSpace s.toList ≠ []

/-- Nothing is left of a text exactly if all of it is blank. -/
theorem trim_eq_nil_iff {blank : Char → Bool} {cs : List Char} :
    trim blank cs = [] ↔ ∀ c ∈ cs, blank c = true := by
  rw [trim, List.reverse_eq_nil_iff, List.dropWhile_eq_nil_iff]
  constructor
  · intro h
    rw [← List.dropWhile_eq_nil_iff]
    -- What is dropped from the left stops at a character that is no blank.
    by_contra hne
    have hhead := List.head_dropWhile_not blank hne
    rw [h _ (List.mem_reverse.mpr (List.head_mem hne))] at hhead
    exact absurd hhead (by simp)
  · intro h c hc
    exact h c ((List.dropWhile_sublist blank).subset (List.mem_reverse.mp hc))

/-- A text is not blank exactly if it is filled. -/
theorem isBlank_eq_false_iff {s : String} : isBlank s = false ↔ Filled s := by
  rw [Filled, Ne, trim_eq_nil_iff, ← Bool.not_eq_true, isBlank, List.all_eq_true]

/-- Neither the first character nor the last is a blank. -/
structure Trimmed (blank : Char → Bool) (cs : List Char) : Prop where
  head : ∀ c, cs.head? = some c → blank c = false
  last : ∀ c, cs.getLast? = some c → blank c = false

/-- A text without certain characters at its ends is without fewer of them. -/
theorem Trimmed.mono {more fewer : Char → Bool} {cs : List Char} (h : Trimmed more cs)
    (hle : ∀ c, fewer c = true → more c = true) : Trimmed fewer cs := by
  have hnot : ∀ c, more c = false → fewer c = false := fun c hc =>
    Bool.eq_false_iff.mpr fun hfewer => Bool.eq_false_iff.mp hc (hle c hfewer)
  exact ⟨fun c hc => hnot c (h.head c hc), fun c hc => hnot c (h.last c hc)⟩

theorem dropWhile_eq_self {blank : Char → Bool} {cs : List Char}
    (h : ∀ c, cs.head? = some c → blank c = false) : cs.dropWhile blank = cs := by
  cases cs with
  | nil => rfl
  | cons c rest => exact List.dropWhile_cons_of_neg (by simp [h c rfl])

theorem head?_dropWhile {blank : Char → Bool} {cs : List Char} {c : Char}
    (h : (cs.dropWhile blank).head? = some c) : blank c = false := by
  have hnot := List.head?_dropWhile_not blank cs
  rwa [h] at hnot

theorem trim_eq_self {blank : Char → Bool} {cs : List Char} (h : Trimmed blank cs) :
    trim blank cs = cs := by
  rw [trim, dropWhile_eq_self h.head, dropWhile_eq_self, List.reverse_reverse]
  intro c hc
  rw [List.head?_reverse] at hc
  exact h.last c hc

/-- Trimming gives a trimmed text. -/
theorem trimmed_trim (blank : Char → Bool) (cs : List Char) : Trimmed blank (trim blank cs) := by
  constructor
  · intro c hc
    -- What is dropped from the right leaves the first character, if it leaves any.
    have hsplit : trim blank cs ++ ((cs.dropWhile blank).reverse.takeWhile blank).reverse =
        cs.dropWhile blank := by
      rw [trim, ← List.reverse_append, List.takeWhile_append_dropWhile, List.reverse_reverse]
    have hhead : (cs.dropWhile blank).head? = some c := by
      rw [← hsplit, List.head?_append, hc, Option.some_or]
    exact head?_dropWhile hhead
  · intro c hc
    rw [trim, List.getLast?_reverse] at hc
    exact head?_dropWhile hc

/-- White characters are spaces. -/
theorem isSpace_of_isWhite (c : Char) (h : isWhite c = true) : isSpace c = true := by
  rw [isSpace, h, Bool.true_or]

/-- What is trimmed in the wide sense has no white space at its ends. -/
theorem trim_trim (cs : List Char) : trim isWhite (trim isSpace cs) = trim isSpace cs :=
  trim_eq_self ((trimmed_trim isSpace cs).mono isSpace_of_isWhite)

end MapEvents.Blank
