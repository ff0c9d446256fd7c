import MapEvents.Proofs.Text.Blank
import MapEvents.Text.NumberText
/-!
# Texts that spell not-a-number

A decimal numeral, however long, stands for a finite double or an infinity. So a text is read as
not-a-number only if it spells it: the word `nan` in letters of either case, with or without a sign,
and nothing else but white space around. No digit and no underscore can stand in such a text, so
nothing of it is changed before it is read.
-/

namespace MapEvents

/-! ## Digits of other scripts -/

namespace DecimalDigit

theorem le_of_value?_eq_some {c : Char} {n : Nat} (h : value? c = some n) : n ≤ 9 := by
  obtain ⟨z, hz, rfl⟩ := Option.map_eq_some_iff.mp h
  have hrange := List.find?_some hz
  simp only [Bool.and_eq_true, decide_eq_true_eq] at hrange
  omega

/-- A character that is changed becomes a digit. -/
theorem toAscii_eq_or_isDigit (c : Char) :
    toAscii c = c ∨ Digits.isDigit (toAscii c) = true := by
  have hdigits : ∀ n < 10, Digits.isDigit (Char.ofNat (48 + n)) = true := by decide
  rw [toAscii]
  split
  · next n hn => exact .inr (hdigits n (Nat.lt_succ_of_le (le_of_value?_eq_some hn)))
  · exact .inl rfl

end DecimalDigit

/-! ## Separators -/

namespace Digits

variable {inner : Char → Bool} {cs ds : List Char}

/-- Separators stand only between characters that are kept. -/
theorem eq_of_dropSeparators (h : dropSeparators inner cs = some ds)
    (hds : ∀ c ∈ ds, inner c = false) : ds = cs := by
  fun_induction dropSeparators inner cs generalizing ds with
  | case1 => exact (Option.some.inj h).symm
  | case2 => cases h
  | case3 c d rest _ hinner ih =>
    obtain ⟨es, -, rfl⟩ := Option.map_eq_some_iff.mp h
    rw [Bool.and_eq_true, hds c List.mem_cons_self] at hinner
    exact absurd hinner.1 Bool.false_ne_true
  | case4 => cases h
  | case5 c rest _ _ ih =>
    obtain ⟨es, hes, rfl⟩ := Option.map_eq_some_iff.mp h
    rw [ih hes fun d hd => hds d (List.mem_cons_of_mem c hd)]

/-- A text without separators loses none. -/
theorem dropSeparators_eq_self (h : '_' ∉ cs) : dropSeparators inner cs = some cs := by
  fun_induction dropSeparators inner cs with
  | case1 => rfl
  | case2 => simp at h
  | case3 => simp at h
  | case4 => simp at h
  | case5 c rest _ _ ih => rw [ih fun hmem => h (List.mem_cons_of_mem c hmem)]; rfl

/-- What stands before the rest is a sign or nothing. -/
theorem splitSign_eq (cs : List Char) :
    ∃ sign ∈ [[], ['+'], ['-']], cs = sign ++ (splitSign cs).2 := by
  unfold splitSign
  split
  · exact ⟨['-'], by simp, rfl⟩
  · exact ⟨['+'], by simp, rfl⟩
  · exact ⟨[], by simp, rfl⟩

end Digits

/-! ## Numerals -/

namespace Numeral

/-- A rounded number is a number. -/
theorem ofCode_ne_nan (negative : Bool) (code : Nat) : Double.ofCode negative code ≠ .nan := by
  unfold Double.ofCode
  split <;> simp

/-- What decimal digits stand for is a number. -/
theorem Decimal.toDouble_ne_nan (d : Decimal) : d.toDouble ≠ .nan := by
  unfold toDouble Double.ofRatio
  split_ifs
  all_goals first | exact ofCode_ne_nan _ _ | simp

/-- The word `nan` in letters of either case, with or without a sign. -/
def SpellsNan (cs : List Char) : Prop :=
  ∃ sign word, cs = sign ++ word ∧ sign ∈ [[], ['+'], ['-']] ∧
    word.map Char.toLower = ['n', 'a', 'n']

theorem SpellsNan.ne_nil {cs : List Char} (h : SpellsNan cs) : cs ≠ [] := by
  obtain ⟨sign, word, rfl, -, hword⟩ := h
  intro hnil
  rw [(List.append_eq_nil_iff.mp hnil).2] at hword
  cases hword

/-- A letter is what its lower case is, or the upper case of that. -/
theorem eq_or_eq_of_toLower_eq {c low up : Char} (h : c.toLower = low)
    (hup : up.val + ('a'.val - 'A'.val) = low.val) : c = low ∨ c = up := by
  unfold Char.toLower at h
  split at h
  · have hval := congrArg Char.val h
    exact .inr (Char.ext ((UInt32.add_left_inj _).mp (hval.trans hup.symm)))
  · exact .inl h

/-- The characters that can stand in a text that spells not-a-number. -/
def nanChars : List Char := ['+', '-', 'n', 'N', 'a', 'A']

/-- Texts that spell not-a-number are made of its letters in either case, and a sign. -/
theorem SpellsNan.mem_nanChars {cs : List Char} (h : SpellsNan cs) : ∀ c ∈ cs, c ∈ nanChars := by
  obtain ⟨sign, word, rfl, hsign, hword⟩ := h
  intro c hc
  rcases List.mem_append.mp hc with hc | hc
  · simp only [List.mem_cons, List.not_mem_nil, or_false] at hsign
    rcases hsign with rfl | rfl | rfl <;> simp_all [nanChars]
  · have hlow : c.toLower ∈ ['n', 'a', 'n'] := hword ▸ List.mem_map_of_mem hc
    simp only [List.mem_cons, List.not_mem_nil, or_false] at hlow
    have hn : c.toLower = 'n' → c = 'n' ∨ c = 'N' := fun h => eq_or_eq_of_toLower_eq h rfl
    have ha : c.toLower = 'a' → c = 'a' ∨ c = 'A' := fun h => eq_or_eq_of_toLower_eq h rfl
    rcases hlow with h | h | h
    · rcases hn h with rfl | rfl <;> simp [nanChars]
    · rcases ha h with rfl | rfl <;> simp [nanChars]
    · rcases hn h with rfl | rfl <;> simp [nanChars]

/-- The characters of not-a-number are neither changed nor dropped before a numeral is read. -/
theorem plain_of_mem_nanChars {c : Char} (h : c ∈ nanChars) :
    DecimalDigit.toAscii c = c ∧ Digits.isDigit c = false ∧ c ≠ '_' := by
  simp only [nanChars, List.mem_cons, List.not_mem_nil, or_false] at h
  rcases h with rfl | rfl | rfl | rfl | rfl | rfl <;> decide

/-- A text is nan in lower case exactly if its characters are, one by one. -/
theorem lower_eq_nan_iff (cs : List Char) :
    lower cs = "nan" ↔ cs.map Char.toLower = ['n', 'a', 'n'] := by
  rw [lower, ← String.toList_inj, String.toList_ofList]
  rfl

/-- A word that starts with a letter has no sign before it. -/
theorem splitSign_append {sign word : List Char} (hsign : sign ∈ [[], ['+'], ['-']])
    (hword : word.map Char.toLower = ['n', 'a', 'n']) :
    (Digits.splitSign (sign ++ word)).2 = word := by
  simp only [List.mem_cons, List.not_mem_nil, or_false] at hsign
  rcases hsign with rfl | rfl | rfl
  · rw [List.nil_append]
    unfold Digits.splitSign
    split
    · simp at hword
    · simp at hword
    · rfl
  · rfl
  · rfl

/-- A text is read as nan exactly if it spells it. -/
theorem read?_eq_nan_iff (cs : List Char) : read? cs = some .nan ↔ SpellsNan cs := by
  constructor
  · intro h
    obtain ⟨sign, hsign, hcs⟩ := Digits.splitSign_eq cs
    refine ⟨sign, _, hcs, hsign, ?_⟩
    rw [← lower_eq_nan_iff]
    by_contra hnan
    rw [read?] at h
    simp only [hnan, if_false] at h
    split_ifs at h
    · cases h
    · obtain ⟨d, -, hd⟩ := Option.map_eq_some_iff.mp h
      exact d.toDouble_ne_nan hd
  · rintro ⟨sign, word, rfl, hsign, hword⟩
    have hrest := splitSign_append hsign hword
    have hlower : lower word = "nan" := (lower_eq_nan_iff word).mpr hword
    simp only [read?, hrest, hlower]
    simp

end Numeral

namespace NumberText

open Numeral (SpellsNan)

/-- A text is read as not-a-number only if it spells it. -/
theorem readReal?_eq_nan_iff (s : String) :
    readReal? s = some .nan ↔ SpellsNan (Blank.trim Blank.isWhite s.toList) := by
  generalize hcs : Blank.trim Blank.isWhite s.toList = cs
  simp only [readReal?, hcs]
  constructor
  · intro h
    split at h
    · next ds hds =>
      have hspells := (Numeral.read?_eq_nan_iff ds).mp h
      have hnone : ∀ c ∈ ds, Digits.isDigit c = false := fun c hc =>
        (Numeral.plain_of_mem_nanChars (hspells.mem_nanChars c hc)).2.1
      obtain rfl := Digits.eq_of_dropSeparators hds hnone
      have hsame : cs.map DecimalDigit.toAscii = cs := by
        refine (List.map_congr_left fun c hc => ?_).trans (List.map_id' cs)
        refine (DecimalDigit.toAscii_eq_or_isDigit c).resolve_right ?_
        simp [hnone _ (List.mem_map_of_mem hc)]
      rwa [hsame] at hspells
    · cases h
  · intro h
    have hplain := fun c hc => Numeral.plain_of_mem_nanChars (h.mem_nanChars c hc)
    have hsame : cs.map DecimalDigit.toAscii = cs :=
      (List.map_congr_left fun c hc => (hplain c hc).1).trans (List.map_id' cs)
    have hkept : Digits.dropSeparators Digits.isDigit cs = some cs :=
      Digits.dropSeparators_eq_self fun hc => (hplain _ hc).2.2 rfl
    rw [hsame, hkept]
    exact (Numeral.read?_eq_nan_iff cs).mpr h

end NumberText

end MapEvents
