import MapEvents.Proofs.Double.Value
import MapEvents.Proofs.Text.NumberText
import MapEvents.Settings
/-!
# Which numbers settings let in

Each number among the settings is guarded in the same way. A text that is missing or blank leaves it
unset, and any other has to spell a number that is proper: the limit of steps and the seed are whole
numbers from zero on, and the time limit is a double from zero on, which may be infinite. The guard
of the time limit asks whether the double is less than zero. Not-a-number is not, so that a text
that spells it is let in as well. These are all such texts.
-/

namespace MapEvents

/-- The double stands for a number from zero on, or for infinity. -/
def Double.AtLeastZero (x : Double) : Prop := ∃ v, x.value? = some v ∧ Line.of 0 ≤ v

namespace Double

theorem not_atLeastZero_nan : ¬nan.AtLeastZero := by
  rintro ⟨v, hv, -⟩
  rw [value?_eq_none_iff.mpr rfl] at hv
  cases hv

/-- Not-a-number is not less than zero, and neither is anything from zero on. -/
theorem not_lt_zero_iff {x : Double} : x.lt .zero = false ↔ x = .nan ∨ x.AtLeastZero := by
  rw [← Bool.not_eq_true, lt_iff, value?_zero, AtLeastZero, ← value?_eq_none_iff]
  cases x.value? <;> simp

end Double

/-- The setting that a fault names. -/
def SettingFault.setting : SettingFault → String
  | .notWhole name _ => name
  | .notReal name _ => name
  | .negative name => name

namespace Settings

/-- There is no text, or nothing is left of it when blanks are trimmed. -/
def Unset (text : Option String) : Prop := ∀ s, text = some s → ¬Blank.Filled s

variable {α : Type} {number? : String → Option α} {Proper : α → Prop} {text : Option String}

/-- Something is left of the text when blanks are trimmed, and it is read as the number. -/
def Gives (number? : String → Option α) (text : Option String) (x : α) : Prop :=
  ∃ s, trimmed? text = some s ∧ number? s = some x

/-- What the guard of a number lets in. -/
structure Guarded (number? : String → Option α) (Proper : α → Prop) (text : Option String)
    (value : Option α) : Prop where
  /-- The number is unset exactly if its text is missing or blank. -/
  unset_iff : value = none ↔ Unset text
  /-- Otherwise it is the one that the text gives, and proper. -/
  set : ∀ x, value = some x → Gives number? text x ∧ Proper x

/-- Something is left of the text, and it gives no proper number. -/
def Refused (number? : String → Option α) (Proper : α → Prop) (text : Option String) : Prop :=
  ¬Unset text ∧ ∀ x, Gives number? text x → ¬Proper x

/-- When blanks are trimmed, the text spells not-a-number. -/
def GivesNan (text : Option String) : Prop :=
  ∃ s, text = some s ∧ Numeral.SpellsNan (Blank.trim Blank.isSpace s.toList)

/-- A time limit is a number from zero on. If its text spells not-a-number, it is that instead. -/
def IsTimeLimit (text : Option String) (x : Double) : Prop :=
  (GivesNan text → x = .nan) ∧ (¬GivesNan text → x.AtLeastZero)

/-! ## Trimmed texts -/

/-- A text that is missing or blank counts as unset. -/
theorem trimmed?_eq_none_iff : trimmed? text = none ↔ Unset text := by
  cases text with
  | none => simp [trimmed?, Unset, Blank.trim]
  | some s => simp [trimmed?, Unset, Blank.Filled]

/-- A filled text counts without the blanks around it. -/
theorem trimmed?_some {t : String} (h : Blank.Filled t) :
    trimmed? (some t) = some (String.ofList (Blank.trim Blank.isSpace t.toList)) := by
  have hne : String.ofList (Blank.trim Blank.isSpace t.toList) ≠ "" := by
    simpa [Blank.Filled] using h
  simp only [trimmed?, Option.getD_some, if_neg hne]

/-- What counts is some text without the blanks around it. -/
theorem exists_of_trimmed?_eq_some {s : String} (h : trimmed? text = some s) :
    ∃ t, text = some t ∧ s.toList = Blank.trim Blank.isSpace t.toList := by
  cases text with
  | none => simp [trimmed?, Blank.trim] at h
  | some t =>
    have hfilled : Blank.Filled t := by
      by_contra hblank
      rw [trimmed?_eq_none_iff.mpr fun u hu => Option.some.inj hu ▸ hblank] at h
      cases h
    rw [trimmed?_some hfilled] at h
    exact ⟨t, rfl, by rw [← Option.some.inj h, String.toList_ofList]⟩

theorem Gives.unique {x y : α} (hx : Gives number? text x) (hy : Gives number? text y) : x = y := by
  obtain ⟨s, hs, hx⟩ := hx
  obtain ⟨s', hs', hy⟩ := hy
  obtain rfl : s = s' := Option.some.inj (hs.symm.trans hs')
  exact Option.some.inj (hx.symm.trans hy)

/-- The texts that give not-a-number are those that spell it. -/
theorem gives_nan_iff : Gives NumberText.readReal? text .nan ↔ GivesNan text := by
  constructor
  · rintro ⟨s, hs, hread⟩
    obtain ⟨t, ht, htrim⟩ := exists_of_trimmed?_eq_some hs
    rw [NumberText.readReal?_eq_nan_iff, htrim, Blank.trim_trim] at hread
    exact ⟨t, ht, hread⟩
  · rintro ⟨t, rfl, hspells⟩
    refine ⟨_, trimmed?_some hspells.ne_nil, ?_⟩
    rw [NumberText.readReal?_eq_nan_iff, String.toList_ofList, Blank.trim_trim]
    exact hspells

/-! ## Guards -/

theorem Guarded.of_unset (h : Unset text) : Guarded number? Proper text none :=
  ⟨iff_of_true rfl h, nofun⟩

theorem Guarded.of_gives {x : α} (hx : Gives number? text x) (hproper : Proper x) :
    Guarded number? Proper text (some x) := by
  refine ⟨iff_of_false (by simp) ?_, ?_⟩
  · obtain ⟨s, hs, -⟩ := hx
    rw [← trimmed?_eq_none_iff, hs]
    simp
  · rintro _ ⟨⟩
    exact ⟨hx, hproper⟩

/-- A number is guarded if those that are proper are those that are not negative. A fault names the
setting that is refused. -/
theorem readNumber_guards {negative : α → Bool} {unreadable : String → String → SettingFault}
    {name : String} (hproper : ∀ x, Gives number? text x → (negative x = false ↔ Proper x))
    (hname : ∀ quoted, (unreadable name quoted).setting = name) :
    (∃ fault, readNumber number? negative unreadable name text = .error fault ∧
        fault.setting = name ∧ Refused number? Proper text) ∨
      ∃ value, readNumber number? negative unreadable name text = .ok value ∧
        Guarded number? Proper text value := by
  cases hs : trimmed? text with
  | none =>
    refine .inr ⟨none, ?_, .of_unset (trimmed?_eq_none_iff.mp hs)⟩
    simp only [readNumber, hs]
  | some s =>
    have hset : ¬Unset text := by simp [← trimmed?_eq_none_iff, hs]
    cases hx : number? s with
    | none =>
      refine .inl ⟨unreadable name (Quoted.quote s), ?_, hname _, hset, ?_⟩
      · simp only [readNumber, hs, hx]
      · rintro x ⟨s', hs', hx'⟩
        obtain rfl : s = s' := Option.some.inj (hs.symm.trans hs')
        rw [hx] at hx'
        cases hx'
    | some x =>
      have hgives : Gives number? text x := ⟨s, hs, hx⟩
      cases hneg : negative x with
      | true =>
        refine .inl ⟨.negative name, ?_, rfl, hset, fun y hy hy' => ?_⟩
        · simp only [readNumber, hs, hx, hneg, if_true]
        · obtain rfl := hgives.unique hy
          rw [(hproper x hy).mpr hy'] at hneg
          cases hneg
      | false =>
        refine .inr ⟨some x, ?_, .of_gives hgives ((hproper x hgives).mp hneg)⟩
        simp only [readNumber, hs, hx, hneg, Bool.false_eq_true, if_false]

/-- A whole number is refused with the name of its setting, or is at least zero. -/
theorem readWhole_guards (name : String) (text : Option String) :
    (∃ fault, readWhole name text = .error fault ∧
        fault.setting = name ∧ Refused NumberText.readWhole? (0 ≤ ·) text) ∨
      ∃ value, readWhole name text = .ok value ∧
        Guarded NumberText.readWhole? (0 ≤ ·) text value :=
  readNumber_guards (fun n _ => by simp) fun _ => rfl

/-- A number of seconds is refused with the name of its setting, or is at least zero, unless its
text spells not-a-number. -/
theorem readReal_guards (name : String) (text : Option String) :
    (∃ fault, readReal name text = .error fault ∧
        fault.setting = name ∧ Refused NumberText.readReal? (IsTimeLimit text) text) ∨
      ∃ value, readReal name text = .ok value ∧
        Guarded NumberText.readReal? (IsTimeLimit text) text value := by
  refine readNumber_guards (fun x hx => ?_) fun _ => rfl
  rw [Double.not_lt_zero_iff]
  have hnan : GivesNan text ↔ x = .nan := by
    rw [← gives_nan_iff]
    exact ⟨hx.unique, fun h => h ▸ hx⟩
  rw [IsTimeLimit, hnan]
  by_cases h : x = .nan <;> simp [h]

/-- For every environment the settings are refused, with a fault that names a setting of which the
text gives no proper number, or they are read, and each number is what its guard lets in: it is
unset exactly if its text is missing or blank, and else is zero or more. Only a time limit of which
the text spells not-a-number is that. -/
theorem read_guards (text? : String → Option String) :
    (∃ fault, read text? = .error fault ∧
      (fault.setting = maxChainStepsName ∧
          Refused NumberText.readWhole? (0 ≤ ·) (text? maxChainStepsName) ∨
        fault.setting = chainTimeoutName ∧
          Refused NumberText.readReal? (IsTimeLimit (text? chainTimeoutName))
            (text? chainTimeoutName) ∨
        fault.setting = seedName ∧
          Refused NumberText.readWhole? (0 ≤ ·) (text? seedName))) ∨
      ∃ settings, read text? = .ok settings ∧
        Guarded NumberText.readWhole? (0 ≤ ·) (text? maxChainStepsName) settings.maxChainSteps ∧
        Guarded NumberText.readReal? (IsTimeLimit (text? chainTimeoutName))
          (text? chainTimeoutName) settings.chainTimeout ∧
        Guarded NumberText.readWhole? (0 ≤ ·) (text? seedName) settings.seed := by
  unfold read
  -- The first setting that is refused decides; those before it were read.
  rcases readWhole_guards maxChainStepsName (text? maxChainStepsName) with
    ⟨fault, hsteps, hrefused⟩ | ⟨maxChainSteps, hsteps, hstepsGuarded⟩
  · exact .inl ⟨fault, by rw [hsteps]; rfl, .inl hrefused⟩
  rcases readReal_guards chainTimeoutName (text? chainTimeoutName) with
    ⟨fault, htimeout, hrefused⟩ | ⟨chainTimeout, htimeout, htimeoutGuarded⟩
  · exact .inl ⟨fault, by rw [hsteps, htimeout]; rfl, .inr (.inl hrefused)⟩
  rcases readWhole_guards seedName (text? seedName) with
    ⟨fault, hseed, hrefused⟩ | ⟨seed, hseed, hseedGuarded⟩
  · exact .inl ⟨fault, by rw [hsteps, htimeout, hseed]; rfl, .inr (.inr hrefused)⟩
  · exact .inr ⟨_, by rw [hsteps, htimeout, hseed]; rfl,
      hstepsGuarded, htimeoutGuarded, hseedGuarded⟩

/-- The time limit is given by a word. -/
def wordy (name : String) : Option String := if name = chainTimeoutName then some "nan" else none

/-- The settings are read, and the time limit is neither unset nor zero or more. -/
theorem nan_passes_guard :
    (∃ settings, read wordy = .ok settings ∧ settings.chainTimeout = some .nan) ∧
      ¬Double.nan.AtLeastZero :=
  ⟨⟨_, rfl, rfl⟩, Double.not_atLeastZero_nan⟩

end Settings

end MapEvents
