import MapEvents.Fields
/-!
# Looking up names

What is found under a name is a pair of the map, and a name that occurs once counts by its only
pair. A map that is put together of parts is searched part by part, so that a change in one place is
found under its own name alone. So is a value that is written under a name.
-/

namespace MapEvents.Fields

variable {α : Type} {key k : String} {fields before after : List (String × α)}

theorem mem_of_find? {v : α} (h : find? key fields = some v) : (key, v) ∈ fields := by
  induction fields with
  | nil => cases h
  | cons pair rest ih =>
    obtain ⟨k, x⟩ := pair
    by_cases hk : k = key
    · have hv : x = v := by simpa [find?, hk] using h
      rw [hk, hv]
      exact List.mem_cons_self
    · exact List.mem_cons_of_mem _ (ih (by simpa [find?, hk] using h))

/-- A name that occurs once counts by its only pair. -/
theorem find?_of_mem (h : (fields.map (·.1)).Nodup) {p : String × α} (hp : p ∈ fields) :
    find? p.1 fields = some p.2 := by
  induction fields with
  | nil => cases hp
  | cons q rest ih =>
    obtain ⟨hname, hrest⟩ := List.nodup_cons.mp h
    rcases List.mem_cons.mp hp with rfl | hp
    · exact if_pos rfl
    · have hne : q.1 ≠ p.1 := by
        intro heq
        refine hname ?_
        show q.1 ∈ rest.map (·.1)
        rw [heq]
        exact List.mem_map_of_mem hp
      rw [find?, if_neg hne]
      exact ih hrest hp

theorem find?_eq_none (h : ∀ p ∈ fields, p.1 ≠ k) : find? k fields = none := by
  induction fields with
  | nil => rfl
  | cons p rest ih =>
    rw [find?, if_neg (h p List.mem_cons_self)]
    exact ih fun q hq => h q (List.mem_cons_of_mem p hq)

theorem find?_append (k : String) (fields others : List (String × α)) :
    find? k (fields ++ others) = (find? k fields).or (find? k others) := by
  induction fields with
  | nil => rfl
  | cons p rest ih =>
    by_cases hp : p.1 = k
    · simp [find?, hp]
    · simp [find?, hp, ih]

/-- A pair is not found under another name. -/
theorem find?_insert_of_ne (h : key ≠ k) (v : α) :
    find? k (before ++ (key, v) :: after) = find? k (before ++ after) := by
  rw [find?_append, find?_append, find?, if_neg h]

/-- A changed value is found, or makes no difference. -/
theorem find?_change (before after : List (String × α)) (key k : String) (v w : α) :
    find? k (before ++ (key, v) :: after) = find? k (before ++ (key, w) :: after) ∨
      key = k ∧ find? k (before ++ (key, v) :: after) = some v ∧
        find? k (before ++ (key, w) :: after) = some w := by
  simp only [find?_append, find?]
  cases find? k before with
  | some u => exact .inl rfl
  | none =>
    by_cases hk : key = k
    · exact .inr ⟨hk, by simp [hk], by simp [hk]⟩
    · exact .inl (by simp [hk])

/-- A value that is written under a name is found there. -/
theorem find?_insert_self (key : String) (v : α) (fields : List (String × α)) :
    find? key (insert key v fields) = some v := by
  induction fields with
  | nil => simp [insert, find?]
  | cons p rest ih =>
    by_cases hp : p.1 = key
    · simp [insert, find?, hp]
    · simp [insert, find?, hp, ih]

/-- A value that is written under one name is not found under another. -/
theorem find?_insert_other (h : key ≠ k) (v : α) (fields : List (String × α)) :
    find? k (insert key v fields) = find? k fields := by
  induction fields with
  | nil => simp [insert, find?, h]
  | cons p rest ih =>
    by_cases hp : p.1 = key
    · simp [insert, find?, hp, h]
    · simp [insert, find?, hp, ih]

/-- Of two values written under one name, the later one counts. -/
theorem insert_insert (key : String) (v w : α) (fields : List (String × α)) :
    insert key w (insert key v fields) = insert key w fields := by
  induction fields with
  | nil => simp [insert]
  | cons p rest ih =>
    by_cases hp : p.1 = key
    · simp [insert, hp]
    · simp [insert, hp, ih]

end MapEvents.Fields
