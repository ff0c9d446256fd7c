import MapEvents.Proofs.Calendar.Stamp
import MapEvents.Proofs.Fields
import MapEvents.Schema.Check
/-!
# Data that is written and checked again

Data may leave what its shape admits after it was read: a count may become negative or a double, and
a moment may get an offset of a day or more. `Shape.Sound` says what the shape admits. Checked data
is sound, and sound data that is written and checked again is the same data, if the shape is proper:
no two of its names are the same, and null stands for an absent value alone.
-/

namespace MapEvents

/-! ## Sound data -/

/-- The leaf admits this data when it is read. -/
def Leaf.Sound : (l : Leaf) → l.Of → Prop
  | .count, n => ∃ k : Int, 0 ≤ k ∧ n = .whole k
  | .moment, m => m.Writable
  | _, _ => True

mutual
/-- All leaves of the data are sound. -/
def Shape.Sound : (s : Shape) → s.Of → Prop
  | .leaf l, x => l.Sound x
  | .optional s, (x : Option s.Of) => ∀ y, x = some y → s.Sound y
  | .list s, (x : List s.Of) => ∀ y ∈ x, s.Sound y
  | .map s, (x : List (String × s.Of)) => ∀ p ∈ x, s.Sound p.2
  | .record fields, x => fields.Sound x

/-- All leaves of the fields are sound. -/
def Record.Sound : (r : Record) → r.Of → Prop
  | .done, _ => True
  | .field _ s rest, (x : s.Of × rest.Of) => s.Sound x.1 ∧ rest.Sound x.2
end

/-! ## Proper shapes -/

/-- The names of a choice are different. -/
def Leaf.Proper : Leaf → Prop
  | .choice names => names.Nodup
  | _ => True

/-- Data of the shape is never written as null. -/
def Shape.NeverNull : Shape → Prop
  | .leaf .free => False
  | .optional _ => False
  | _ => True

/-- The names under which the fields are written. -/
def Record.names : Record → List String
  | .done => []
  | .field label _ rest => label.editorName :: rest.names

mutual
/-- What is written can be told apart. -/
def Shape.Proper : Shape → Prop
  | .leaf l => l.Proper
  | .optional s => s.NeverNull ∧ s.Proper
  | .list s => s.Proper
  | .map s => s.Proper
  | .record fields => fields.names.Nodup ∧ fields.Proper

/-- All fields have proper shapes. -/
def Record.Proper : Record → Prop
  | .done => True
  | .field _ s rest => s.Proper ∧ rest.Proper
end

namespace Leaf

/-! ## Leaves -/

/-- A name stands at one position only, if the names differ. -/
theorem position?_get {names : List String} (h : names.Nodup) (i : Fin names.length) :
    position? names[i] names = some i := by
  induction names with
  | nil => exact i.elim0
  | cons name rest ih =>
    obtain ⟨hname, hrest⟩ := List.nodup_cons.mp h
    cases i using Fin.cases with
    | zero => exact if_pos rfl
    | succ i =>
      have hne : name ≠ rest[i.val] := fun heq => hname (heq ▸ List.getElem_mem i.isLt)
      exact (if_neg hne).trans (congrArg (Option.map Fin.succ) (ih hrest i))

/-- A moment that can be written is read back from its text. -/
theorem momentOfText_text (style : UtcStyle) {m : Moment} (h : m.Writable) :
    momentOfText (m.text style) = .ok m := by
  have hread := Moment.read?_text style h
  simp only [Moment.read?, Stamp.read?_text style h, Option.bind_some] at hread
  simp only [momentOfText, Stamp.read?_text style h, hread]

/-- What a leaf wrote it reads back, if the value is one that it reads at all. -/
theorem check_dump (style : UtcStyle) {l : Leaf} (hl : l.Proper) {x : l.Of} (hx : l.Sound x) :
    l.check (l.dump style x) = .ok x := by
  cases l with
  | count =>
    obtain ⟨k, hk, rfl⟩ := hx
    simp [check, dump, Number.toScalar, Scalar.toValue, readCount, readWhole, checked,
      Int.not_lt.mpr hk]
  | flag => cases x <;> rfl
  | moment => simp only [check, dump, readMoment, momentOfText_text style hx, checked]
  | choice names =>
    have hposition := position?_get hl x
    simp only [check, dump, readChoice, hposition, checked]
  | _ => rfl

/-- A moment that was read can be written. -/
theorem writable_of_readMoment {v : Value} {m : Moment} (h : readMoment v = .ok m) :
    m.Writable := by
  have hutc : ∀ {micros : Int}, Epoch.moment? micros = some m → m.Writable := by
    intro micros hm
    obtain ⟨reading, -, rfl⟩ := Option.map_eq_some_iff.mp hm
    intro minutes hminutes
    cases hminutes
    decide
  have hmicros : ∀ {micros : Option Int}, momentOfMicros micros = .ok m → m.Writable := by
    intro micros hm
    unfold momentOfMicros at hm
    split at hm
    · next m' hm' =>
      cases hm
      obtain ⟨n, -, hn⟩ := Option.bind_eq_some_iff.mp hm'
      exact hutc hn
    · cases hm
  unfold readMoment at h
  split at h
  · unfold momentOfText at h
    split at h
    · next stamp hstamp =>
      split at h
      · next m' hm' =>
        cases h
        exact Stamp.writable_of_moment? hstamp hm'
      · cases h
    · split at h
      · unfold momentAt at h
        split at h
        · next m' hm' =>
          cases h
          exact hutc hm'
        · cases h
      · cases h
  · split at h
    · exact hmicros h
    · cases h
  · exact hmicros h
  · cases h

theorem verdict_of_checked {α : Type} {v : Value} {verdict : Verdict α} {x : α}
    (h : checked v verdict = .ok x) : verdict = .ok x := by
  cases verdict with
  | ok a =>
    cases h
    rfl
  | error kind => cases h

/-- What a leaf has read is a value that it can write. -/
theorem sound_of_check {l : Leaf} {v : Value} {x : l.Of} (h : l.check v = .ok x) : l.Sound x := by
  cases l with
  | count =>
    have hread := verdict_of_checked h
    unfold readCount at hread
    split at hread
    · next n hn =>
      split at hread
      · cases hread
      · next hnonneg =>
        cases hread
        exact ⟨n, Int.not_lt.mp hnonneg, rfl⟩
    · cases hread
  | moment => exact writable_of_readMoment (verdict_of_checked h)
  | _ => trivial

end Leaf


/-! ## Lists, maps and fields -/

namespace Checked

variable {α β : Type}

theorem both_eq_ok {c : Checked α} {d : Checked β} {p : α × β} :
    both c d = .ok p ↔ c = .ok p.1 ∧ d = .ok p.2 := by
  obtain ⟨a, b⟩ := p
  cases c <;> cases d <;> simp [both]

theorem under_eq_ok {c : Checked α} {step : Step} {a : α} : c.under step = .ok a ↔ c = .ok a := by
  cases c <;> simp [under]

theorem map_eq_ok {ε : Type} {r : Except ε α} {f : α → β} {b : β} :
    r.map f = .ok b ↔ ∃ a, r = .ok a ∧ f a = b := by
  cases r <;> simp [Except.map]

/-- If every item is read back, so is the list. -/
theorem items_map {check : Value → Checked α} {dump : α → Value} {xs : List α}
    (h : ∀ x ∈ xs, check (dump x) = .ok x) (start : Nat) :
    items check start (xs.map dump) = .ok xs := by
  induction xs generalizing start with
  | nil => rfl
  | cons x rest ih =>
    have hrest := ih (fun y hy => h y (List.mem_cons_of_mem x hy)) (start + 1)
    rw [List.map_cons, items, h x List.mem_cons_self, hrest]
    rfl

theorem exists_check_of_items {check : Value → Checked α} {start : Nat} {vs : List Value}
    {xs : List α} (h : items check start vs = .ok xs) : ∀ x ∈ xs, ∃ v ∈ vs, check v = .ok x := by
  induction vs generalizing start xs with
  | nil =>
    cases h
    simp
  | cons v rest ih =>
    rw [items, map_eq_ok] at h
    obtain ⟨p, hp, rfl⟩ := h
    obtain ⟨hfirst, hrest⟩ := both_eq_ok.mp hp
    intro x hx
    rcases List.mem_cons.mp hx with rfl | hx
    · exact ⟨v, List.mem_cons_self, under_eq_ok.mp hfirst⟩
    · obtain ⟨w, hw, hcheck⟩ := ih hrest x hx
      exact ⟨w, List.mem_cons_of_mem v hw, hcheck⟩

theorem entries_map {check : Value → Checked α} {dump : α → Value} {xs : List (String × α)}
    (h : ∀ p ∈ xs, check (dump p.2) = .ok p.2) :
    entries check (xs.map fun p => (p.1, dump p.2)) = .ok xs := by
  induction xs with
  | nil => rfl
  | cons p rest ih =>
    have hrest := ih fun q hq => h q (List.mem_cons_of_mem p hq)
    rw [List.map_cons, entries, h p List.mem_cons_self, hrest]
    rfl

theorem exists_check_of_entries {check : Value → Checked α} {fields : Data}
    {xs : List (String × α)} (h : entries check fields = .ok xs) :
    ∀ p ∈ xs, ∃ q ∈ fields, check q.2 = .ok p.2 := by
  induction fields generalizing xs with
  | nil =>
    cases h
    simp
  | cons field rest ih =>
    rw [entries, map_eq_ok] at h
    obtain ⟨p, hp, rfl⟩ := h
    obtain ⟨hfirst, hrest⟩ := both_eq_ok.mp hp
    intro q hq
    rcases List.mem_cons.mp hq with rfl | hq
    · exact ⟨field, List.mem_cons_self, under_eq_ok.mp hfirst⟩
    · obtain ⟨r, hr, hcheck⟩ := ih hrest q hq
      exact ⟨r, List.mem_cons_of_mem field hr, hcheck⟩

/-- A field that is there under its editor's name is read from there. -/
theorem field_of_find? {check : Value → Checked α} {label : Label} {fields : Data} {v : Value}
    {a : α} (hfind : Fields.find? label.editorName fields = some v) (h : check v = .ok a) :
    field check label fields = .ok a := by
  simp only [field, hfind, h, under]

/-- What was read as a field is the reading of some value. -/
theorem exists_check_of_field {check : Value → Checked α} {label : Label} {fields : Data} {a : α}
    (h : field check label fields = .ok a) : ∃ v, check v = .ok a := by
  unfold field at h
  split at h
  · next v hv => exact ⟨v, under_eq_ok.mp h⟩
  · split at h
    · next v hv => exact ⟨v, under_eq_ok.mp h⟩
    · split at h
      · next v hv => exact ⟨v, h⟩
      · cases h

end Checked

/-! ## Writing and checking again -/

/-- A record is written with all its names in their order. -/
theorem Record.map_fst_dump (style : UtcStyle) :
    ∀ (r : Record) (x : r.Of), (r.dump style x).map (·.1) = r.names
  | .done, _ => rfl
  | .field label _ rest, (_, x) => congrArg (label.editorName :: ·) (map_fst_dump style rest x)

/-- What is never written as null is checked as a value that is there. -/
theorem Shape.dump_ne_null (style : UtcStyle) {s : Shape} (hs : s.NeverNull) (x : s.Of) :
    s.dump style x ≠ .null := by
  cases s with
  | leaf l =>
    cases l with
    | free => exact hs.elim
    | flag => cases x <;> simp [dump, Leaf.dump, Scalar.toValue]
    | count => cases x <;> simp [dump, Leaf.dump, Number.toScalar, Scalar.toValue]
    | _ => simp [dump, Leaf.dump]
  | optional s => exact hs.elim
  | list s => simp [dump]
  | map s => simp [dump]
  | record fields => simp [dump]

/-- A value other than null is read as if it were not optional. -/
theorem Shape.check_optional (misfit : IssueKind) (s : Shape) {v : Value} (hv : v ≠ .null) :
    (Shape.optional s).check misfit v = (s.check misfit v).map some := by
  cases v with
  | null => exact absurd rfl hv
  | _ => rfl

mutual
/-- Sound data of a proper shape is read back as it was written. -/
theorem Shape.check_dump (misfit : IssueKind) (style : UtcStyle) :
    ∀ (s : Shape), s.Proper → ∀ x : s.Of, s.Sound x → s.check misfit (s.dump style x) = .ok x
  | .leaf _, hs, _, hx => Leaf.check_dump style hs hx
  | .optional s, hs, (none : Option s.Of), _ => rfl
  | .optional s, hs, (some y : Option s.Of), hx => by
    have hy := Shape.check_dump misfit style s hs.2 y (hx y rfl)
    show (Shape.optional s).check misfit (s.dump style y) = .ok (some y)
    rw [Shape.check_optional misfit s (Shape.dump_ne_null style hs.1 y), hy]
    rfl
  | .list s, hs, (xs : List s.Of), hx =>
    Checked.items_map (fun y hy => Shape.check_dump misfit style s hs y (hx y hy)) 0
  | .map s, hs, (xs : List (String × s.Of)), hx =>
    Checked.entries_map fun p hp => Shape.check_dump misfit style s hs p.2 (hx p hp)
  | .record fields, hs, (x : fields.Of), hx => by
    have hnames : ((fields.dump style x).map (·.1)).Nodup := by
      rw [Record.map_fst_dump]
      exact hs.1
    exact Record.check_dump misfit style fields hs.2 x hx fun p hp => Fields.find?_of_mem hnames hp

/-- Sound fields are read back from data in which they stand as they were written. -/
theorem Record.check_dump (misfit : IssueKind) (style : UtcStyle) :
    ∀ (r : Record), r.Proper → ∀ x : r.Of, r.Sound x →
      ∀ {given : Data}, (∀ p ∈ r.dump style x, Fields.find? p.1 given = some p.2) →
        r.check misfit given = .ok x
  | .done, _, _, _, _, _ => rfl
  | .field label s rest, hr, (y, ys), hx, given, hgiven => by
    have hfirst : Checked.field (s.check misfit) label given = .ok y :=
      Checked.field_of_find? (hgiven _ List.mem_cons_self)
        (Shape.check_dump misfit style s hr.1 y hx.1)
    have hrest := Record.check_dump misfit style rest hr.2 ys hx.2
      fun p hp => hgiven p (List.mem_cons_of_mem _ hp)
    show Checked.both (Checked.field (s.check misfit) label given) (rest.check misfit given) = _
    rw [hfirst, hrest]
    rfl
end

mutual
/-- What a check accepts is sound. -/
theorem Shape.sound_of_check (misfit : IssueKind) :
    ∀ (s : Shape) {v : Value} {x : s.Of}, s.check misfit v = .ok x → s.Sound x
  | .leaf _, _, _, h => Leaf.sound_of_check h
  | .optional s, v, x, h => by
    by_cases hv : v = .null
    · subst hv
      cases h
      intro y hy
      cases hy
    · rw [Shape.check_optional misfit s hv] at h
      obtain ⟨y, hy, rfl⟩ := Checked.map_eq_ok.mp h
      rintro z ⟨⟩
      exact Shape.sound_of_check misfit s hy
  | .list s, v, x, h => by
    cases v with
    | list items =>
      intro y hy
      obtain ⟨v, -, hv⟩ := Checked.exists_check_of_items h y hy
      exact Shape.sound_of_check misfit s hv
    | _ => cases h
  | .map s, v, x, h => by
    cases v with
    | obj fields =>
      intro p hp
      obtain ⟨q, -, hq⟩ := Checked.exists_check_of_entries h p hp
      exact Shape.sound_of_check misfit s hq
    | _ => cases h
  | .record fields, v, x, h => by
    cases v with
    | obj given => exact Record.sound_of_check misfit fields h
    | _ => cases h

/-- The fields that a check accepts are sound. -/
theorem Record.sound_of_check (misfit : IssueKind) :
    ∀ (r : Record) {given : Data} {x : r.Of}, r.check misfit given = .ok x → r.Sound x
  | .done, _, _, _ => trivial
  | .field label s rest, given, (y, ys), h => by
    obtain ⟨hfirst, hrest⟩ := Checked.both_eq_ok.mp h
    obtain ⟨v, hv⟩ := Checked.exists_check_of_field hfirst
    exact ⟨Shape.sound_of_check misfit s hv, Record.sound_of_check misfit rest hrest⟩
end

end MapEvents
