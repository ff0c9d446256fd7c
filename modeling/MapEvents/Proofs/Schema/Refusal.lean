import MapEvents.Proofs.Schema.Spelling
import MapEvents.Value.Parts
/-!
# Refused values

What is accepted does not depend on how a misfit is called. A value that is refused holds all that
its issues show: each input is the value or a part of it, if every default passes the check of its
field, so that a default is never to blame. All defaults of documents do.
-/

namespace MapEvents

/-! ## What is accepted -/

namespace Checked

variable {α : Type} {check check' : Value → Checked α}

/-- A check that gives every item what another one gives it gives the same list. -/
theorem items_eq_ok_of_forall (h : ∀ v a, check v = .ok a → check' v = .ok a) {start : Nat}
    {vs : List Value} {xs : List α} (hitems : items check start vs = .ok xs) :
    items check' start vs = .ok xs := by
  induction vs generalizing start xs with
  | nil => exact hitems
  | cons v rest ih =>
    rw [items, map_eq_ok] at hitems ⊢
    obtain ⟨p, hp, hxs⟩ := hitems
    obtain ⟨hfirst, hrest⟩ := both_eq_ok.mp hp
    exact ⟨p, both_eq_ok.mpr ⟨under_eq_ok.mpr (h v p.1 (under_eq_ok.mp hfirst)), ih hrest⟩, hxs⟩

/-- A check that gives every value what another one gives it gives the same entries. -/
theorem entries_eq_ok_of_forall (h : ∀ v a, check v = .ok a → check' v = .ok a) {fields : Data}
    {xs : List (String × α)} (hentries : entries check fields = .ok xs) :
    entries check' fields = .ok xs := by
  induction fields generalizing xs with
  | nil => exact hentries
  | cons field rest ih =>
    obtain ⟨k, v⟩ := field
    rw [entries, map_eq_ok] at hentries ⊢
    obtain ⟨p, hp, hxs⟩ := hentries
    obtain ⟨hfirst, hrest⟩ := both_eq_ok.mp hp
    exact ⟨p, both_eq_ok.mpr ⟨under_eq_ok.mpr (h v p.1 (under_eq_ok.mp hfirst)), ih hrest⟩, hxs⟩

/-- A field is accepted if the value given for it is, or its default if none is given. -/
theorem field_eq_ok_iff {label : Label} {fields : Data} {a : α} :
    field check label fields = .ok a ↔
      ∃ v, (label.given? fields).or label.default = some v ∧ check v = .ok a := by
  unfold field Label.given?
  cases Fields.find? label.editorName fields with
  | some v => simp [under_eq_ok]
  | none =>
    cases Fields.find? label.name fields with
    | some v => simp [under_eq_ok]
    | none => cases label.default <;> simp

end Checked

mutual
/-- Data that is accepted is accepted whatever a misfit is called. -/
theorem Shape.check_eq_ok_of_misfit (misfit misfit' : IssueKind) :
    ∀ (s : Shape) {v : Value} {x : s.Of}, s.check misfit v = .ok x → s.check misfit' v = .ok x
  | .leaf _, _, _, h => h
  | .optional s, v, x, h => by
    by_cases hv : v = .null
    · subst hv
      exact h
    · rw [Shape.check_optional misfit s hv] at h
      obtain ⟨y, hy, rfl⟩ := Checked.map_eq_ok.mp h
      rw [Shape.check_optional misfit' s hv, Shape.check_eq_ok_of_misfit misfit misfit' s hy]
      rfl
  | .list s, v, x, h => by
    cases v with
    | list items =>
      exact Checked.items_eq_ok_of_forall
        (fun _ _ => Shape.check_eq_ok_of_misfit misfit misfit' s) h
    | _ => cases h
  | .map s, v, x, h => by
    cases v with
    | obj fields =>
      exact Checked.entries_eq_ok_of_forall
        (fun _ _ => Shape.check_eq_ok_of_misfit misfit misfit' s) h
    | _ => cases h
  | .record fields, v, x, h => by
    cases v with
    | obj given => exact Record.check_eq_ok_of_misfit misfit misfit' fields h
    | _ => cases h

/-- Fields that are accepted are accepted whatever a misfit is called. -/
theorem Record.check_eq_ok_of_misfit (misfit misfit' : IssueKind) :
    ∀ (r : Record) {given : Data} {x : r.Of},
      r.check misfit given = .ok x → r.check misfit' given = .ok x
  | .done, _, _, h => h
  | .field label s rest, given, (y, ys), h => by
    obtain ⟨hfirst, hrest⟩ := Checked.both_eq_ok.mp h
    obtain ⟨v, hv, hy⟩ := Checked.field_eq_ok_iff.mp hfirst
    refine Checked.both_eq_ok.mpr ⟨Checked.field_eq_ok_iff.mpr ⟨v, hv, ?_⟩, ?_⟩
    · exact Shape.check_eq_ok_of_misfit misfit misfit' s hy
    · exact Record.check_eq_ok_of_misfit misfit misfit' rest hrest
end

/-! ## What is refused -/

/-- The leaves and names of a value are among those of another. -/
structure Value.Within (v w : Value) : Prop where
  leaves : v.leaves ⊆ w.leaves
  names : v.names ⊆ w.names

namespace Value.Within

theorem refl (v : Value) : v.Within v := ⟨List.Subset.refl _, List.Subset.refl _⟩

theorem trans {u v w : Value} (huv : u.Within v) (hvw : v.Within w) : u.Within w :=
  ⟨List.Subset.trans huv.leaves hvw.leaves, List.Subset.trans huv.names hvw.names⟩

theorem of_mem_items {v : Value} {items : List Value} (h : v ∈ items) :
    v.Within (.list items) := by
  induction items with
  | nil => cases h
  | cons w rest ih =>
    rcases List.mem_cons.mp h with rfl | h
    · exact ⟨List.subset_append_left _ _, List.subset_append_left _ _⟩
    · exact ⟨List.subset_append_of_subset_right _ (ih h).leaves,
        List.subset_append_of_subset_right _ (ih h).names⟩

theorem of_mem_fields {p : String × Value} {fields : Data} (h : p ∈ fields) :
    p.2.Within (.obj fields) := by
  induction fields with
  | nil => cases h
  | cons q rest ih =>
    rcases List.mem_cons.mp h with rfl | h
    · exact ⟨List.subset_append_left _ _,
        List.subset_cons_of_subset _ (List.subset_append_left _ _)⟩
    · exact ⟨List.subset_append_of_subset_right _ (ih h).leaves,
        List.subset_cons_of_subset _ (List.subset_append_of_subset_right _ (ih h).names)⟩

/-- A list is made of parts of a value if its items are. -/
theorem of_forall_mem {items : List Value} {w : Value}
    (h : ∀ v ∈ items, v.Within w) : (Value.list items).Within w := by
  induction items with
  | nil => exact ⟨List.nil_subset _, List.nil_subset _⟩
  | cons v rest ih =>
    obtain ⟨hfirst, hrest⟩ := List.forall_mem_cons.mp h
    exact ⟨List.append_subset.mpr ⟨hfirst.leaves, (ih hrest).leaves⟩,
      List.append_subset.mpr ⟨hfirst.names, (ih hrest).names⟩⟩

theorem append_subset_append {α : Type} {xs ys zs ws : List α} (hxz : xs ⊆ zs) (hyw : ys ⊆ ws) :
    xs ++ ys ⊆ zs ++ ws :=
  List.append_subset.mpr
    ⟨List.subset_append_of_subset_left ws hxz, List.subset_append_of_subset_right zs hyw⟩

theorem item {v w : Value} {items others : List Value} (hfirst : v.Within w)
    (hrest : (Value.list items).Within (.list others)) :
    (Value.list (v :: items)).Within (.list (w :: others)) :=
  ⟨append_subset_append hfirst.leaves hrest.leaves, append_subset_append hfirst.names hrest.names⟩

theorem field (k : String) {v w : Value} {fields others : Data} (hfirst : v.Within w)
    (hrest : (Value.obj fields).Within (.obj others)) :
    (Value.obj ((k, v) :: fields)).Within (.obj ((k, w) :: others)) :=
  ⟨append_subset_append hfirst.leaves hrest.leaves,
    List.cons_subset_cons k (append_subset_append hfirst.names hrest.names)⟩

theorem further {fields others : Data} (h : (Value.obj fields).Within (.obj others))
    (p : String × Value) : (Value.obj fields).Within (.obj (p :: others)) :=
  ⟨List.subset_append_of_subset_right _ h.leaves,
    List.subset_cons_of_subset _ (List.subset_append_of_subset_right _ h.names)⟩

mutual
/-- A value with some of its fields dropped, at any depth, is a part of the whole value. -/
theorem of_edit {rename : String → Option String} (h : ∀ k k', rename k = some k' → k' = k) :
    ∀ v : Value, (v.edit rename id).Within v
  | .null => refl _
  | .bool _ => refl _
  | .int _ => refl _
  | .float _ => refl _
  | .str _ => refl _
  | .list items => of_editItems h items
  | .obj fields => of_editFields h fields

/-- Items with some of their fields dropped are a part of all items. -/
theorem of_editItems {rename : String → Option String}
    (h : ∀ k k', rename k = some k' → k' = k) :
    ∀ items : List Value, (Value.list (editItems rename id items)).Within (.list items)
  | [] => refl _
  | v :: rest => (of_edit h v).item (of_editItems h rest)

/-- Fields with some of them dropped are a part of all fields. -/
theorem of_editFields {rename : String → Option String}
    (h : ∀ k k', rename k = some k' → k' = k) :
    ∀ fields : Data, (Value.obj (editFields rename id fields)).Within (.obj fields)
  | [] => refl _
  | (k, v) :: rest => by
    have hrest := of_editFields h rest
    rw [editFields]
    split
    · next k' hk =>
      obtain rfl := h k k' hk
      exact (of_edit h v).field k' hrest
    · exact hrest.further (k, v)
end

end Value.Within

/-- Each issue shows the value or a part of it. -/
def Checked.Shows {α : Type} (c : Checked α) (v : Value) : Prop :=
  ∀ issues, c = .error issues → ∀ i ∈ issues, i.input.Within v

mutual
/-- Every default, in the shape or inside its parts, has this property as a value for its field. -/
def Shape.Defaults (P : Shape → Value → Prop) : Shape → Prop
  | .leaf _ => True
  | .optional s => s.Defaults P
  | .list s => s.Defaults P
  | .map s => s.Defaults P
  | .record fields => fields.Defaults P

/-- Every default of these fields, or of fields inside them, has this property. -/
def Record.Defaults (P : Shape → Value → Prop) : Record → Prop
  | .done => True
  | .field label s rest =>
    (∀ v ∈ label.default, P s v) ∧ s.Defaults P ∧ rest.Defaults P
end

/-- The shape has data that the value stands for. -/
def Shape.Accepts (misfit : IssueKind) (s : Shape) (v : Value) : Prop :=
  ∃ x, s.check misfit v = .ok x

namespace Checked.Shows

variable {α β : Type} {c : Checked α} {d : Checked β} {v w : Value}

theorem of_ok {a : α} (h : c = .ok a) : c.Shows v := by
  intro issues hc
  rw [h] at hc
  cases hc

/-- What shows parts of a value shows parts of every value that it is within. -/
theorem mono (h : c.Shows v) (hvw : v.Within w) : c.Shows w :=
  fun issues hc i hi => (h issues hc i hi).trans hvw

theorem map (f : α → β) (h : c.Shows v) : Checked.Shows (c.map f) v := by
  intro issues hc
  cases c with
  | ok a => cases hc
  | error others =>
    obtain rfl : others = issues := Except.error.inj hc
    exact h others rfl

theorem under (step : Step) (h : c.Shows v) : (c.under step).Shows v := by
  intro issues hc i hi
  cases c with
  | ok a => cases hc
  | error others =>
    cases hc
    obtain ⟨j, hj, rfl⟩ := List.mem_map.mp hi
    exact h others rfl j hj

theorem both (hc : c.Shows v) (hd : d.Shows v) : (Checked.both c d).Shows v := by
  intro issues h i hi
  cases c <;> cases d <;> cases h
  · rcases List.mem_append.mp hi with hi | hi
    · exact hc _ rfl i hi
    · exact hd _ rfl i hi
  · exact hc _ rfl i hi
  · exact hd _ rfl i hi

/-- A refusal shows the value that it refuses. -/
theorem refuse (kind : IssueKind) (v : Value) : (Leaf.refuse kind v : Checked α).Shows v := by
  rintro issues ⟨⟩ i hi
  obtain rfl := List.mem_singleton.mp hi
  exact .refl v

theorem checked (v : Value) (verdict : Leaf.Verdict α) : (Leaf.checked v verdict).Shows v := by
  cases verdict with
  | ok a => exact of_ok rfl
  | error kind => exact refuse kind v

/-- A leaf shows its own value. -/
theorem leaf (l : Leaf) (v : Value) : (l.check v).Shows v := by
  cases l with
  | flag =>
    cases v with
    | null | list | obj =>
      rintro issues ⟨⟩ i hi
      simp only [List.mem_cons, List.not_mem_nil, or_false] at hi
      rcases hi with rfl | rfl | rfl | rfl <;> exact .refl _
    | _ => exact of_ok rfl
  | free => exact of_ok rfl
  | _ => exact checked v _

theorem items {check : Value → Checked α} {vs : List Value} (h : ∀ v ∈ vs, (check v).Shows w)
    (start : Nat) : (Checked.items check start vs).Shows w := by
  induction vs generalizing start with
  | nil => exact of_ok rfl
  | cons v rest ih =>
    have hrest := ih (fun u hu => h u (List.mem_cons_of_mem v hu)) (start + 1)
    exact ((h v List.mem_cons_self).under _).both hrest |>.map _

theorem entries {check : Value → Checked α} {fields : Data}
    (h : ∀ p ∈ fields, (check p.2).Shows w) : (Checked.entries check fields).Shows w := by
  induction fields with
  | nil => exact of_ok rfl
  | cons p rest ih =>
    have hrest := ih fun q hq => h q (List.mem_cons_of_mem p hq)
    exact ((h p List.mem_cons_self).under _).both hrest |>.map _

theorem field {check : Value → Checked α} {label : Label} {fields : Data}
    (hdefault : ∀ v ∈ label.default, ∃ a, check v = .ok a)
    (h : ∀ p ∈ fields, (check p.2).Shows (.obj fields)) :
    (Checked.field check label fields).Shows (.obj fields) := by
  have hfound : ∀ {k v}, Fields.find? k fields = some v → (check v).Shows (.obj fields) :=
    fun hv => h _ (Fields.mem_of_find? hv)
  unfold Checked.field
  split
  · next v hv => exact (hfound hv).under _
  · split
    · next v hv => exact (hfound hv).under _
    · split
      · next v hv =>
        obtain ⟨a, ha⟩ := hdefault v hv
        exact of_ok ha
      · rintro issues ⟨⟩ i hi
        obtain rfl := List.mem_singleton.mp hi
        exact .refl _

end Checked.Shows

mutual
/-- All that a check reports is in the value. -/
theorem Shape.shows_check (misfit : IssueKind) :
    ∀ (s : Shape), s.Defaults (Shape.Accepts misfit) → ∀ v, (s.check misfit v).Shows v
  | .leaf l, _, v => .leaf l v
  | .optional s, hs, v => by
    by_cases hv : v = .null
    · subst hv
      exact .of_ok rfl
    · rw [Shape.check_optional misfit s hv]
      exact (Shape.shows_check misfit s hs v).map some
  | .list s, hs, v => by
    cases v with
    | list items =>
      exact .items (fun v hv => (Shape.shows_check misfit s hs v).mono (.of_mem_items hv)) 0
    | _ => exact .refuse _ _
  | .map s, hs, v => by
    cases v with
    | obj fields =>
      exact .entries fun p hp => (Shape.shows_check misfit s hs p.2).mono (.of_mem_fields hp)
    | _ => exact .refuse _ _
  | .record fields, hs, v => by
    cases v with
    | obj given => exact Record.shows_check misfit fields hs given
    | _ => exact .refuse _ _

/-- All that a check of fields reports is in the object. -/
theorem Record.shows_check (misfit : IssueKind) :
    ∀ (r : Record), r.Defaults (Shape.Accepts misfit) →
      ∀ given, (r.check misfit given).Shows (.obj given)
  | .done, _, _ => .of_ok rfl
  | .field _ s rest, hr, given =>
    .both
      (.field hr.1 fun p hp => (Shape.shows_check misfit s hr.2.1 p.2).mono (.of_mem_fields hp))
      (Record.shows_check misfit rest hr.2.2 given)
end

/-! ## Defaults -/

/-- A check that passes gives a result. -/
theorem Checked.exists_of_isOk {α : Type} {c : Checked α} (h : c.isOk = true) :
    ∃ a, c = .ok a := by
  cases c with
  | ok a => exact ⟨a, rfl⟩
  | error issues => cases h

/-- Zero is a double. The kernel computes it, because the size of the smallest double is a number
too large to unfold. -/
theorem Leaf.exists_check_real_zero : ∃ x, Leaf.real.check (.int 0) = .ok x :=
  Checked.exists_of_isOk (by decide +kernel)

/-- Every default of a document, or of a part of it, passes the check of its field. -/
theorem Document.defaults_accepted (misfit : IssueKind) (d : Document) :
    d.shape.Defaults (Shape.Accepts misfit) := by
  have htime : ∃ x, Shape.real.check misfit (.int 0) = .ok x := Leaf.exists_check_real_zero
  cases d
  all_goals
    simp only [Shape.Defaults, Record.Defaults, Shape.Accepts, Option.mem_def, Option.some.injEq,
      forall_eq', reduceCtorEq, IsEmpty.forall_iff, implies_true, htime, true_and, and_true]
  all_goals (repeat' apply And.intro) <;> exact ⟨_, rfl⟩

end MapEvents
