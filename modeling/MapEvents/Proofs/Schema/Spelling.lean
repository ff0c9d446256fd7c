import Mathlib.Data.List.Forall2
import Mathlib.Logic.Relation
import MapEvents.Proofs.Schema.Document
/-!
# Spellings and unknown keys

A key of a record may stand in the editor's spelling or in the plain one, and keys that name no
field may stand beside it. `Shape.Edit` is one change of this kind at any depth, and
`Shape.Respelled` any number of them, made or undone. Inside maps with free keys a key is data, and
no change of it is one of these.

Such changes make no difference to a check. The same data is read, or the same kinds of issues are
found at the same places; `Shape.place` gives the place of a path by writing the keys of records in
their plain spelling. A patch keeps the fields that it sends.
-/

namespace MapEvents

/-! ## Changes that do not matter -/

/-- The key is one of the two spellings of the field. -/
def Label.Spells (label : Label) (key : String) : Prop := key = label.name ∨ key = label.editorName

instance (label : Label) (key : String) : Decidable (label.Spells key) :=
  inferInstanceAs (Decidable (_ ∨ _))

namespace Record

/-- The labels of the fields. -/
def labels : Record → List Label
  | .done => []
  | .field label _ rest => label :: rest.labels

/-- The record has a field with this label and shape. -/
inductive Includes : Record → Label → Shape → Prop
  | first {label : Label} {s : Shape} {rest : Record} : Includes (.field label s rest) label s
  | later {label other : Label} {s t : Shape} {rest : Record} (h : Includes rest label s) :
    Includes (.field other t rest) label s

end Record

/-- One change of spelling, or one more key that names no field, somewhere in a value. -/
inductive Shape.Edit : Shape → Value → Value → Prop
  | optional {s : Shape} {v w : Value} (h : s.Edit v w) : (Shape.optional s).Edit v w
  | item {s : Shape} {v w : Value} (before after : List Value) (h : s.Edit v w) :
    (Shape.list s).Edit (.list (before ++ v :: after)) (.list (before ++ w :: after))
  | entry {s : Shape} {v w : Value} (before after : Data) (key : String) (h : s.Edit v w) :
    (Shape.map s).Edit (.obj (before ++ (key, v) :: after)) (.obj (before ++ (key, w) :: after))
  | field {r : Record} {label : Label} {s : Shape} {v w : Value} (before after : Data)
    {key : String} (hlabel : r.Includes label s) (hkey : label.Spells key) (h : s.Edit v w) :
    (Shape.record r).Edit (.obj (before ++ (key, v) :: after)) (.obj (before ++ (key, w) :: after))
  | respell {r : Record} {label : Label} {s : Shape} (before after : Data) {key key' : String}
    (v : Value) (hlabel : r.Includes label s) (hkey : label.Spells key) (hkey' : label.Spells key')
    (halone : ∀ p ∈ before ++ after, ¬label.Spells p.1) :
    (Shape.record r).Edit (.obj (before ++ (key, v) :: after)) (.obj (before ++ (key', v) :: after))
  | unknown {r : Record} (before after : Data) {key : String} (v : Value)
    (hkey : ∀ label ∈ r.labels, ¬label.Spells key) :
    (Shape.record r).Edit (.obj (before ++ after)) (.obj (before ++ (key, v) :: after))

/-- The second value is the first one after any number of such changes, made or undone. -/
def Shape.Respelled (s : Shape) : Value → Value → Prop := Relation.EqvGen s.Edit

/-! ## Places -/

mutual
/-- The place that a path into data of the shape leads to: the path with the keys of records in
their plain spelling. -/
def Shape.place : Shape → List Step → List Step
  | .optional s, path => s.place path
  | .list s, .index n :: path => .index n :: s.place path
  | .map s, .key k :: path => .key k :: s.place path
  | .record fields, .key k :: path => fields.place k path
  | _, path => path

/-- The place that a path leads to behind this key of a record. -/
def Record.place : Record → String → List Step → List Step
  | .done, k, path => .key k :: path
  | .field label s rest, k, path =>
    if label.Spells k then .key label.name :: s.place path else rest.place k path
end

mutual
/-- No key is a spelling of two fields. -/
def Shape.Legible : Shape → Prop
  | .leaf _ => True
  | .optional s => s.Legible
  | .list s => s.Legible
  | .map s => s.Legible
  | .record fields => fields.Legible

/-- No key is a spelling of two fields, here or further inside. -/
def Record.Legible : Record → Prop
  | .done => True
  | .field label s rest =>
    (∀ other ∈ rest.labels, ¬other.Spells label.name ∧ ¬other.Spells label.editorName) ∧
      s.Legible ∧ rest.Legible
end

/-- What an issue says about the data: its kind, and the place. -/
def Issue.finding (place : List Step → List Step) (i : Issue) : IssueKind × List Step :=
  (i.kind, place i.path)

/-- The value given for a field; the editor's spelling is looked for first. -/
def Label.given? (label : Label) (fields : Data) : Option Value :=
  (Fields.find? label.editorName fields).or (Fields.find? label.name fields)

namespace Label

variable {label : Label} {before after : Data} {key : String}

/-- A key that does not spell the label plays no part in what is given for it. -/
theorem given?_insert (h : ¬label.Spells key) (v : Value) :
    label.given? (before ++ (key, v) :: after) = label.given? (before ++ after) := by
  have hname : key ≠ label.name := fun heq => h (.inl heq)
  have heditor : key ≠ label.editorName := fun heq => h (.inr heq)
  rw [given?, given?, Fields.find?_insert_of_ne hname, Fields.find?_insert_of_ne heditor]

/-- Where one key alone spells the label, its value is what is given. -/
theorem given?_alone (hkey : label.Spells key)
    (halone : ∀ p ∈ before ++ after, ¬label.Spells p.1) (v : Value) :
    label.given? (before ++ (key, v) :: after) = some v := by
  have hbefore : ∀ k, label.Spells k → Fields.find? k before = none := fun k hk =>
    Fields.find?_eq_none fun p hp heq =>
      halone p (List.mem_append_left after hp) (heq.symm ▸ hk)
  have hafter : Fields.find? label.editorName after = none :=
    Fields.find?_eq_none fun p hp heq =>
      halone p (List.mem_append_right before hp) (.inr heq)
  simp only [given?, Fields.find?_append, hbefore _ (.inl rfl), hbefore _ (.inr rfl),
    Option.none_or, Fields.find?, hafter]
  rcases hkey with rfl | rfl
  · by_cases heq : label.name = label.editorName <;> simp [heq]
  · simp

/-- Another value under a key changes what is given only to this value, and only if the key spells
the label. -/
theorem given?_change (label : Label) (before after : Data) (key : String) (v w : Value) :
    label.given? (before ++ (key, v) :: after) = label.given? (before ++ (key, w) :: after) ∨
      label.Spells key ∧ label.given? (before ++ (key, v) :: after) = some v ∧
        label.given? (before ++ (key, w) :: after) = some w := by
  simp only [given?]
  rcases Fields.find?_change before after key label.editorName v w with heditor | ⟨hkey, hv, hw⟩
  · rw [heditor]
    cases Fields.find? label.editorName (before ++ (key, w) :: after) with
    | some u => exact .inl rfl
    | none =>
      rcases Fields.find?_change before after key label.name v w with hname | ⟨hkey, hv, hw⟩
      · exact .inl (by rw [hname])
      · exact .inr ⟨.inl hkey, by rw [hv]; rfl, by rw [hw]; rfl⟩
  · exact .inr ⟨.inr hkey, by rw [hv]; rfl, by rw [hw]; rfl⟩

end Label

namespace Checked

variable {α β : Type} {place inner : List Step → List Step}

/-- The data, or what is wrong and where. -/
def findings (place : List Step → List Step) (c : Checked α) :
    Except (List (IssueKind × List Step)) α :=
  c.mapError (List.map (Issue.finding place))

theorem findings_map {f : α → β} {c d : Checked α} (h : findings place c = findings place d) :
    findings place (c.map f) = findings place (d.map f) := by
  cases c <;> cases d <;> simp_all [findings, Except.map, Except.mapError]

theorem findings_both {c c' : Checked α} {d d' : Checked β}
    (hc : findings place c = findings place c') (hd : findings place d = findings place d') :
    findings place (both c d) = findings place (both c' d') := by
  cases c <;> cases c' <;> cases d <;> cases d' <;>
    simp_all [findings, both, Except.mapError]

/-- A step further out is put in front of every place, as it is or in the plain spelling. -/
theorem findings_under {step top : Step} (h : ∀ path, place (step :: path) = top :: inner path)
    (c : Checked α) :
    findings place (c.under step) =
      (findings inner c).mapError (List.map fun p => (p.1, top :: p.2)) := by
  cases c with
  | ok a => rfl
  | error issues => simp [findings, under, Except.mapError, Issue.finding, Issue.under, h]

theorem findings_items {check : Value → Checked α} {vs ws : List Value}
    (hplace : ∀ n path, place (.index n :: path) = .index n :: inner path)
    (h : List.Forall₂ (fun v w => findings inner (check v) = findings inner (check w)) vs ws)
    (start : Nat) :
    findings place (items check start vs) = findings place (items check start ws) := by
  induction h generalizing start with
  | nil => rfl
  | cons hfirst _ ih =>
    refine findings_map (findings_both ?_ (ih (start + 1)))
    rw [findings_under (hplace start), findings_under (hplace start), hfirst]

/-- Objects with the same keys have the same findings if the values under them have. -/
theorem findings_entries {check : Value → Checked α} {fields others : Data}
    (hplace : ∀ k path, place (.key k :: path) = .key k :: inner path)
    (h : List.Forall₂ (fun p q => p.1 = q.1 ∧
      findings inner (check p.2) = findings inner (check q.2)) fields others) :
    findings place (entries check fields) = findings place (entries check others) := by
  induction h with
  | nil => rfl
  | @cons p q _ _ hfirst _ ih =>
    obtain ⟨k, v⟩ := p
    obtain ⟨k', w⟩ := q
    obtain ⟨rfl, hvalue⟩ := hfirst
    refine findings_map (findings_both ?_ ih)
    rw [findings_under (hplace k), findings_under (hplace k)]
    exact congrArg _ hvalue

/-- What is found about a field depends on the value given for it. -/
theorem findings_field {check : Value → Checked α} {label : Label} (fields : Data)
    (hplace : ∀ k, label.Spells k →
      ∀ path, place (.key k :: path) = .key label.name :: inner path) :
    findings place (field check label fields) =
      match label.given? fields with
      | some v =>
        (findings inner (check v)).mapError (List.map fun p => (p.1, .key label.name :: p.2))
      | none =>
        match label.default with
        | some v => findings place (check v)
        | none => .error [(.missing, .key label.name :: inner [])] := by
  unfold field Label.given?
  cases Fields.find? label.editorName fields with
  | some v => exact findings_under (hplace _ (.inr rfl)) (check v)
  | none =>
    cases Fields.find? label.name fields with
    | some v => exact findings_under (hplace _ (.inl rfl)) (check v)
    | none =>
      cases label.default with
      | some v => rfl
      | none => simp [findings, Except.mapError, Issue.finding, hplace _ (.inr rfl)]

end Checked

/-! ## Fields of a legible record -/

namespace Record

variable {r : Record} {label other : Label} {s t : Shape} {key : String}

theorem Includes.mem_labels (h : r.Includes label s) : label ∈ r.labels := by
  induction h with
  | first => exact List.mem_cons_self
  | later _ ih => exact List.mem_cons_of_mem _ ih

/-- Every part of a legible record is legible. -/
theorem Includes.legible (h : r.Includes label s) (hr : r.Legible) : s.Legible := by
  induction h with
  | first => exact hr.2.1
  | later _ ih => exact ih hr.2.2

/-- A key spells no more than one label of a legible record. -/
theorem not_spells_of_mem {rest : Record} (hr : (Record.field label s rest).Legible)
    (hother : other ∈ rest.labels) (hkey : label.Spells key) : ¬other.Spells key := by
  rcases hkey with rfl | rfl
  · exact (hr.1 other hother).1
  · exact (hr.1 other hother).2

/-- A key names one field at most. -/
theorem Includes.unique (h : r.Includes label s) (h' : r.Includes other t) (hr : r.Legible)
    (hkey : label.Spells key) (hkey' : other.Spells key) : label = other ∧ s = t := by
  induction h with
  | first =>
    cases h' with
    | first => exact ⟨rfl, rfl⟩
    | later h' => exact absurd hkey' (not_spells_of_mem hr h'.mem_labels hkey)
  | later h ih =>
    cases h' with
    | first => exact absurd hkey (not_spells_of_mem hr h.mem_labels hkey')
    | later h' => exact ih h' hr.2.2 hkey

/-- A key stands for the name of the label that it spells. -/
theorem Includes.place (h : r.Includes label s) (hr : r.Legible) (hkey : label.Spells key)
    (path : List Step) : r.place key path = .key label.name :: s.place path := by
  induction h with
  | first => rw [Record.place, if_pos hkey]
  | later h ih =>
    have hfirst : ¬Label.Spells _ key := fun hspells =>
      not_spells_of_mem hr h.mem_labels hspells hkey
    rw [Record.place, if_neg hfirst]
    exact ih hr.2.2 hkey

/-- What is found about a record is what is found about its fields. -/
theorem findings_check {place : List Step → List Step} (misfit : IssueKind) {given sent : Data} :
    ∀ r : Record, (∀ label s, r.Includes label s →
      Checked.findings place (Checked.field (s.check misfit) label given) =
        Checked.findings place (Checked.field (s.check misfit) label sent)) →
      Checked.findings place (r.check misfit given) = Checked.findings place (r.check misfit sent)
  | .done, _ => rfl
  | .field label s rest, h =>
    Checked.findings_both (h label s .first)
      (findings_check misfit rest fun other t hother => h other t (.later hother))

/-- Values for the fields that are the same to their checks are the same to the check of the
record. -/
theorem findings_check_of_given {misfit : IssueKind} {given sent : Data} (hr : r.Legible)
    (h : ∀ label s, r.Includes label s → label.given? given = label.given? sent ∨
      ∃ v w, label.given? given = some v ∧ label.given? sent = some w ∧
        Checked.findings s.place (s.check misfit v) =
          Checked.findings s.place (s.check misfit w)) :
    Checked.findings (Shape.record r).place ((Shape.record r).check misfit (.obj given)) =
      Checked.findings (Shape.record r).place ((Shape.record r).check misfit (.obj sent)) := by
  refine findings_check misfit r fun label s hlabel => ?_
  have hplace : ∀ k, label.Spells k → ∀ path,
      (Shape.record r).place (.key k :: path) = .key label.name :: s.place path :=
    fun k hk path => hlabel.place hr hk path
  rw [Checked.findings_field given hplace, Checked.findings_field sent hplace]
  rcases h label s hlabel with heq | ⟨v, w, hv, hw, hvalue⟩
  · rw [heq]
  · rw [hv, hw]
    exact congrArg (Except.mapError _) hvalue

end Record

/-! ## One change -/

namespace Label

variable {r : Record} {label other : Label} {s t : Shape} {before after : Data}
  {key key' : String}

/-- A key in its other spelling gives the same values for all fields. -/
theorem given?_respell (hr : r.Legible) (hlabel : r.Includes label s) (hkey : label.Spells key)
    (hkey' : label.Spells key') (halone : ∀ p ∈ before ++ after, ¬label.Spells p.1)
    (hother : r.Includes other t) (v : Value) :
    other.given? (before ++ (key, v) :: after) = other.given? (before ++ (key', v) :: after) := by
  by_cases heq : label = other
  · subst heq
    rw [given?_alone hkey halone, given?_alone hkey' halone]
  · -- Another field has other spellings, so that it finds neither of the two keys.
    have hskip : ∀ {k}, label.Spells k → ¬other.Spells k := fun hk hspells =>
      heq (hlabel.unique hother hr hk hspells).1
    rw [given?_insert (hskip hkey), given?_insert (hskip hkey')]

/-- Whether a value is given for the field. -/
def isGiven (label : Label) : Value → Bool
  | .obj fields => (label.given? fields).isSome
  | _ => false

end Label

namespace Shape

/-- Neither value of an edit is null. -/
theorem Edit.ne_null {s : Shape} {v w : Value} (h : s.Edit v w) : v ≠ .null ∧ w ≠ .null := by
  induction h with
  | optional _ ih => exact ih
  | _ => simp

/-- Lists that differ in one place. -/
theorem forall₂_of_middle {α : Type} {R : α → α → Prop} (hrefl : ∀ a, R a a)
    (before after : List α) {a b : α} (h : R a b) :
    List.Forall₂ R (before ++ a :: after) (before ++ b :: after) :=
  List.rel_append (List.forall₂_same.mpr fun c _ => hrefl c)
    (.cons h (List.forall₂_same.mpr fun c _ => hrefl c))

/-- A change of this kind makes no difference to what a check finds. -/
theorem Edit.findings (misfit : IssueKind) {s : Shape} {v w : Value} (h : s.Edit v w)
    (hs : s.Legible) :
    Checked.findings s.place (s.check misfit v) = Checked.findings s.place (s.check misfit w) := by
  induction h with
  | @optional s v w h ih =>
    rw [check_optional misfit s h.ne_null.1, check_optional misfit s h.ne_null.2]
    exact Checked.findings_map (ih hs)
  | @item s v w before after _ ih =>
    have hitems := forall₂_of_middle
      (R := fun v w => Checked.findings s.place (s.check misfit v) =
        Checked.findings s.place (s.check misfit w))
      (fun _ => rfl) before after (ih hs)
    exact Checked.findings_items (fun _ _ => rfl) hitems 0
  | @entry s v w before after key _ ih =>
    have hentries := forall₂_of_middle
      (R := fun p q : String × Value => p.1 = q.1 ∧
        Checked.findings s.place (s.check misfit p.2) =
          Checked.findings s.place (s.check misfit q.2))
      (fun _ => ⟨rfl, rfl⟩) before after (a := (key, v)) (b := (key, w)) ⟨rfl, ih hs⟩
    exact Checked.findings_entries (fun _ _ => rfl) hentries
  | @field r label s v w before after key hlabel hkey _ ih =>
    refine Record.findings_check_of_given hs fun other t hother => ?_
    refine (other.given?_change before after _ v w).imp_right fun ⟨hspells, hv, hw⟩ => ?_
    obtain ⟨rfl, rfl⟩ := hlabel.unique hother hs hkey hspells
    exact ⟨v, w, hv, hw, ih (hlabel.legible hs)⟩
  | respell before after v hlabel hkey hkey' halone =>
    exact Record.findings_check_of_given hs fun other t hother =>
      .inl (Label.given?_respell hs hlabel hkey hkey' halone hother v)
  | unknown before after v hkey =>
    exact Record.findings_check_of_given hs fun other t hother =>
      .inl (Label.given?_insert (hkey other hother.mem_labels) v).symm

/-- A change of this kind leaves it open to no field whether a value is given for it. -/
theorem Edit.isGiven {r : Record} {v w : Value} (h : (record r).Edit v w) (hr : r.Legible)
    {other : Label} {t : Shape} (hother : r.Includes other t) :
    other.isGiven v = other.isGiven w := by
  cases h with
  | @field _ label s v w before after key hlabel hkey _ =>
    rcases other.given?_change before after key v w with
      heq | ⟨-, hv, hw⟩
    · simp only [Label.isGiven, heq]
    · simp only [Label.isGiven, hv, hw, Option.isSome_some]
  | respell before after v hlabel hkey hkey' halone =>
    simp only [Label.isGiven, Label.given?_respell hr hlabel hkey hkey' halone hother v]
  | unknown before after v hkey =>
    simp only [Label.isGiven, Label.given?_insert (hkey other hother.mem_labels) v]

/-! ## Any number of changes -/

variable {s t : Shape} {v w : Value}

/-- What no single change alters, any number of them leaves alone. -/
theorem Respelled.eq_of_edit {β : Type} {f : Value → β}
    (hedit : ∀ v w, s.Edit v w → f v = f w) (h : s.Respelled v w) : f v = f w := by
  induction h with
  | rel _ _ h => exact hedit _ _ h
  | refl _ => rfl
  | symm _ _ _ ih => exact ih.symm
  | trans _ _ _ _ _ ih ih' => exact ih.trans ih'

/-- A value and its re-spelling have the same findings, place by place. -/
theorem Respelled.findings (h : s.Respelled v w) (hs : s.Legible) (misfit : IssueKind) :
    Checked.findings s.place (s.check misfit v) = Checked.findings s.place (s.check misfit w) :=
  h.eq_of_edit fun _ _ hedit => hedit.findings misfit hs

/-- A value and its re-spelling give the same fields. -/
theorem Respelled.isGiven {r : Record} (h : (record r).Respelled v w) (hr : r.Legible)
    {label : Label} (hlabel : r.Includes label t) : label.isGiven v = label.isGiven w :=
  h.eq_of_edit fun _ _ hedit => hedit.isGiven hr hlabel

/-- Changes inside a part are changes of the whole. -/
theorem Respelled.carry {whole : Value → Value}
    (hwhole : ∀ v w, s.Edit v w → t.Edit (whole v) (whole w)) (h : s.Respelled v w) :
    t.Respelled (whole v) (whole w) := by
  induction h with
  | rel _ _ h => exact .rel _ _ (hwhole _ _ h)
  | refl _ => exact .refl _
  | symm _ _ _ ih => exact .symm _ _ ih
  | trans _ _ _ _ _ ih ih' => exact .trans _ _ _ ih ih'

theorem Respelled.optional (h : s.Respelled v w) : (Shape.optional s).Respelled v w :=
  h.carry fun _ _ => .optional

/-- A re-spelling inside a field re-spells the object. -/
theorem Respelled.field {r : Record} {label : Label} (before after : Data) {key : String}
    (hlabel : r.Includes label s) (hkey : label.Spells key) (h : s.Respelled v w) :
    (record r).Respelled (.obj (before ++ (key, v) :: after))
      (.obj (before ++ (key, w) :: after)) :=
  h.carry fun _ _ => .field before after hlabel hkey

end Shape

namespace Checked

variable {α : Type} {place : List Step → List Step} {c d : Checked α}

/-- The same findings: the same data, or issues of the same kinds at the same places. -/
theorem findings_eq_iff : findings place c = findings place d ↔
    (∀ x, c = .ok x ↔ d = .ok x) ∧
      ∀ issues, c = .error issues → ∃ others, d = .error others ∧
        issues.map (Issue.finding place) = others.map (Issue.finding place) := by
  cases c <;> cases d <;> simp [findings, Except.mapError, eq_comm]

end Checked

theorem Record.exists_includes {label : Label} :
    ∀ {r : Record}, label ∈ r.labels → ∃ s, r.Includes label s
  | .field first s rest, h => by
    rcases List.mem_cons.mp h with rfl | h
    · exact ⟨s, .first⟩
    · obtain ⟨t, ht⟩ := exists_includes h
      exact ⟨t, .later ht⟩

namespace GameState

/-- How the field is found in a patch. -/
def Field.label (f : Field) : Label := ⟨f.name, f.editorName, some .null⟩

theorem Field.label_mem (f : Field) : f.label ∈ patchFields.labels := by
  cases f <;> simp [Record.labels, Field.label, Field.name, Field.editorName]

/-- A field is given exactly if one of its two names is a key. -/
theorem Field.isGiven_iff {f : Field} {given : Data} :
    f.label.isGiven (.obj given) = true ↔
      Fields.contains f.name given = true ∨ Fields.contains f.editorName given = true := by
  simp only [Label.isGiven, Label.given?, Option.isSome_or, Fields.contains, Bool.or_eq_true]
  exact Or.comm

/-- What is sent of a patch depends on which fields are given. -/
theorem sentFields_congr {given sent : Data}
    (h : ∀ label ∈ patchFields.labels, label.isGiven (.obj given) = label.isGiven (.obj sent))
    (patch : patchFields.Of) : sentFields given patch = sentFields sent patch := by
  refine List.filterMap_congr fun p _ => ?_
  simp only [← Field.isGiven_iff, h _ p.1.label_mem]

end GameState

namespace Document

/-- The shape of every document is legible. -/
theorem legible_shape (d : Document) : d.shape.Legible := by
  cases d <;> simp [Shape.Legible, Record.Legible, Record.labels, Label.Spells]

/-- Keys in another spelling and keys that name no field make no difference to how a document is
read: it is accepted as the same data, or refused for issues of the same kinds at the same places,
up to the spelling of their keys, and the same fields are given in it. Of a patch the same fields
are sent. -/
theorem check_respelled (d : Document) (misfit : IssueKind) {v w : Value}
    (h : d.shape.Respelled v w) :
    (∀ x, d.shape.check misfit v = .ok x ↔ d.shape.check misfit w = .ok x) ∧
    (∀ issues, d.shape.check misfit v = .error issues →
      ∃ others, d.shape.check misfit w = .error others ∧
        issues.map (Issue.finding d.shape.place) = others.map (Issue.finding d.shape.place)) ∧
    (∀ label ∈ d.record.labels, label.isGiven v = label.isGiven w) ∧
    (∀ given sent, d = .patch → v = .obj given → w = .obj sent →
      ∀ patch, GameState.sentFields given patch = GameState.sentFields sent patch) := by
  have hlegible := d.legible_shape
  have hgiven : ∀ label ∈ d.record.labels, label.isGiven v = label.isGiven w := by
    intro label hlabel
    obtain ⟨s, hs⟩ := Record.exists_includes hlabel
    exact h.isGiven hlegible hs
  obtain ⟨hdata, hissues⟩ := Checked.findings_eq_iff.mp (h.findings hlegible misfit)
  refine ⟨hdata, hissues, hgiven, ?_⟩
  rintro given sent rfl rfl rfl patch
  exact GameState.sentFields_congr hgiven patch

/-- An event whose limit is no number, as the editor spells it. -/
def moat : Value :=
  .obj
    [("id", .str "moat"),
      ("trigger", .obj [("repeatPolicy", .obj [("maxCount", .str "x")])])]

/-- The same event in the plain spelling, with a note. -/
def moatAnnotated : Value :=
  .obj
    [("id", .str "moat"),
      ("trigger", .obj [("repeat_policy", .obj [("note", .null), ("max_count", .str "x")])])]

/-- The annotated moat re-spells the other one. -/
theorem moat_respelled : event.shape.Respelled moat moatAnnotated := by
  have hcount : RepeatPolicy.record.Includes
      ⟨"max_count", "maxCount", some .null⟩ (.optional .whole) := .later .first
  have hpolicy : Trigger.record.Includes
      ⟨"repeat_policy", "repeatPolicy", some .null⟩ (.optional (.record RepeatPolicy.record)) :=
    .later (.later .first)
  have htrigger : Event.record.Includes
      ⟨"trigger", "trigger", some (.obj [])⟩ (.record Trigger.record) := .later (.later .first)
  have hinside : (Shape.record RepeatPolicy.record).Respelled (.obj [("maxCount", .str "x")])
      (.obj [("note", .null), ("max_count", .str "x")]) :=
    .trans _ _ _ (.rel _ _ (.respell [] [] (.str "x") hcount (.inr rfl) (.inl rfl) (by simp)))
      (.rel _ _ (.unknown [] [("max_count", .str "x")] .null (by
        simp [Record.labels, Label.Spells])))
  have hkey : (Shape.record Trigger.record).Respelled
      (.obj [("repeatPolicy", .obj [("maxCount", .str "x")])])
      (.obj [("repeat_policy", .obj [("note", .null), ("max_count", .str "x")])]) :=
    .trans _ _ _ (Shape.Respelled.field [] [] hpolicy (.inr rfl) hinside.optional)
      (.rel _ _ (.respell [] [] _ hpolicy (.inr rfl) (.inl rfl) (by simp)))
  exact Shape.Respelled.field [("id", .str "moat")] [] htrigger (.inl rfl) hkey

/-- Both moats are refused, with the same findings. -/
theorem moat_check_respelled :
    event.shape.Respelled moat moatAnnotated ∧
      ∃ issues others, event.shape.read moat = .error issues ∧
        event.shape.read moatAnnotated = .error others ∧
        issues.map (Issue.finding event.shape.place) =
          others.map (Issue.finding event.shape.place) := by
  obtain ⟨issues, hissues⟩ : ∃ issues, event.shape.read moat = .error issues := ⟨_, rfl⟩
  obtain ⟨-, hsame, -⟩ := check_respelled event .notRecord moat_respelled
  obtain ⟨others, hothers, heq⟩ := hsame issues hissues
  exact ⟨moat_respelled, issues, others, hissues, hothers, heq⟩

end Document

end MapEvents
