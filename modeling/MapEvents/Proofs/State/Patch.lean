import MapEvents.Proofs.Schema.Halves
import MapEvents.Proofs.State.Update
/-!
# Patches and updates

A patch of the game state is checked as a document of its own, in which each field may be null, and
what was sent of it is written down again for an update. Both ways of naming fields are the same: an
update with what was sent is accepted exactly if the update with the raw values is, and both lead to
one state. A patch that is refused would be refused as an update too. A null passes the check of a
patch, and the update refuses it.
-/

namespace MapEvents

namespace GameState

namespace Field

/-- Shape of the values for the field. -/
abbrev shape : Field → Shape
  | flags => flagsShape
  | inventory => inventoryShape
  | level => .whole
  | position => positionShape
  | time => .real
  | history => historyShape

/-- What the field holds for data of its shape. -/
def hold : (f : Field) → f.shape.Of → f.Held
  | flags, x => x
  | inventory, x => List.map Item.ofData x
  | level, x => x
  | position, x => Position.ofData x
  | time, x => x
  | history, x => List.map HistoryEntry.ofData x

/-- A field is read by its shape, and then held as the state holds it. -/
theorem read_eq_ok_iff {f : Field} {v : Value} {y : f.Held} :
    f.read v = .ok y ↔ ∃ x, f.shape.read v = .ok x ∧ f.hold x = y := by
  cases f with
  | inventory => exact Checked.map_eq_ok
  | position => exact Checked.map_eq_ok
  | history => exact Checked.map_eq_ok
  | _ =>
    constructor
    · intro h
      exact ⟨y, h, rfl⟩
    · rintro ⟨x, hx, rfl⟩
      exact hx

/-- What a patch has for the field. -/
def patched : (f : Field) → patchFields.Of → Option f.shape.Of
  | flags, (x, _) => x
  | inventory, (_, x, _) => x
  | level, (_, _, x, _) => x
  | position, (_, _, _, x, _) => x
  | time, (_, _, _, _, x, _) => x
  | history, (_, _, _, _, _, x, _) => x

/-- A key names a field if it spells its label. -/
theorem ofKey?_eq_some_iff {f : Field} {key : String} :
    ofKey? key = some f ↔ f.label.Spells key := by
  constructor
  · intro h
    have hname := List.find?_some h
    simp only [decide_eq_true_eq] at hname
    exact hname.imp Eq.symm Eq.symm
  · rintro (rfl | rfl) <;> cases f <;> rfl

@[simp]
theorem ofKey?_name (f : Field) : ofKey? f.name = some f := ofKey?_eq_some_iff.mpr (.inl rfl)

/-- A null is no value for any field. -/
theorem read_null (f : Field) (y : f.Held) : f.read .null ≠ .ok y := by
  cases f <;> intro h <;> cases h

theorem proper_shape (f : Field) : f.shape.Proper := by
  cases f <;>
    simp [Shape.Proper, Record.Proper, Record.names, Shape.NeverNull, Leaf.Proper]

/-- A value that a patch accepts and the data that is written for it stand for the same in an
update. -/
theorem read_dump_iff {f : Field} {misfit : IssueKind} {v : Value} {x : Option f.shape.Of}
    (h : (Shape.optional f.shape).check misfit v = .ok x) (style : UtcStyle) (y : f.Held) :
    f.read ((Shape.optional f.shape).dump style x) = .ok y ↔ f.read v = .ok y := by
  by_cases hv : v = .null
  · subst hv
    cases h
    rfl
  · rw [Shape.check_optional misfit f.shape hv] at h
    obtain ⟨z, hz, rfl⟩ := Checked.map_eq_ok.mp h
    have hread : f.shape.read v = .ok z := Shape.check_eq_ok_of_misfit misfit .notRecord f.shape hz
    have hback : f.shape.read (f.shape.dump style z) = .ok z :=
      Shape.check_dump .notRecord style f.shape f.proper_shape z
        (Shape.sound_of_check misfit f.shape hz)
    show f.read (f.shape.dump style z) = .ok y ↔ _
    rw [read_eq_ok_iff, read_eq_ok_iff, hback, hread]

end Field

/-! ## Values for the fields -/

/-- Every key names a field. -/
def NamesKnown (given : Data) : Prop := ∀ p ∈ given, ∃ f, Field.ofKey? p.1 = some f

variable {given : Data} {f : Field}

/-- A value that is given for a field stands under a key that names it. -/
theorem names_of_given? {v : Value} (h : f.label.given? given = some v) :
    ∃ p ∈ given, Field.ofKey? p.1 = some f ∧ p.2 = v := by
  rcases Option.or_eq_some_iff.mp h with heditor | ⟨-, hname⟩
  · exact ⟨_, Fields.mem_of_find? heditor, Field.ofKey?_eq_some_iff.mpr (.inr rfl), rfl⟩
  · exact ⟨_, Fields.mem_of_find? hname, Field.ofKey?_eq_some_iff.mpr (.inl rfl), rfl⟩

/-- A field that is named once is given the value under its name. -/
theorem given?_of_mem (honce : NamesOnce given) {p : String × Value} (hp : p ∈ given)
    (hf : Field.ofKey? p.1 = some f) : f.label.given? given = some p.2 := by
  obtain ⟨before, after, rfl⟩ := List.append_of_mem hp
  refine Label.given?_alone (Field.ofKey?_eq_some_iff.mp hf) (fun q hq hspells => ?_) p.2
  have hperm : (before ++ p :: after).Perm (p :: (before ++ after)) := List.perm_middle
  exact ((honce.perm hperm).of_cons.2 f hf) ⟨q, hq, Field.ofKey?_eq_some_iff.mpr hspells⟩

/-- An update names a field exactly if it gives a value for it, unless it names one twice. -/
theorem names_iff_exists_given? (honce : NamesOnce given) :
    Names given f ↔ ∃ v, f.label.given? given = some v := by
  constructor
  · rintro ⟨p, hp, hf⟩
    exact ⟨p.2, given?_of_mem honce hp hf⟩
  · rintro ⟨v, hv⟩
    obtain ⟨p, hp, hf, -⟩ := names_of_given? hv
    exact ⟨p, hp, hf⟩

/-- Replacing fields, field by field. -/
theorem replaces_iff (honce : NamesOnce given) (hknown : NamesKnown given) {s t : GameState} :
    Replaces given s t ↔ ∀ f : Field,
      (∀ v, f.label.given? given = some v → f.read v = .ok (f.get t)) ∧
        (f.label.given? given = none → f.get t = f.get s) := by
  constructor
  · intro h f
    constructor
    · intro v hv
      obtain ⟨p, hp, hf, rfl⟩ := names_of_given? hv
      obtain ⟨g, hg, hread⟩ := h.named p hp
      obtain rfl : f = g := Option.some.inj (hf.symm.trans hg)
      exact hread
    · intro hnone
      refine h.others f fun hnames => ?_
      obtain ⟨v, hv⟩ := (names_iff_exists_given? honce).mp hnames
      rw [hnone] at hv
      cases hv
  · intro h
    refine ⟨fun p hp => ?_, fun f hf => (h f).2 ?_⟩
    · obtain ⟨f, hf⟩ := hknown p hp
      exact ⟨f, hf, (h f).1 p.2 (given?_of_mem honce hp hf)⟩
    · refine Option.eq_none_iff_forall_ne_some.mpr fun v hv => hf ?_
      exact (names_iff_exists_given? honce).mpr ⟨v, hv⟩

/-- An update that names fields alone is refused for its values only. -/
theorem invalid_of_update (hknown : NamesKnown given) {s : GameState} {fault : Fault}
    (h : update given s = .error fault) : ∃ issues, fault = .invalid issues := by
  obtain ⟨named, hnamed⟩ : ∃ named, touched given [] = .ok named := exists_touched_iff.mpr hknown
  simp only [update, hnamed] at h
  split at h
  · next issues _ =>
    cases h
    exact ⟨issues, rfl⟩
  · cases h

/-! ## What a patch sends -/

/-- The fields of a patch are checked one by one. -/
theorem check_patchFields_iff {misfit : IssueKind} {patch : patchFields.Of} :
    patchFields.check misfit given = .ok patch ↔
      ∀ f : Field, Checked.field ((Shape.optional f.shape).check misfit) f.label given =
        .ok (f.patched patch) := by
  obtain ⟨flags, inventory, level, position, time, history, ⟨⟩⟩ := patch
  constructor
  · intro h f
    obtain ⟨hflags, h⟩ := Checked.both_eq_ok.mp h
    obtain ⟨hinventory, h⟩ := Checked.both_eq_ok.mp h
    obtain ⟨hlevel, h⟩ := Checked.both_eq_ok.mp h
    obtain ⟨hposition, h⟩ := Checked.both_eq_ok.mp h
    obtain ⟨htime, h⟩ := Checked.both_eq_ok.mp h
    obtain ⟨hhistory, -⟩ := Checked.both_eq_ok.mp h
    cases f <;> assumption
  · intro h
    refine Checked.both_eq_ok.mpr ⟨h .flags, Checked.both_eq_ok.mpr ⟨h .inventory, ?_⟩⟩
    refine Checked.both_eq_ok.mpr ⟨h .level, Checked.both_eq_ok.mpr ⟨h .position, ?_⟩⟩
    exact Checked.both_eq_ok.mpr ⟨h .time, Checked.both_eq_ok.mpr ⟨h .history, rfl⟩⟩

/-- What a patch gives for a field was checked by the shape of the field. -/
theorem check_of_given? {misfit : IssueKind} {patch : patchFields.Of}
    (hpatch : patchFields.check misfit given = .ok patch) {v : Value}
    (hv : f.label.given? given = some v) :
    (Shape.optional f.shape).check misfit v = .ok (f.patched patch) := by
  obtain ⟨w, hw, hcheck⟩ := Checked.field_eq_ok_iff.mp (check_patchFields_iff.mp hpatch f)
  obtain rfl : v = w := by simpa [hv] using hw
  exact hcheck

/-- A patch is accepted exactly if each value in it is null or fits its field. -/
theorem exists_patch_iff {misfit : IssueKind} :
    (∃ patch, patchFields.check misfit given = .ok patch) ↔
      ∀ (f : Field) v, f.label.given? given = some v →
        ∃ x, (Shape.optional f.shape).check misfit v = .ok x := by
  constructor
  · rintro ⟨patch, hpatch⟩ f v hv
    exact ⟨f.patched patch, check_of_given? hpatch hv⟩
  · intro h
    have hfield : ∀ f : Field, ∃ x,
        Checked.field ((Shape.optional f.shape).check misfit) f.label given = .ok x := by
      intro f
      cases hv : f.label.given? given with
      | none => exact ⟨none, Checked.field_eq_ok_iff.mpr ⟨.null, by rw [hv]; rfl, rfl⟩⟩
      | some v =>
        obtain ⟨x, hx⟩ := h f v hv
        exact ⟨x, Checked.field_eq_ok_iff.mpr ⟨v, by rw [hv]; rfl, hx⟩⟩
    obtain ⟨patched, hpatched⟩ := Classical.axiomOfChoice hfield
    refine ⟨(patched .flags, patched .inventory, patched .level, patched .position, patched .time,
      patched .history, ()), check_patchFields_iff.mpr fun f => ?_⟩
    cases f <;> exact hpatched _

/-- What is sent for a field of a patch. -/
def Field.sent (f : Field) (patch : patchFields.Of) : Value :=
  (Shape.optional f.shape).dump .numeric (f.patched patch)

/-- The fields that are sent are those that are given, in the order of the state. -/
theorem sentFields_eq (given : Data) (patch : patchFields.Of) :
    sentFields given patch =
      (Field.all.filter fun f => f.label.isGiven (.obj given)).map fun f =>
        (f.name, f.sent patch) := by
  have hzip : Field.all.zip (patchFields.dump .numeric patch) =
      Field.all.map fun f => (f, (f.editorName, f.sent patch)) := rfl
  rw [sentFields, hzip, List.filterMap_map, ← List.filterMap_eq_map, List.filterMap_filter]
  refine List.filterMap_congr fun f _ => ?_
  simp only [Function.comp_apply, Field.isGiven_iff]

/-- A field is sent under its own name exactly if it is given. -/
theorem mem_sentFields_iff {patch : patchFields.Of} {p : String × Value} :
    p ∈ sentFields given patch ↔
      ∃ f : Field, f.label.isGiven (.obj given) = true ∧ p = (f.name, f.sent patch) := by
  simp only [sentFields_eq, List.mem_map, List.mem_filter, Field.mem_all, true_and, eq_comm]

/-- Only known fields are sent. -/
theorem namesKnown_sentFields (given : Data) (patch : patchFields.Of) :
    NamesKnown (sentFields given patch) := by
  intro p hp
  obtain ⟨f, -, rfl⟩ := mem_sentFields_iff.mp hp
  exact ⟨f, f.ofKey?_name⟩

/-- None of them is sent twice. -/
theorem namesOnce_sentFields (given : Data) (patch : patchFields.Of) :
    NamesOnce (sentFields given patch) := by
  rw [NamesOnce, sentFields_eq, List.filterMap_map]
  simp only [Function.comp_def, Field.ofKey?_name, List.filterMap_some]
  exact Field.nodup_all.filter _

/-- A field is sent exactly if it is given. -/
theorem given?_sentFields (patch : patchFields.Of) (f : Field) :
    f.label.given? (sentFields given patch) =
      (f.label.given? given).map fun _ => f.sent patch := by
  cases hv : f.label.given? given with
  | none =>
    refine Option.eq_none_iff_forall_ne_some.mpr fun w hw => ?_
    obtain ⟨p, hp, hf, -⟩ := names_of_given? hw
    obtain ⟨g, hg, rfl⟩ := mem_sentFields_iff.mp hp
    obtain rfl : g = f := Option.some.inj (g.ofKey?_name.symm.trans hf)
    simp [Label.isGiven, hv] at hg
  | some v =>
    have hmem : (f.name, f.sent patch) ∈ sentFields given patch :=
      mem_sentFields_iff.mpr ⟨f, by simp [Label.isGiven, hv], rfl⟩
    exact given?_of_mem (namesOnce_sentFields given patch) hmem f.ofKey?_name

/-! ## Both ways -/

variable {misfit : IssueKind} {patch : patchFields.Of}

/-- The fields that are sent are those that the patch names. -/
theorem names_sentFields (honce : NamesOnce given) :
    Names (sentFields given patch) f ↔ Names given f := by
  rw [names_iff_exists_given? (namesOnce_sentFields given patch), names_iff_exists_given? honce,
    given?_sentFields]
  cases f.label.given? given <;> simp

/-- An update with what a patch sends leads where the update with the raw values leads. -/
theorem update_sentFields (honce : NamesOnce given) (hknown : NamesKnown given)
    (hpatch : patchFields.check misfit given = .ok patch) {s t : GameState} :
    update (sentFields given patch) s = .ok t ↔ update given s = .ok t := by
  have hread : ∀ (f : Field) v, f.label.given? given = some v →
      (f.read (f.sent patch) = .ok (f.get t) ↔ f.read v = .ok (f.get t)) := fun f v hv =>
    Field.read_dump_iff (check_of_given? hpatch hv) .numeric _
  rw [update_eq_ok_iff (namesOnce_sentFields given patch), update_eq_ok_iff honce,
    replaces_iff (namesOnce_sentFields given patch) (namesKnown_sentFields given patch),
    replaces_iff honce hknown]
  refine forall_congr' fun f => ?_
  rw [given?_sentFields]
  cases hv : f.label.given? given with
  | none => simp
  | some v => simpa using hread f v hv

/-- A patch is accepted if the update with its values is. -/
theorem exists_patch_of_accepts (misfit : IssueKind) (h : Accepts given) :
    ∃ patch, patchFields.check misfit given = .ok patch := by
  refine exists_patch_iff.mpr fun f v hv => ?_
  obtain ⟨p, hp, hf, rfl⟩ := names_of_given? hv
  obtain ⟨g, y, hg, hread⟩ := h p hp
  obtain rfl : f = g := Option.some.inj (hf.symm.trans hg)
  obtain ⟨x, hx, -⟩ := Field.read_eq_ok_iff.mp hread
  have hnull : p.2 ≠ .null := by
    intro heq
    rw [heq] at hread
    exact f.read_null y hread
  refine ⟨some x, ?_⟩
  rw [Shape.check_optional misfit f.shape hnull,
    Shape.check_eq_ok_of_misfit .notRecord misfit f.shape hx]
  rfl

/-! ## States that can be sent -/

namespace Field

/-- Data of its shape for what the field holds. -/
def data : (f : Field) → f.Held → f.shape.Of
  | flags, x => x
  | inventory, x => List.map Item.toData x
  | level, x => x
  | position, x => Position.toData x
  | time, x => x
  | history, x => List.map HistoryEntry.toData x

theorem data_hold (f : Field) (x : f.shape.Of) : f.data (f.hold x) = x := by
  have hitem : ∀ ys : List Item.record.Of, (ys.map Item.ofData).map Item.toData = ys := by
    intro ys
    rw [List.map_map]
    exact List.map_id'' (fun _ => rfl) ys
  have houtcome : ∀ o : Fin 3, (Outcome.ofData o).toData = o := by
    rintro ⟨_ | _ | _ | n, hn⟩
    · rfl
    · rfl
    · rfl
    · omega
  have hentry : ∀ ys : List HistoryEntry.record.Of,
      (ys.map HistoryEntry.ofData).map HistoryEntry.toData = ys := by
    intro ys
    rw [List.map_map]
    refine List.map_id'' (fun y => ?_) ys
    obtain ⟨event, stamp, outcome, ⟨⟩⟩ := y
    exact congrArg (fun o => (event, stamp, o, ())) (houtcome outcome)
  cases f with
  | inventory => exact hitem x
  | history => exact hentry x
  | _ => rfl

/-- The value that stands for what the field holds. -/
def value (f : Field) (style : UtcStyle) (x : f.Held) : Value := f.shape.dump style (f.data x)

/-- What was read from a value that can be sent can be sent. -/
theorem sendable_value (style : UtcStyle) {f : Field} {v : Value} {y : f.Held}
    (h : f.read v = .ok y) (hv : v.Sendable) : (f.value style y).Sendable := by
  obtain ⟨x, hx, rfl⟩ := read_eq_ok_iff.mp h
  have hzero : (Value.int 0).Sendable := Value.sendable_leaf rfl rfl
  have hdefaults : f.shape.Defaults fun _ v => v.Sendable := by
    cases f <;> simp [Shape.Defaults, Record.Defaults, hzero]
  rw [value, data_hold]
  exact Shape.sendable_dump .notRecord style f.shape hdefaults hx hv

end Field

/-- A state can be sent exactly if all its fields can. -/
theorem sendable_toValue_iff {style : UtcStyle} {s : GameState} :
    (s.toValue style).Sendable ↔ ∀ f : Field, (f.value style (f.get s)).Sendable := by
  have hfields : s.toValue style =
      .obj (Field.all.map fun f => (f.editorName, f.value style (f.get s))) := rfl
  rw [hfields, Value.sendable_obj, List.forall_mem_map]
  exact ⟨fun h f => h f f.mem_all, fun h f _ => h f⟩

/-- A state that can be sent, with fields replaced by values that can be sent, can be sent. -/
theorem Replaces.sendable {s t : GameState} (h : Replaces given s t) {style : UtcStyle}
    (hs : (s.toValue style).Sendable) (hgiven : (Value.obj given).Sendable) :
    (t.toValue style).Sendable := by
  refine sendable_toValue_iff.mpr fun f => ?_
  by_cases hf : Names given f
  · obtain ⟨p, hp, hname⟩ := hf
    obtain ⟨g, hg, hread⟩ := h.named p hp
    obtain rfl : f = g := Option.some.inj (hname.symm.trans hg)
    exact Field.sendable_value style hread (Value.sendable_obj.mp hgiven p hp)
  · rw [h.others f hf]
    exact sendable_toValue_iff.mp hs f

end GameState

end MapEvents
