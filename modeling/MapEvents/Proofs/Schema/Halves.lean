import MapEvents.Proofs.Schema.Refusal
import MapEvents.Proofs.Text.Half
import MapEvents.Service.Response
/-!
# Data without halves of characters

A text with half a character can be read, but not sent. Data gets such texts from outside alone:
what is written for data that was read can be sent, if all texts that were read can. Keys of maps
may hold halves and are sent all the same, with replacements.
-/

namespace MapEvents

/-! ## Values that can be sent -/

namespace Value

/-- No text inside the value holds half a character. -/
def Sendable (v : Value) : Prop := ∀ u ∈ v.leaves, u.isBroken = false

/-- A value can be sent exactly if none of its leaves is broken. -/
theorem sendable_iff {v : Value} : v.Sendable ↔ v.leaves.any isBroken = false := by
  simp only [Sendable, List.any_eq_false, Bool.not_eq_true]

theorem sendable_leaf {v : Value} (hleaf : v.leaves = [v]) (hv : v.isBroken = false) :
    v.Sendable := by
  simp [Sendable, hleaf, hv]

/-- What is made of parts of a value that can be sent can be sent too. -/
theorem Sendable.of_within {v w : Value} (hw : w.Sendable) (h : v.Within w) : v.Sendable :=
  fun u hu => hw u (h.leaves hu)

/-- A list can be sent if its items can. -/
theorem sendable_list {items : List Value} :
    (Value.list items).Sendable ↔ ∀ v ∈ items, v.Sendable := by
  refine ⟨fun h v hv => h.of_within (.of_mem_items hv), fun h => ?_⟩
  induction items with
  | nil => exact fun u hu => nomatch hu
  | cons v rest ih =>
    obtain ⟨hfirst, hrest⟩ := List.forall_mem_cons.mp h
    exact List.forall_mem_append.mpr ⟨hfirst, ih hrest⟩

/-- An object can be sent if the values of its fields can. -/
theorem sendable_obj {fields : Data} :
    (Value.obj fields).Sendable ↔ ∀ p ∈ fields, p.2.Sendable := by
  refine ⟨fun h p hp => h.of_within (.of_mem_fields hp), fun h => ?_⟩
  induction fields with
  | nil => exact fun u hu => nomatch hu
  | cons p rest ih =>
    obtain ⟨hfirst, hrest⟩ := List.forall_mem_cons.mp h
    exact List.forall_mem_append.mpr ⟨hfirst, ih hrest⟩

/-- No text and no name inside the value holds half a character. -/
structure Plain (v : Value) : Prop where
  sendable : v.Sendable
  names : ∀ k ∈ v.names, Half.isIn k = false

/-- What is made of parts of a plain value is plain. -/
theorem Plain.of_within {v w : Value} (hw : w.Plain) (h : v.Within w) : v.Plain :=
  ⟨hw.sendable.of_within h, fun k hk => hw.names k (h.names hk)⟩

end Value

/-! ## Leaves -/

namespace Moment

/-- The text of a date is plain. -/
theorem ascii_dateText (d : Date) : Ascii (dateText d) := by
  simp only [dateText, two, Ascii.append_iff, Ascii.cons_iff, Ascii.padded, and_true, true_and]
  decide

theorem ascii_timeText (micros : Nat) : Ascii (timeText micros) := by
  simp only [timeText, two, Ascii.append_iff, Ascii.cons_iff, Ascii.padded, and_true, true_and]
  refine ⟨by decide, ?_⟩
  split
  · exact .nil
  · exact Ascii.cons_iff.mpr ⟨by decide, .padded 6 _⟩

theorem ascii_offsetText (style : UtcStyle) (minutes : Int) : Ascii (offsetText style minutes) := by
  unfold offsetText
  split
  · exact Ascii.cons_iff.mpr ⟨by decide, .nil⟩
  · simp only [two, Ascii.append_iff, Ascii.cons_iff, Ascii.padded, and_true]
    refine ⟨?_, by decide⟩
    split <;> decide

/-- Moments are written in ASCII. -/
theorem ascii_text (style : UtcStyle) (m : Moment) : Ascii (m.text style).toList := by
  rw [text, String.toList_ofList, Ascii.append_iff, Ascii.append_iff, Ascii.cons_iff]
  refine ⟨⟨ascii_dateText _, by decide, ascii_timeText _⟩, ?_⟩
  cases m.offset with
  | none => exact .nil
  | some minutes => exact ascii_offsetText style minutes

end Moment

namespace Leaf

theorem get_of_position? {name : String} {names : List String} {i : Fin names.length}
    (h : position? name names = some i) : names.get i = name := by
  induction names with
  | nil => exact i.elim0
  | cons first rest ih =>
    by_cases hname : first = name
    · have hzero := (if_pos hname).symm.trans h
      obtain rfl := Option.some.inj hzero
      exact hname
    · have hrest := (if_neg hname).symm.trans h
      obtain ⟨j, hj, rfl⟩ := Option.map_eq_some_iff.mp hrest
      exact ih hj

/-- What is written for a leaf that was read can be sent if the value can. -/
theorem sendable_dump (style : UtcStyle) {l : Leaf} {v : Value} {x : l.Of} (h : l.check v = .ok x)
    (hv : v.Sendable) : (l.dump style x).Sendable := by
  cases l with
  | text =>
    have hread : readText v = .ok x := verdict_of_checked h
    cases v with
    | str s =>
      cases hread
      exact hv
    | _ => cases hread
  | choice names =>
    have hread : readChoice names v = .ok x := verdict_of_checked h
    cases v with
    | str s =>
      simp only [readChoice] at hread
      split at hread
      · next i hi =>
        cases hread
        show (Value.str (names.get x)).Sendable
        rw [get_of_position? hi]
        exact hv
      · cases hread
    | _ => cases hread
  | flag =>
    cases v with
    | null | list | obj => cases h
    | _ =>
      cases h
      exact hv
  | free =>
    cases h
    exact hv
  | moment =>
    have hascii := Moment.ascii_text style x
    exact Value.sendable_leaf rfl (Half.isIn_eq_false_of_ascii hascii)
  | count => cases x <;> exact Value.sendable_leaf rfl rfl
  | _ => exact Value.sendable_leaf rfl rfl

end Leaf

mutual
/-- Of a value that can be sent, what is read and written again can be sent. -/
theorem Shape.sendable_dump (misfit : IssueKind) (style : UtcStyle) :
    ∀ (s : Shape), s.Defaults (fun _ v => v.Sendable) → ∀ {v : Value} {x : s.Of},
      s.check misfit v = .ok x → v.Sendable → (s.dump style x).Sendable
  | .leaf _, _, _, _, h, hv => Leaf.sendable_dump style h hv
  | .optional s, hs, v, x, h, hv => by
    by_cases hnull : v = .null
    · subst hnull
      cases h
      exact hv
    · rw [Shape.check_optional misfit s hnull] at h
      obtain ⟨y, hy, rfl⟩ := Checked.map_eq_ok.mp h
      exact Shape.sendable_dump misfit style s hs hy hv
  | .list s, hs, v, x, h, hv => by
    cases v with
    | list items =>
      refine Value.sendable_list.mpr (List.forall_mem_map.mpr fun y hy => ?_)
      obtain ⟨w, hw, hcheck⟩ := Checked.exists_check_of_items h y hy
      exact Shape.sendable_dump misfit style s hs hcheck (Value.sendable_list.mp hv w hw)
    | _ => cases h
  | .map s, hs, v, x, h, hv => by
    cases v with
    | obj fields =>
      refine Value.sendable_obj.mpr (List.forall_mem_map.mpr fun p hp => ?_)
      obtain ⟨q, hq, hcheck⟩ := Checked.exists_check_of_entries h p hp
      exact Shape.sendable_dump misfit style s hs hcheck (Value.sendable_obj.mp hv q hq)
    | _ => cases h
  | .record fields, hs, v, x, h, hv => by
    cases v with
    | obj given => exact Value.sendable_obj.mpr (Record.sendable_dump misfit style fields hs h hv)
    | _ => cases h

/-- Of fields that can be sent, what a record reads and writes again can be sent. -/
theorem Record.sendable_dump (misfit : IssueKind) (style : UtcStyle) :
    ∀ (r : Record), r.Defaults (fun _ v => v.Sendable) → ∀ {given : Data} {x : r.Of},
      r.check misfit given = .ok x → (Value.obj given).Sendable →
        ∀ p ∈ r.dump style x, p.2.Sendable
  | .done, _, _, _, _, _ => fun p hp => nomatch hp
  | .field label s rest, hr, given, (y, ys), h, hgiven => by
    obtain ⟨hfirst, hrest⟩ := Checked.both_eq_ok.mp h
    obtain ⟨v, hv, hcheck⟩ := Checked.field_eq_ok_iff.mp hfirst
    have hsendable : v.Sendable := by
      rcases Option.or_eq_some_iff.mp hv with hfound | ⟨-, hdefault⟩
      · rcases Option.or_eq_some_iff.mp hfound with hfound | ⟨-, hfound⟩
        · exact Value.sendable_obj.mp hgiven _ (Fields.mem_of_find? hfound)
        · exact Value.sendable_obj.mp hgiven _ (Fields.mem_of_find? hfound)
      · exact hr.1 v hdefault
    refine List.forall_mem_cons.mpr ⟨?_, Record.sendable_dump misfit style rest hr.2.2 hrest hgiven⟩
    exact Shape.sendable_dump misfit style s hr.2.1 hcheck hsendable
end

end MapEvents
