import MapEvents.Proofs.Session.Screen
import MapEvents.Proofs.State.Update
/-!
# Updates of a session

An update of a session changes its game state, and only the game state: the fields that it names get
new values, and the others, the clock, the journal and the latest execution are left as they are. A
refused update changes nothing. Whether an update is refused, and with which fault, can be told from
the update alone, and updates of different fields may be made in either order, or as one.
-/

namespace MapEvents

variable {σ : Type}

namespace World

open GameState

/-- The world with another state after an update. Entries that an update brings along were not
stamped by the clock. -/
def updated (given : Data) (t : GameState) (w : World σ) : World σ :=
  { w with
    state := t
    recent := if given.any fun p => Field.ofKey? p.1 = some .history then 0 else w.recent }

theorem update_of_ok {given : Data} {w : World σ} {t : GameState}
    (h : w.state.update given = .ok t) : w.update given = (.ok (), w.updated given t) := by
  simp only [update, h, updated]

theorem update_of_error {given : Data} {w : World σ} {fault : Fault}
    (h : w.state.update given = .error fault) : w.update given = (.error fault, w) := by
  simp only [update, h]

/-- An update is accepted exactly if the state accepts it, and leaves the updated world. -/
theorem update_eq_ok_iff {given : Data} {w v : World σ} :
    w.update given = (.ok (), v) ↔ ∃ t, w.state.update given = .ok t ∧ v = w.updated given t := by
  constructor
  · intro h
    cases ht : w.state.update given with
    | error fault =>
      rw [update_of_error ht] at h
      cases h
    | ok t =>
      rw [update_of_ok ht] at h
      exact ⟨t, rfl, (Prod.mk.inj h).2.symm⟩
  · rintro ⟨t, ht, rfl⟩
    exact update_of_ok ht

/-- The answer to an update is the same in every world. -/
theorem update_answer (given : Data) (w u : World σ) : (w.update given).1 = (u.update given).1 := by
  cases hw : w.state.update given with
  | error fault => rw [update_of_error hw, update_of_error (update_fault hw u.state)]
  | ok t =>
    cases hu : u.state.update given with
    | error fault => exact nomatch hw.symm.trans (update_fault hu w.state)
    | ok t' => rw [update_of_ok hw, update_of_ok hu]

/-- Whether an update that names no field twice is accepted does not depend on the world. -/
theorem update_ok_iff_accepts {given : Data} (honce : NamesOnce given) (w : World σ) :
    (w.update given).1 = .ok () ↔ Accepts given := by
  rw [← exists_update_iff honce w.state]
  cases hw : w.state.update given with
  | error fault => simp [update_of_error hw]
  | ok t => simp [update_of_ok hw]

/-- Two updates in a row, as one. -/
theorem updated_updated {given other both : Data} (hperm : both.Perm (given ++ other))
    (t u : GameState) (w : World σ) :
    (w.updated given t).updated other u = w.updated both u := by
  have hany : (both.any fun p => Field.ofKey? p.1 = some .history) =
      (given ++ other).any fun p => Field.ofKey? p.1 = some .history := hperm.any_eq
  simp only [updated, hany, List.any_append]
  cases other.any fun p => decide (Field.ofKey? p.1 = some .history) with
  | true => simp only [Bool.or_true, if_true]
  | false => simp only [Bool.or_false, Bool.false_eq_true, if_false]

/-- Updates that name no field twice act on the fields that they name and on nothing else, in every
world. What they answer depends on the update alone: it is accepted exactly if every name is known
and every value stands for something in its field, and checking the whole new state would give the
same. A refused update leaves the world as it is. After an accepted one the named fields hold what
their values stand for, and the rest is as it was. Accepted updates of different fields lead to one
world in either order, and all at once. -/
theorem update_acts_on_named_fields {given other : Data} (hgiven : NamesOnce given)
    (hother : NamesOnce other) (w : World σ) :
    ((w.update given).1 = .ok () ↔ Accepts given) ∧
    (∀ u : World σ, (w.update given).1 = (u.update given).1) ∧
    w.state.merge given = w.state.update given ∧
    (∀ fault, (w.update given).1 = .error fault → (w.update given).2 = w) ∧
    (∀ v, w.update given = (.ok (), v) →
      Replaces given w.state v.state ∧ v = { w with state := v.state, recent := v.recent }) ∧
    ((∀ f, Names given f → ¬Names other f) → Accepts given → Accepts other →
      ∃ t t' v, w.update given = (.ok (), t) ∧ t.update other = (.ok (), v) ∧
        w.update other = (.ok (), t') ∧ t'.update given = (.ok (), v) ∧
        ∀ both, both.Perm (given ++ other) → w.update both = (.ok (), v)) := by
  refine ⟨update_ok_iff_accepts hgiven w, update_answer given w, merge_eq_update given w.state,
    fun fault h => ?_, fun v h => ?_, fun hdisjoint haccepts haccepts' => ?_⟩
  · cases hw : w.state.update given with
    | error fault => rw [update_of_error hw]
    | ok t =>
      rw [update_of_ok hw] at h
      cases h
  · obtain ⟨t, ht, rfl⟩ := update_eq_ok_iff.mp h
    exact ⟨replaces_of_update hgiven ht, rfl⟩
  · obtain ⟨t, t', u, ht, hu, ht', hu', hboth⟩ :=
      update_comm hgiven hother hdisjoint haccepts haccepts' w.state
    refine ⟨w.updated given t, w.updated other t', w.updated (given ++ other) u, update_of_ok ht,
      ?_, update_of_ok ht', ?_, fun both hperm => ?_⟩
    · rw [← updated_updated (List.Perm.refl (given ++ other)) t u w]
      exact update_of_ok hu
    · rw [← updated_updated (List.perm_append_comm) t' u w]
      exact update_of_ok hu'
    · rw [← updated_updated (List.Perm.refl (given ++ other)) t u w, updated_updated hperm]
      exact update_of_ok (hboth both hperm)

/-- New flags and a level, in the editor's spelling. -/
def promotion : Data := [("playerLevel", .int 9), ("flags", .obj [("fresh", .int 1)])]

/-- A position, in the plain spelling, and an item. -/
def relocation : Data :=
  [("player_position", .obj [("x", .int 4)]),
    ("inventory", .list [.obj [("id", .str "key"), ("name", .str "Key"), ("count", .int 1)]])]

theorem promotion_accepts : Accepts promotion := by
  refine List.forall_mem_cons.mpr ⟨⟨.level, _, rfl, rfl⟩, List.forall_mem_singleton.mpr ?_⟩
  exact ⟨.flags, _, rfl, rfl⟩

theorem relocation_accepts : Accepts relocation := by
  refine List.forall_mem_cons.mpr ⟨⟨.position, _, rfl, rfl⟩, List.forall_mem_singleton.mpr ?_⟩
  exact ⟨.inventory, _, rfl, rfl⟩

/-- A promotion and a relocation can be made in either order, or as one update in any order of their
fields, with the same world in the end. -/
theorem promotion_and_relocation_commute :
    NamesOnce promotion ∧ NamesOnce relocation ∧
      ∃ t t' v : World Unit, fresh.update promotion = (.ok (), t) ∧
        t.update relocation = (.ok (), v) ∧ fresh.update relocation = (.ok (), t') ∧
        t'.update promotion = (.ok (), v) ∧
        ∀ both, both.Perm (promotion ++ relocation) → fresh.update both = (.ok (), v) := by
  have hpromotion : NamesOnce promotion := by decide
  have hrelocation : NamesOnce relocation := by decide
  have hdisjoint : ∀ f, Names promotion f → ¬Names relocation f := by
    intro f hf hf'
    rw [← mem_filterMap_ofKey?] at hf hf'
    revert hf hf'
    cases f <;> decide
  have hlaws := update_acts_on_named_fields hpromotion hrelocation fresh
  exact ⟨hpromotion, hrelocation, hlaws.2.2.2.2.2 hdisjoint promotion_accepts relocation_accepts⟩

end World

end MapEvents
