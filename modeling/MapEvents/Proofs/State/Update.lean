import MapEvents.Proofs.Schema.RoundTrip
import MapEvents.Proofs.State.Frame
/-!
# Updates, field by field

A game state is its six fields, and an update that names no field twice acts on each of them alone.
It is accepted exactly if every name is known and every value stands for something that its field
holds, whatever the state is. The named fields then hold what their values stand for, and the others
hold what they held. Since this says everything about the new state, updates of different fields do
not depend on their order.

The fields that are not named need not be checked. `GameState.merge` checks them all the same, as
part of the whole state in which the named fields have their new values. This makes no difference,
because every field holds what is read back as it is.
-/

namespace MapEvents

namespace GameState

namespace Field

theorem mem_all (f : Field) : f ∈ all := by
  cases f <;> decide

theorem nodup_all : all.Nodup := by
  decide

end Field

/-- A state is its fields. -/
theorem ext_fields {s t : GameState} (h : ∀ f : Field, f.get s = f.get t) : s = t := by
  obtain ⟨flags, inventory, level, position, time, history⟩ := s
  obtain rfl : flags = t.flags := h .flags
  obtain rfl : inventory = t.inventory := h .inventory
  obtain rfl : level = t.level := h .level
  obtain rfl : position = t.position := h .position
  obtain rfl : time = t.time := h .time
  obtain rfl : history = t.history := h .history
  rfl

/-! ## What is named -/

/-- The update names no field twice, in neither spelling. -/
def NamesOnce (given : Data) : Prop := (given.filterMap fun p => Field.ofKey? p.1).Nodup

instance (given : Data) : Decidable (NamesOnce given) := inferInstanceAs (Decidable (List.Nodup _))

/-- The fields that keys stand for are those that the update names. -/
theorem mem_filterMap_ofKey? {given : Data} {f : Field} :
    f ∈ given.filterMap (fun p => Field.ofKey? p.1) ↔ Names given f :=
  List.mem_filterMap

/-- Behind the first key of an update that names no field twice, its field is not named again. -/
theorem NamesOnce.of_cons {p : String × Value} {rest : Data} (h : NamesOnce (p :: rest)) :
    NamesOnce rest ∧ ∀ f, Field.ofKey? p.1 = some f → ¬Names rest f := by
  unfold NamesOnce at h
  cases hf : Field.ofKey? p.1 with
  | none =>
    simp only [List.filterMap_cons, hf] at h
    exact ⟨h, fun f hsome => nomatch hsome⟩
  | some f =>
    simp only [List.filterMap_cons, hf, List.nodup_cons, mem_filterMap_ofKey?] at h
    refine ⟨h.2, fun g hg => ?_⟩
    obtain rfl : f = g := Option.some.inj hg
    exact h.1

/-- Updates that name different fields, each at most once, name no field twice together. -/
theorem NamesOnce.append {given other : Data} (hgiven : NamesOnce given) (hother : NamesOnce other)
    (hdisjoint : ∀ f, Names given f → ¬Names other f) : NamesOnce (given ++ other) := by
  unfold NamesOnce
  rw [List.filterMap_append]
  refine List.nodup_append.mpr ⟨hgiven, hother, fun f hf g hg => ?_⟩
  rintro rfl
  exact hdisjoint f (mem_filterMap_ofKey?.mp hf) (mem_filterMap_ofKey?.mp hg)

theorem NamesOnce.perm {given other : Data} (h : NamesOnce given) (hperm : given.Perm other) :
    NamesOnce other :=
  (hperm.filterMap _).nodup h

theorem names_append {given other : Data} {f : Field} :
    Names (given ++ other) f ↔ Names given f ∨ Names other f := by
  simp only [Names, List.mem_append, or_and_right, exists_or]

/-- What is noted last for a field is what is found for it. -/
theorem lookup_put (found : List (Field × Value)) (f g : Field) (v : Value) :
    (found.filter (·.1 ≠ f) ++ [(f, v)]).lookup g = if g = f then some v else found.lookup g := by
  induction found with
  | nil => by_cases h : g = f <;> simp [h]
  | cons q rest ih =>
    obtain ⟨k, u⟩ := q
    by_cases hk : k = f
    · subst hk
      rw [List.filter_cons_of_neg (by simp), ih]
      by_cases hg : g = k
      · simp [hg]
      · rw [if_neg hg, if_neg hg, List.lookup_cons, beq_eq_false_iff_ne.mpr hg]
    · rw [List.filter_cons_of_pos (by simpa using hk), List.cons_append, List.lookup_cons,
        List.lookup_cons, ih]
      by_cases hgk : g = k
      · subst hgk
        simp [hk]
      · simp only [beq_eq_false_iff_ne.mpr hgk]

/-- Every key names a field exactly if the named fields can be told. -/
theorem exists_touched_iff {given : Data} {found : List (Field × Value)} :
    (∃ named, touched given found = .ok named) ↔ ∀ p ∈ given, ∃ f, Field.ofKey? p.1 = some f := by
  induction given generalizing found with
  | nil => simp [touched]
  | cons p rest ih =>
    obtain ⟨key, v⟩ := p
    cases hf : Field.ofKey? key with
    | none => simp [touched, hf]
    | some f => simp [touched, hf, ih]

/-- A field that is not named keeps what was collected for it. -/
theorem lookup_touched_of_not_names {given : Data} {found named : List (Field × Value)}
    (h : touched given found = .ok named) {f : Field} (hf : ¬Names given f) :
    named.lookup f = found.lookup f := by
  induction given generalizing found with
  | nil =>
    obtain rfl : found = named := by simpa [touched] using h
    rfl
  | cons p rest ih =>
    obtain ⟨key, v⟩ := p
    rw [touched] at h
    split at h
    · cases h
    · next g hg =>
      have hrest : ¬Names rest f := by
        rintro ⟨q, hq, hname⟩
        exact hf ⟨q, List.mem_cons_of_mem _ hq, hname⟩
      have hne : f ≠ g := by
        rintro rfl
        exact hf ⟨(key, v), List.mem_cons_self, hg⟩
      rw [ih h hrest, lookup_put, if_neg hne]

/-- A field that is named once is collected with its value. -/
theorem lookup_touched_of_mem {given : Data} {found named : List (Field × Value)}
    (honce : NamesOnce given) (h : touched given found = .ok named) {p : String × Value}
    (hp : p ∈ given) {f : Field} (hf : Field.ofKey? p.1 = some f) :
    named.lookup f = some p.2 := by
  induction given generalizing found with
  | nil => cases hp
  | cons q rest ih =>
    obtain ⟨key, v⟩ := q
    obtain ⟨hrest, hfirst⟩ := honce.of_cons
    rw [touched] at h
    split at h
    · cases h
    · next g hg =>
      rcases List.mem_cons.mp hp with rfl | hp
      · obtain rfl : g = f := Option.some.inj (hg.symm.trans hf)
        rw [lookup_touched_of_not_names h (hfirst g hg), lookup_put, if_pos rfl]
      · exact ih hrest h hp

/-! ## What changes -/

/-- The values found for these fields can all be read exactly if there are changes for them. -/
theorem exists_changes_iff {named : List (Field × Value)} {fields : List Field} :
    (∃ changed, changes named fields = .ok changed) ↔
      ∀ f ∈ fields, ∀ v, named.lookup f = some v → ∃ x, f.read v = .ok x := by
  induction fields with
  | nil => simp [changes]
  | cons f rest ih =>
    rw [changes, List.forall_mem_cons, ← ih]
    cases hv : named.lookup f with
    | none => simp
    | some v =>
      simp only [Option.some.injEq, forall_eq', Checked.map_eq_ok, Checked.both_eq_ok,
        Checked.under_eq_ok, Field.replace_eq]
      constructor
      · rintro ⟨changed, p, ⟨⟨x, hx, -⟩, hrest⟩, -⟩
        exact ⟨⟨x, hx⟩, p.2, hrest⟩
      · rintro ⟨⟨x, hx⟩, others, hothers⟩
        exact ⟨_, (f.set x, others), ⟨⟨x, hx, rfl⟩, hothers⟩, rfl⟩

/-- Making the changes leaves in each field what the value found for it stands for, and leaves
alone a field for which no value was found. -/
theorem get_foldl_changes {named : List (Field × Value)} {fields : List Field}
    (hfields : fields.Nodup) {changed : List (GameState → GameState)}
    (h : changes named fields = .ok changed) (s : GameState) :
    (∀ f ∈ fields, ∀ v, named.lookup f = some v →
        f.read v = .ok (f.get (changed.foldl (fun s change => change s) s))) ∧
      ∀ f, (f ∈ fields → named.lookup f = none) →
        f.get (changed.foldl (fun s change => change s) s) = f.get s := by
  induction fields generalizing changed s with
  | nil =>
    obtain rfl : [] = changed := by simpa [changes] using h
    simp
  | cons g rest ih =>
    obtain ⟨hg, hrest⟩ := List.nodup_cons.mp hfields
    rw [changes] at h
    cases hv : named.lookup g with
    | none =>
      rw [hv] at h
      obtain ⟨hnamed, hother⟩ := ih hrest h s
      refine ⟨fun f hf v hfv => ?_,
        fun f hf => hother f fun hmem => hf (List.mem_cons_of_mem g hmem)⟩
      rcases List.mem_cons.mp hf with rfl | hf
      · rw [hv] at hfv
        cases hfv
      · exact hnamed f hf v hfv
    | some v =>
      rw [hv] at h
      obtain ⟨p, hp, rfl⟩ := Checked.map_eq_ok.mp h
      obtain ⟨hfirst, hothers⟩ := Checked.both_eq_ok.mp hp
      rw [Checked.under_eq_ok, Field.replace_eq, Checked.map_eq_ok] at hfirst
      obtain ⟨x, hx, hset⟩ := hfirst
      obtain ⟨hnamed, hother⟩ := ih hrest hothers (p.1 s)
      rw [← hset] at hnamed hother
      simp only [List.foldl_cons, ← hset]
      refine ⟨fun f hf u hu => ?_, fun f hf => ?_⟩
      · rcases List.mem_cons.mp hf with rfl | hf
        · obtain rfl : v = u := Option.some.inj (hv.symm.trans hu)
          rw [hother f fun hmem => absurd hmem hg, Field.get_set]
          exact hx
        · exact hnamed f hf u hu
      · have hne : f ≠ g := by
          rintro rfl
          rw [hf List.mem_cons_self] at hv
          cases hv
        rw [hother f fun hmem => hf (List.mem_cons_of_mem g hmem), Field.get_set_of_ne hne]

/-! ## What an update does -/

/-- Every name is known, and every value stands for something that its field holds. -/
def Accepts (given : Data) : Prop :=
  ∀ p ∈ given, ∃ f x, Field.ofKey? p.1 = some f ∧ f.read p.2 = .ok x

/-- In the second state the named fields hold what their values stand for, and the other fields hold
what they hold in the first state. -/
structure Replaces (given : Data) (s t : GameState) : Prop where
  named : ∀ p ∈ given, ∃ f, Field.ofKey? p.1 = some f ∧ f.read p.2 = .ok (f.get t)
  others : ∀ f, ¬Names given f → f.get t = f.get s

/-- There is one such second state at most. -/
theorem Replaces.unique {given : Data} {s t u : GameState} (ht : Replaces given s t)
    (hu : Replaces given s u) : t = u := by
  refine ext_fields fun f => ?_
  by_cases hf : Names given f
  · obtain ⟨p, hp, hname⟩ := hf
    obtain ⟨g, hg, hgt⟩ := ht.named p hp
    obtain ⟨k, hk, hku⟩ := hu.named p hp
    obtain rfl : f = g := Option.some.inj (hname.symm.trans hg)
    obtain rfl : f = k := Option.some.inj (hname.symm.trans hk)
    exact Except.ok.inj (hgt.symm.trans hku)
  · exact (ht.others f hf).trans (hu.others f hf).symm

/-- An accepted update replaces what it names, and nothing else. -/
theorem replaces_of_update {given : Data} {s t : GameState} (honce : NamesOnce given)
    (h : update given s = .ok t) : Replaces given s t := by
  refine ⟨fun p hp => ?_, fun f hf => get_of_update h hf⟩
  unfold update at h
  split at h
  · cases h
  · next named hnamed =>
    split at h
    · cases h
    · next changed hchanged =>
      obtain rfl : changed.foldl (fun s f => f s) s = t := by simpa using h
      obtain ⟨f, hf⟩ := exists_touched_iff.mp ⟨named, hnamed⟩ p hp
      have hread := (get_foldl_changes Field.nodup_all hchanged s).1
      exact ⟨f, hf, hread f f.mem_all p.2 (lookup_touched_of_mem honce hnamed hp hf)⟩

/-- Whether an update is accepted can be told from what it gives. -/
theorem exists_update_iff {given : Data} (honce : NamesOnce given) (s : GameState) :
    (∃ t, update given s = .ok t) ↔ Accepts given := by
  constructor
  · rintro ⟨t, ht⟩ p hp
    obtain ⟨f, hf, hread⟩ := (replaces_of_update honce ht).named p hp
    exact ⟨f, f.get t, hf, hread⟩
  · intro haccepts
    obtain ⟨named, hnamed⟩ : ∃ named, touched given [] = .ok named := by
      refine exists_touched_iff.mpr fun p hp => ?_
      obtain ⟨f, x, hf, -⟩ := haccepts p hp
      exact ⟨f, hf⟩
    obtain ⟨changed, hchanged⟩ : ∃ changed, changes named Field.all = .ok changed := by
      refine exists_changes_iff.mpr fun f _ v hv => ?_
      -- A value that was found for a field was given under one of its names.
      obtain ⟨p, hp, hf⟩ : Names given f := by
        refine Classical.byContradiction fun hnot => ?_
        rw [lookup_touched_of_not_names hnamed hnot] at hv
        cases hv
      obtain ⟨g, x, hg, hx⟩ := haccepts p hp
      obtain rfl : f = g := Option.some.inj (hf.symm.trans hg)
      obtain rfl : p.2 = v :=
        Option.some.inj ((lookup_touched_of_mem honce hnamed hp hf).symm.trans hv)
      exact ⟨x, hx⟩
    exact ⟨changed.foldl (fun s f => f s) s, by simp only [update, hnamed, hchanged]⟩

/-- An update that names no field twice is accepted and leads to a state exactly if this state is
the old one with the named fields replaced. -/
theorem update_eq_ok_iff {given : Data} (honce : NamesOnce given) {s t : GameState} :
    update given s = .ok t ↔ Replaces given s t := by
  refine ⟨replaces_of_update honce, fun h => ?_⟩
  have haccepts : Accepts given := by
    intro p hp
    obtain ⟨f, hf, hread⟩ := h.named p hp
    exact ⟨f, f.get t, hf, hread⟩
  obtain ⟨u, hu⟩ := (exists_update_iff honce s).mpr haccepts
  rw [hu, (replaces_of_update honce hu).unique h]

/-- A refused update is refused for the same reason in every state. -/
theorem update_fault {given : Data} {s : GameState} {fault : Fault}
    (h : update given s = .error fault) (t : GameState) : update given t = .error fault := by
  unfold update at h ⊢
  cases hnamed : touched given [] with
  | error e =>
    rw [hnamed] at h
    cases h
    rfl
  | ok named =>
    rw [hnamed] at h
    cases hchanged : changes named Field.all with
    | error issues =>
      simp only [hchanged] at h ⊢
      cases h
      rfl
    | ok changed =>
      simp only [hchanged] at h
      cases h

/-! ## Two updates -/

/-- Replacing some fields and then others is replacing all of them. -/
theorem Replaces.append {given other : Data} (hdisjoint : ∀ f, Names given f → ¬Names other f)
    {s t u : GameState} (hfirst : Replaces given s t) (hsecond : Replaces other t u) :
    Replaces (given ++ other) s u := by
  refine ⟨fun p hp => ?_, fun f hf => ?_⟩
  · rcases List.mem_append.mp hp with hp | hp
    · obtain ⟨f, hf, hread⟩ := hfirst.named p hp
      rw [← hsecond.others f (hdisjoint f ⟨p, hp, hf⟩)] at hread
      exact ⟨f, hf, hread⟩
    · exact hsecond.named p hp
  · rw [names_append, not_or] at hf
    rw [hsecond.others f hf.2, hfirst.others f hf.1]

/-- The order of its keys does not matter. -/
theorem Replaces.perm {given other : Data} (hperm : given.Perm other) {s t : GameState}
    (h : Replaces given s t) : Replaces other s t := by
  refine ⟨fun p hp => h.named p (hperm.mem_iff.mpr hp), fun f hf => h.others f ?_⟩
  rintro ⟨p, hp, hname⟩
  exact hf ⟨p, hperm.mem_iff.mp hp, hname⟩

/-- Updates of different fields lead to one state in either order and all at once, in whatever order
the names are given then. -/
theorem update_comm {given other : Data} (hgiven : NamesOnce given) (hother : NamesOnce other)
    (hdisjoint : ∀ f, Names given f → ¬Names other f) (haccepts : Accepts given)
    (haccepts' : Accepts other) (s : GameState) :
    ∃ t t' u, update given s = .ok t ∧ update other t = .ok u ∧
      update other s = .ok t' ∧ update given t' = .ok u ∧
      ∀ both, both.Perm (given ++ other) → update both s = .ok u := by
  obtain ⟨t, ht⟩ := (exists_update_iff hgiven s).mpr haccepts
  obtain ⟨t', ht'⟩ := (exists_update_iff hother s).mpr haccepts'
  obtain ⟨u, hu⟩ := (exists_update_iff hother t).mpr haccepts'
  obtain ⟨u', hu'⟩ := (exists_update_iff hgiven t').mpr haccepts
  have hboth : Replaces (given ++ other) s u :=
    (replaces_of_update hgiven ht).append hdisjoint (replaces_of_update hother hu)
  have hboth' : Replaces (other ++ given) s u' :=
    (replaces_of_update hother ht').append (fun f hf hf' => hdisjoint f hf' hf)
      (replaces_of_update hgiven hu')
  obtain rfl : u = u' := hboth.unique (hboth'.perm List.perm_append_comm)
  refine ⟨t, t', u, ht, hu, ht', hu', fun both hperm => ?_⟩
  have honce : NamesOnce both := (hgiven.append hother hdisjoint).perm hperm.symm
  exact (update_eq_ok_iff honce).mpr (hboth.perm hperm.symm)

/-! ## Checking the whole state -/

namespace Field

/-- Checks once more what the field holds. Items, a position and entries were checked when they were
read, and are taken as they are. -/
def recheck : (f : Field) → f.Held → Checked f.Held
  | flags, x => flagsShape.read (flagsShape.dump .numeric x)
  | inventory, x => .ok x
  | level, n => Shape.whole.read (.int n)
  | position, x => .ok x
  | time, x => Shape.real.read (.float x)
  | history, x => .ok x

/-- What a field holds passes the check of the merged state. -/
theorem recheck_eq (f : Field) (x : f.Held) : f.recheck x = .ok x := by
  cases f with
  | flags =>
    have hproper : flagsShape.Proper := by
      simp [Shape.Proper, Shape.NeverNull, Leaf.Proper]
    have hsound : flagsShape.Sound x := fun p _ y _ => trivial
    exact Shape.check_dump .notRecord .numeric flagsShape hproper x hsound
  | _ => rfl

end Field

/-- The checks of these fields of the whole state, in which the named fields have their new values.
Gives the changes for the named fields. -/
def mergedChanges (named : List (Field × Value)) (s : GameState) :
    List Field → Checked (List (GameState → GameState))
  | [] => .ok []
  | f :: rest =>
    match named.lookup f with
    | some v =>
      (Checked.both ((f.replace v).under (.key f.name)) (mergedChanges named s rest)).map fun p =>
        p.1 :: p.2
    | none =>
      (Checked.both ((f.recheck (f.get s)).under (.key f.name))
        (mergedChanges named s rest)).map (·.2)

/-- The state with the named fields replaced, if the whole state with their new values passes all
checks. -/
def merge (given : Data) (s : GameState) : Except Fault GameState :=
  match touched given [] with
  | .error fault => .error fault
  | .ok named =>
    match mergedChanges named s Field.all with
    | .error issues => .error (.invalid issues)
    | .ok changed => .ok (changed.foldl (fun s change => change s) s)

/-- In the merged state only the named fields are changed. -/
theorem mergedChanges_eq (named : List (Field × Value)) (s : GameState) (fields : List Field) :
    mergedChanges named s fields = changes named fields := by
  induction fields with
  | nil => rfl
  | cons f rest ih =>
    rw [mergedChanges, changes, ih, Field.recheck_eq]
    cases named.lookup f with
    | some v => rfl
    | none => cases changes named rest <;> rfl

/-- Checking the whole state instead of the named values alone makes no difference. -/
theorem merge_eq_update (given : Data) (s : GameState) : merge given s = update given s := by
  unfold merge update
  cases touched given [] with
  | error fault => rfl
  | ok named => cases hchanged : changes named Field.all <;> simp [mergedChanges_eq, hchanged]

end GameState

end MapEvents
