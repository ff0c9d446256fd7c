import Mathlib.Logic.Relation
import MapEvents.Proofs.Task.Keeps
import MapEvents.Proofs.Task.Laws
/-!
# The points of a task

A task comes from point to point. A point is the task that is left together with the world in which
it is left. Between two points lies one act of the task or one suspension, and at a suspension
others may act any number of times, or not at all.

The points of a compound task are known from those of its parts: of two tasks in a row, the points
of the first one with the second behind it come first, and the points of the second one after them.
-/

namespace MapEvents.Task

variable {W L α β ε : Type} {others : W → W → Prop}

/-- The next point: the task acts, or is resumed after others have acted. -/
inductive Advance (others : W → W → Prop) : Task W α × W → Task W α × W → Prop where
  | act {effect : W → W} {next : W → Task W α} {w : W} :
      Advance others (.act effect next, w) (next w, effect w)
  | resume {next : Task W α} {w v : W} (h : Relation.ReflTransGen others w v) :
      Advance others (.pause next, w) (next, v)

/-- The first point leads to the second. -/
def Comes (others : W → W → Prop) : Task W α × W → Task W α × W → Prop :=
  Relation.ReflTransGen (Advance others)

/-! ## Two tasks in a row -/

theorem Advance.bind {t r : Task W α} {w v : W} (h : Advance others (t, w) (r, v))
    (k : α → Task W β) : Advance others (t.bind k, w) (r.bind k, v) := by
  cases h with
  | act => exact .act
  | resume hothers => exact .resume hothers

/-- Two tasks in a row advance as the first one does, or as the second one once the first is
done. -/
theorem Advance.of_bind {t : Task W α} {k : α → Task W β} {w : W} {y : Task W β × W}
    (h : Advance others (t.bind k, w) y) :
    (∃ r v, Advance others (t, w) (r, v) ∧ y = (r.bind k, v)) ∨
      ∃ a, t = .done a ∧ Advance others (k a, w) y := by
  cases t with
  | done a => exact .inr ⟨a, rfl, h⟩
  | act effect next =>
    cases h
    exact .inl ⟨next w, effect w, .act, rfl⟩
  | pause next =>
    cases h with
    | resume hothers => exact .inl ⟨next, _, .resume hothers, rfl⟩
  | hang => cases h

theorem Comes.bind {x y : Task W α × W} (h : Comes others x y) (k : α → Task W β) :
    Comes others (x.1.bind k, x.2) (y.1.bind k, y.2) := by
  induction h with
  | refl => exact .refl
  | tail _ hstep ih => exact ih.tail (hstep.bind k)

/-- The points of two tasks in a row. -/
theorem Comes.of_bind {t : Task W α} {k : α → Task W β} {w : W} {y : Task W β × W}
    (h : Comes others (t.bind k, w) y) :
    (∃ r v, Comes others (t, w) (r, v) ∧ y = (r.bind k, v)) ∨
      ∃ a v, Comes others (t, w) (.done a, v) ∧ Comes others (k a, v) y := by
  induction h with
  | refl => exact .inl ⟨t, w, .refl, rfl⟩
  | tail _ hstep ih =>
    rcases ih with ⟨r, v, hr, rfl⟩ | ⟨a, v, ha, hk⟩
    · rcases hstep.of_bind with ⟨r', v', hstep', rfl⟩ | ⟨a, rfl, hk⟩
      · exact .inl ⟨r', v', hr.tail hstep', rfl⟩
      · exact .inr ⟨a, v, hr, .single hk⟩
    · exact .inr ⟨a, v, ha, hk.tail hstep⟩

/-- Two tasks in a row end as the second one does from where the first one ends. -/
theorem comes_bind_done_iff {t : Task W α} {k : α → Task W β} {w v : W} {b : β} :
    Comes others (t.bind k, w) (.done b, v) ↔
      ∃ a u, Comes others (t, w) (.done a, u) ∧ Comes others (k a, u) (.done b, v) := by
  constructor
  · intro h
    rcases h.of_bind with ⟨r, u, hr, hdone⟩ | hsecond
    · obtain ⟨hbind, rfl⟩ := Prod.mk.inj hdone
      cases r with
      | done a =>
        refine ⟨a, v, hr, ?_⟩
        rw [show k a = .done b from hbind.symm]
        exact .refl
      | act effect next => cases hbind
      | pause next => cases hbind
      | hang => cases hbind
    · exact hsecond
  · rintro ⟨a, u, hfirst, hsecond⟩
    exact (hfirst.bind k).trans hsecond

/-- A single step ends with its result. -/
theorem comes_step_done_iff {f : W → α × W} {w v : W} {a : α} :
    Comes others (step f, w) (.done a, v) ↔ a = (f w).1 ∧ v = (f w).2 := by
  constructor
  · intro h
    rcases Relation.ReflTransGen.cases_head h with hnone | ⟨y, hfirst, hrest⟩
    · cases hnone
    · cases hfirst
      rcases Relation.ReflTransGen.cases_head hrest with hdone | ⟨z, hstep, -⟩
      · obtain ⟨hresult, rfl⟩ := Prod.mk.inj hdone
        exact ⟨(Task.done.inj hresult).symm, rfl⟩
      · cases hstep
  · rintro ⟨rfl, rfl⟩
    exact .single .act

/-! ## Tasks with a private value, and tasks that are watched -/

/-- Others act on the world beside a private value, which they leave alone. -/
def beside (others : W → W → Prop) (p q : W × L) : Prop := others p.1 q.1 ∧ q.2 = p.2

/-- What others do beside a private value, they do in the world. -/
theorem reflTransGen_beside {w v : W} (l : L) (h : Relation.ReflTransGen others w v) :
    Relation.ReflTransGen (beside others) (w, l) (v, l) := by
  induction h with
  | refl => exact .refl
  | tail _ hlast ih => exact ih.tail ⟨hlast, rfl⟩

/-- A task with a private value advances as it does with the value in the world. -/
theorem Advance.of_withLocal {t : Task (W × L) α} {l : L} {w : W} {y : Task W (α × L) × W}
    (h : Advance others (t.withLocal l, w) y) :
    ∃ r v m, Advance (beside others) (t, (w, l)) (r, (v, m)) ∧ y = (r.withLocal m, v) := by
  cases t with
  | done a => cases h
  | act effect next =>
    cases h
    exact ⟨next (w, l), (effect (w, l)).1, (effect (w, l)).2, .act, rfl⟩
  | pause next =>
    cases h with
    | resume hothers => exact ⟨next, _, l, .resume (reflTransGen_beside l hothers), rfl⟩
  | hang => cases h

theorem Advance.of_map {t : Task W α} {f : α → β} {w : W} {y : Task W β × W}
    (h : Advance others (t.map f, w) y) :
    ∃ r v, Advance others (t, w) (r, v) ∧ y = (r.map f, v) := by
  rcases Advance.of_bind h with hfirst | ⟨a, -, hdone⟩
  · exact hfirst
  · cases hdone

/-- A task that is changed after its first suspension advances as it does without the change, and
is changed as a whole once it is resumed. -/
theorem Advance.of_afterPause {t : Task W α} {f : Task W α → Task W α} {w : W} {y : Task W α × W}
    (h : Advance others (t.afterPause f, w) y) :
    ∃ r v, Advance others (t, w) (r, v) ∧ (y = (r.afterPause f, v) ∨ y = (f r, v)) := by
  cases t with
  | done a => cases h
  | act effect next =>
    cases h
    exact ⟨next w, effect w, .act, .inl rfl⟩
  | pause next =>
    cases h with
    | resume hothers => exact ⟨next, _, .resume hothers, .inr rfl⟩
  | hang => cases h

/-- A task that may not hang advances as it does if it may. -/
theorem Advance.of_unlessHung {t : Task W α} {late : α} {w : W} {y : Task W α × W}
    (h : Advance others (t.unlessHung late, w) y) :
    ∃ r v, Advance others (t, w) (r, v) ∧ y = (r.unlessHung late, v) := by
  cases t with
  | done a => cases h
  | act effect next =>
    cases h
    exact ⟨next w, effect w, .act, rfl⟩
  | pause next =>
    cases h with
    | resume hothers => exact ⟨next, _, .resume hothers, rfl⟩
  | hang => cases h

/-- A task whose suspensions are bounded advances as it does without the bound. -/
theorem Advance.of_within {t : Task W α} {late : α} {n : Nat} {w : W} {y : Task W α × W}
    (h : Advance others (t.within late n, w) y) :
    ∃ r v m, Advance others (t, w) (r, v) ∧ y = (r.within late m, v) := by
  cases t with
  | done a =>
    rw [Task.within] at h
    cases h
  | act effect next =>
    rw [Task.within] at h
    cases h
    exact ⟨next w, effect w, n, .act, rfl⟩
  | pause next =>
    cases n with
    | zero => cases h
    | succ n =>
      cases h with
      | resume hothers => exact ⟨next, _, n, .resume hothers, rfl⟩
  | hang =>
    rw [Task.within] at h
    cases h

/-! ## What lasts from point to point -/

variable {R : W → W → Prop}

/-- From a point to the next, the world stays within a preorder that the task and the others obey,
and what is left of the task obeys it too. -/
theorem Obeys.advance (hrefl : ∀ w, R w w) (htrans : ∀ u v w, R u v → R v w → R u w)
    (hothers : ∀ w v, others w v → R w v) {t r : Task W α} {w v : W} (ht : t.Obeys R)
    (h : Advance others (t, w) (r, v)) : R w v ∧ r.Obeys R := by
  cases h with
  | act => exact ⟨ht.1 w, ht.2 w⟩
  | resume hmeanwhile =>
    refine ⟨?_, ht⟩
    induction hmeanwhile with
    | refl => exact hrefl w
    | tail _ hlast ih => exact htrans _ _ _ ih (hothers _ _ hlast)

/-- Between any two points, the world stays within a preorder that the task and the others obey, and
what is left of the task obeys it too. -/
theorem Obeys.comes (hrefl : ∀ w, R w w) (htrans : ∀ u v w, R u v → R v w → R u w)
    (hothers : ∀ w v, others w v → R w v) {x y : Task W α × W} (hx : x.1.Obeys R)
    (h : Comes others x y) : R x.2 y.2 ∧ y.1.Obeys R := by
  induction h with
  | refl => exact ⟨hrefl x.2, hx⟩
  | tail _ hlast ih =>
    obtain ⟨hworld, hleft⟩ := ih
    obtain ⟨hnext, hleft'⟩ := hleft.advance hrefl htrans hothers hlast
    exact ⟨htrans _ _ _ hworld hnext, hleft'⟩

end MapEvents.Task
