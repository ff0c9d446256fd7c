import MapEvents.Task
/-!
# Two tasks that do the same on related worlds

`Task.Alike` compares two tasks under a relation between the worlds that they act on. Wherever the
one acts so does the other, and their acts take related worlds to related ones; what they do next
may depend on the world that an act met only as far as related worlds agree on it. Driven from
related worlds, two such tasks give the same result and leave related worlds behind.

A task that is alike itself does not let through what the relation leaves open.
-/

namespace MapEvents.Task

variable {W V L α β ε : Type}

/-- On worlds that are related, the two tasks do the same. -/
inductive Alike (R : W → W → Prop) : Task W α → Task W α → Prop where
  | done (a : α) : Alike R (.done a) (.done a)
  | act {effect effect' : W → W} {next next' : W → Task W α}
      (heffect : ∀ w v, R w v → R (effect w) (effect' v))
      (hnext : ∀ w v, R w v → Alike R (next w) (next' v)) :
      Alike R (.act effect next) (.act effect' next')
  | pause {t u : Task W α} (h : Alike R t u) : Alike R (.pause t) (.pause u)
  | hang : Alike R .hang .hang

namespace Alike

variable {R : W → W → Prop}

theorem step {f g : W → α × W} (h : ∀ w v, R w v → (f w).1 = (g v).1 ∧ R (f w).2 (g v).2) :
    (Task.step f).Alike R (Task.step g) := by
  refine .act (fun w v hwv => (h w v hwv).2) fun w v hwv => ?_
  rw [(h w v hwv).1]
  exact .done _

theorem bind {t u : Task W α} {k l : α → Task W β} (h : t.Alike R u)
    (hk : ∀ a, (k a).Alike R (l a)) : (t.bind k).Alike R (u.bind l) := by
  induction h with
  | done a => exact hk a
  | act heffect hnext ih => exact .act heffect ih
  | pause h ih => exact .pause ih
  | hang => exact .hang

theorem map {t u : Task W α} (h : t.Alike R u) (f : α → β) : (t.map f).Alike R (u.map f) :=
  h.bind fun a => .done (f a)

theorem andThen {t u : Task W (Except ε α)} {k l : α → Task W (Except ε β)} (h : t.Alike R u)
    (hk : ∀ a, (k a).Alike R (l a)) : (t.andThen k).Alike R (u.andThen l) := by
  refine h.bind fun r => ?_
  cases r with
  | ok a => exact hk a
  | error e => exact .done _

/-- Related worlds agree on the part that a task works on, and stay related if this part changes in
both alike. -/
theorem onPart {get : W → V} {put : V → W → W} (hget : ∀ w v, R w v → get w = get v)
    (hput : ∀ x w v, R w v → R (put x w) (put x v)) (t : Task V α) :
    (t.onPart get put).Alike R (t.onPart get put) := by
  induction t with
  | done a => exact .done a
  | act effect next ih =>
    refine .act ?_ ?_
    · intro w v hwv
      rw [hget w v hwv]
      exact hput _ w v hwv
    · intro w v hwv
      rw [hget w v hwv]
      exact ih (get v)
  | pause next ih => exact .pause ih
  | hang => exact .hang

/-- Tasks with the same private value beside related worlds stay alike. -/
theorem withLocal {t u : Task (W × L) α} (h : t.Alike (fun p q => R p.1 q.1 ∧ p.2 = q.2) u)
    (l : L) : (t.withLocal l).Alike R (u.withLocal l) := by
  induction h generalizing l with
  | done a => exact .done (a, l)
  | act heffect hnext ih =>
    refine .act (fun w v hwv => (heffect (w, l) (v, l) ⟨hwv, rfl⟩).1) fun w v hwv => ?_
    rw [(heffect (w, l) (v, l) ⟨hwv, rfl⟩).2]
    exact ih (w, l) (v, l) ⟨hwv, rfl⟩ _
  | pause h ih => exact .pause (ih l)
  | hang => exact .hang

/-- A change of what comes after the first suspension keeps tasks alike if it does so there. -/
theorem afterPause {t u : Task W α} (h : t.Alike R u) {f : Task W α → Task W α}
    (hf : ∀ {t u : Task W α}, t.Alike R u → (f t).Alike R (f u)) :
    (t.afterPause f).Alike R (u.afterPause f) := by
  induction h with
  | done a => exact .done a
  | act heffect hnext ih => exact .act heffect ih
  | pause h ih => exact .pause (hf h)
  | hang => exact .hang

theorem unlessHung {t u : Task W α} (h : t.Alike R u) (late : α) :
    (t.unlessHung late).Alike R (u.unlessHung late) := by
  induction h with
  | done a => exact .done a
  | act heffect hnext ih => exact .act heffect ih
  | pause h ih => exact .pause ih
  | hang => exact .done late

theorem within {t u : Task W α} (h : t.Alike R u) (late : α) (n : Nat) :
    (t.within late n).Alike R (u.within late n) := by
  induction h generalizing n with
  | done a =>
    rw [Task.within]
    exact .done a
  | act heffect hnext ih =>
    rw [Task.within, Task.within]
    exact .act heffect fun w v hwv => ih w v hwv n
  | pause h ih =>
    cases n with
    | zero => exact .done late
    | succ n => exact .pause (ih n)
  | hang =>
    rw [Task.within]
    exact .done late

/-- Driven from related worlds, the two tasks give the same result and leave related worlds. -/
theorem run {t u : Task W α} (h : t.Alike R u) {w v : W} (hwv : R w v) :
    (t.run w).1 = (u.run v).1 ∧ R (t.run w).2 (u.run v).2 := by
  induction h generalizing w v with
  | done a => exact ⟨rfl, hwv⟩
  | act heffect hnext ih => exact ih w v hwv (heffect w v hwv)
  | pause h ih => exact ih hwv
  | hang => exact ⟨rfl, hwv⟩

end Alike

end MapEvents.Task
