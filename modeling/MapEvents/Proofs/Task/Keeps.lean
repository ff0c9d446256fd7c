import MapEvents.Task
/-!
# What tasks leave alone and what they keep

`Task.Obeys` says that every act of a task takes the world to a related one, whatever world it acts
on, and `Task.Fixes` that no act changes a part of the world.

`Task.Keeps` is about a task that shares its world with others. They act while it is suspended, and
all that is known of them is a relation between the world before and after, the reliance. The task
keeps an invariant if the invariant holds whenever the task is suspended; when it ends, its result
and the world meet a condition.
-/

namespace MapEvents.Task

variable {W V L α β δ ε : Type}

/-! ## Acting within a relation -/

/-- Every act of the task takes the world to a related one. -/
def Obeys (R : W → W → Prop) : Task W α → Prop
  | .done _ => True
  | .act effect next => (∀ w, R w (effect w)) ∧ ∀ w, (next w).Obeys R
  | .pause next => next.Obeys R
  | .hang => True

namespace Obeys

variable {R : W → W → Prop}

theorem step {f : W → α × W} (h : ∀ w, R w (f w).2) : (Task.step f).Obeys R :=
  ⟨h, fun _ => trivial⟩

theorem bind {t : Task W α} {k : α → Task W β} (ht : t.Obeys R) (hk : ∀ a, (k a).Obeys R) :
    (t.bind k).Obeys R := by
  induction t with
  | done a => exact hk a
  | act effect next ih => exact ⟨ht.1, fun w => ih w (ht.2 w)⟩
  | pause next ih => exact ih ht
  | hang => trivial

theorem map {t : Task W α} (ht : t.Obeys R) (f : α → β) : (t.map f).Obeys R :=
  ht.bind fun _ => trivial

theorem andThen {t : Task W (Except ε α)} {k : α → Task W (Except ε β)} (ht : t.Obeys R)
    (hk : ∀ a, (k a).Obeys R) : (t.andThen k).Obeys R := by
  refine ht.bind fun r => ?_
  cases r with
  | ok a => exact hk a
  | error e => trivial

/-- A task on a part of the world obeys a relation that leaves this part free. -/
theorem onPart {get : W → V} {put : V → W → W} (h : ∀ v w, R w (put v w)) (t : Task V α) :
    (t.onPart get put).Obeys R := by
  induction t with
  | done a => trivial
  | act effect next ih => exact ⟨fun w => h _ w, fun w => ih (get w)⟩
  | pause next ih => exact ih
  | hang => trivial

/-- Beside a private value a task obeys in the world what it obeys in both together. -/
theorem withLocal {t : Task (W × L) α} (ht : t.Obeys fun p q => R p.1 q.1) (l : L) :
    (t.withLocal l).Obeys R := by
  induction t generalizing l with
  | done a => trivial
  | act effect next ih => exact ⟨fun w => ht.1 (w, l), fun w => ih (w, l) (ht.2 (w, l)) _⟩
  | pause next ih => exact ih ht l
  | hang => trivial

/-- A change of what comes after the first suspension keeps a relation that it keeps there. -/
theorem afterPause {t : Task W α} (ht : t.Obeys R) {f : Task W α → Task W α}
    (hf : ∀ {t : Task W α}, t.Obeys R → (f t).Obeys R) : (t.afterPause f).Obeys R := by
  induction t with
  | done a => trivial
  | act effect next ih => exact ⟨ht.1, fun w => ih w (ht.2 w)⟩
  | pause next ih => exact hf ht
  | hang => trivial

theorem unlessHung {t : Task W α} (ht : t.Obeys R) (late : α) : (t.unlessHung late).Obeys R := by
  induction t with
  | done a => trivial
  | act effect next ih => exact ⟨ht.1, fun w => ih w (ht.2 w)⟩
  | pause next ih => exact ih ht
  | hang => trivial

theorem within {t : Task W α} (ht : t.Obeys R) (late : α) (n : Nat) :
    (t.within late n).Obeys R := by
  induction t generalizing n with
  | done a => simp [Task.within, Obeys]
  | act effect next ih =>
    rw [Task.within]
    exact ⟨ht.1, fun w => ih w (ht.2 w) n⟩
  | pause next ih =>
    cases n with
    | zero => trivial
    | succ n => exact ih ht n
  | hang => simp [Task.within, Obeys]

/-- A run of the task as a whole obeys a preorder that each of its acts obeys. -/
theorem run (hrefl : ∀ w, R w w) (htrans : ∀ {u v w}, R u v → R v w → R u w) {t : Task W α}
    (ht : t.Obeys R) (w : W) : R w (t.run w).2 := by
  induction t generalizing w with
  | done a => exact hrefl w
  | act effect next ih => exact htrans (ht.1 w) (ih w (ht.2 w) (effect w))
  | pause next ih => exact ih ht w
  | hang => exact hrefl w

end Obeys

/-- No act of the task changes this part of the world. -/
def Fixes (part : W → δ) : Task W α → Prop
  | .done _ => True
  | .act effect next => (∀ w, part (effect w) = part w) ∧ ∀ w, (next w).Fixes part
  | .pause next => next.Fixes part
  | .hang => True

/-- A task obeys that a part of the world is kept exactly if none of its acts changes it. -/
theorem obeys_iff_fixes {part : W → δ} {t : Task W α} :
    (t.Obeys fun w v => part v = part w) ↔ t.Fixes part := by
  induction t with
  | done a => exact Iff.rfl
  | act effect next ih => exact and_congr Iff.rfl (forall_congr' ih)
  | pause next ih => exact ih
  | hang => exact Iff.rfl

/-! ## Keeping an invariant among others -/

/-- The invariant holds at every suspension of the task, if others act within the reliance
meanwhile, and the condition holds at its end. -/
def Keeps (rely : W → W → Prop) (inv : W → Prop) (post : α → W → Prop) : Task W α → W → Prop
  | .done a, w => post a w
  | .act effect next, w => (next w).Keeps rely inv post (effect w)
  | .pause next, w => inv w ∧ ∀ v, rely w v → next.Keeps rely inv post v
  | .hang, w => inv w

variable {rely : W → W → Prop} {inv inv' : W → Prop}

namespace Keeps

theorem mono {post post' : α → W → Prop} {t : Task W α} {w : W} (ht : t.Keeps rely inv post w)
    (hinv : ∀ v, inv v → inv' v) (hpost : ∀ a v, post a v → post' a v) :
    t.Keeps rely inv' post' w := by
  induction t generalizing w with
  | done a => exact hpost a w ht
  | act effect next ih => exact ih w ht
  | pause next ih =>
    obtain ⟨hw, hnext⟩ := ht
    exact ⟨hinv w hw, fun v hv => ih (hnext v hv)⟩
  | hang => exact hinv w ht

/-- Two tasks in a row: the condition that the first one meets lets the second one keep the
invariant from there. -/
theorem bind {mid : α → W → Prop} {post : β → W → Prop} {t : Task W α} {k : α → Task W β} {w : W}
    (ht : t.Keeps rely inv mid w) (hk : ∀ a v, mid a v → (k a).Keeps rely inv post v) :
    (t.bind k).Keeps rely inv post w := by
  induction t generalizing w with
  | done a => exact hk a w ht
  | act effect next ih => exact ih w ht
  | pause next ih =>
    obtain ⟨hw, hnext⟩ := ht
    exact ⟨hw, fun v hv => ih (hnext v hv)⟩
  | hang => exact ht

theorem map {mid : α → W → Prop} {post : β → W → Prop} {t : Task W α} {w : W} {f : α → β}
    (ht : t.Keeps rely inv mid w) (hf : ∀ a v, mid a v → post (f a) v) :
    (t.map f).Keeps rely inv post w :=
  ht.bind hf

theorem andThen {mid : Except ε α → W → Prop} {post : Except ε β → W → Prop}
    {t : Task W (Except ε α)} {k : α → Task W (Except ε β)} {w : W} (ht : t.Keeps rely inv mid w)
    (hk : ∀ a v, mid (.ok a) v → (k a).Keeps rely inv post v)
    (hfault : ∀ e v, mid (.error e) v → post (.error e) v) :
    (t.andThen k).Keeps rely inv post w := by
  refine ht.bind fun r v hr => ?_
  cases r with
  | ok a => exact hk a v hr
  | error e => exact hfault e v hr

/-- What neither an act of the task nor the others destroy stays true. -/
theorem of_obeys {R : W → W → Prop} {t : Task W α} (ht : t.Obeys R)
    (hacts : ∀ w v, R w v → inv w → inv v) (hrely : ∀ w v, rely w v → inv w → inv v) {w : W}
    (hw : inv w) : t.Keeps rely inv (fun _ => inv) w := by
  induction t generalizing w with
  | done a => exact hw
  | act effect next ih => exact ih w (ht.2 w) (hacts w _ (ht.1 w) hw)
  | pause next ih => exact ⟨hw, fun v hv => ih ht (hrely w v hv hw)⟩
  | hang => exact hw

/-- Driven to its next suspension, the task keeps the invariant from there; driven to its end, it
meets the condition. -/
theorem poll {post : α → W → Prop} (hstable : ∀ w v, rely w v → inv w → inv v) {t : Task W α}
    {w : W} (ht : t.Keeps rely inv post w) :
    match t.poll w with
    | (.inl rest, v) => inv v ∧ ∀ u, rely v u → rest.Keeps rely inv post u
    | (.inr a, v) => post a v := by
  induction t generalizing w with
  | done a => exact ht
  | act effect next ih => exact ih w ht
  | pause next ih => exact ht
  | hang => exact ⟨ht, fun u hu => hstable w u hu ht⟩

end Keeps

end MapEvents.Task
