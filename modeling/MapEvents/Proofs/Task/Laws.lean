import MapEvents.Task
/-!
# Laws of tasks

Putting tasks one after another is associative, and running them in that order runs the first and
then the second from the world that the first left. `Task.Gives` says which results a task may have
at all: every look at the world may find any world there, so that a rule about everything a task may
give holds for every run of it, whatever others do at its suspensions.
-/

namespace MapEvents.Task

variable {W α β γ ε : Type}

@[simp]
theorem bind_done (a : α) (k : α → Task W β) : (done a).bind k = k a := rfl

@[simp]
theorem bind_act (effect : W → W) (next : W → Task W α) (k : α → Task W β) :
    (act effect next).bind k = act effect fun w => (next w).bind k := rfl

@[simp]
theorem bind_pause (next : Task W α) (k : α → Task W β) :
    (pause next).bind k = pause (next.bind k) := rfl

@[simp]
theorem bind_hang (k : α → Task W β) : (hang : Task W α).bind k = hang := rfl

theorem bind_assoc (t : Task W α) (k : α → Task W β) (l : β → Task W γ) :
    (t.bind k).bind l = t.bind fun a => (k a).bind l := by
  induction t with
  | done a => rfl
  | act effect next ih =>
    simp only [bind_act]
    congr 1
    funext w
    exact ih w
  | pause next ih => rw [bind_pause, bind_pause, ih, bind_pause]
  | hang => rfl

theorem map_bind (f : β → γ) (t : Task W α) (k : α → Task W β) :
    (t.bind k).map f = t.bind fun a => (k a).map f := bind_assoc t k _

theorem bind_map (f : α → β) (t : Task W α) (k : β → Task W γ) :
    (t.map f).bind k = t.bind fun a => k (f a) := bind_assoc t _ k

/-- A result that was changed twice was changed by both changes at once. -/
theorem map_map (f : α → β) (g : β → γ) (t : Task W α) :
    (t.map f).map g = t.map fun a => g (f a) := bind_map f t _

theorem map_id (t : Task W α) : t.map (fun a => a) = t := by
  induction t with
  | done a => rfl
  | act effect next ih =>
    show act effect (fun w => (next w).map _) = _
    congr 1
    funext w
    exact ih w
  | pause next ih => exact congrArg pause ih
  | hang => rfl

/-- Running two tasks in a row: a first one that hangs keeps the second from starting. -/
theorem run_bind (t : Task W α) (k : α → Task W β) (w : W) :
    (t.bind k).run w =
      match t.run w with
      | (some a, v) => (k a).run v
      | (none, v) => (none, v) := by
  induction t generalizing w with
  | done a => rfl
  | act effect next ih => exact ih w (effect w)
  | pause next ih => exact ih w
  | hang => rfl

theorem run_map (f : α → β) (t : Task W α) (w : W) :
    (t.map f).run w = ((t.run w).1.map f, (t.run w).2) := by
  rw [map, run_bind]
  rcases t.run w with ⟨_ | a, v⟩ <;> rfl

/-- A change of the result that can be undone does not hide how a run ended. -/
theorem run_map_eq_iff {f : α → β} (hf : ∀ a b, f a = f b → a = b) {t : Task W α} {w v : W}
    {r : Option α} : (t.map f).run w = (r.map f, v) ↔ t.run w = (r, v) := by
  have hanswer : ∀ q : Option α, q.map f = r.map f ↔ q = r := by
    intro q
    cases q with
    | none => cases r <;> simp
    | some a =>
      cases r with
      | none => simp
      | some b =>
        rw [Option.map_some, Option.map_some, Option.some.injEq, Option.some.injEq]
        exact ⟨hf a b, congrArg f⟩
  rw [run_map, Prod.mk.injEq, hanswer, Prod.ext_iff]

@[simp]
theorem run_step (f : W → α × W) (w : W) : (step f).run w = (some (f w).1, (f w).2) := rfl

/-- Driving a task to its next suspension and then to its end is running it. -/
theorem run_of_poll (t : Task W α) (w : W) :
    t.run w =
      match t.poll w with
      | (.inl rest, v) => rest.run v
      | (.inr a, v) => (some a, v) := by
  induction t generalizing w with
  | done a => rfl
  | act effect next ih => exact ih w (effect w)
  | pause next ih => rfl
  | hang => rfl

/-- The results that a task may have, whatever it finds when it looks at the world. -/
inductive Gives : Task W α → α → Prop where
  | done (a : α) : Gives (.done a) a
  | act {effect : W → W} {next : W → Task W α} {a : α} (w : W) (h : Gives (next w) a) :
      Gives (.act effect next) a
  | pause {next : Task W α} {a : α} (h : Gives next a) : Gives (.pause next) a

@[simp]
theorem gives_done_iff {a b : α} : (done b : Task W α).Gives a ↔ a = b := by
  constructor
  · intro h
    cases h
    rfl
  · rintro rfl
    exact .done a

@[simp]
theorem gives_act_iff {effect : W → W} {next : W → Task W α} {a : α} :
    (act effect next).Gives a ↔ ∃ w, (next w).Gives a := by
  constructor
  · rintro (_ | ⟨w, h⟩)
    exact ⟨w, h⟩
  · rintro ⟨w, h⟩
    exact .act w h

@[simp]
theorem gives_pause_iff {next : Task W α} {a : α} : (pause next).Gives a ↔ next.Gives a := by
  constructor
  · rintro (_ | _ | h)
    exact h
  · exact .pause

@[simp]
theorem not_gives_hang (a : α) : ¬(hang : Task W α).Gives a := by
  intro h
  cases h

theorem gives_step_iff {f : W → α × W} {a : α} : (step f).Gives a ↔ ∃ w, a = (f w).1 := by
  simp only [step, gives_act_iff, gives_done_iff]

/-- Two tasks in a row give what the second one gives after a result of the first. -/
theorem gives_bind_iff {t : Task W α} {k : α → Task W β} {b : β} :
    (t.bind k).Gives b ↔ ∃ a, t.Gives a ∧ (k a).Gives b := by
  induction t with
  | done a => simp
  | act effect next ih =>
    simp only [bind_act, gives_act_iff, ih]
    constructor
    · rintro ⟨w, a, ha, hb⟩
      exact ⟨a, ⟨w, ha⟩, hb⟩
    · rintro ⟨a, ⟨w, ha⟩, hb⟩
      exact ⟨w, a, ha, hb⟩
  | pause next ih => simpa using ih
  | hang => simp

theorem gives_map_iff {f : α → β} {t : Task W α} {b : β} :
    (t.map f).Gives b ↔ ∃ a, t.Gives a ∧ b = f a := by
  simp only [map, gives_bind_iff, gives_done_iff]

/-- A task that goes on only after a success gives what comes after it, or the fault. -/
theorem gives_andThen_iff {t : Task W (Except ε α)} {k : α → Task W (Except ε β)}
    {r : Except ε β} :
    (t.andThen k).Gives r ↔
      (∃ a, t.Gives (.ok a) ∧ (k a).Gives r) ∨ ∃ e, t.Gives (.error e) ∧ r = .error e := by
  simp only [andThen, gives_bind_iff]
  constructor
  · rintro ⟨e | a, ha, hr⟩
    · exact .inr ⟨e, ha, by simpa using hr⟩
    · exact .inl ⟨a, ha, hr⟩
  · rintro (⟨a, ha, hr⟩ | ⟨e, he, rfl⟩)
    · exact ⟨.ok a, ha, hr⟩
    · exact ⟨.error e, he, .done _⟩

/-- What a run ends with is among the results that the task may have. -/
theorem gives_of_run {t : Task W α} {w v : W} {a : α} (h : t.run w = (some a, v)) :
    t.Gives a := by
  induction t generalizing w with
  | done b =>
    obtain ⟨rfl, -⟩ : b = a ∧ w = v := by simpa [run] using h
    exact .done b
  | act effect next ih => exact .act w (ih w h)
  | pause next ih => exact .pause (ih h)
  | hang => simp [run] at h

/-- Only what a task may give matters for what comes after it. -/
theorem bind_congr {t : Task W α} {k k' : α → Task W β} (h : ∀ a, t.Gives a → k a = k' a) :
    t.bind k = t.bind k' := by
  induction t with
  | done a => exact h a (.done a)
  | act effect next ih =>
    simp only [bind_act]
    congr 1
    funext w
    exact ih w fun a ha => h a (.act w ha)
  | pause next ih =>
    rw [bind_pause, bind_pause, ih fun a ha => h a (.pause ha)]
  | hang => rfl

/-- What follows a task matters only for the results that the task may give. -/
theorem andThen_congr {t : Task W (Except ε α)} {k k' : α → Task W (Except ε β)}
    (h : ∀ a, t.Gives (.ok a) → k a = k' a) : t.andThen k = t.andThen k' := by
  refine bind_congr fun r hr => ?_
  cases r with
  | error e => rfl
  | ok a => exact h a hr

end MapEvents.Task
