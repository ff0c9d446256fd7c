import MapEvents.Condition.Check
/-!
# What checks leave alone

A check reads the game and asks for draws and for the answers of the hook. It leaves the game state
and the clock as they are, and its requests are all that it adds to the journal: no handler, no host
and no branch resolver is called by it. Only the memory of the surroundings may change otherwise. If
the hook always answers, so does every check.
-/

namespace MapEvents

variable {σ : Type}

/-- The entries of the journal that checks make. -/
inductive Entry.OfCheck : Entry → Prop where
  | hook (key : Option String) (value : Option Scalar) : OfCheck (.hook key value)
  | draw : OfCheck .draw

namespace Condition

/-- A check asks nothing, or makes one request. -/
theorem check_world (s : Surroundings σ) (c : Condition) (w : World σ) :
    (c.check s w).2 = w ∨
      ∃ e outside, Entry.OfCheck e ∧ (c.check s w).2 = { w.note e with outside } := by
  unfold check
  split
  case h_5 => exact .inr ⟨.draw, _, .draw, rfl⟩
  case h_6 =>
    split
    · exact .inl rfl
    · exact .inr ⟨.hook c.key c.value, _, .hook _ _, rfl⟩
  all_goals exact .inl rfl

/-- What every request of a check respects holds between the worlds before and after a list of
checks, however far it is checked. -/
theorem checkAll_world {R : World σ → World σ → Prop} (hrefl : ∀ w, R w w)
    (htrans : ∀ u v w, R u v → R v w → R u w)
    (hask : ∀ w e outside, Entry.OfCheck e → R w { w.note e with outside })
    (s : Surroundings σ) (cs : List Condition) (w : World σ) : R w (checkAll s cs w).2 := by
  induction cs generalizing w with
  | nil => exact hrefl w
  | cons c rest ih =>
    have hfirst : R w (c.check s w).2 := by
      rcases check_world s c w with hsame | ⟨e, outside, he, hnew⟩
      · rw [hsame]
        exact hrefl w
      · rw [hnew]
        exact hask w e outside he
    rw [checkAll]
    split
    · next v hv =>
      rw [hv] at hfirst
      exact htrans w v _ hfirst (ih v)
    · exact hfirst

end Condition

namespace World

/-- The second world is the first one after some checks, whatever execution it shows. -/
structure AfterChecks (before after : World σ) : Prop where
  state : after.state = before.state
  clock : after.clock = before.clock
  recent : after.recent = before.recent
  /-- Only checks were entered into the journal. -/
  journal : ∃ asked, after.journal = asked ++ before.journal ∧ ∀ e ∈ asked, e.OfCheck

namespace AfterChecks

theorem refl (w : World σ) : w.AfterChecks w :=
  ⟨rfl, rfl, rfl, [], rfl, by simp⟩

theorem trans {u v w : World σ} (huv : u.AfterChecks v) (hvw : v.AfterChecks w) :
    u.AfterChecks w := by
  obtain ⟨first, hfirst, hofFirst⟩ := huv.journal
  obtain ⟨second, hsecond, hofSecond⟩ := hvw.journal
  refine ⟨hvw.state.trans huv.state, hvw.clock.trans huv.clock, hvw.recent.trans huv.recent,
    second ++ first, ?_, ?_⟩
  · rw [hsecond, hfirst, List.append_assoc]
  · intro e he
    rcases List.mem_append.mp he with he | he
    · exact hofSecond e he
    · exact hofFirst e he

theorem showing {before after : World σ} (h : before.AfterChecks after) (e : Execution) :
    before.AfterChecks (after.showing e) :=
  ⟨h.state, h.clock, h.recent, h.journal⟩

end AfterChecks

end World

/-- Checking a list of conditions, up to the first that does not hold or cannot be checked. -/
theorem Condition.checkAll_afterChecks (s : Surroundings σ) (cs : List Condition) (w : World σ) :
    w.AfterChecks (checkAll s cs w).2 := by
  refine checkAll_world World.AfterChecks.refl (fun u v w => World.AfterChecks.trans) ?_ s cs w
  intro w e outside he
  exact ⟨rfl, rfl, rfl, [e], rfl, by simpa using he⟩

/-- The hook for custom conditions, if there is one, always answers. -/
def Surroundings.HookAnswers (s : Surroundings σ) : Prop :=
  ∀ hook, s.hook = some hook → ∀ c state outside fault, (hook c state outside).1 ≠ .error fault

namespace Condition

/-- A condition ends with no fault if the hook, where there is one, always answers. -/
theorem check_ne_error {s : Surroundings σ} (hs : s.HookAnswers) (c : Condition) (w : World σ)
    (fault : Fault) : (c.check s w).1 ≠ .error fault := by
  unfold check
  cases c.kind with
  | custom =>
    cases hhook : s.hook with
    | none => simp
    | some hook => exact hs hook hhook c w.state w.outside fault
  | _ => simp

/-- Several conditions in turn end with no fault if the hook always answers. -/
theorem checkAll_ne_error {s : Surroundings σ} (hs : s.HookAnswers) (cs : List Condition)
    (w : World σ) (fault : Fault) : (checkAll s cs w).1 ≠ .error fault := by
  induction cs generalizing w with
  | nil => simp [checkAll]
  | cons c rest ih =>
    have hfirst := check_ne_error hs c w fault
    rw [checkAll]
    split
    · next v hv => exact ih v
    · exact hfirst

end Condition

end MapEvents
