import MapEvents.Proofs.Chain.Frame
import MapEvents.Proofs.Session.Schedule
import MapEvents.Proofs.Session.Screen
/-!
# What the calls of a session uphold

An invariant of the world that has to do with the history is kept by an execution as a whole, and
not by each of its acts: the policy looks at the history before the chain runs, and the entry is
added only after the chain has ended. `Session.Upholds` names a relation that takes the place of
what the policy saw. Chains, free updates and everybody else act within it, so the world at the end
of a chain is related to the one that the policy looked at, and all that is left to show is that the
ending keeps the invariant from there.
-/

namespace MapEvents

variable {σ : Type}

namespace Call

/-- The events that a call may run. -/
def events : Call → List Event
  | .execute event _ => [event]
  | .dispatch events kind _ => Session.fired events kind
  | .patch _ => []
  | .update _ => []

/-- The call replaces no history by another one. -/
def SparesHistory : Call → Prop
  | .patch given => ¬GameState.Names given .history
  | .update given => ¬GameState.Names given .history
  | _ => True

/-- A patch changes the world like an update. -/
theorem patchState_world (given : Data) (w : World σ) :
    (patchState given w).2 = (w.update given).2 := by
  unfold patchState
  split <;> next v hv => rw [hv]

end Call

namespace Session

/-- The allowed calls keep the invariant while everybody acts within the reliance. -/
structure Upholds (s : Session σ) (allowed : Call → Prop) (rely : World σ → World σ → Prop)
    (inv : World σ → Prop) : Prop where
  admits : World.Admits rely
  checks : ∀ w v : World σ, w.AfterChecks v → rely w v
  stable : ∀ w v, rely w v → inv w → inv v
  handlers : ∀ a, s.player.registry.Obeys rely a
  patch : ∀ given, allowed (.patch given) → ∀ w, rely w (w.update given).2
  update : ∀ given, allowed (.update given) → ∀ w, rely w (w.update given).2
  /-- What an execution adds at the end of a chain, whose event was admitted before. -/
  conclude : ∀ call, allowed call → ∀ event ∈ call.events, ∀ w u r,
    repeatAllows event w = .ok true → inv w → rely w u → inv (conclude event r u).2

namespace Upholds

variable {s : Session σ} {allowed : Call → Prop} {rely : World σ → World σ → Prop}
  {inv : World σ → Prop}

/-- An execution keeps the invariant. At every suspension of the chain, and at its end, the world is
related to the one in which the event was admitted. -/
theorem execute_keeps (h : s.Upholds allowed rely inv) {call : Call} (hcall : allowed call)
    {event : Event} (hevent : event ∈ call.events) (data : Data) {w : World σ} (hw : inv w) :
    (s.execute event data).Keeps rely inv (fun _ => inv) w := by
  have hscreen : rely w (s.screen event w).2 := h.checks w _ (screen_afterChecks s event w)
  have hstep : (Task.step (s.screen event)).Keeps rely inv
      (fun r v => r = (s.screen event w).1 ∧ v = (s.screen event w).2) w := ⟨rfl, rfl⟩
  refine hstep.andThen ?_ ?_
  · rintro refused v ⟨hadmitted, rfl⟩
    cases refused with
    | some o => exact h.stable w _ hscreen hw
    | none =>
      have hadmits := admits_of_screen hadmitted.symm
      have hobeys : (s.runActions event data).Obeys rely :=
        runActions_obeys (fun a _ => h.handlers a) h.admits data
      have hchain : (s.runActions event data).Keeps rely (rely w) (fun _ => rely w)
          (s.screen event w).2 :=
        .of_obeys hobeys (fun u v huv hwu => h.admits.trans w u v hwu huv)
          (fun u v huv hwu => h.admits.trans w u v hwu huv) hscreen
      refine (hchain.mono (fun u hu => h.stable w u hu hw) fun _ _ hu => hu).bind fun r u hu => ?_
      exact h.conclude call hcall event hevent w u r hadmits.2 hw hu
  · rintro fault v ⟨-, rfl⟩
    exact h.stable w _ hscreen hw

/-- Executing events of an allowed call keeps what the session upholds. -/
theorem executeAll_keeps (h : s.Upholds allowed rely inv) {call : Call} (hcall : allowed call)
    {events : List Event} (hevents : ∀ e ∈ events, e ∈ call.events) (data : Data) {w : World σ}
    (hw : inv w) : (s.executeAll data events).Keeps rely inv (fun _ => inv) w := by
  induction events generalizing w with
  | nil => exact hw
  | cons event rest ih =>
    have hrest : ∀ e ∈ rest, e ∈ call.events :=
      fun e he => hevents e (List.mem_cons_of_mem event he)
    have hfirst := h.execute_keeps hcall (hevents event List.mem_cons_self) data hw
    refine hfirst.andThen (fun o v hv => ?_) fun _ _ hv => hv
    exact (ih hrest hv).andThen (fun os u hu => hu) fun _ _ hu => hu

/-- Every allowed call keeps the invariant. -/
theorem work_keeps (h : s.Upholds allowed rely inv) {call : Call} (hcall : allowed call)
    {w : World σ} (hw : inv w) : (call.work s).Keeps rely inv (fun _ => inv) w := by
  cases call with
  | execute event data =>
    have hevent : event ∈ (Call.execute event data).events := List.mem_singleton_self event
    exact (h.execute_keeps hcall hevent data hw).map fun _ _ hv => hv
  | dispatch events kind data =>
    exact (h.executeAll_keeps hcall (fun e he => he) data hw).map fun _ _ hv => hv
  | patch given =>
    have hpatch := h.patch given hcall w
    rw [← Call.patchState_world] at hpatch
    exact h.stable w _ hpatch hw
  | update given => exact h.stable w _ (h.update given hcall w) hw

/-- The allowed calls keep the invariant together, in any order of turns. -/
theorem rules (h : s.Upholds allowed rely inv) : Calls.Rules (s.Starts allowed) rely inv := by
  refine ⟨h.admits.refl, fun {u v w} => h.admits.trans u v w, h.stable, ?_, ?_⟩
  · intro t ht w hw
    rcases ht.cases with ⟨call, hcall, -, rfl⟩ | ⟨hfree, -⟩
    · exact h.work_keeps hcall hw
    · cases hfree
  · intro t ht w
    rcases ht.cases with ⟨call, hcall, hfree, rfl⟩ | ⟨-, fault, rfl⟩
    · cases call with
      | update given => exact h.update given hcall w
      | execute event data => cases hfree
      | dispatch events kind data => cases hfree
      | patch given => cases hfree
    · exact h.admits.refl w

/-- However the allowed calls overlap, and whatever others do within the reliance, the invariant
holds after any number of turns if it holds before them. -/
theorem reaches (h : s.Upholds allowed rely inv) {w v : World σ}
    {c : Calls (World σ) (Except Fault Reply)}
    (hreaches : Calls.Reaches (s.Starts allowed) rely (.empty, w) (c, v)) (hw : inv w) : inv v :=
  (hreaches.sound h.rules (.empty hw)).world

end Upholds

end Session

end MapEvents
