import MapEvents.Proofs.Chain.Visit
import MapEvents.Proofs.Condition.Frame
import MapEvents.Proofs.State.Frame
import MapEvents.Proofs.Task.Keeps
import MapEvents.Session.Execute
/-!
# What chains leave alone

Besides running handlers, a chain takes notes and changes the memory of the surroundings. A relation
between worlds that admits this, and what the handlers of the actions do, holds for every act of a
chain. In particular a part of the world that holds neither flags nor inventory, nor the journal,
nor that memory, such as the history, is changed by the custom handlers or not at all.
-/

namespace MapEvents

variable {σ δ : Type}

/-- The relation admits what chains do between the acts of handlers. -/
structure World.Admits (R : World σ → World σ → Prop) : Prop where
  refl : ∀ w, R w w
  trans : ∀ u v w, R u v → R v w → R u w
  note : ∀ w e, R w (w.note e)
  outside : ∀ w o, R w { w with outside := o }

/-- What the handler of the action does is within the relation. -/
def Registry.Obeys (r : Registry σ) (R : World σ → World σ → Prop) (a : Action) : Prop :=
  ∀ handler, r.handler? a.type = some handler →
    match handler with
    | .standard std => ∀ w, R w { w with state := (std.perform a.params w.state).1 }
    | .custom run => ∀ event, (run event a).Obeys fun p q => R p.1 q.1

variable {R : World σ → World σ → Prop}

/-- Checking conditions stays within a relation that admits what a check does to a world. -/
theorem Condition.checkAll_admitted (hR : World.Admits R) (s : Surroundings σ)
    (cs : List Condition) (w : World σ) : R w (checkAll s cs w).2 := by
  refine checkAll_world hR.refl hR.trans ?_ s cs w
  intro w e outside _
  exact hR.trans w _ _ (hR.note w e) (hR.outside _ outside)

namespace Registry

variable {r : Registry σ}

theorem ask_obeys (hR : World.Admits R) (s : Surroundings σ) (request : Request) :
    (s.ask request).Obeys fun p q => R p.1 q.1 := by
  refine ⟨fun p => hR.note _ _, fun p => ?_⟩
  refine .onPart ?_ _
  rintro o ⟨w, d⟩
  exact hR.outside w o

/-- A handler stays within a relation between worlds if the registry obeys it for its action. -/
theorem dispatch_obeys {a : Action} (ha : r.Obeys R a) (hR : World.Admits R) (s : Surroundings σ)
    (event : Event) : (r.dispatch s event a).Obeys fun p q => R p.1 q.1 := by
  unfold Registry.dispatch
  split
  · exact ⟨fun p => hR.note _ _, fun p => trivial⟩
  · next std hstd =>
    refine Task.Obeys.andThen (.step fun p => ha _ hstd p.1) fun request => ?_
    cases request with
    | none => trivial
    | some request => exact (ask_obeys hR s request).andThen fun reply => trivial
  · next run hrun =>
    exact ⟨fun p => hR.note _ _, fun p => (ha _ hrun event).andThen fun reply => trivial⟩

end Registry

namespace Chain

variable {p : Player σ}

theorem chooseBranch_admitted (hR : World.Admits R) (s : Surroundings σ) (bs : List Branch)
    (w : World σ) : R w (chooseBranch s bs w).2 := by
  have hbranch : ∀ (b : Branch) (w : World σ), R w (branchHolds s b w).2 := by
    intro b w
    unfold branchHolds
    split
    · exact hR.refl w
    · exact hR.trans w _ _ (hR.note w _) (hR.outside _ _)
  induction bs generalizing w with
  | nil => exact hR.refl w
  | cons b rest ih =>
    have hfirst := hbranch b w
    rw [chooseBranch]
    split <;> next v hv =>
      rw [hv] at hfirst
      first
      | exact hfirst
      | exact hR.trans w v _ hfirst (ih v)

/-- A visit of an action stays within a relation between worlds if the handler does. -/
theorem visit_obeys {a : Action} (ha : p.registry.Obeys R a) (hR : World.Admits R)
    (event : Event) : (visit p event a).Obeys fun p q => R p.1 q.1 := by
  refine Task.Obeys.andThen (.step fun scene => ?_) fun admitted => ?_
  · simp only [Chain.admitted]
    split
    · exact hR.refl _
    · exact Condition.checkAll_admitted hR _ _ _
  · cases admitted with
    | false => trivial
    | true =>
      refine (Registry.dispatch_obeys ha hR p.surroundings event).andThen fun outcome => ?_
      cases outcome with
      | success => exact .step fun scene => chooseBranch_admitted hR _ _ _
      | failed => trivial
      | cancelled => trivial

/-- A walk stays within a relation between worlds if the handlers of all its actions do. -/
theorem walk_obeys {actions : List Action} (hr : ∀ a ∈ actions, p.registry.Obeys R a)
    (hR : World.Admits R) (event : Event) (steps : Nat) (current : Option String) :
    (walk p event actions steps current).Obeys fun p q => R p.1 q.1 := by
  induction steps, current using walk_induction actions with
  | nowhere steps current hnone =>
    rw [walk_nowhere p event hnone]
    trivial
  | zero id a hid ha =>
    rw [walk_zero p event hid ha]
    trivial
  | succ steps id a hid ha ih =>
    rw [walk_succ p event hid ha]
    have hobeys := hr a (mem_of_action? ha)
    refine (visit_obeys hobeys hR event).andThen fun m => ?_
    rcases m with next | outcome
    · exact ih next
    · trivial

/-- A chain stays within a relation between worlds if the handlers of all its actions do, whatever
its limit. -/
theorem runChain_obeys {actions : List Action} (hr : ∀ a ∈ actions, p.registry.Obeys R a)
    (hR : World.Admits R) (event : Event) (limit : Option Int) :
    (runChain p event actions limit).Obeys fun p q => R p.1 q.1 := by
  refine (walk_obeys hr hR event _ _).andThen fun stop => ?_
  cases stop with
  | finished outcome => trivial
  | unfinished id => cases limit <;> trivial

end Chain

namespace Session

/-- A time limit cuts a chain off at most, and so it stays within what the chain obeys. -/
theorem limited_obeys {W α : Type} {R : W → W → Prop} {chain : Task W (Except Fault α)}
    (h : chain.Obeys R) (limit : Option Double) : (limited limit chain).Obeys R := by
  unfold limited
  cases limit with
  | none => exact h
  | some x =>
    rw [Task.Obeys]
    cases x.le .zero with
    | true => exact True.intro
    | false =>
      refine h.afterPause fun hrest => ?_
      cases shortLimit.lt x with
      | true => exact hrest.unlessHung _
      | false => exact hrest.within _ 0

/-- The actions of an admitted event obey a relation that admits chains, if the handlers of these
actions do. -/
theorem runActions_obeys {s : Session σ} {event : Event}
    (hr : ∀ a ∈ event.actions, s.player.registry.Obeys R a) (hR : World.Admits R) (data : Data) :
    (s.runActions event data).Obeys R := by
  refine limited_obeys ?_ s.timeLimit
  exact ((Chain.runChain_obeys hr hR event _).withLocal data).map _

end Session

/-- The custom handlers act within a relation between worlds. -/
def Registry.ActsWithin (r : Registry σ) (R : World σ → World σ → Prop) : Prop :=
  ∀ tag run, (tag, Handler.custom run) ∈ r → ∀ event a, (run event a).Obeys fun p q => R p.1 q.1

/-- All handlers stay within a relation that admits what standard actions do to the state, if the
custom ones do. -/
theorem Registry.ActsWithin.obeys {r : Registry σ} (hr : r.ActsWithin R)
    (hstate : ∀ w state, w.state.AfterActions state → R w { w with state }) (a : Action) :
    r.Obeys R a := by
  intro handler hhandler
  cases handler with
  | standard std => exact fun w => hstate w _ (std.perform_afterActions a.params w.state)
  | custom run => exact fun event => hr _ run (Fields.mem_of_find? hhandler) event a

/-! ## Parts of the world that stand aside -/

/-- A part of the world that holds nothing of what chains change by themselves. -/
structure World.Aside (part : World σ → δ) : Prop where
  note : ∀ w e, part (w.note e) = part w
  outside : ∀ w o, part { w with outside := o } = part w
  state : ∀ w state, w.state.AfterActions state → part { w with state } = part w

/-- The history of a world stands aside. -/
theorem World.history_aside : Aside fun w : World σ => w.state.history :=
  ⟨fun _ _ => rfl, fun _ _ => rfl, fun _ _ h => h.history⟩

/-- The custom handlers leave a part of the world alone. -/
def Registry.Fixes (r : Registry σ) (part : World σ → δ) : Prop :=
  ∀ tag run, (tag, Handler.custom run) ∈ r → ∀ event a,
    (run event a).Fixes fun p => part p.1

variable {part : World σ → δ}

/-- A part of the world that no chain writes by itself is kept by everything but handlers. -/
theorem World.Aside.admits (hpart : World.Aside part) :
    World.Admits fun w v : World σ => part v = part w :=
  ⟨fun _ => rfl, fun _ _ _ huv hvw => hvw.trans huv, hpart.note, hpart.outside⟩

theorem Registry.Fixes.actsWithin {r : Registry σ} (hr : r.Fixes part) :
    r.ActsWithin fun w v => part v = part w :=
  fun tag run hrun event a => Task.obeys_iff_fixes.mpr (hr tag run hrun event a)

/-- All handlers keep a part of the world if the custom ones do and standard actions leave it alone.
-/
theorem Registry.Fixes.obeys {r : Registry σ} (hr : r.Fixes part) (hpart : World.Aside part)
    (a : Action) : r.Obeys (fun w v => part v = part w) a :=
  hr.actsWithin.obeys hpart.state a

/-- The actions of an admitted event leave alone what the custom handlers leave alone, if chains by
themselves do. -/
theorem Session.runActions_fixes {s : Session σ} (hr : s.player.registry.Fixes part)
    (hpart : World.Aside part) (event : Event) (data : Data) :
    (s.runActions event data).Fixes part :=
  Task.obeys_iff_fixes.mp (runActions_obeys (fun a _ => hr.obeys hpart a) hpart.admits data)

end MapEvents
