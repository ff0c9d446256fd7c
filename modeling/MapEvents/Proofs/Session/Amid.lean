import MapEvents.Proofs.Chain.Frame
import MapEvents.Proofs.Chain.Position
import MapEvents.Proofs.Session.Quota
import MapEvents.Proofs.Session.Update
/-!
# Updates in the middle of a chain

While a chain runs, its handlers may update the state, and whenever it is suspended other calls may.
Such an update changes the world at a point of the execution and leaves what is left of the
execution as it is: the rest of the walk from where the chain stands, under what is left of its
time. The execution then ends as this rest ends from the updated world, and its entry is added to
the history that it finds there.

So an update undoes nothing but what it replaces, and what comes after it is not undone either: a
relation between worlds that the handlers and the others respect holds from any later point to any
point behind it.
-/

namespace MapEvents

variable {σ : Type}

/-- How a chain is watched, from some point on. -/
inductive Watch where
  /-- The chain has no time limit. -/
  | free
  /-- The chain is cut off if it hangs. -/
  | patient
  /-- The chain is cut off when it suspends itself again after this many times. -/
  | strict (suspensions : Nat)
  /-- The chain was cut off before it began. -/
  | lapsed
  /-- The chain is not watched before its first suspension, and like this after it. -/
  | upTo (later : Watch)

namespace Watch

variable {W α : Type}

/-- The rest of a chain that is watched. -/
def limit : Watch → Task W (Except Fault α) → Task W (Except Fault α)
  | free, t => t
  | patient, t => t.unlessHung (.error .timeLimit)
  | strict n, t => t.within (.error .timeLimit) n
  | lapsed, _ => .done (.error .timeLimit)
  | upTo later, t => t.afterPause later.limit

/-- How a chain with this time limit is watched. -/
def ofLimit (x : Double) : Watch :=
  if x.le .zero then lapsed else upTo (if Session.shortLimit.lt x then patient else strict 0)

/-- A time limit is a way to watch the chain, from its first suspension on. -/
theorem limited_eq (limit : Option Double) (chain : Task W (Except Fault α)) :
    Session.limited limit chain =
      match limit with
      | none => free.limit chain
      | some x => .pause ((ofLimit x).limit chain) := by
  unfold Session.limited ofLimit
  cases limit with
  | none => rfl
  | some x =>
    simp only
    split
    · rfl
    · simp only [Watch.limit]
      split <;> rfl

/-- A chain that is watched advances as the chain does. -/
theorem exists_advance {others : W → W → Prop} {watch : Watch} {t : Task W (Except Fault α)} {w : W}
    {y : Task W (Except Fault α) × W} (h : Task.Advance others (watch.limit t, w) y) :
    ∃ (later : Watch) (r : Task W (Except Fault α)) (v : W),
      Task.Advance others (t, w) (r, v) ∧ y = (later.limit r, v) := by
  cases watch with
  | free => exact ⟨.free, y.1, y.2, h, rfl⟩
  | patient =>
    obtain ⟨r, v, hadvance, rfl⟩ := Task.Advance.of_unlessHung h
    exact ⟨.patient, r, v, hadvance, rfl⟩
  | strict n =>
    obtain ⟨r, v, m, hadvance, rfl⟩ := Task.Advance.of_within h
    exact ⟨.strict m, r, v, hadvance, rfl⟩
  | lapsed => cases h
  | upTo first =>
    obtain ⟨r, v, hadvance, rfl | rfl⟩ := Task.Advance.of_afterPause h
    · exact ⟨.upTo first, r, v, hadvance, rfl⟩
    · exact ⟨first, r, v, hadvance, rfl⟩

end Watch

namespace Session

section

variable (s : Session σ) (event : Event) (data : Data)

/-- A chain that has this left to do, with trigger data as they are by now. -/
def underWay (watch : Watch) (rest : Work σ Outcome) (d : Data) :
    Task (World σ) (Except Fault Outcome) :=
  watch.limit ((rest.withLocal d).map (·.1))

/-- A point of the actions of an event: they have not been started, or what is left of them is what
is left of a chain at one of its positions. -/
inductive Stage (others : World σ → World σ → Prop) :
    Task (World σ) (Except Fault Outcome) × World σ → Prop where
  | waiting {u : World σ} : Stage others (s.runActions event data, u)
  | amid (watch : Watch) {rest : Work σ Outcome} {d : Data} {u : World σ}
      (h : Chain.Position s.player event event.actions s.stepLimit (Task.beside others)
        (rest, (u, d))) :
      Stage others (underWay watch rest d, u)

/-- The actions of an event with the end of its execution behind them. -/
def concluding (t : Task (World σ) (Except Fault Outcome)) :
    Task (World σ) (Except Fault Outcome) :=
  t.bind fun r => (Task.step (conclude event r)).map .ok

/-- What the execution of an event adds to the history when its actions have ended in a world. -/
def entered : Except Fault Outcome → World σ → List HistoryEntry
  | .ok o, w => [⟨event.id, w.clock.now, o⟩]
  | .error _, _ => []

/-- An update that a handler makes. -/
def updating (given : Data) : Work σ Unit :=
  Task.step fun (p : Scene σ) => ((p.1.update given).1, ((p.1.update given).2, p.2))

end

variable {s : Session σ} {event : Event} {data : Data} {others : World σ → World σ → Prop}
  {w u v : World σ} {t : Task (World σ) (Except Fault Outcome)} {given : Data}

/-! ## The points of an execution -/

/-- A chain that is under way stays under way when it advances, perhaps watched otherwise. -/
theorem stage_of_underWay (watch : Watch) {rest : Work σ Outcome} {d : Data} {u : World σ}
    (hposition : Chain.Position s.player event event.actions s.stepLimit (Task.beside others)
      (rest, (u, d)))
    {y : Task (World σ) (Except Fault Outcome) × World σ}
    (h : Task.Advance others (underWay watch rest d, u) y) : s.Stage event data others y := by
  obtain ⟨later, r, v, hmap, rfl⟩ := Watch.exists_advance h
  obtain ⟨r', v', hlocal, hsame⟩ := Task.Advance.of_map hmap
  obtain ⟨rfl, rfl⟩ := Prod.mk.inj hsame
  obtain ⟨rest', v', d', hrest, hsame⟩ := Task.Advance.of_withLocal hlocal
  obtain ⟨rfl, rfl⟩ := Prod.mk.inj hsame
  exact .amid later (hposition.advance hrest)

/-- The actions of an event only ever come from one of their points to another. -/
theorem Stage.advance {x y : Task (World σ) (Except Fault Outcome) × World σ}
    (hx : s.Stage event data others x) (h : Task.Advance others x y) :
    s.Stage event data others y := by
  cases hx with
  | @waiting u =>
    rw [runActions, Watch.limited_eq] at h
    cases hlimit : s.timeLimit with
    | none =>
      rw [hlimit] at h
      exact stage_of_underWay .free (Chain.position_of_comes .refl) h
    | some x =>
      rw [hlimit] at h
      cases h with
      | resume hothers => exact .amid (.ofLimit x) (Chain.position_of_comes .refl)
  | amid watch hposition => exact stage_of_underWay watch hposition h

/-- Wherever the actions of an event come to, what is left of them is the rest of their walk. -/
theorem stage_of_comes {y : Task (World σ) (Except Fault Outcome) × World σ}
    (h : Task.Comes others (s.runActions event data, w) y) : s.Stage event data others y := by
  induction h with
  | refl => exact .waiting
  | tail _ hstep ih => exact ih.advance hstep

/-- The execution of an admitted event starts its actions, and is then at the points of the
actions. -/
theorem comes_concluding (hadmits : s.Admits event w)
    (h : Task.Comes others (s.runActions event data, s.chainStart event w) (t, u)) :
    Task.Comes others (s.execute event data, w) (concluding event t, u) := by
  have hscreen : Task.Advance others (s.execute event data, w)
      ((Task.done (s.screen event w).1).andThen _, (s.screen event w).2) := .act
  rw [screen_of_admits hadmits] at hscreen
  exact .head hscreen (h.bind _)

/-- An execution ends as its actions do: what they leave is concluded. -/
theorem comes_concluding_done_iff {r : Except Fault Outcome} {x : World σ} :
    Task.Comes others (concluding event t, v) (.done r, x) ↔
      ∃ o y, Task.Comes others (t, v) (.done o, y) ∧ r = .ok (conclude event o y).1 ∧
        x = (conclude event o y).2 := by
  have hstep : ∀ o y, Task.Comes others ((Task.step (conclude event o)).map Except.ok, y)
      (.done r, x) ↔ r = .ok (conclude event o y).1 ∧ x = (conclude event o y).2 :=
    fun o _ => Task.comes_step_done_iff
      (f := fun z => (Except.ok (conclude event o z).1, (conclude event o z).2))
  simp only [concluding, Task.comes_bind_done_iff, hstep]

/-- The end of an execution leaves the state as it is, but for the entry in the history. -/
theorem conclude_state (event : Event) (o : Except Fault Outcome) (y : World σ) :
    (conclude event o y).2.state =
      { y.state with history := y.state.history ++ entered event o y } := by
  cases o with
  | ok o => rfl
  | error fault =>
    show y.state = { y.state with history := y.state.history ++ [] }
    rw [List.append_nil]

/-- A handler that updates the state goes on from the updated world. -/
theorem advance_updating (hupdate : u.update given = (.ok (), v)) {watch : Watch}
    (hwatch : watch ≠ .lapsed) (steps : Nat) (a : Action)
    (k : Except Fault Unit → Work σ Outcome) (d : Data) :
    Task.Advance others
      (underWay watch (Chain.playOn s.player event event.actions s.stepLimit steps a
        ((updating given).bind k)) d, u)
      (underWay watch (Chain.playOn s.player event event.actions s.stepLimit steps a
        (k (.ok ()))) d, v) := by
  have hact : Task.Advance others
      (underWay watch (Chain.playOn s.player event event.actions s.stepLimit steps a
        ((updating given).bind k)) d, u)
      (underWay watch (Chain.playOn s.player event event.actions s.stepLimit steps a
        (k (u.update given).1)) d, (u.update given).2) := by
    cases watch with
    | free => exact .act
    | patient => exact .act
    | strict n => exact .act
    | lapsed => exact absurd rfl hwatch
    | upTo later => exact .act
  rwa [hupdate] at hact

/-- What handlers and others respect holds between any two points, though the world was changed at
a point before them. -/
theorem rel_of_comes {R : World σ → World σ → Prop} (hR : World.Admits R)
    (hr : ∀ a ∈ event.actions, s.player.registry.Obeys R a) (hothers : ∀ y z, others y z → R y z)
    (hpoint : Task.Comes others (s.runActions event data, w) (t, u))
    {later ending : Task (World σ) (Except Fault Outcome)} {y z : World σ}
    (hlater : Task.Comes others (t, v) (later, y))
    (hending : Task.Comes others (later, y) (ending, z)) : R y z := by
  have hstart : (s.runActions event data).Obeys R := runActions_obeys hr hR data
  have hrest : t.Obeys R := (Task.Obeys.comes hR.refl hR.trans hothers hstart hpoint).2
  have hleft : later.Obeys R := (Task.Obeys.comes hR.refl hR.trans hothers hrest hlater).2
  exact (Task.Obeys.comes hR.refl hR.trans hothers hleft hending).1

/-! ## Updates -/

/-- A call that updates the state is answered at once, whatever calls are under way. -/
theorem start_update (hupdate : u.update given = (.ok (), v))
    (c : Calls (World σ) (Except Fault Reply)) :
    c.start false ((Call.update given).work s) u =
      ({ c with
          count := c.count + 1
          answers := c.answers ++ [(c.count, some (.ok .updated))] }, v) := by
  simp [Calls.start, Calls.startFree, Call.work, hupdate, Except.map]

/-- An update leads from one world to another at a point of an event's actions, with this left of
them, and loses nothing. -/
structure UpdateLands (s : Session σ) (event : Event) (data : Data)
    (others : World σ → World σ → Prop) (given : Data)
    (t : Task (World σ) (Except Fault Outcome)) (u v : World σ) : Prop where
  /-- What is left of the actions is the rest of their walk. -/
  stands : s.Stage event data others (t, u)
  /-- The update replaces what it names. -/
  taken : GameState.NamesOnce given → GameState.Replaces given u.state v.state
  /-- It leaves alone the other fields, whatever was done to them before. -/
  kept : ∀ f, ¬GameState.Names given f → f.get v.state = f.get u.state
  frame : v = { u with state := v.state, recent := v.recent }
  /-- Made by another call, it leaves all calls as they are, the suspended execution among them. -/
  byCall : ∀ c : Calls (World σ) (Except Fault Reply), ∃ c',
    c.start false ((Call.update given).work s) u = (c', v) ∧ c'.holder = c.holder ∧
      c'.waiting = c.waiting
  /-- Made by a handler, it leaves what the handler does next, and the same rest of the walk. -/
  byHandler : ∀ watch steps a k d, watch ≠ .lapsed →
    t = underWay watch (Chain.playOn s.player event event.actions s.stepLimit steps a
      ((updating given).bind k)) d →
    Task.Advance others (t, u)
      (underWay watch (Chain.playOn s.player event event.actions s.stepLimit steps a
        (k (.ok ()))) d, v)
  /-- The execution ends as the rest of the walk ends from the updated world, and its entry is added
  to the history that the walk leaves. -/
  ends : ∀ r x, Task.Comes others (concluding event t, v) (.done r, x) ↔
    ∃ o y, Task.Comes others (t, v) (.done o, y) ∧ r = .ok (conclude event o y).1 ∧
      x = (conclude event o y).2 ∧
      x.state = { y.state with history := y.state.history ++ entered event o y }
  /-- What the world is like at any later point lasts, as far as the handlers of the actions and the
  others respect it. -/
  lasts : ∀ R, World.Admits R → (∀ a ∈ event.actions, s.player.registry.Obeys R a) →
    (∀ y z, others y z → R y z) → ∀ later y ending z,
      Task.Comes others (t, v) (later, y) → Task.Comes others (later, y) (ending, z) → R y z

/-- At whatever point of a running chain an update is accepted, and whatever others do at its
suspensions: the execution has come to this point, and goes on from the updated world with the rest
of its walk. Hook and resolver look at the game state and never write it. -/
theorem update_lands (s : Session σ) (event : Event) (data : Data)
    {others : World σ → World σ → Prop} {w u v : World σ}
    {t : Task (World σ) (Except Fault Outcome)} {given : Data} (hadmits : s.Admits event w)
    (hpoint : Task.Comes others (s.runActions event data, s.chainStart event w) (t, u))
    (hupdate : u.update given = (.ok (), v)) :
    Task.Comes others (s.execute event data, w) (concluding event t, u) ∧
      s.UpdateLands event data others given t u v := by
  obtain ⟨state, hstate, rfl⟩ := World.update_eq_ok_iff.mp hupdate
  refine ⟨comes_concluding hadmits hpoint, ?_⟩
  exact {
    stands := stage_of_comes hpoint
    taken := fun honce => GameState.replaces_of_update honce hstate
    kept := fun f hf => GameState.get_of_update hstate hf
    frame := rfl
    byCall := fun c => ⟨_, start_update hupdate c, rfl, rfl⟩
    byHandler := by
      rintro watch steps a k d hwatch rfl
      exact advance_updating hupdate hwatch steps a k d
    ends := by
      intro r x
      rw [comes_concluding_done_iff]
      refine exists_congr fun o => exists_congr fun y => and_congr_right fun _ => ?_
      refine and_congr_right fun _ => ⟨?_, fun h => h.1⟩
      rintro rfl
      exact ⟨rfl, conclude_state event o y⟩
    lasts := fun R hR hr hothers later y ending z => rel_of_comes hR hr hothers hpoint }

/-- The player is promoted while the handler of `slow` is suspended. -/
theorem promotion_lands_while_suspended :
    slow.Admits onlyOnce World.fresh ∧
      ∃ next u v,
        Task.Comes (fun _ _ => True)
          (slow.runActions onlyOnce [], slow.chainStart onlyOnce World.fresh) (.pause next, u) ∧
        u.update World.promotion = (.ok (), v) ∧
        Task.Comes (fun _ _ => True) (slow.execute onlyOnce [], World.fresh)
          (concluding onlyOnce (.pause next), u) ∧
        slow.UpdateLands onlyOnce [] (fun _ _ => True) World.promotion (.pause next) u v := by
  have hadmits : slow.Admits onlyOnce World.fresh := ⟨rfl, rfl⟩
  obtain ⟨next, u, hpoint⟩ : ∃ next u, Task.Comes (fun _ _ => True)
      (slow.runActions onlyOnce [], slow.chainStart onlyOnce World.fresh) (.pause next, u) :=
    ⟨_, _, .tail (.single .act) .act⟩
  obtain ⟨state, hstate⟩ :=
    (GameState.exists_update_iff (by decide) u.state).mpr World.promotion_accepts
  have hupdate : u.update World.promotion = (.ok (), u.updated World.promotion state) :=
    World.update_of_ok hstate
  exact ⟨hadmits, next, u, _, hpoint, hupdate, update_lands slow onlyOnce [] hadmits hpoint hupdate⟩

end Session

end MapEvents
