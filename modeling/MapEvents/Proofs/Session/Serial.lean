import MapEvents.Proofs.Session.Quota
/-!
# Overlapping calls are serial

A call that takes the session keeps the others waiting until it is done, however often it suspends
itself, and they get it in the order in which they were started. Whatever was started, and however
far the call that has the session has come, the calls therefore stand where they would stand if each
had been awaited before the next was made: the first of them are over, and the others are still to
be done one after another from the world as it is.
-/

namespace MapEvents

namespace Task

variable {W α : Type}

/-- Does the tasks one after another, each after the end of the one before. -/
def inTurn : List (Task W α) → Task W (List α)
  | [] => .done []
  | t :: rest => t.bind fun a => (inTurn rest).map (a :: ·)

/-- The results so far, before those that a run still gives. -/
def preceded (before : List α) (r : Option (List α) × W) : Option (List α) × W :=
  (r.1.map (before ++ ·), r.2)

@[simp]
theorem preceded_nil (r : Option (List α) × W) : preceded [] r = r := by
  rcases r with ⟨_ | rs, v⟩ <;> rfl

theorem preceded_preceded (as bs : List α) (r : Option (List α) × W) :
    preceded as (preceded bs r) = preceded (as ++ bs) r := by
  rcases r with ⟨_ | rs, v⟩
  · rfl
  · simp [preceded]

/-- Tasks in turn run as the first and then the others. -/
theorem run_inTurn_cons (t : Task W α) (rest : List (Task W α)) (w : W) :
    (inTurn (t :: rest)).run w =
      match t.run w with
      | (some a, v) => preceded [a] ((inTurn rest).run v)
      | (none, v) => (none, v) := by
  rw [inTurn, run_bind]
  rcases t.run w with ⟨_ | a, v⟩
  · rfl
  · exact run_map _ _ _

/-- Tasks in turn run as earlier ones and then later ones. -/
theorem run_inTurn_append (ts us : List (Task W α)) (w : W) :
    (inTurn (ts ++ us)).run w =
      match (inTurn ts).run w with
      | (some as, v) => preceded as ((inTurn us).run v)
      | (none, v) => (none, v) := by
  induction ts generalizing w with
  | nil => exact (preceded_nil _).symm
  | cons t rest ih =>
    rw [List.cons_append, run_inTurn_cons, run_inTurn_cons]
    rcases t.run w with ⟨_ | a, v⟩
    · rfl
    · simp only [ih]
      rcases (inTurn rest).run v with ⟨_ | as, u⟩
      · rfl
      · exact preceded_preceded [a] as _

/-- Of tasks to be done one after another, only the first is driven. -/
theorem run_inTurn_of_poll (t : Task W α) (rest : List (Task W α)) (w : W) :
    (inTurn (t :: rest)).run w =
      match t.poll w with
      | (.inl t', v) => (inTurn (t' :: rest)).run v
      | (.inr a, v) => preceded [a] ((inTurn rest).run v) := by
  rw [run_inTurn_cons, run_of_poll]
  rcases t.poll w with ⟨t' | a, v⟩
  · exact (run_inTurn_cons t' rest v).symm
  · rfl

end Task

namespace Calls

variable {W α : Type}

/-- The given things under the numbers from `first` on. -/
def numbered {β : Type} : (first : Nat) → List β → List (Nat × β)
  | _, [] => []
  | n, b :: rest => (n, b) :: numbered (n + 1) rest

theorem numbered_append {β : Type} (n : Nat) (bs cs : List β) :
    numbered n (bs ++ cs) = numbered n bs ++ numbered (n + bs.length) cs := by
  induction bs generalizing n with
  | nil => rfl
  | cons b rest ih =>
    simp only [List.cons_append, numbered, ih, List.length_cons, Nat.add_right_comm n 1,
      Nat.add_assoc]

theorem map_snd_numbered {β : Type} (n : Nat) (bs : List β) : (numbered n bs).map (·.2) = bs := by
  induction bs generalizing n with
  | nil => rfl
  | cons b rest ih => rw [numbered, List.map_cons, ih]

/-- What has become of calls that were started in this order, from a world in which none was under
way: the call that has the session goes on at any time, and nobody else acts on the world. -/
inductive Interleaves (w₀ : W) : List (Bool × Task W α) → Calls W α × W → Prop where
  | none : Interleaves w₀ [] (empty, w₀)
  | start {started : List (Bool × Task W α)} {c : Calls W α} {w : W}
      (h : Interleaves w₀ started (c, w)) (exclusive : Bool) (t : Task W α) :
      Interleaves w₀ (started ++ [(exclusive, t)]) (c.start exclusive t w)
  | resume {started : List (Bool × Task W α)} {c : Calls W α} {w : W} {n : Nat} {t : Task W α}
      (h : Interleaves w₀ started (c, w)) (hholder : c.holder = some (n, t)) :
      Interleaves w₀ started (c.driven n (t.poll w))

/-- The calls that are not over: the one that has the session, then those that wait for it. -/
def underWay (c : Calls W α) : List (Nat × Task W α) := c.holder.toList ++ c.waiting

/-- The calls stand where they would stand if each had waited for the end of the one before: the
first of them are over, and the others are still to be done one after another. -/
structure InTurn (w₀ : W) (ts : List (Task W α)) (c : Calls W α) (w : W) (as : List α)
    (rest : List (Task W α)) : Prop where
  orderly : c.Orderly
  count : c.count = as.length + rest.length
  answers : c.answers = numbered 0 (as.map some)
  underWay : c.underWay = numbered as.length rest
  run : (Task.inTurn ts).run w₀ = Task.preceded as ((Task.inTurn rest).run w)

namespace InTurn

variable {w₀ : W} {ts : List (Task W α)} {c : Calls W α} {w : W} {as : List α}
  {rest : List (Task W α)}

theorem empty (w₀ : W) : InTurn w₀ ([] : List (Task W α)) empty w₀ [] [] := by
  refine ⟨fun _ => rfl, rfl, rfl, rfl, ?_⟩
  rw [Task.preceded_nil]

/-- One more call at the end of the order. -/
theorem run_append (h : InTurn w₀ ts c w as rest) (t : Task W α) :
    (Task.inTurn (ts ++ [t])).run w₀ = Task.preceded as ((Task.inTurn (rest ++ [t])).run w) := by
  rw [Task.run_inTurn_append, h.run, Task.run_inTurn_append]
  rcases (Task.inTurn rest).run w with ⟨_ | bs, v⟩
  · rfl
  · exact (Task.preceded_preceded as bs _).symm

/-- Where nobody holds the session, no call is left. -/
theorem rest_eq_nil (h : InTurn w₀ ts c w as rest) (hholder : c.holder = none) : rest = [] := by
  have hunder := h.underWay
  rw [Calls.underWay, hholder, h.orderly hholder] at hunder
  cases rest with
  | nil => rfl
  | cons t rest => cases hunder

/-- A call that finds the session free begins at once; otherwise it waits behind all others. -/
theorem startExclusive (h : InTurn w₀ ts c w as rest) (t : Task W α) :
    ∃ as' rest', InTurn w₀ (ts ++ [t]) (c.startExclusive t w).1 (c.startExclusive t w).2 as'
      rest' := by
  have horderly := h.orderly.start true t w
  have hrun := h.run_append t
  simp only [start, if_true] at horderly
  cases hholder : c.holder with
  | some held =>
    have hstart : c.startExclusive t w =
        ({ c with count := c.count + 1, waiting := c.waiting ++ [(c.count, t)] }, w) := by
      rw [Calls.startExclusive, hholder]
    rw [hstart] at horderly ⊢
    refine ⟨as, rest ++ [t], horderly, ?_, h.answers, ?_, hrun⟩
    · simp [h.count, Nat.add_assoc]
    · have hunder := h.underWay
      unfold Calls.underWay at hunder ⊢
      rw [numbered_append, ← hunder, ← h.count, List.append_assoc]
      rfl
  | none =>
    obtain rfl := h.rest_eq_nil hholder
    have hcount : c.count = as.length := h.count
    have hwaiting : c.waiting = [] := h.orderly hholder
    rw [List.nil_append, Task.run_inTurn_of_poll] at hrun
    rcases hpoll : t.poll w with ⟨t' | a, v⟩ <;> rw [hpoll] at hrun
    · have hstart : c.startExclusive t w =
          ({ c with count := c.count + 1, holder := some (c.count, t') }, v) := by
        rw [Calls.startExclusive, hholder]
        simp only [hpoll]
      rw [hstart] at horderly ⊢
      refine ⟨as, [t'], horderly, ?_, h.answers, ?_, hrun⟩
      · simp [hcount]
      · simp [Calls.underWay, hwaiting, hcount, numbered]
    · have hstart : c.startExclusive t w =
          ({ c with count := c.count + 1, answers := c.answers ++ [(c.count, some a)] }, v) := by
        rw [Calls.startExclusive, hholder]
        simp only [hpoll]
      rw [hstart] at horderly ⊢
      refine ⟨as ++ [a], [], horderly, ?_, ?_, ?_, ?_⟩
      · simp [hcount]
      · simp [h.answers, numbered_append, numbered, hcount]
      · simp [Calls.underWay, hwaiting, hholder, numbered]
      · rw [hrun, Task.preceded_preceded]

/-- The call that has the session goes on, and hands it over when it is done. -/
theorem driven (h : InTurn w₀ ts c w as rest) {n : Nat} {t : Task W α}
    (hholder : c.holder = some (n, t)) :
    ∃ as' rest', InTurn w₀ ts (c.driven n (t.poll w)).1 (c.driven n (t.poll w)).2 as' rest' := by
  have hunder := h.underWay
  rw [Calls.underWay, hholder] at hunder
  cases rest with
  | nil => cases hunder
  | cons first rest =>
    obtain ⟨⟨rfl, rfl⟩, hwaiting⟩ :
        (n = as.length ∧ t = first) ∧ c.waiting = numbered (as.length + 1) rest := by
      simpa [numbered] using hunder
    have hcount : c.count = as.length + (rest.length + 1) := h.count
    have hrun := h.run
    rw [Task.run_inTurn_of_poll] at hrun
    rcases hpoll : t.poll w with ⟨t' | a, v⟩ <;> rw [hpoll] at hrun
    · refine ⟨as, t' :: rest, ?_, hcount, h.answers, ?_, hrun⟩
      · intro hnone
        cases hnone
      · simp [Calls.underWay, Calls.driven, hwaiting, numbered]
    · refine ⟨as ++ [a], rest, orderly_release c _ _, ?_, ?_, ?_, ?_⟩
      · simp [Calls.driven, release, hcount]
        omega
      · simp [Calls.driven, release, h.answers, numbered_append, numbered]
      · rw [Calls.driven, Calls.underWay, release, hwaiting, List.length_append]
        cases rest <;> rfl
      · rw [hrun, Task.preceded_preceded]
        rfl

end InTurn

/-- However calls that take the session for themselves interleave, they stand as if they had been
made in turn so far. -/
theorem Interleaves.inTurn {w₀ : W} {started : List (Bool × Task W α)} {now : Calls W α × W}
    (h : Interleaves w₀ started now) (hexclusive : ∀ call ∈ started, call.1 = true) :
    ∃ as rest, InTurn w₀ (started.map (·.2)) now.1 now.2 as rest := by
  induction h with
  | none => exact ⟨[], [], .empty w₀⟩
  | @start started c w h exclusive t ih =>
    obtain rfl : exclusive = true := hexclusive (exclusive, t) (by simp)
    obtain ⟨as, rest, hturn⟩ := ih fun call hcall => hexclusive call (List.mem_append_left _ hcall)
    simpa [Calls.start] using hturn.startExclusive t
  | resume h hholder ih =>
    obtain ⟨as, rest, hturn⟩ := ih hexclusive
    exact hturn.driven hholder

/-- Tasks that end in turn answer under their numbers. -/
theorem runInTurn_numbered {ts : List (Task W α)} {w v : W} {as : List α}
    (h : (Task.inTurn ts).run w = (some as, v)) (n : Nat) :
    runInTurn (numbered n ts) w = (numbered n (as.map some), v) := by
  induction ts generalizing n w as with
  | nil =>
    obtain ⟨rfl, rfl⟩ : [] = as ∧ w = v := by simpa [Task.inTurn, Task.run] using h
    rfl
  | cons t rest ih =>
    rw [Task.run_inTurn_cons] at h
    rcases ht : t.run w with ⟨_ | a, u⟩ <;> rw [ht] at h
    · cases h
    · replace h : Task.preceded [a] ((Task.inTurn rest).run u) = (some as, v) := h
      rcases hrest : (Task.inTurn rest).run u with ⟨_ | bs, u'⟩ <;> rw [hrest] at h
      · cases h
      · obtain ⟨rfl, rfl⟩ : a :: bs = as ∧ u' = v := by simpa [Task.preceded] using h
        simp only [numbered, runInTurn, ht, ih hrest, List.map_cons]

end Calls

namespace Session

variable {σ : Type}

/-- The work of a client that awaits the end of each call before it makes the next. -/
def serially (s : Session σ) (calls : List Call) :
    Task (World σ) (List (Except Fault Reply)) :=
  Task.inTurn (calls.map (·.work s))

/-- Calls that take the session, started in any order while earlier ones are suspended as often as
they like, are the same calls awaited one after another in the order in which they were started. At
any time the serial run has the answers so far as its first ones and comes, by doing what is still
under way, from this world to its own end, or hangs there. Once nothing is under way, all answers
and the world, with its history and its journal of everything that was asked, are those of the
serial run; and what is under way, driven to its end, ends in the serial answers and the serial
world. Hook and resolver look at the game state and never write it. -/
theorem overlapping_calls_are_serial (s : Session σ) {calls : List Call}
    (hcalls : ∀ call ∈ calls, call.exclusive = true) {w₀ w : World σ}
    {c : Calls (World σ) (Except Fault Reply)}
    (h : Calls.Interleaves w₀ (calls.map fun call => s.starting (.ok call)) (c, w)) :
    (∃ replies, c.answers = Calls.numbered 0 (replies.map some) ∧
      (s.serially calls).run w₀ =
        Task.preceded replies ((Task.inTurn (c.underWay.map (·.2))).run w)) ∧
    (c.holder = none → ∃ replies, (s.serially calls).run w₀ = (some replies, w) ∧
      c.answers = Calls.numbered 0 (replies.map some)) ∧
    ∀ replies v, (s.serially calls).run w₀ = (some replies, v) →
      c.answers <+: Calls.numbered 0 (replies.map some) ∧
        c.finish w = (Calls.numbered 0 (replies.map some), v) := by
  have hexclusive : ∀ started ∈ calls.map fun call => s.starting (.ok call), started.1 = true := by
    intro started hstarted
    obtain ⟨call, hcall, rfl⟩ := List.mem_map.mp hstarted
    exact hcalls call hcall
  obtain ⟨as, rest, hturn⟩ := h.inTurn hexclusive
  have hrun := hturn.run
  rw [List.map_map] at hrun
  replace hrun : (s.serially calls).run w₀ = Task.preceded as ((Task.inTurn rest).run w) := hrun
  refine ⟨⟨as, hturn.answers, ?_⟩, fun hholder => ?_, fun replies v hserial => ?_⟩
  · rw [hrun, hturn.underWay, Calls.map_snd_numbered]
  · obtain rfl := hturn.rest_eq_nil hholder
    refine ⟨as, ?_, hturn.answers⟩
    rw [hrun]
    simp [Task.preceded, Task.inTurn, Task.run]
  · rw [hrun] at hserial
    rcases hrest : (Task.inTurn rest).run w with ⟨_ | bs, u⟩ <;> rw [hrest] at hserial
    · cases hserial
    · obtain ⟨rfl, rfl⟩ : as ++ bs = replies ∧ u = v := by simpa [Task.preceded] using hserial
      have hfinish := Calls.runInTurn_numbered hrest as.length
      have hall : Calls.numbered 0 ((as ++ bs).map some) =
          c.answers ++ Calls.numbered as.length (bs.map some) := by
        rw [List.map_append, Calls.numbered_append, hturn.answers, List.length_map, Nat.zero_add]
      rw [hall]
      refine ⟨List.prefix_append _ _, ?_⟩
      rw [Calls.finish, ← Calls.underWay, hturn.underWay, hfinish]

/-- An event that suspends itself, the same again, and a patch. -/
def crowd : List Call :=
  [.execute onlyOnce [], .execute onlyOnce [], .patch [("playerLevel", .int 3)]]

/-- A crowd of overlapping calls ends as the same calls made one after another. -/
theorem crowd_is_serial :
    (∀ call ∈ crowd, call.exclusive = true) ∧
      ∃ c v, Calls.Interleaves World.fresh (crowd.map fun call => slow.starting (.ok call))
          (c, v) ∧ c.holder = none ∧
        ∃ replies, (slow.serially crowd).run World.fresh = (some replies, v) ∧
          c.answers = Calls.numbered 0 (replies.map some) := by
  have hcalls : ∀ call ∈ crowd, call.exclusive = true := by decide
  have hnone : Calls.Interleaves World.fresh []
      ((.empty : Calls (World Unit) (Except Fault Reply)), World.fresh) := .none
  have hstarted := ((hnone.start true ((Call.execute onlyOnce []).work slow)).start true
    ((Call.execute onlyOnce []).work slow)).start true
      ((Call.patch [("playerLevel", .int 3)]).work slow)
  have hdone := ((hstarted.resume rfl).resume rfl).resume rfl
  exact ⟨hcalls, _, _, hdone, rfl, (overlapping_calls_are_serial slow hcalls hdone).2.1 rfl⟩

end Session

end MapEvents
