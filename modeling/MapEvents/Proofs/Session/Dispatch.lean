import MapEvents.Proofs.Session.Schedule
import MapEvents.Proofs.Task.Laws
/-!
# Triggers, event by event

A trigger fires the enabled events of its kind, highest priority first, and in the order given among
events of one priority. There is exactly one such order of the events, with every occurrence in it
once. Firing the trigger is then the same as calling the session for one event after another in this
order, each time with the trigger data as they were given: what an event does to its own data is not
seen by the next one, while everything else it leaves behind is. The calls stop at the first fault,
which is the answer to the trigger, and at the first that hangs.
-/

namespace MapEvents

variable {σ : Type}

/-- Results that are the same after an injective change are the same. -/
theorem Except.map_injective {ε α β : Type} {f : α → β} (hf : ∀ a b, f a = f b → a = b)
    (r r' : Except ε α) (h : r.map f = r'.map f) : r = r' := by
  cases r with
  | error e => cases r' with
    | error e' => exact congrArg Except.error (Except.error.inj h)
    | ok a' => cases h
  | ok a => cases r' with
    | error e' => cases h
    | ok a' => exact congrArg Except.ok (hf a a' (Except.ok.inj h))

/-! ## The order of events -/

/-- The events that a trigger of this kind is for, in the order given. -/
def Session.candidates (events : List Event) (kind : String) : List Event :=
  events.filter fun e => e.enabled && e.trigger.kind.name = kind

/-- The events of a list that have this priority, in their order. -/
def Event.ofPriority (n : Int) (events : List Event) : List Event :=
  events.filter fun e => e.priority = n

/-- The candidates of a trigger in the order in which they fire. -/
structure Session.FiringOrder (events : List Event) (kind : String) (order : List Event) :
    Prop where
  /-- Every occurrence of a candidate fires once. -/
  perm : order.Perm (candidates events kind)
  falling : order.Pairwise fun a b => b.priority ≤ a.priority
  /-- Events of one priority keep their order. -/
  stable : ∀ n, Event.ofPriority n order = Event.ofPriority n (candidates events kind)

/-- An event that a list has under some priority. -/
theorem Event.mem_of_ofPriority_eq {l l' : List Event} {a : Event} (ha : a ∈ l)
    (h : ofPriority a.priority l = ofPriority a.priority l') : a ∈ l' := by
  have hmem : a ∈ ofPriority a.priority l := List.mem_filter.mpr ⟨ha, by simp⟩
  rw [h] at hmem
  exact (List.mem_filter.mp hmem).1

/-- Events that are sorted by priority are known from the events of each priority. -/
theorem Event.eq_of_ofPriority_eq {l l' : List Event}
    (hl : l.Pairwise fun a b => b.priority ≤ a.priority)
    (hl' : l'.Pairwise fun a b => b.priority ≤ a.priority)
    (h : ∀ n, ofPriority n l = ofPriority n l') : l = l' := by
  induction l generalizing l' with
  | nil =>
    cases l' with
    | nil => rfl
    | cons b rest' => exact nomatch mem_of_ofPriority_eq List.mem_cons_self (h b.priority).symm
  | cons a rest ih =>
    cases l' with
    | nil => exact nomatch mem_of_ofPriority_eq List.mem_cons_self (h a.priority)
    | cons b rest' =>
      obtain ⟨hfirst, hrest⟩ := List.pairwise_cons.mp hl
      obtain ⟨hfirst', hrest'⟩ := List.pairwise_cons.mp hl'
      -- Each of the two heads is in the other list, so neither has the higher priority.
      have hle : a.priority ≤ b.priority := by
        rcases List.mem_cons.mp (mem_of_ofPriority_eq List.mem_cons_self (h a.priority)) with
          rfl | ha
        · exact Int.le_refl _
        · exact hfirst' a ha
      have hge : b.priority ≤ a.priority := by
        rcases List.mem_cons.mp (mem_of_ofPriority_eq List.mem_cons_self (h b.priority).symm) with
          rfl | hb
        · exact Int.le_refl _
        · exact hfirst b hb
      have heq : b.priority = a.priority := Int.le_antisymm hge hle
      have hheads := h a.priority
      unfold ofPriority at hheads
      rw [List.filter_cons_of_pos (by simp), List.filter_cons_of_pos (by simp [heq]),
        List.cons.injEq] at hheads
      obtain ⟨rfl, htails⟩ := hheads
      congr 1
      refine ih hrest hrest' fun n => ?_
      by_cases hn : a.priority = n
      · subst hn
        exact htails
      · have htails' := h n
        unfold ofPriority at htails'
        rwa [List.filter_cons_of_neg (by simpa using hn),
          List.filter_cons_of_neg (by simpa using hn)] at htails'

namespace Session

/-- There is only one firing order. -/
theorem FiringOrder.unique {events order other : List Event} {kind : String}
    (h : FiringOrder events kind order) (h' : FiringOrder events kind other) : other = order :=
  Event.eq_of_ofPriority_eq h'.falling h.falling fun n => (h'.stable n).trans (h.stable n).symm

/-- The events that a trigger fires are in firing order. -/
theorem firingOrder_fired (events : List Event) (kind : String) :
    FiringOrder events kind (fired events kind) := by
  have htrans : ∀ a b c : Event, decide (b.priority ≤ a.priority) = true →
      decide (c.priority ≤ b.priority) = true → decide (c.priority ≤ a.priority) = true := by
    intro a b c hab hbc
    simp only [decide_eq_true_eq] at hab hbc ⊢
    omega
  have htotal : ∀ a b : Event,
      (decide (b.priority ≤ a.priority) || decide (a.priority ≤ b.priority)) = true := by
    intro a b
    simp only [Bool.or_eq_true, decide_eq_true_eq]
    omega
  have hperm : (fired events kind).Perm (candidates events kind) := List.mergeSort_perm _ _
  refine ⟨hperm, ?_, fun n => ?_⟩
  · refine (List.pairwise_mergeSort htrans htotal (candidates events kind)).imp fun h => ?_
    simpa using h
  · -- Sorting leaves a sorted sublist as it is, such as the candidates of one priority.
    have hsorted : (Event.ofPriority n (candidates events kind)).Pairwise
        fun a b => decide (b.priority ≤ a.priority) = true := by
      refine List.pairwise_of_forall_mem_list fun a ha b hb => ?_
      have hpa : a.priority = n := by simpa using (List.mem_filter.mp ha).2
      have hpb : b.priority = n := by simpa using (List.mem_filter.mp hb).2
      simp [hpa, hpb]
    have hsub : (Event.ofPriority n (candidates events kind)).Sublist (fired events kind) :=
      List.sublist_mergeSort htrans htotal hsorted List.filter_sublist
    have hsub' := hsub.filter fun e => e.priority = n
    rw [Event.ofPriority, List.filter_filter] at hsub'
    simp only [Bool.and_self] at hsub'
    refine (hsub'.eq_of_length ?_).symm
    exact (hperm.filter _).length_eq.symm

/-! ## One call after another -/

/-- Called alone in the first world, the session gives this answer, or none if the call hangs, and
leaves the second world. -/
def Answers (s : Session σ) (call : Call) (w : World σ) (r : Option (Except Fault Reply))
    (v : World σ) : Prop :=
  s.gather [.ok call] w = ([r], v)

/-- Calls of the session for the events in their order, each with the same data and each after the
answer to the one before, up to a call that is answered with a fault or hangs. Gives the events'
outcomes, or else this fault, or nothing. -/
inductive OneByOne (s : Session σ) (data : Data) :
    List Event → World σ → Option (Except Fault (List (String × Outcome))) → World σ → Prop where
  | nil {w : World σ} : OneByOne s data [] w (some (.ok [])) w
  | cons {event : Event} {rest : List Event} {w u v : World σ} {o : Outcome}
      {r : Option (Except Fault (List (String × Outcome)))}
      (h : s.Answers (.execute event data) w (some (.ok (.outcome o))) u)
      (hrest : OneByOne s data rest u r v) :
      OneByOne s data (event :: rest) w (r.map (·.map ((event.id, o) :: ·))) v
  | fault {event : Event} {rest : List Event} {w v : World σ} {fault : Fault}
      (h : s.Answers (.execute event data) w (some (.error fault)) v) :
      OneByOne s data (event :: rest) w (some (.error fault)) v
  | hang {event : Event} {rest : List Event} {w v : World σ}
      (h : s.Answers (.execute event data) w none v) :
      OneByOne s data (event :: rest) w none v

/-- A call that is made alone is run to its end. -/
theorem answers_iff {s : Session σ} {call : Call} {w v : World σ}
    {r : Option (Except Fault Reply)} :
    s.Answers call w r v ↔ (call.work s).run w = (r, v) := by
  have hgather : s.gather [.ok call] w =
      ([((call.work s).run w).1], ((call.work s).run w).2) := by
    unfold gather
    cases hexclusive : call.exclusive with
    | false =>
      simp [starting, hexclusive, Calls.startAll, Calls.start, Calls.startFree, Calls.finish,
        Calls.empty, Calls.runInTurn, Calls.answer?]
    | true =>
      rw [Task.run_of_poll]
      rcases hpoll : (call.work s).poll w with ⟨rest | a, u⟩ <;>
        simp [starting, hexclusive, hpoll, Calls.startAll, Calls.start, Calls.startExclusive,
          Calls.finish, Calls.empty, Calls.runInTurn, Calls.answer?]
  rw [Answers, hgather]
  rcases (call.work s).run w with ⟨r', v'⟩
  simp

/-- A call to execute an event is answered as the execution ends. -/
theorem answers_execute_iff {s : Session σ} {event : Event} {data : Data} {w v : World σ}
    {r : Option (Except Fault Outcome)} :
    s.Answers (.execute event data) w (r.map (·.map .outcome)) v ↔
      (s.execute event data).run w = (r, v) := by
  rw [answers_iff]
  exact Task.run_map_eq_iff (Except.map_injective fun _ _ h => Reply.outcome.inj h)

/-- A call to fire a trigger is answered as its dispatch ends. -/
theorem answers_dispatch_iff {s : Session σ} {events : List Event} {kind : String} {data : Data}
    {w v : World σ} {r : Option (Except Fault (List (String × Outcome)))} :
    s.Answers (.dispatch events kind data) w (r.map (·.map .outcomes)) v ↔
      (s.dispatch events kind data).run w = (r, v) := by
  rw [answers_iff]
  exact Task.run_map_eq_iff (Except.map_injective fun _ _ h => Reply.outcomes.inj h)

/-- Executing all events is executing the first and then, if it has an outcome, the others. -/
theorem run_executeAll_cons (s : Session σ) (data : Data) (event : Event) (rest : List Event)
    (w : World σ) :
    (s.executeAll data (event :: rest)).run w =
      match (s.execute event data).run w with
      | (some (.ok o), u) =>
        (((s.executeAll data rest).run u).1.map (·.map ((event.id, o) :: ·)),
          ((s.executeAll data rest).run u).2)
      | (some (.error fault), u) => (some (.error fault), u)
      | (none, u) => (none, u) := by
  rw [executeAll, Task.andThen, Task.run_bind]
  rcases (s.execute event data).run w with ⟨_ | fault | o, u⟩
  · rfl
  · rfl
  · simp only [Task.andThen, Task.run_bind]
    rcases (s.executeAll data rest).run u with ⟨_ | fault | os, v⟩ <;> rfl

/-- Events that are executed together are executed one by one. -/
theorem oneByOne_of_run (s : Session σ) (data : Data) (events : List Event) (w : World σ) :
    s.OneByOne data events w ((s.executeAll data events).run w).1
      ((s.executeAll data events).run w).2 := by
  induction events generalizing w with
  | nil => exact .nil
  | cons event rest ih =>
    rw [run_executeAll_cons]
    rcases hrun : (s.execute event data).run w with ⟨_ | fault | o, u⟩
    · exact .hang (answers_execute_iff.mpr hrun)
    · exact .fault (answers_execute_iff.mpr hrun)
    · exact .cons (answers_execute_iff.mpr hrun) (ih u)

/-- What executing them one by one gives is what executing them together gives. -/
theorem OneByOne.run {s : Session σ} {data : Data} {events : List Event} {w v : World σ}
    {r : Option (Except Fault (List (String × Outcome)))} (h : s.OneByOne data events w r v) :
    (s.executeAll data events).run w = (r, v) := by
  induction h with
  | nil => rfl
  | @cons event rest w u v o r h hrest ih =>
    have hrun : (s.execute event data).run w = (some (.ok o), u) := answers_execute_iff.mp h
    rw [run_executeAll_cons, hrun]
    simp only [ih]
  | @fault event rest w v fault h =>
    have hrun : (s.execute event data).run w = (some (.error fault), v) := answers_execute_iff.mp h
    rw [run_executeAll_cons, hrun]
  | @hang event rest w v h =>
    have hrun : (s.execute event data).run w = (none, v) := answers_execute_iff.mp h
    rw [run_executeAll_cons, hrun]

/-- Firing a trigger is calling the session for one event after another. There is one order in which
the candidates of the trigger fire, and the calls in this order have one course in every world. The
trigger has the answer of this course and leaves its world, with the same history, the same journal
and the same memory of the surroundings. Hook and resolver look at the game state and never write
it. -/
theorem dispatch_one_by_one (s : Session σ) (events : List Event) (kind : String) (data : Data) :
    ∃ order, FiringOrder events kind order ∧
      (∀ other, FiringOrder events kind other → other = order) ∧
      ∀ w : World σ, (∃ r v, s.OneByOne data order w r v) ∧
        ∀ r v, s.OneByOne data order w r v ↔
          s.Answers (.dispatch events kind data) w (r.map (·.map .outcomes)) v := by
  refine ⟨fired events kind, firingOrder_fired events kind,
    fun other hother => (firingOrder_fired events kind).unique hother, fun w => ⟨?_, fun r v => ?_⟩⟩
  · exact ⟨_, _, oneByOne_of_run s data (fired events kind) w⟩
  · rw [answers_dispatch_iff, dispatch]
    refine ⟨OneByOne.run, fun hrun => ?_⟩
    have hcourse := oneByOne_of_run s data (fired events kind) w
    rwa [hrun] at hcourse

end Session

end MapEvents
