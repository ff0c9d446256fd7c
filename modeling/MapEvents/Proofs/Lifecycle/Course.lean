import Mathlib.Data.List.Chain
import Mathlib.Data.List.Induction
import MapEvents.Lifecycle.Call
import MapEvents.Proofs.Task.Laws
/-!
# The course of an execution

Whatever an execution is called for, in whatever order and under whatever names, its trail is a path
through the phases along transitions, from the first phase to the current one. Nothing leads out of
the completed phase. An outcome is there exactly if the completed phase was entered by resolving,
and the execution goes into the history exactly if it was entered by resolving with `finish`.

Resolving changes an execution in several parts: it takes a transition, extends the trail, sets the
outcome, and marks the execution for the history. `Call.parts` does them one after another on the
execution in place. Refusals come before the first change, so that none of the parts is ever left
half done.
-/

namespace MapEvents

/-- Some transition leads from the one phase to the other. -/
def Phase.Leads (p q : Phase) : Prop := ∃ t : Transition, t.source = p ∧ t.target = q

namespace Execution

/-- What an execution is called for. -/
inductive Call where
  | advance (name : String)
  | resolve (name : String) (outcome : Outcome)

/-- The execution after a call that it does not refuse. -/
def answer (hasPart : Parts) (e : Execution) : Call → Except Fault Execution
  | .advance name => e.advance hasPart name
  | .resolve name outcome => e.resolve hasPart name outcome

/-- The execution after one call after another, whether it refuses them or not. -/
def after (hasPart : Parts) (e : Execution) (calls : List Call) : Execution :=
  calls.foldl (fun e call => (e.answer hasPart call).toOption.getD e) e

/-! ## The parts of a call -/

/-- Work on an execution in place; what was changed before a fault stays changed. -/
abbrev Part := Task Execution (Except Fault Unit)

/-- Changes the execution. -/
def changing (f : Execution → Execution) : Part := Task.step fun e => (.ok (), f e)

/-- Takes the transition that the name calls, and does nothing more. -/
def send (hasPart : Parts) (name : String) : Part :=
  Task.step fun e =>
    match Transition.called? name with
    | none => (.error (e.refusal hasPart name), e)
    | some t =>
      if t.source = e.phase then (.ok (), { e with phase := t.target })
      else (.error (e.refusal hasPart name), e)

/-- Takes a transition, and then enters the new phase into the trail. -/
def advanceParts (hasPart : Parts) (name : String) : Part :=
  (send hasPart name).andThen fun _ => changing fun e => { e with trail := e.trail ++ [e.phase] }

/-- Ends the execution part by part. -/
def resolveParts (hasPart : Parts) (name : String) (outcome : Outcome) : Part :=
  match (Transition.ofName? name).bind (·.recorded?) with
  | none => .done (.error (.notTerminal name))
  | some recorded =>
    (advanceParts hasPart name).andThen fun _ =>
      (changing fun e => { e with outcome := some outcome }).andThen fun _ =>
        changing fun e => { e with recorded }

/-- The parts of a call. -/
def Call.parts (hasPart : Parts) : Call → Part
  | .advance name => advanceParts hasPart name
  | .resolve name outcome => resolveParts hasPart name outcome

/-- What is left by a call that is done as a whole or not at all. -/
def wholly (e : Execution) : Except Fault Execution → Except Fault Unit × Execution
  | .ok d => (.ok (), d)
  | .error fault => (.error fault, e)

variable {hasPart : Parts} {e d : Execution}

/-! ## Names of transitions -/

/-- The name of a transition calls it. -/
theorem called?_name (t : Transition) : Transition.called? t.name = some t := by
  cases t <;> rfl

theorem ofName?_eq_some_iff {name : String} {t : Transition} :
    Transition.ofName? name = some t ↔ t.name = name := by
  constructor
  · intro h
    simpa using List.find?_some h
  · intro h
    rw [← h]
    cases t <;> rfl

/-! ## What a call does -/

/-- The execution behind a transition. -/
def behind (e : Execution) (t : Transition) : Execution :=
  { e with phase := t.target, trail := e.trail ++ [t.target] }

/-- A transition is taken exactly if it leaves the current phase, and leads behind it. -/
theorem take?_eq_some_iff {t : Transition} :
    e.take? t = some d ↔ t.source = e.phase ∧ d = e.behind t := by
  unfold take? behind
  split
  · next h => simp [h, eq_comm]
  · next h => simp [h]

/-- A name is accepted exactly if it calls a transition that leaves the current phase. -/
theorem advance_eq_ok_iff {name : String} :
    e.advance hasPart name = .ok d ↔
      ∃ t, Transition.called? name = some t ∧ t.source = e.phase ∧ d = e.behind t := by
  unfold advance
  cases Transition.called? name with
  | none => simp
  | some t =>
    cases htake : e.take? t with
    | none =>
      have hnot : ¬(t.source = e.phase ∧ d = e.behind t) := by
        intro h
        rw [take?_eq_some_iff.mpr h] at htake
        cases htake
      simpa [htake] using hnot
    | some u =>
      rw [take?_eq_some_iff] at htake
      simp [take?_eq_some_iff.mpr htake, htake, eq_comm]

/-- Only a transition that ends executions resolves one; it is taken as any other. -/
theorem resolve_eq (hasPart : Parts) (e : Execution) (name : String) (outcome : Outcome) :
    e.resolve hasPart name outcome =
      match (Transition.ofName? name).bind (·.recorded?) with
      | none => .error (.notTerminal name)
      | some recorded =>
        (e.advance hasPart name).map fun d => { d with outcome := some outcome, recorded } := by
  cases hname : Transition.ofName? name with
  | none => simp [resolve, hname]
  | some t =>
    obtain rfl : t.name = name := ofName?_eq_some_iff.mp hname
    cases hrecorded : t.recorded? with
    | none => simp [resolve, hname, hrecorded, Option.filter]
    | some recorded =>
      cases htake : e.take? t <;>
        simp [resolve, hname, hrecorded, Option.filter, settle?, advance, called?_name,
          htake, Except.map]

/-- Taking the transition and then extending the trail leaves what advancing leaves as a whole. -/
theorem run_advanceParts (hasPart : Parts) (e : Execution) (name : String) :
    (advanceParts hasPart name).run e =
      (some (e.wholly (e.advance hasPart name)).1, (e.wholly (e.advance hasPart name)).2) := by
  rw [advanceParts, Task.andThen, Task.run_bind, send, Task.run_step, advance]
  cases hcalled : Transition.called? name with
  | none => rfl
  | some t =>
    by_cases hsource : t.source = e.phase
    · simp [take?, hsource, wholly, changing]
    · simp [take?, hsource, wholly, Task.run]

/-- Done part by part, a call leaves what it leaves as a whole. -/
theorem run_parts (hasPart : Parts) (e : Execution) (call : Call) :
    (call.parts hasPart).run e =
      (some (e.wholly (e.answer hasPart call)).1, (e.wholly (e.answer hasPart call)).2) := by
  cases call with
  | advance name => exact run_advanceParts hasPart e name
  | resolve name outcome =>
    rw [answer, resolve_eq, Call.parts, resolveParts]
    cases hrecorded : (Transition.ofName? name).bind (·.recorded?) with
    | none => rfl
    | some recorded =>
      simp only [Task.andThen, Task.run_bind, run_advanceParts]
      cases e.advance hasPart name <;> rfl

/-- An accepted call takes a transition that leaves the current phase. Resolving sets the outcome
and marks the execution as the transition says, and advancing changes neither. -/
theorem answer_cases {call : Call} (h : e.answer hasPart call = .ok d) :
    ∃ t : Transition, t.source = e.phase ∧
      ((∃ name, call = .advance name ∧ d = e.behind t) ∨
        ∃ outcome recorded, call = .resolve t.name outcome ∧ t.recorded? = some recorded ∧
          d = { e.behind t with outcome := some outcome, recorded }) := by
  cases call with
  | advance name =>
    obtain ⟨t, -, hsource, hd⟩ := advance_eq_ok_iff.mp h
    exact ⟨t, hsource, .inl ⟨name, rfl, hd⟩⟩
  | resolve name outcome =>
    rw [answer, resolve_eq] at h
    cases hname : Transition.ofName? name with
    | none => simp [hname] at h
    | some t =>
      obtain rfl : t.name = name := ofName?_eq_some_iff.mp hname
      cases hrecorded : t.recorded? with
      | none => simp [hname, hrecorded] at h
      | some recorded =>
        cases hadvance : e.advance hasPart t.name with
        | error fault => simp [hname, hrecorded, hadvance, Except.map] at h
        | ok u =>
          obtain ⟨t', hcalled, hsource, hu⟩ := advance_eq_ok_iff.mp hadvance
          obtain rfl : t = t' := Option.some.inj ((called?_name t).symm.trans hcalled)
          have hd : { u with outcome := some outcome, recorded } = d := by
            simpa [hname, hrecorded, hadvance, Except.map] using h
          exact ⟨t, hsource, .inr ⟨outcome, recorded, rfl, hrecorded, by rw [← hd, hu]⟩⟩

/-- Every transition that leaves the current phase can be taken by its name. -/
theorem answer_of_source {t : Transition} (h : t.source = e.phase) :
    e.answer hasPart (.advance t.name) = .ok (e.behind t) :=
  advance_eq_ok_iff.mpr ⟨t, called?_name t, h, rfl⟩

/-! ## The completed phase -/

/-- No transition leaves the completed phase. -/
theorem source_ne_completed (t : Transition) : t.source ≠ .completed := by
  cases t <;> decide

/-- A completed execution refuses every call. -/
theorem exists_fault_of_completed (h : e.phase = .completed) (call : Call) :
    ∃ fault, e.answer hasPart call = .error fault := by
  cases hanswer : e.answer hasPart call with
  | error fault => exact ⟨fault, rfl⟩
  | ok d =>
    obtain ⟨t, hsource, -⟩ := answer_cases hanswer
    exact absurd (hsource.trans h) (source_ne_completed t)

/-- A completed execution stays as it is, whatever it is called for. -/
theorem after_of_completed (h : e.phase = .completed) (calls : List Call) :
    e.after hasPart calls = e := by
  induction calls with
  | nil => rfl
  | cons call rest ih =>
    have hfirst : e.after hasPart (call :: rest) = e.after hasPart rest := by
      obtain ⟨fault, hfault⟩ : ∃ fault, e.answer hasPart call = .error fault :=
        exists_fault_of_completed h call
      simp [after, hfault, Except.toOption]
    rw [hfirst, ih]

theorem after_append (e : Execution) (calls rest : List Call) :
    e.after hasPart (calls ++ rest) = (e.after hasPart calls).after hasPart rest :=
  List.foldl_append

theorem after_singleton (e : Execution) (call : Call) :
    e.after hasPart [call] = (e.answer hasPart call).toOption.getD e := rfl

/-! ## What every call keeps -/

/-- The trail is a path along transitions from the first phase to the current one, and before the
completed phase nothing is settled. -/
structure OnCourse (e : Execution) : Prop where
  begins : e.trail.head? = some .notStarted
  path : e.trail.IsChain Phase.Leads
  ends : e.trail.getLast? = some e.phase
  unsettled : e.phase ≠ .completed → e.outcome = none ∧ e.recorded = false

theorem onCourse_start (event : String) : (start event).OnCourse :=
  ⟨rfl, List.IsChain.singleton _, rfl, fun _ => ⟨rfl, rfl⟩⟩

/-- Only a transition to the completed phase ends executions. -/
theorem target_of_recorded? {t : Transition} {recorded : Bool} (h : t.recorded? = some recorded) :
    t.target = .completed := by
  cases t <;> first | rfl | cases h

/-- An accepted call keeps an execution on its course. -/
theorem OnCourse.answer {call : Call} (he : e.OnCourse) (h : e.answer hasPart call = .ok d) :
    d.OnCourse := by
  obtain ⟨t, hsource, hcall⟩ := answer_cases h
  have htrail : d.trail = e.trail ++ [t.target] := by
    rcases hcall with ⟨name, -, rfl⟩ | ⟨outcome, recorded, -, -, rfl⟩ <;> rfl
  have hphase : d.phase = t.target := by
    rcases hcall with ⟨name, -, rfl⟩ | ⟨outcome, recorded, -, -, rfl⟩ <;> rfl
  refine ⟨?_, ?_, ?_, ?_⟩
  · rw [htrail, List.head?_append, he.begins]
    rfl
  · rw [htrail, List.isChain_append]
    refine ⟨he.path, List.IsChain.singleton _, ?_⟩
    intro p hp q hq
    have hlast : e.phase = p := Option.some.inj (he.ends.symm.trans hp)
    have hnext : t.target = q := by simpa using hq
    exact ⟨t, hsource.trans hlast, hnext⟩
  · rw [htrail, hphase, List.getLast?_append]
    rfl
  · intro hopen
    rcases hcall with ⟨name, -, rfl⟩ | ⟨outcome, recorded, -, hrecorded, -⟩
    · refine he.unsettled ?_
      rw [← hsource]
      exact source_ne_completed t
    · rw [hphase] at hopen
      exact absurd (target_of_recorded? hrecorded) hopen

/-- Any calls, accepted or not, keep an execution on its course. -/
theorem onCourse_after (event : String) (calls : List Call) :
    ((start event).after hasPart calls).OnCourse := by
  induction calls using List.reverseRecOn with
  | nil => exact onCourse_start event
  | append_singleton calls call ih =>
    rw [after_append, after_singleton]
    cases hanswer : ((start event).after hasPart calls).answer hasPart call with
    | error fault => exact ih
    | ok d => exact ih.answer hanswer

/-- An execution with an outcome is completed. -/
theorem OnCourse.completed_of_outcome {outcome : Outcome} (he : e.OnCourse)
    (h : e.outcome = some outcome) : e.phase = .completed := by
  by_contra hopen
  have hnone := (he.unsettled hopen).1
  rw [h] at hnone
  cases hnone

/-- An execution that goes into the history is completed. -/
theorem OnCourse.completed_of_recorded (he : e.OnCourse) (h : e.recorded = true) :
    e.phase = .completed := by
  by_contra hopen
  have hnone := (he.unsettled hopen).2
  rw [h] at hnone
  cases hnone

/-! ## How the completed phase is entered -/

/-- After the earlier calls this one enters the completed phase. -/
def Enters (hasPart : Parts) (event : String) (earlier : List Call) (call : Call) : Prop :=
  ((start event).after hasPart earlier).phase ≠ .completed ∧
    ((start event).after hasPart (earlier ++ [call])).phase = .completed

/-- Of these calls, this is the one that enters the completed phase. -/
def CompletedBy (hasPart : Parts) (event : String) (calls : List Call) (call : Call) : Prop :=
  ∃ earlier later, calls = earlier ++ call :: later ∧ Enters hasPart event earlier call

variable {event : String} {earlier calls : List Call} {call : Call}

/-- A completed execution was completed by one of its calls. -/
theorem exists_completedBy (h : ((start event).after hasPart calls).phase = .completed) :
    ∃ call, CompletedBy hasPart event calls call := by
  induction calls using List.reverseRecOn with
  | nil => cases h
  | append_singleton calls call ih =>
    by_cases hbefore : ((start event).after hasPart calls).phase = .completed
    · obtain ⟨entering, earlier, later, hsplit, henters⟩ := ih hbefore
      exact ⟨entering, earlier, later ++ [call], by simp [hsplit], henters⟩
    · exact ⟨call, calls, [], rfl, hbefore, h⟩

/-- Later calls change nothing behind the one that enters the completed phase. -/
theorem Enters.after_eq (h : Enters hasPart event earlier call) (later : List Call) :
    (start event).after hasPart (earlier ++ call :: later) =
      (start event).after hasPart (earlier ++ [call]) := by
  rw [List.append_cons, after_append, after_of_completed h.2]

/-- The call that enters the completed phase settles the execution if it resolves it, and otherwise
leaves it unsettled. -/
theorem Enters.cases (h : Enters hasPart event earlier call) {d : Execution}
    (hd : d = (start event).after hasPart (earlier ++ [call])) :
    (∃ name, call = .advance name ∧ d.outcome = none ∧ d.recorded = false) ∨
      ∃ (t : Transition) (outcome : Outcome) (recorded : Bool), call = .resolve t.name outcome ∧
        t.recorded? = some recorded ∧ d.outcome = some outcome ∧ d.recorded = recorded := by
  have hopen := (onCourse_after event earlier).unsettled h.1
  have hcompleted := h.2
  rw [after_append, after_singleton] at hd hcompleted
  cases hanswer : ((start event).after hasPart earlier).answer hasPart call with
  | error fault =>
    rw [hanswer] at hcompleted
    exact absurd hcompleted h.1
  | ok u =>
    rw [hanswer] at hd
    obtain rfl : d = u := hd
    obtain ⟨t, -, hcall⟩ := answer_cases hanswer
    rcases hcall with ⟨name, hcall, hbehind⟩ | ⟨outcome, recorded, hcall, hrecorded, hbehind⟩
    · exact .inl ⟨name, hcall, by rw [hbehind]; exact hopen⟩
    · exact .inr ⟨t, outcome, recorded, hcall, hrecorded, by rw [hbehind], by rw [hbehind]⟩

/-- The call that enters the completed phase gives an outcome exactly if it resolves with this
outcome. -/
theorem Enters.outcome_eq_some_iff (h : Enters hasPart event earlier call) (outcome : Outcome) :
    ((start event).after hasPart (earlier ++ [call])).outcome = some outcome ↔
      ∃ name, call = .resolve name outcome := by
  rcases h.cases rfl with ⟨name, hcall, hnone, -⟩ | ⟨t, o, recorded, hcall, -, ho, -⟩
  · rw [hnone, hcall]
    simp
  · rw [ho, hcall]
    simp

/-- Finishing is the one transition that puts executions into the history. -/
theorem recorded?_eq_true_iff {t : Transition} : t.recorded? = some true ↔ t.name = "finish" := by
  cases t <;> decide

/-- The call that completes an execution puts it into the history exactly if it resolves with
`finish`. -/
theorem Enters.recorded_iff (h : Enters hasPart event earlier call) :
    ((start event).after hasPart (earlier ++ [call])).recorded = true ↔
      ∃ outcome, call = .resolve "finish" outcome := by
  rcases h.cases rfl with ⟨name, hcall, -, hnone⟩ | ⟨t, o, recorded, hcall, hrecorded, -, hr⟩
  · rw [hnone, hcall]
    simp
  · have hfinish : recorded = true ↔ t.name = "finish" := by
      rw [← recorded?_eq_true_iff, hrecorded, Option.some.injEq]
    rw [hr, hfinish, hcall]
    simp

/-- What only completed executions have, and a call gives by entering the completed phase exactly if
it has some form, an execution has exactly if a call of this form completed it. -/
theorem iff_completedBy {ι : Type} (form : ι → Call) {P : Execution → Prop}
    (hcompleted : ∀ e : Execution, e.OnCourse → P e → e.phase = .completed)
    (hform : ∀ earlier call, Enters hasPart event earlier call →
      (P ((start event).after hasPart (earlier ++ [call])) ↔ ∃ i, call = form i))
    (calls : List Call) :
    P ((start event).after hasPart calls) ↔ ∃ i, CompletedBy hasPart event calls (form i) := by
  constructor
  · intro h
    obtain ⟨call, earlier, later, hsplit, henters⟩ :=
      exists_completedBy (hcompleted _ (onCourse_after event calls) h)
    rw [hsplit, henters.after_eq, hform earlier call henters] at h
    obtain ⟨i, hi⟩ := h
    rw [hi] at hsplit henters
    exact ⟨i, earlier, later, hsplit, henters⟩
  · intro h
    obtain ⟨i, earlier, later, hsplit, henters⟩ := h
    rw [hsplit, henters.after_eq]
    exact (hform earlier _ henters).mpr ⟨i, rfl⟩

/-! ## The course -/

/-- What holds of an execution after any calls. -/
structure Course (hasPart : Parts) (event : String) (calls : List Call) (e : Execution) :
    Prop where
  begins : e.trail.head? = some .notStarted
  /-- Every two neighbours on the trail are joined by a transition. -/
  path : e.trail.IsChain Phase.Leads
  ends : e.trail.getLast? = some e.phase
  /-- A refused call leaves the execution as it was, though it is done part by part. -/
  refused : ∀ call fault, e.answer hasPart call = .error fault →
    (call.parts hasPart).run e = (some (.error fault), e)
  accepted : ∀ call d, e.answer hasPart call = .ok d →
    (call.parts hasPart).run e = (some (.ok ()), d)
  /-- A transition that leaves the current phase can be taken. -/
  possible : ∀ t : Transition, t.source = e.phase →
    ∃ d, e.answer hasPart (.advance t.name) = .ok d ∧ d.phase = t.target
  final : e.phase = .completed → ∀ call, ∃ fault, e.answer hasPart call = .error fault
  settled : ∀ outcome, e.outcome = some outcome → e.phase = .completed
  /-- An outcome was given by resolving into the completed phase. -/
  outcome : ∀ outcome, e.outcome = some outcome ↔
    ∃ name, CompletedBy hasPart event calls (.resolve name outcome)
  /-- An execution goes into the history if it was finished by resolving. -/
  recorded : e.recorded = true ↔
    ∃ outcome, CompletedBy hasPart event calls (.resolve "finish" outcome)

/-- Any calls keep an execution on its course, whatever names its parts have. -/
theorem course_of_calls (hasPart : Parts) (event : String) (calls : List Call) :
    Course hasPart event calls ((start event).after hasPart calls) := by
  have hcourse : ((start event).after hasPart calls).OnCourse := onCourse_after event calls
  refine ⟨hcourse.begins, hcourse.path, hcourse.ends, ?refused, ?accepted,
    fun t h => ⟨_, answer_of_source h, rfl⟩, exists_fault_of_completed,
    fun outcome => hcourse.completed_of_outcome, ?outcome, ?recorded⟩
  case refused =>
    intro call fault h
    rw [run_parts, h]
    rfl
  case accepted =>
    intro call d h
    rw [run_parts, h]
    rfl
  case outcome =>
    intro outcome
    have hcompleted : ∀ e : Execution, e.OnCourse → e.outcome = some outcome →
        e.phase = .completed := fun e he h => he.completed_of_outcome h
    exact iff_completedBy (.resolve · outcome) hcompleted
      (fun earlier call h => h.outcome_eq_some_iff outcome) calls
  case recorded =>
    have hcompleted : ∀ e : Execution, e.OnCourse → e.recorded = true → e.phase = .completed :=
      fun e he h => he.completed_of_recorded h
    exact iff_completedBy (.resolve "finish") hcompleted
      (fun earlier call h => h.recorded_iff) calls

end Execution

end MapEvents
