import MapEvents.Session.Execute
/-!
# Calls at the same time

A session may be called again while an earlier call is suspended. Executing an event, firing a
trigger and patching the state take the session for themselves: a call that finds it taken waits,
and waiting calls get it in the order in which they came. An update takes nothing and is done at
once.

`Calls.start` starts one more call, and `Calls.finish` runs what is under way to its end. `gather`
starts calls one after another and finishes them; a call that could not be read keeps no other call
from its answer.
-/

namespace MapEvents

/-- A call of a session. -/
inductive Call where
  | execute (event : Event) (data : Data)
  | dispatch (events : List Event) (kind : String) (data : Data)
  | patch (given : Data)
  | update (given : Data)

/-- The answer to a call. -/
inductive Reply where
  | outcome (o : Outcome)
  | outcomes (os : List (String × Outcome))
  | state (s : GameState)
  | updated

namespace Call

variable {σ : Type}

/-- Updates the state and answers with the new one. -/
def patchState (given : Data) (w : World σ) : Except Fault Reply × World σ :=
  match w.update given with
  | (.ok (), w) => (.ok (.state w.state), w)
  | (.error fault, w) => (.error fault, w)

/-- The work of a call. -/
def work (s : Session σ) : Call → Task (World σ) (Except Fault Reply)
  | .execute event data => (s.execute event data).map (·.map .outcome)
  | .dispatch events kind data => (s.dispatch events kind data).map (·.map .outcomes)
  | .patch given => Task.step (patchState given)
  | .update given => Task.step fun w =>
    let (r, w) := w.update given
    (r.map fun _ => .updated, w)

/-- Whether the call takes the session for itself. -/
def exclusive : Call → Bool
  | .update _ => false
  | _ => true

end Call

/-- Calls that were started, each under its number. -/
structure Calls (W α : Type) where
  /-- Number of calls started so far. -/
  count : Nat
  /-- The call that has the session, suspended. -/
  holder : Option (Nat × Task W α)
  /-- Calls that wait for the session, in the order in which they came. -/
  waiting : List (Nat × Task W α)
  /-- Answers so far; none for a call that hangs. -/
  answers : List (Nat × Option α)

namespace Calls

variable {W α : Type}

/-- No calls. -/
def empty : Calls W α := ⟨0, none, [], []⟩

/-- Starts a call that takes nothing. -/
def startFree (c : Calls W α) (t : Task W α) (w : W) : Calls W α × W :=
  let (r, w) := t.run w
  ({ c with count := c.count + 1, answers := c.answers ++ [(c.count, r)] }, w)

/-- Starts a call that takes the session for itself: it runs to its first suspension, or waits. -/
def startExclusive (c : Calls W α) (t : Task W α) (w : W) : Calls W α × W :=
  match c.holder with
  | some _ => ({ c with count := c.count + 1, waiting := c.waiting ++ [(c.count, t)] }, w)
  | none =>
    match t.poll w with
    | (.inl rest, w) => ({ c with count := c.count + 1, holder := some (c.count, rest) }, w)
    | (.inr r, w) =>
      ({ c with count := c.count + 1, answers := c.answers ++ [(c.count, some r)] }, w)

/-- Starts a call. -/
def start (c : Calls W α) (exclusive : Bool) (t : Task W α) (w : W) : Calls W α × W :=
  if exclusive then c.startExclusive t w else c.startFree t w

/-- Runs calls one after another to their ends. -/
def runInTurn : List (Nat × Task W α) → W → List (Nat × Option α) × W
  | [], w => ([], w)
  | (n, t) :: rest, w =>
    let (r, w) := t.run w
    let (rs, w) := runInTurn rest w
    ((n, r) :: rs, w)

/-- Runs what is under way to its end: the call that has the session, then the waiting ones. -/
def finish (c : Calls W α) (w : W) : List (Nat × Option α) × W :=
  let (rs, w) := runInTurn (c.holder.toList ++ c.waiting) w
  (c.answers ++ rs, w)

/-- Starts calls one after another. -/
def startAll : List (Bool × Task W α) → Calls W α → W → Calls W α × W
  | [], c, w => (c, w)
  | (exclusive, t) :: rest, c, w =>
    let (c, w) := c.start exclusive t w
    startAll rest c w

/-- The answer to the call of this number; none for a call that hangs. -/
def answer? (answers : List (Nat × Option α)) (n : Nat) : Option α := (answers.lookup n).join

end Calls

namespace Session

variable {σ : Type}

/-- How a call is started. One that could not be read takes nothing and answers with the fault. -/
def starting (s : Session σ) : Except Fault Call → Bool × Task (World σ) (Except Fault Reply)
  | .ok call => (call.exclusive, call.work s)
  | .error fault => (false, .done (.error fault))

/-- Starts calls one after another, finishes them, and gives their answers in their order. -/
def gather (s : Session σ) (calls : List (Except Fault Call)) (w : World σ) :
    List (Option (Except Fault Reply)) × World σ :=
  let (c, w) := Calls.startAll (calls.map s.starting) .empty w
  let (answers, w) := c.finish w
  ((List.range calls.length).map (Calls.answer? answers), w)

end Session

end MapEvents
