import MapEvents.Action.Registry
import MapEvents.Chain.Graph
import MapEvents.Condition.Check
/-!
# Walking a chain of actions

The walk starts at the entry action and follows pointers until one is absent, empty or dangling. An
action whose conditions do not hold is skipped, and the walk goes on at its successor. An action
that runs and does not succeed stops the walk with its outcome. After a success the first branch
whose condition holds is taken, and without such a branch the successor.

`Chain.walk` follows a chain for a number of steps; skipped actions are steps too. A limit on the
steps turns a walk that is not finished by then into a fault. Without a limit a chain is followed up
to a horizon, behind which it counts as one that never ends.
-/

namespace MapEvents

variable {σ : Type}

/-- What a chain is run with. -/
structure Player (σ : Type) where
  surroundings : Surroundings σ
  registry : Registry σ
  /-- Steps after which a chain without limit counts as endless. -/
  horizon : Nat

/-- How many steps of a chain are followed under a limit, or without one. -/
def Player.steps (p : Player σ) : (limit : Option Int) → Nat
  | some m => m.toNat
  | none => p.horizon

namespace Chain

/-- How the walk goes on after an action. -/
inductive Move where
  | to (next : Option String)
  | stop (outcome : Outcome)
  deriving DecidableEq

/-- Where a walk of limited length ends. -/
inductive Stop where
  | finished (outcome : Outcome)
  /-- There was a further action to visit. -/
  | unfinished (next : String)
  deriving DecidableEq

/-- Whether the conditions of an action hold. -/
def admitted (s : Surroundings σ) (a : Action) (w : World σ) : Except Fault Bool × World σ :=
  match a.conditions with
  | none => (.ok true, w)
  | some cs => Condition.checkAll s cs w

/-- Whether the condition of a branch holds. -/
def branchHolds (s : Surroundings σ) (b : Branch) (w : World σ) : Except Fault Bool × World σ :=
  match s.resolver with
  | none => (.ok true, w)
  | some resolver =>
    let (r, o) := resolver b.condition w.state w.outside
    (r, { w.note (.branch b.condition) with outside := o })

/-- The first branch whose condition holds, if any does. -/
def chooseBranch (s : Surroundings σ) :
    List Branch → World σ → Except Fault (Option Branch) × World σ
  | [], w => (.ok none, w)
  | b :: rest, w =>
    match branchHolds s b w with
    | (.ok true, w) => (.ok (some b), w)
    | (.ok false, w) => chooseBranch s rest w
    | (.error fault, w) => (.error fault, w)

/-- Where a branch leads, or else the successor of the action. -/
def Move.after (a : Action) : Option Branch → Move
  | some b => .to (some b.target)
  | none => .to a.next

/-- Chooses where to go after an action that succeeded. -/
def choose (s : Surroundings σ) (a : Action) : Work σ Move :=
  Task.step fun (w, d) =>
    let (r, w) := chooseBranch s a.branches w
    (r.map (Move.after a), (w, d))

/-- Runs an action and chooses where to go. -/
def play (p : Player σ) (event : Event) (a : Action) : Work σ Move :=
  (p.registry.dispatch p.surroundings event a).andThen fun
    | .success => choose p.surroundings a
    | outcome => .done (.ok (.stop outcome))

/-- Visits an action: runs it, or skips it if its conditions do not hold. -/
def visit (p : Player σ) (event : Event) (a : Action) : Work σ Move :=
  let admission : Work σ Bool := Task.step fun (w, d) =>
    let (r, w) := admitted p.surroundings a w
    (r, (w, d))
  admission.andThen fun
    | true => play p event a
    | false => .done (.ok (.to a.next))

/-- Follows a chain from an id for at most the given number of steps. -/
def walk (p : Player σ) (event : Event) (actions : List Action) :
    (steps : Nat) → (current : Option String) → Work σ Stop
  | _, none => .done (.ok (.finished .success))
  | steps, some id =>
    if id = "" then .done (.ok (.finished .success))
    else
      match action? actions id with
      | none => .done (.ok (.finished .success))
      | some a =>
        match steps with
        | 0 => .done (.ok (.unfinished id))
        | steps + 1 =>
          (visit p event a).andThen fun
            | .stop outcome => .done (.ok (.finished outcome))
            | .to next => walk p event actions steps next

/-- Runs the chain of an event's actions, with or without a limit on its steps. -/
def runChain (p : Player σ) (event : Event) (actions : List Action) (limit : Option Int) :
    Work σ Outcome :=
  (walk p event actions (p.steps limit) (entry actions)).andThen fun
    | .finished outcome => .done (.ok outcome)
    | .unfinished id =>
      match limit with
      | some m => .done (.error (.stepLimit event.id m id))
      | none => .hang

end Chain

end MapEvents
