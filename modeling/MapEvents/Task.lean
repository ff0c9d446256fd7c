/-!
# Work that can be suspended

A `Task` works on a shared world of type `W` and may end with a result. Between two suspensions it
acts on the world alone; at a suspension others may act. A task that hangs comes to no end and to no
further suspension: right after a suspension it waits for good, otherwise it is busy for good.

`Task.run` drives a task to its end with nobody acting in between. `Task.onPart` lets a task work on
a part of a larger world, and `Task.withLocal` gives it a private value beside the world.
-/

namespace MapEvents

/-- Work on a world `W` that ends with a result of type `α`, unless it hangs. -/
inductive Task (W α : Type) where
  | done (result : α)
  /-- Changes the world and goes on with what depends on the world before the change. -/
  | act (effect : W → W) (next : W → Task W α)
  /-- Suspends itself once. -/
  | pause (next : Task W α)
  | hang

namespace Task

variable {W V L α β ε : Type}

/-- The second task after the first, given the first one's result. -/
def bind : Task W α → (α → Task W β) → Task W β
  | .done a, k => k a
  | .act effect next, k => .act effect fun w => (next w).bind k
  | .pause next, k => .pause (next.bind k)
  | .hang, _ => .hang

/-- The task with its result changed. -/
def map (f : α → β) (t : Task W α) : Task W β := t.bind fun a => .done (f a)

/-- A single step that looks at the world and changes it. -/
def step (f : W → α × W) : Task W α := .act (fun w => (f w).2) fun w => .done (f w).1

/-- The second task after the first, unless the first ends with a fault. -/
def andThen (t : Task W (Except ε α)) (k : α → Task W (Except ε β)) : Task W (Except ε β) :=
  t.bind fun
    | .ok a => k a
    | .error e => .done (.error e)

/-- Suspends itself the given number of times. -/
def pauses : Nat → Task W α → Task W α
  | 0, t => t
  | n + 1, t => .pause (pauses n t)

/-- Drives the task to its end; a task that hangs gives no result. -/
def run : Task W α → W → Option α × W
  | .done a, w => (some a, w)
  | .act effect next, w => (next w).run (effect w)
  | .pause next, w => next.run w
  | .hang, w => (none, w)

/-- Drives the task to its next suspension or its end; gives the result or what is left to do. -/
def poll : Task W α → W → (Task W α ⊕ α) × W
  | .done a, w => (.inr a, w)
  | .act effect next, w => (next w).poll (effect w)
  | .pause next, w => (.inl next, w)
  | .hang, w => (.inl .hang, w)

/-- The task working on a part of a larger world. -/
def onPart (get : W → V) (put : V → W → W) : Task V α → Task W α
  | .done a => .done a
  | .act effect next =>
    .act (fun w => put (effect (get w)) w) fun w => (next (get w)).onPart get put
  | .pause next => .pause (next.onPart get put)
  | .hang => .hang

/-- The task with a private value, which starts as `l` and is given back with the result. -/
def withLocal : Task (W × L) α → L → Task W (α × L)
  | .done a, l => .done (a, l)
  | .act effect next, l =>
    .act (fun w => (effect (w, l)).1) fun w => (next (w, l)).withLocal (effect (w, l)).2
  | .pause next, l => .pause (next.withLocal l)
  | .hang, _ => .hang

/-- The task with what is left of it after its first suspension changed. -/
def afterPause (f : Task W α → Task W α) : Task W α → Task W α
  | .done a => .done a
  | .act effect next => .act effect fun w => (next w).afterPause f
  | .pause next => .pause (f next)
  | .hang => .hang

/-- The task with `late` as its result in place of hanging. -/
def unlessHung (late : α) : Task W α → Task W α
  | .done a => .done a
  | .act effect next => .act effect fun w => (next w).unlessHung late
  | .pause next => .pause (next.unlessHung late)
  | .hang => .done late

/-- The task with at most `n` suspensions; in place of a further one, or of hanging, it ends with
`late`. -/
def within (late : α) : Nat → Task W α → Task W α
  | _, .done a => .done a
  | n, .act effect next => .act effect fun w => (next w).within late n
  | 0, .pause _ => .done late
  | n + 1, .pause next => .pause (next.within late n)
  | _, .hang => .done late

end Task

end MapEvents
