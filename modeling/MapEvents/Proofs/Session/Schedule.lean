import Mathlib.Logic.Relation
import MapEvents.Proofs.Task.Keeps
import MapEvents.Session.Calls
/-!
# Calls in any order of turns

Calls may be started at any time, the call that has the session goes on whenever it likes, and in
between others act on the world. `Calls.Turn` is one such turn and `Calls.Reaches` any number of
them. Started calls wait for the session in the order in which they came; a call that gets the
session has not begun yet, and others may act before it does. A call may also be given up while it
waits or is suspended, which is the only way out for one that hangs.

What is kept by each call, as long as the others act within its reliance, is kept by all of them
together, in any order of turns. Starting calls and finishing them, as `Session.gather` does, is one
such order.
-/

namespace MapEvents

namespace Calls

variable {W α : Type}

/-- The call that has the session is over, with an answer or given up. The call that has waited
longest gets the session. -/
def release (c : Calls W α) (n : Nat) (answer : Option α) : Calls W α :=
  { c with
    holder := c.waiting.head?
    waiting := c.waiting.tail
    answers := c.answers ++ [(n, answer)] }

/-- The call that has the session was driven to its next suspension or its end. -/
def driven (c : Calls W α) (n : Nat) : (Task W α ⊕ α) × W → Calls W α × W
  | (.inl rest, w) => ({ c with holder := some (n, rest) }, w)
  | (.inr a, w) => (c.release n (some a), w)

/-- What may happen next to the calls and the world. -/
inductive Turn (proper : Bool → Task W α → Prop) (rely : W → W → Prop) :
    Calls W α × W → Calls W α × W → Prop where
  /-- A proper call is started. -/
  | start {c : Calls W α} {w : W} {exclusive : Bool} {t : Task W α} (h : proper exclusive t) :
      Turn proper rely (c, w) (c.start exclusive t w)
  /-- The call that has the session goes on. -/
  | resume {c : Calls W α} {w : W} {n : Nat} {t : Task W α} (h : c.holder = some (n, t)) :
      Turn proper rely (c, w) (c.driven n (t.poll w))
  /-- The call that has the session is given up. -/
  | giveUp {c : Calls W α} {w : W} {n : Nat} {t : Task W α} (h : c.holder = some (n, t)) :
      Turn proper rely (c, w) (c.release n none, w)
  /-- A call that waits for the session is given up. -/
  | withdraw {c : Calls W α} {w : W} {n : Nat} {t : Task W α} {before after : List (Nat × Task W α)}
      (h : c.waiting = before ++ (n, t) :: after) :
      Turn proper rely (c, w)
        ({ c with waiting := before ++ after, answers := c.answers ++ [(n, none)] }, w)
  /-- Somebody else acts on the world. -/
  | elsewhere {c : Calls W α} {w v : W} (h : rely w v) : Turn proper rely (c, w) (c, v)

/-- Any number of turns. -/
def Reaches (proper : Bool → Task W α → Prop) (rely : W → W → Prop) :
    Calls W α × W → Calls W α × W → Prop :=
  Relation.ReflTransGen (Turn proper rely)

variable {proper : Bool → Task W α → Prop} {rely : W → W → Prop} {inv : W → Prop}

/-! ## What all calls keep together -/

/-- Proper calls keep the invariant, and act within what the others rely on. -/
structure Rules (proper : Bool → Task W α → Prop) (rely : W → W → Prop) (inv : W → Prop) :
    Prop where
  refl : ∀ w, rely w w
  trans : ∀ {u v w}, rely u v → rely v w → rely u w
  stable : ∀ w v, rely w v → inv w → inv v
  /-- A call that takes the session keeps the invariant while others act within the reliance. -/
  exclusive : ∀ t, proper true t → ∀ w, inv w → t.Keeps rely inv (fun _ => inv) w
  /-- A call that takes nothing acts within the reliance. -/
  free : ∀ t, proper false t → ∀ w, rely w (t.run w).2

/-- Calls that obey a preorder keep together what it keeps. -/
theorem Rules.of_obeys (hrefl : ∀ w, rely w w) (htrans : ∀ {u v w}, rely u v → rely v w → rely u w)
    (hinv : ∀ w v, rely w v → inv w → inv v)
    (h : ∀ exclusive t, proper exclusive t → t.Obeys rely) : Rules proper rely inv :=
  ⟨hrefl, htrans, hinv, fun t ht _ hw => .of_obeys (h true t ht) hinv hinv hw,
    fun t ht w => (h false t ht).run hrefl htrans w⟩

/-- The invariant holds, and each call that is under way will keep it. -/
structure Sound (rely : W → W → Prop) (inv : W → Prop) (c : Calls W α) (w : W) : Prop where
  world : inv w
  holder : ∀ n t, c.holder = some (n, t) → ∀ v, rely w v → t.Keeps rely inv (fun _ => inv) v
  waiting : ∀ p ∈ c.waiting, ∀ v, inv v → p.2.Keeps rely inv (fun _ => inv) v

namespace Sound

variable {c : Calls W α} {w : W}

theorem empty (hw : inv w) : Sound rely inv (empty : Calls W α) w := by
  refine ⟨hw, ?_, ?_⟩
  · intro n t h
    cases h
  · intro p hp
    cases hp

theorem elsewhere (hrules : Rules proper rely inv) (h : Sound rely inv c w) {v : W}
    (hv : rely w v) : Sound rely inv c v := by
  refine ⟨hrules.stable w v hv h.world, ?_, h.waiting⟩
  intro n t hholder u hu
  exact h.holder n t hholder u (hrules.trans hv hu)

/-- The call that gets the session has waited, so that it keeps the invariant from any world on. -/
theorem release (hrules : Rules proper rely inv) {v : W} (hv : inv v)
    (hwaiting : ∀ p ∈ c.waiting, ∀ v, inv v → p.2.Keeps rely inv (fun _ => inv) v) (n : Nat)
    (answer : Option α) : Sound rely inv (c.release n answer) v := by
  refine ⟨hv, ?_, ?_⟩
  · intro m t hholder u hu
    have hmem : (m, t) ∈ c.waiting := List.mem_of_head? hholder
    exact hwaiting (m, t) hmem u (hrules.stable v u hu hv)
  · intro p hp
    exact hwaiting p (List.mem_of_mem_tail hp)

/-- Driving a call that keeps the invariant to its next suspension. -/
theorem driven (hrules : Rules proper rely inv) {t : Task W α}
    (ht : t.Keeps rely inv (fun _ => inv) w)
    (hwaiting : ∀ p ∈ c.waiting, ∀ v, inv v → p.2.Keeps rely inv (fun _ => inv) v) (n : Nat) :
    Sound rely inv (c.driven n (t.poll w)).1 (c.driven n (t.poll w)).2 := by
  have hpoll := ht.poll hrules.stable
  rcases hdriven : t.poll w with ⟨rest | a, v⟩ <;> rw [hdriven] at hpoll
  · obtain ⟨hv, hrest⟩ := hpoll
    refine ⟨hv, ?_, hwaiting⟩
    intro m t' hholder
    obtain ⟨-, rfl⟩ : n = m ∧ rest = t' := by simpa [Calls.driven] using hholder
    exact hrest
  · exact release hrules hpoll hwaiting n (some a)

/-- Starting a call that takes the session for itself keeps them sound. -/
theorem startExclusive (hrules : Rules proper rely inv) (h : Sound rely inv c w) {t : Task W α}
    (ht : proper true t) :
    Sound rely inv (c.startExclusive t w).1 (c.startExclusive t w).2 := by
  have hkeeps := hrules.exclusive t ht
  unfold Calls.startExclusive
  split
  · next held hheld =>
    refine ⟨h.world, ?_, ?_⟩
    · intro n t' hholder
      exact h.holder n t' hholder
    · intro p hp
      rcases List.mem_append.mp hp with hp | hp
      · exact h.waiting p hp
      · obtain rfl : p = (c.count, t) := by simpa using hp
        exact hkeeps
  · next hnone =>
    have hpoll := (hkeeps w h.world).poll hrules.stable
    split <;> next v hv =>
      rw [hv] at hpoll
      first
      | refine ⟨hpoll.1, ?_, h.waiting⟩
        intro n t' hholder
        cases hholder
        exact hpoll.2
      | refine ⟨hpoll, ?_, h.waiting⟩
        intro n t' hholder
        rw [show c.holder = some (n, t') from hholder] at hnone
        cases hnone

/-- Every turn leaves the invariant, and the promise of all calls that are under way then. -/
theorem turn (hrules : Rules proper rely inv) {now after : Calls W α × W}
    (h : Sound rely inv now.1 now.2) (hturn : Turn proper rely now after) :
    Sound rely inv after.1 after.2 := by
  cases hturn with
  | @start c w exclusive t hproper =>
    cases exclusive with
    | true => exact h.startExclusive hrules hproper
    | false =>
      -- A call that takes nothing is, for all others, somebody else who acts on the world.
      have hfree := h.elsewhere hrules (hrules.free t hproper w)
      exact ⟨hfree.world, hfree.holder, hfree.waiting⟩
  | @resume c w n t hholder =>
    exact .driven hrules (h.holder n t hholder w (hrules.refl w)) h.waiting n
  | giveUp hholder => exact .release hrules h.world h.waiting _ none
  | @withdraw c w n t before after hwaiting =>
    refine ⟨h.world, h.holder, fun p hp => h.waiting p ?_⟩
    have hsub : before ++ after ⊆ c.waiting := by
      rw [hwaiting]
      exact (List.sublist_cons_self (n, t) after).append_left before |>.subset
    exact hsub hp
  | elsewhere hv => exact h.elsewhere hrules hv

end Sound

/-- An invariant that proper calls keep holds after any number of turns. -/
theorem Reaches.sound (hrules : Rules proper rely inv) {now after : Calls W α × W}
    (h : Reaches proper rely now after) (hnow : Sound rely inv now.1 now.2) :
    Sound rely inv after.1 after.2 := by
  induction h with
  | refl => exact hnow
  | tail _ hturn ih => exact ih.turn hrules hturn

/-! ## Driving everything to its end -/

/-- The session is taken while calls wait for it. -/
def Orderly (c : Calls W α) : Prop := c.holder = none → c.waiting = []

/-- After the session was given up, nobody waits without reason. -/
theorem orderly_release (c : Calls W α) (n : Nat) (answer : Option α) :
    (c.release n answer).Orderly := by
  intro hholder
  have hnil : c.waiting = [] := List.head?_eq_none_iff.mp hholder
  simp [release, hnil]

/-- After a call was started, nobody waits without reason. -/
theorem Orderly.start {c : Calls W α} (h : c.Orderly) (exclusive : Bool) (t : Task W α) (w : W) :
    (c.start exclusive t w).1.Orderly := by
  cases exclusive with
  | false => exact h
  | true =>
    simp only [Calls.start, startExclusive, if_true]
    split
    · next held hheld =>
      intro hnone
      rw [show c.holder = none from hnone] at hheld
      cases hheld
    · next hnone =>
      split
      · intro hholder
        cases hholder
      · exact h

/-- The call that has the session, driven to its end or given up if it hangs. -/
theorem reaches_release (proper : Bool → Task W α → Prop) (rely : W → W → Prop) (c : Calls W α)
    (n : Nat) (t : Task W α) (w : W) :
    Reaches proper rely (c.driven n (t.poll w)) (c.release n (t.run w).1, (t.run w).2) := by
  induction t generalizing w with
  | done a => exact .refl
  | act effect next ih => exact ih w (effect w)
  | pause next ih =>
    have hresume : Turn proper rely ({ c with holder := some (n, next) }, w)
        (c.driven n (next.poll w)) := .resume rfl
    exact .head hresume (ih w)
  | hang => exact .single (.giveUp rfl)

/-- Running the calls under way in turn, first the one that has the session, is an order of
turns. -/
theorem reaches_runInTurn (proper : Bool → Task W α → Prop) (rely : W → W → Prop)
    (calls : List (Nat × Task W α)) {c : Calls W α} (hc : c.Orderly)
    (hcalls : c.holder.toList ++ c.waiting = calls) (w : W) :
    ∃ c', c'.answers = c.answers ++ (runInTurn calls w).1 ∧
      Reaches proper rely (c, w) (c', (runInTurn calls w).2) := by
  induction calls generalizing c w with
  | nil => exact ⟨c, by simp [runInTurn], .refl⟩
  | cons first rest ih =>
    obtain ⟨n, t⟩ := first
    cases hholder : c.holder with
    | none =>
      rw [hholder, hc hholder] at hcalls
      cases hcalls
    | some held =>
      -- Its run is a number of turns, and the next call in the list has the session after them.
      obtain ⟨rfl, rfl⟩ : held = (n, t) ∧ c.waiting = rest := by
        simpa [hholder] using hcalls
      have hrelease : Reaches proper rely (c, w)
          (c.release n (t.run w).1, (t.run w).2) :=
        .head (.resume hholder) (reaches_release proper rely c n t w)
      have hqueue : (c.release n (t.run w).1).holder.toList ++
          (c.release n (t.run w).1).waiting = c.waiting := by
        cases hwaiting : c.waiting <;> simp [release, hwaiting]
      obtain ⟨c', hanswers, hrest⟩ := ih (orderly_release c n _) hqueue (t.run w).2
      refine ⟨c', ?_, hrelease.trans hrest⟩
      rw [hanswers]
      simp [release, runInTurn]

/-- Finishing all calls is one of the ways that they can go on. -/
theorem reaches_finish (proper : Bool → Task W α → Prop) (rely : W → W → Prop) {c : Calls W α}
    (hc : c.Orderly) (w : W) :
    ∃ c', c'.answers = (c.finish w).1 ∧ Reaches proper rely (c, w) (c', (c.finish w).2) :=
  reaches_runInTurn proper rely _ hc rfl w

/-- Starting several calls in turn is one of the ways that they can go on. -/
theorem reaches_startAll (rely : W → W → Prop) {calls : List (Bool × Task W α)}
    (hcalls : ∀ call ∈ calls, proper call.1 call.2) {c : Calls W α} (hc : c.Orderly) (w : W) :
    (startAll calls c w).1.Orderly ∧ Reaches proper rely (c, w) (startAll calls c w) := by
  induction calls generalizing c w with
  | nil => exact ⟨hc, .refl⟩
  | cons call rest ih =>
    obtain ⟨exclusive, t⟩ := call
    have hfirst : proper exclusive t := hcalls _ List.mem_cons_self
    obtain ⟨horderly, hrest⟩ := ih (fun call hcall => hcalls call (List.mem_cons_of_mem _ hcall))
      (hc.start exclusive t w) (c.start exclusive t w).2
    exact ⟨horderly, .head (.start hfirst) hrest⟩

end Calls

namespace Session

variable {σ : Type}

/-- The work by which the session starts a call that is allowed, or one that could not be read. -/
def Starts (s : Session σ) (allowed : Call → Prop) (exclusive : Bool)
    (t : Task (World σ) (Except Fault Reply)) : Prop :=
  ∃ call : Except Fault Call, s.starting call = (exclusive, t) ∧ ∀ c, call = .ok c → allowed c

/-- What is started is the work of an allowed call, or takes nothing and answers with a fault. -/
theorem Starts.cases {s : Session σ} {allowed : Call → Prop} {exclusive : Bool}
    {t : Task (World σ) (Except Fault Reply)} (h : s.Starts allowed exclusive t) :
    (∃ call, allowed call ∧ call.exclusive = exclusive ∧ t = call.work s) ∨
      exclusive = false ∧ ∃ fault, t = .done (.error fault) := by
  obtain ⟨call, hstarting, hallowed⟩ := h
  cases call with
  | error fault =>
    obtain ⟨rfl, rfl⟩ := Prod.mk.inj hstarting
    exact .inr ⟨rfl, fault, rfl⟩
  | ok call =>
    obtain ⟨hexclusive, rfl⟩ := Prod.mk.inj hstarting
    exact .inl ⟨call, hallowed call rfl, hexclusive, rfl⟩

/-- Gathering calls is one order of turns. -/
theorem gather_reaches (s : Session σ) {allowed : Call → Prop} {calls : List (Except Fault Call)}
    (hcalls : ∀ c, .ok c ∈ calls → allowed c) (rely : World σ → World σ → Prop) (w : World σ) :
    ∃ c, Calls.Reaches (s.Starts allowed) rely (.empty, w) (c, (s.gather calls w).2) := by
  have hstarts : ∀ started ∈ calls.map s.starting, s.Starts allowed started.1 started.2 := by
    intro started hstarted
    obtain ⟨call, hcall, rfl⟩ := List.mem_map.mp hstarted
    exact ⟨call, rfl, fun c hc => hcalls c (hc ▸ hcall)⟩
  obtain ⟨horderly, hstarted⟩ := Calls.reaches_startAll rely hstarts
    (show (Calls.empty : Calls (World σ) (Except Fault Reply)).Orderly from fun _ => rfl) w
  obtain ⟨c, -, hfinished⟩ := Calls.reaches_finish (s.Starts allowed) rely horderly
    (Calls.startAll (calls.map s.starting) .empty w).2
  exact ⟨c, hstarted.trans hfinished⟩

end Session

end MapEvents
