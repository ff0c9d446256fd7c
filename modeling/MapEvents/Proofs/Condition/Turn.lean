import Mathlib.Data.List.Basic
import MapEvents.Proofs.Condition.Frame
/-!
# Conditions in turn

A list of conditions is checked from its front, and no further than to the first condition that does
not hold. Only what is looked at asks: each random condition draws one number, each custom one asks
the hook once, and other conditions ask nothing. So the draws that a list takes from a shared random
source are known from the part of it that was looked at, and what is checked next meets the source
where that part left it.

`World.askedBy` is the world after a list of conditions has asked, all of it. Checking a list comes
to that world for the part that was looked at, and holds if each condition held at its turn.
-/

namespace MapEvents

variable {σ : Type}

/-- What a condition may ask of the surroundings. -/
inductive Ask where
  /-- A random number. -/
  | draw
  /-- The hook's verdict on a custom condition. -/
  | hook (c : Condition)

/-- What the condition asks, if it asks anything. -/
def Condition.ask? (c : Condition) : Option Ask :=
  match c.kind with
  | .random => some .draw
  | .custom => some (.hook c)
  | _ => none

/-- Only random and custom conditions ask for something. -/
theorem Condition.ask?_eq_none_iff {c : Condition} :
    c.ask? = none ↔ c.kind ≠ .random ∧ c.kind ≠ .custom := by
  cases hkind : c.kind <;> simp [ask?, hkind]

/-- The calls of the hook that the conditions ask for. -/
def Surroundings.callsFor (s : Surroundings σ) (cs : List Condition) :
    List (Option String × Option Scalar) :=
  match s.hook with
  | none => []
  | some _ => (cs.filter (·.kind = .custom)).map fun c => (c.key, c.value)

namespace World

/-- The world after one ask. The random source, or the hook, was called once and remembers it, and
the call is in the journal. Where there is no hook, nobody is called. -/
def asked (s : Surroundings σ) (w : World σ) : Ask → World σ
  | .draw => { w.note .draw with outside := (s.draw w.outside).2 }
  | .hook c =>
    match s.hook with
    | none => w
    | some hook =>
      { w.note (.hook c.key c.value) with outside := (hook c w.state w.outside).2 }

/-- The world after all of the conditions have asked, in their order. -/
def askedBy (s : Surroundings σ) (cs : List Condition) (w : World σ) : World σ :=
  (cs.filterMap Condition.ask?).foldl (asked s) w

/-- How many random numbers were drawn. -/
def draws (w : World σ) : Nat := w.journal.countP (· matches .draw)

/-- The custom conditions on which the hook was asked, by key and value, oldest first. -/
def hookCalls (w : World σ) : List (Option String × Option Scalar) :=
  w.journal.reverse.filterMap fun
    | .hook key value => some (key, value)
    | _ => none

@[simp] theorem askedBy_nil (s : Surroundings σ) (w : World σ) : w.askedBy s [] = w := rfl

theorem askedBy_append (s : Surroundings σ) (xs ys : List Condition) (w : World σ) :
    w.askedBy s (xs ++ ys) = (w.askedBy s xs).askedBy s ys := by
  rw [askedBy, List.filterMap_append, List.foldl_append]
  rfl

theorem askedBy_cons (s : Surroundings σ) (c : Condition) (rest : List Condition) (w : World σ) :
    w.askedBy s (c :: rest) = (w.askedBy s [c]).askedBy s rest :=
  askedBy_append s [c] rest w

/-- Conditions that ask nothing leave the world as it is. -/
theorem askedBy_of_ask?_eq_none (s : Surroundings σ) {cs : List Condition}
    (h : ∀ c ∈ cs, c.ask? = none) (w : World σ) : w.askedBy s cs = w := by
  rw [askedBy, List.filterMap_eq_nil_iff.mpr h, List.foldl_nil]

/-- One draw for each random condition. -/
theorem draws_askedBy (s : Surroundings σ) (cs : List Condition) (w : World σ) :
    (w.askedBy s cs).draws = w.draws + cs.countP (·.kind = .random) := by
  induction cs generalizing w with
  | nil => rfl
  | cons c rest ih =>
    have hfirst : (w.askedBy s [c]).draws = w.draws + [c].countP (·.kind = .random) := by
      cases hkind : c.kind with
      | random => simp [askedBy, Condition.ask?, asked, draws, note, hkind]
      | custom =>
        cases hhook : s.hook <;>
          simp [askedBy, Condition.ask?, asked, draws, note, hkind, hhook]
      | _ => simp [askedBy, Condition.ask?, hkind]
    have hcount : (c :: rest).countP (·.kind = .random) =
        [c].countP (·.kind = .random) + rest.countP (·.kind = .random) := by
      rw [← List.countP_append, List.singleton_append]
    rw [askedBy_cons, ih, hfirst, hcount, Nat.add_assoc]

/-- One call of the hook for each custom condition, in their order. -/
theorem hookCalls_askedBy (s : Surroundings σ) (cs : List Condition) (w : World σ) :
    (w.askedBy s cs).hookCalls = w.hookCalls ++ s.callsFor cs := by
  induction cs generalizing w with
  | nil => cases hhook : s.hook <;> simp [Surroundings.callsFor, hhook]
  | cons c rest ih =>
    have hfirst : (w.askedBy s [c]).hookCalls = w.hookCalls ++ s.callsFor [c] := by
      cases hhook : s.hook <;> cases hkind : c.kind <;>
        simp [askedBy, Condition.ask?, asked, hookCalls, Surroundings.callsFor, note, hkind, hhook]
    have hcalls : s.callsFor (c :: rest) = s.callsFor [c] ++ s.callsFor rest := by
      cases hhook : s.hook with
      | none => simp [Surroundings.callsFor, hhook]
      | some hook =>
        rw [← List.singleton_append]
        simp only [Surroundings.callsFor, hhook, List.filter_append, List.map_append]
    rw [askedBy_cons, ih, hfirst, hcalls, List.append_assoc]

end World

namespace Condition

/-- A check asks what the condition asks, and does nothing else to the world. -/
theorem check_asks (s : Surroundings σ) (c : Condition) (w : World σ) :
    (c.check s w).2 = w.askedBy s [c] := by
  cases hkind : c.kind with
  | custom => cases hhook : s.hook <;> simp [check, World.askedBy, ask?, World.asked, hkind, hhook]
  | _ => simp [check, World.askedBy, ask?, World.asked, hkind]

/-- The condition holds once those before it have asked. -/
def HoldsAfter (s : Surroundings σ) (before : List Condition) (w : World σ) (c : Condition) :
    Prop :=
  (c.check s (w.askedBy s before)).1 = .ok true

/-- Each of the conditions holds at its turn. -/
def HoldInTurn (s : Surroundings σ) (cs : List Condition) (w : World σ) : Prop :=
  ∀ before c after, cs = before ++ c :: after → c.HoldsAfter s before w

theorem holdInTurn_nil (s : Surroundings σ) (w : World σ) : HoldInTurn s [] w := by
  intro before c after h
  simp at h

/-- Conditions hold in turn if the first one does, and the others after what it asked. -/
theorem holdInTurn_cons_iff (s : Surroundings σ) (c : Condition) (rest : List Condition)
    (w : World σ) :
    HoldInTurn s (c :: rest) w ↔
      (c.check s w).1 = .ok true ∧ HoldInTurn s rest (w.askedBy s [c]) := by
  constructor
  · intro h
    refine ⟨h [] c rest rfl, fun before d after hsplit => ?_⟩
    have hturn := h (c :: before) d after (by rw [hsplit, List.cons_append])
    rwa [HoldsAfter, World.askedBy_cons] at hturn
  · rintro ⟨hfirst, hrest⟩ before d after hsplit
    cases before with
    | nil =>
      obtain ⟨rfl, -⟩ := List.cons.inj hsplit
      exact hfirst
    | cons e before =>
      obtain ⟨rfl, htail⟩ := List.cons.inj hsplit
      have hturn := hrest before d after htail
      rwa [HoldsAfter, ← World.askedBy_cons] at hturn

variable {s : Surroundings σ} {c : Condition} {cs xs ys rest : List Condition} {w : World σ}

/-- Behind a condition that holds, the others are checked. -/
theorem checkAll_cons_of_holds (h : (c.check s w).1 = .ok true) (rest : List Condition) :
    checkAll s (c :: rest) w = checkAll s rest (w.askedBy s [c]) := by
  have hcheck : c.check s w = (.ok true, w.askedBy s [c]) := Prod.ext h (check_asks s c w)
  rw [checkAll, hcheck]

/-- Behind a condition that does not hold, nothing is checked any more. -/
theorem checkAll_cons_of_fails (h : (c.check s w).1 ≠ .ok true) (rest : List Condition) :
    checkAll s (c :: rest) w = c.check s w := by
  rw [checkAll]
  split
  · next v hv =>
    rw [hv] at h
    exact absurd rfl h
  · rfl

/-- How far a list of conditions is looked at, and what comes of it: all of it where each condition
holds at its turn, and else what ends with the first that does not. -/
inductive LookedAt (s : Surroundings σ) (w : World σ) (cs : List Condition) :
    List Condition → Bool → Prop where
  | all (hold : HoldInTurn s cs w) : LookedAt s w cs cs true
  | upTo (before : List Condition) (c : Condition) (after : List Condition)
      (split : cs = before ++ c :: after) (hold : HoldInTurn s before w)
      (fails : (c.check s (w.askedBy s before)).1 = .ok false) :
      LookedAt s w cs (before ++ [c]) false

theorem LookedAt.cons {looked : List Condition} {verdict : Bool}
    (hholds : (c.check s w).1 = .ok true) (h : LookedAt s (w.askedBy s [c]) rest looked verdict) :
    LookedAt s w (c :: rest) (c :: looked) verdict := by
  cases h with
  | all hold => exact .all ((holdInTurn_cons_iff s c rest w).mpr ⟨hholds, hold⟩)
  | upTo before d after split hold fails =>
    refine .upTo (c :: before) d after ?_ ?_ ?_
    · rw [split, List.cons_append]
    · exact (holdInTurn_cons_iff s c before w).mpr ⟨hholds, hold⟩
    · rwa [World.askedBy_cons]

/-- The conditions that are looked at are the first ones. -/
theorem LookedAt.exists_rest {looked : List Condition} {verdict : Bool}
    (h : LookedAt s w cs looked verdict) : ∃ rest, cs = looked ++ rest := by
  cases h with
  | all => exact ⟨[], (List.append_nil cs).symm⟩
  | upTo before c after split =>
    refine ⟨after, ?_⟩
    rw [split, List.append_assoc, List.singleton_append]

/-- Just the part of a list that is looked at has asked. -/
theorem exists_lookedAt (hs : s.HookAnswers) (cs : List Condition) (w : World σ) :
    ∃ looked verdict, LookedAt s w cs looked verdict ∧
      checkAll s cs w = (.ok verdict, w.askedBy s looked) := by
  induction cs generalizing w with
  | nil => exact ⟨[], true, .all (holdInTurn_nil s w), rfl⟩
  | cons c rest ih =>
    cases hcheck : (c.check s w).1 with
    | error fault => exact absurd hcheck (check_ne_error hs c w fault)
    | ok b =>
      cases b with
      | false =>
        refine ⟨[c], false, .upTo [] c rest rfl (holdInTurn_nil s w) hcheck, ?_⟩
        rw [checkAll_cons_of_fails (by simp [hcheck])]
        exact Prod.ext hcheck (check_asks s c w)
      | true =>
        obtain ⟨looked, verdict, hlooked, hall⟩ := ih (w.askedBy s [c])
        refine ⟨c :: looked, verdict, hlooked.cons hcheck, ?_⟩
        rw [checkAll_cons_of_holds hcheck, hall, ← World.askedBy_cons]

/-- The check succeeds exactly if all conditions hold in turn. -/
theorem checkAll_holds_iff (s : Surroundings σ) (cs : List Condition) (w : World σ) :
    (checkAll s cs w).1 = .ok true ↔ HoldInTurn s cs w := by
  induction cs generalizing w with
  | nil => exact ⟨fun _ => holdInTurn_nil s w, fun _ => rfl⟩
  | cons c rest ih =>
    rw [holdInTurn_cons_iff]
    by_cases hcheck : (c.check s w).1 = .ok true
    · rw [checkAll_cons_of_holds hcheck, ih]
      exact ⟨fun h => ⟨hcheck, h⟩, And.right⟩
    · rw [checkAll_cons_of_fails hcheck]
      exact ⟨fun h => absurd h hcheck, fun h => absurd h.1 hcheck⟩

/-- A list that holds is gone through before what follows it. -/
theorem checkAll_append_of_holds (h : (checkAll s xs w).1 = .ok true) (ys : List Condition) :
    checkAll s (xs ++ ys) w = checkAll s ys (checkAll s xs w).2 := by
  induction xs generalizing w with
  | nil => rfl
  | cons c rest ih =>
    have hcheck := ((holdInTurn_cons_iff s c rest w).mp ((checkAll_holds_iff s _ w).mp h)).1
    rw [checkAll_cons_of_holds hcheck] at h ⊢
    rw [List.cons_append, checkAll_cons_of_holds hcheck]
    exact ih h

/-- A list that does not hold is not gone beyond. -/
theorem checkAll_append_of_fails (h : (checkAll s xs w).1 ≠ .ok true) (ys : List Condition) :
    checkAll s (xs ++ ys) w = checkAll s xs w := by
  induction xs generalizing w with
  | nil => exact absurd rfl h
  | cons c rest ih =>
    by_cases hcheck : (c.check s w).1 = .ok true
    · rw [checkAll_cons_of_holds hcheck] at h ⊢
      rw [List.cons_append, checkAll_cons_of_holds hcheck]
      exact ih h
    · rw [List.cons_append, checkAll_cons_of_fails hcheck, checkAll_cons_of_fails hcheck]

/-- Conditions that ask nothing hold at their turn if each of them holds now. -/
theorem holdInTurn_iff_forall (hquiet : ∀ c ∈ cs, c.ask? = none) :
    HoldInTurn s cs w ↔ ∀ c ∈ cs, (c.check s w).1 = .ok true := by
  induction cs with
  | nil => simp [holdInTurn_nil]
  | cons c rest ih =>
    rw [List.forall_mem_cons] at hquiet
    have hstill : w.askedBy s [c] = w :=
      World.askedBy_of_ask?_eq_none s (by simpa using hquiet.1) w
    rw [holdInTurn_cons_iff, hstill, ih hquiet.2, List.forall_mem_cons]

/-- Conditions that ask nobody leave the world as it is. -/
theorem checkAll_world_of_quiet (hs : s.HookAnswers) (hquiet : ∀ c ∈ cs, c.ask? = none)
    (w : World σ) : (checkAll s cs w).2 = w := by
  obtain ⟨looked, verdict, hlooked, hall⟩ := exists_lookedAt hs cs w
  obtain ⟨rest, rfl⟩ := hlooked.exists_rest
  rw [hall]
  exact World.askedBy_of_ask?_eq_none s (fun c hc => hquiet c (List.mem_append_left rest hc)) w

/-- The order of conditions that ask nothing is of no importance. -/
theorem checkAll_perm (hs : s.HookAnswers) (hquiet : ∀ c ∈ cs, c.ask? = none)
    {ds : List Condition} (hperm : ds.Perm cs) (w : World σ) :
    checkAll s ds w = checkAll s cs w := by
  have hquiet' : ∀ c ∈ ds, c.ask? = none := fun c hc => hquiet c (hperm.mem_iff.mp hc)
  have hholds : (checkAll s ds w).1 = .ok true ↔ (checkAll s cs w).1 = .ok true := by
    rw [checkAll_holds_iff, checkAll_holds_iff, holdInTurn_iff_forall hquiet,
      holdInTurn_iff_forall hquiet']
    simp only [hperm.mem_iff]
  obtain ⟨_, verdict, _, hds⟩ := exists_lookedAt hs ds w
  obtain ⟨_, verdict', _, hcs⟩ := exists_lookedAt hs cs w
  have hverdict : verdict = verdict' := by
    rw [hds, hcs] at hholds
    exact Bool.eq_iff_iff.mpr (by simpa using hholds)
  refine Prod.ext ?_ ?_
  · rw [hds, hcs, hverdict]
  · rw [checkAll_world_of_quiet hs hquiet', checkAll_world_of_quiet hs hquiet]

/-- A list of conditions is checked in turn. It holds exactly when each condition holds once those
before it have asked. Up to the first that does not hold, each random condition draws one number and
each custom one calls the hook once, in their order, and nothing else happens to the world. So what
follows a list is checked only if the list holds, in the world that the list leaves. Without random
and custom conditions nothing is asked at all, and every order gives the same. The hook looks at the
game state and never writes it. -/
theorem checkAll_in_turn (hs : s.HookAnswers) (w : World σ) :
    (∀ cs, (checkAll s cs w).1 = .ok true ↔ HoldInTurn s cs w) ∧
      (∀ cs, ∃ looked verdict, LookedAt s w cs looked verdict ∧
        checkAll s cs w = (.ok verdict, w.askedBy s looked) ∧
        (checkAll s cs w).2.draws = w.draws + looked.countP (·.kind = .random) ∧
        (checkAll s cs w).2.hookCalls = w.hookCalls ++ s.callsFor looked) ∧
      (∀ xs ys,
        ((checkAll s xs w).1 = .ok true →
          checkAll s (xs ++ ys) w = checkAll s ys (checkAll s xs w).2) ∧
        ((checkAll s xs w).1 ≠ .ok true → checkAll s (xs ++ ys) w = checkAll s xs w)) ∧
      ∀ cs, (∀ c ∈ cs, c.kind ≠ .random ∧ c.kind ≠ .custom) →
        (checkAll s cs w).2 = w ∧ ∀ ds, ds.Perm cs → checkAll s ds w = checkAll s cs w := by
  refine ⟨fun cs => checkAll_holds_iff s cs w, fun cs => ?_,
    fun xs ys => ⟨fun h => checkAll_append_of_holds h ys, fun h => checkAll_append_of_fails h ys⟩,
    fun cs hkinds => ?_⟩
  · obtain ⟨looked, verdict, hlooked, hall⟩ := exists_lookedAt hs cs w
    refine ⟨looked, verdict, hlooked, hall, ?_, ?_⟩
    · rw [hall, World.draws_askedBy]
    · rw [hall, World.hookCalls_askedBy]
  · have hquiet : ∀ c ∈ cs, c.ask? = none := fun c hc => ask?_eq_none_iff.mpr (hkinds c hc)
    exact ⟨checkAll_world_of_quiet hs hquiet w, fun ds hperm => checkAll_perm hs hquiet hperm w⟩

/-- A random source that gives a zero and from then on halves, and a hook that agrees. They count
their calls. -/
def counting : Surroundings Nat :=
  { draw := fun n => (if n = 0 then .zero else .half, n + 1)
    hook := some fun _ _ n => (.ok true, n + 1)
    resolver := none
    host := fun _ => .done (.ok .null) }

/-- A new game in which nobody was called yet. -/
def uncounted : World Nat :=
  { state := .initial
    clock := .start
    recent := 0
    journal := []
    execution := none
    outside := 0 }

/-- The player has some level. -/
def grown : Condition := ⟨.level, .atLeast, none, some (.int 1), none⟩

/-- There is a potion. -/
def provided : Condition := ⟨.item, .present, some "potion", none, none⟩

/-- An even chance. -/
def chance : Condition := ⟨.random, .equal, none, none, none⟩

/-- What the hook decides. -/
def favour : Condition := ⟨.custom, .equal, some "favour", none, none⟩

/-- The first draw is low enough and the second is not; nobody is called after it. -/
theorem checkAll_in_turn_counting :
    counting.HookAnswers ∧
      HoldInTurn counting [grown, chance, favour] uncounted ∧
      (∃ looked, LookedAt counting uncounted [grown, chance, favour, chance, favour] looked false ∧
        looked.countP (·.kind = .random) = 2 ∧
        counting.callsFor looked = [(some "favour", none)]) ∧
      checkAll counting [provided, grown] uncounted =
        checkAll counting [grown, provided] uncounted := by
  have hanswers : counting.HookAnswers := by
    rintro hook hsome c state outside fault
    cases hsome
    simp
  obtain ⟨hholds, hlooks, -, hquiet⟩ := checkAll_in_turn hanswers uncounted
  refine ⟨hanswers, (hholds _).mp (by decide +kernel), ?_, ?_⟩
  · obtain ⟨looked, verdict, hlooked, hall, hdraws, hcalls⟩ :=
      hlooks [grown, chance, favour, chance, favour]
    have hverdict : (checkAll counting [grown, chance, favour, chance, favour] uncounted).1 =
        .ok false := by decide +kernel
    have htwo : (checkAll counting [grown, chance, favour, chance, favour] uncounted).2.draws =
        0 + 2 := by decide +kernel
    have hone : (checkAll counting [grown, chance, favour, chance, favour] uncounted).2.hookCalls =
        [(some "favour", none)] := by decide +kernel
    rw [hall] at hverdict
    obtain rfl : verdict = false := Except.ok.inj hverdict
    exact ⟨looked, hlooked, Nat.add_left_cancel (hdraws.symm.trans htwo), hcalls.symm.trans hone⟩
  · refine (hquiet [grown, provided] ?_).2 _ (List.Perm.swap _ _ _)
    simp [grown, provided]

end Condition

end MapEvents
