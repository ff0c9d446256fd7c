import Mathlib.Data.List.Nodup
import MapEvents.Proofs.Double.Value
import MapEvents.Proofs.Text.Blank
import MapEvents.Review.Checks
/-!
# Which events are valid

An event is valid if its review finds no error. Each check is read as a condition on what it looks
at: `Review.Clean` says that a list of findings holds no error, and there is one lemma for each
check that says when its findings are clean. Where a check goes through a list, its findings are
clean if they are clean at every place. Together the checks come to `Event.WellFormed`, which does
not mention the graph of actions: what is said about it is never an error.
-/

namespace MapEvents

/-! ## What an event needs -/

/-- The probability lies between zero and one; not-a-number does not. -/
def Double.IsChance (x : Double) : Prop := ∃ q, x.rational? = some q ∧ 0 ≤ q ∧ q ≤ 1

/-- What a trigger condition needs. -/
structure Condition.WellFormed (c : Condition) : Prop where
  key : c.kind = .flag ∨ c.kind = .item → ∃ k, c.key = some k ∧ k ≠ ""
  chance : c.kind = .random → ∀ x, c.probability = some x → x.IsChance

/-- What a repeat policy needs. -/
def RepeatPolicy.WellFormed (p : RepeatPolicy) : Prop :=
  p.kind = .count → ∃ n, p.maxCount = some n ∧ 0 < n

namespace Action

/-- A parameter that counts as true. -/
def Gives (a : Action) (key : String) : Prop :=
  ∃ v, Fields.find? key a.params = some v ∧ v.truthy = true

/-- A parameter that is a number; true and false are none. -/
def GivesNumber (a : Action) (key : String) : Prop :=
  (∃ n, Fields.find? key a.params = some (.int n)) ∨
    ∃ x, Fields.find? key a.params = some (.float x)

/-- What an action needs among its parameters. -/
def HasParams (a : Action) : Prop :=
  match a.type with
  | "message" => ∃ s, Fields.find? "text" a.params = some (.str s) ∧ Blank.Filled s
  | "warp" => a.GivesNumber "x" ∧ a.GivesNumber "y"
  | "item" => a.Gives "itemId" ∧ ∃ n, Fields.find? "count" a.params = some (.int n) ∧ 0 < n
  | "flag" => a.Gives "key"
  | _ => True

end Action

/-- What an event needs. -/
structure Event.WellFormed (e : Event) : Prop where
  id : Blank.Filled e.id
  name : Blank.Filled e.name
  type : e.type ≠ ""
  policy : ∀ p, e.trigger.policy = some p → p.WellFormed
  conditions : ∀ c ∈ e.trigger.conditions, c.WellFormed
  /-- No two actions have the same id. -/
  ids : (e.actions.map (·.id)).Nodup
  /-- Every action has an id and a tag, and what its tag asks for. -/
  actions : ∀ a ∈ e.actions, a.id ≠ "" ∧ a.type ≠ "" ∧ a.HasParams

/-! ## Chances -/

namespace Review

/-- The check of a chance accepts what lies between zero and one. -/
theorem isChance_iff {x : Double} : isChance x = true ↔ x.IsChance := by
  rw [isChance, Bool.and_eq_true, Double.le_iff, Double.le_iff, Double.value?_zero,
    Double.value?_one, Double.IsChance]
  cases x with
  | nan => simp [Double.value?, Double.rational?]
  | infinite negative => cases negative <;> simp [Double.value?, Double.rational?]
  | finite negative e f => simp [Double.value?, Double.rational?]

/-! ## Findings without an error -/

/-- No finding is an error. -/
def Clean (fs : List Finding) : Prop := ∀ f ∈ fs, f.severity ≠ .error

variable {fs gs : List Finding} {b : Bool} {field message : String} {suggestion : Option String}

@[simp] theorem clean_nil : Clean [] := by simp [Clean]

@[simp] theorem clean_append : Clean (fs ++ gs) ↔ Clean fs ∧ Clean gs := by
  simp [Clean, or_imp, forall_and]

@[simp] theorem not_clean_error : ¬Clean [.error field message suggestion] := by
  simp [Clean, Finding.error]

@[simp] theorem clean_warning : Clean [.warning field message suggestion] := by
  simp [Clean, Finding.warning]

@[simp] theorem clean_if_error :
    Clean (findingIf b (.error field message suggestion)) ↔ b = false := by
  cases b <;> simp [findingIf]

@[simp] theorem clean_if_warning : Clean (findingIf b (.warning field message suggestion)) := by
  cases b <;> simp [findingIf]

@[simp] theorem clean_if_info : Clean (findingIf b (.info field message suggestion)) := by
  cases b <;> simp [findingIf, Clean, Finding.info]

/-- The findings about a list are clean if those at each place are. -/
theorem clean_numbered {α : Type} {check : α → Nat → List Finding} {start : Nat} {as : List α} :
    Clean (numbered check start as) ↔ ∀ i a, as[i]? = some a → Clean (check a (start + i)) := by
  induction as generalizing start with
  | nil => simp [numbered]
  | cons a rest ih =>
    rw [numbered, clean_append, ih]
    constructor
    · rintro ⟨hfirst, hrest⟩ i b hb
      cases i with
      | zero =>
        obtain rfl : a = b := by simpa using hb
        exact hfirst
      | succ i =>
        rw [Nat.add_comm i 1, ← Nat.add_assoc]
        exact hrest i b (by simpa using hb)
    · intro h
      refine ⟨h 0 a rfl, fun i b hb => ?_⟩
      rw [Nat.add_assoc, Nat.add_comm 1 i]
      exact h (i + 1) b (by simpa using hb)

/-- If it does not matter at which place an element stands, all elements count alike. -/
theorem clean_numbered_iff {α : Type} {check : α → Nat → List Finding} {P : α → Prop}
    (h : ∀ a i, Clean (check a i) ↔ P a) {start : Nat} {as : List α} :
    Clean (numbered check start as) ↔ ∀ a ∈ as, P a := by
  simp only [clean_numbered, h, List.mem_iff_getElem?]
  exact ⟨fun hall a ⟨i, hi⟩ => hall i a hi, fun hall i a hi => hall a ⟨i, hi⟩⟩

/-! ## The checks one by one -/

/-- The required fields pass if id and name are filled and there is a type. -/
theorem clean_requiredFields {e : Event} :
    Clean (requiredFields e) ↔ Blank.Filled e.id ∧ Blank.Filled e.name ∧ e.type ≠ "" := by
  simp [requiredFields, Blank.isBlank_eq_false_iff]

/-- A repeat policy passes if it is well formed; a missing one passes. -/
theorem clean_repeatPolicy {policy : Option RepeatPolicy} :
    Clean (repeatPolicy policy) ↔ ∀ p, policy = some p → p.WellFormed := by
  cases policy with
  | none => simp [repeatPolicy]
  | some p =>
    cases hmax : p.maxCount <;> simp [repeatPolicy, RepeatPolicy.WellFormed, hmax]

/-- A condition passes if it is well formed. -/
theorem clean_condition (c : Condition) (i : Nat) : Clean (condition c i) ↔ c.WellFormed := by
  have hkey : ((c.kind = .flag || c.kind = .item) && (c.key.getD "") = "") = false ↔
      (c.kind = .flag ∨ c.kind = .item → ∃ k, c.key = some k ∧ k ≠ "") := by
    cases c.key <;> simp [or_imp]
  have hchance : (c.kind = .random && c.probability.any (!isChance ·)) = false ↔
      (c.kind = .random → ∀ x, c.probability = some x → x.IsChance) := by
    cases c.probability <;> simp [isChance_iff]
  rw [condition, clean_append, clean_if_error, clean_if_error, hkey, hchance]
  exact ⟨fun h => ⟨h.1, h.2⟩, fun h => ⟨h.key, h.chance⟩⟩

/-- A trigger passes if its policy and its conditions do. -/
theorem clean_trigger {e : Event} :
    Clean (trigger e) ↔ (∀ p, e.trigger.policy = some p → p.WellFormed) ∧
      ∀ c ∈ e.trigger.conditions, c.WellFormed := by
  rw [trigger, clean_append, clean_repeatPolicy, clean_numbered_iff clean_condition]

/-- The text of a message passes if it is a filled text. -/
theorem clean_messageText (i : Nat) (text : Option Value) :
    Clean (messageText i text) ↔ ∃ s, text = some (.str s) ∧ Blank.Filled s := by
  unfold messageText
  split
  · next s =>
    by_cases hblank : Blank.isBlank s = true <;>
      simp [hblank, ← Blank.isBlank_eq_false_iff]
  · next hother =>
    simp only [not_clean_error, false_iff, not_exists, not_and]
    exact fun s hs => absurd hs (hother s)

/-- A value counts as a number if it is an integer or a double. -/
theorem isNumber_iff {v : Option Value} :
    isNumber v = true ↔ (∃ n, v = some (.int n)) ∨ ∃ x, v = some (.float x) := by
  unfold isNumber
  split <;> simp_all

/-- A value counts as a positive number if it is an integer above zero. -/
theorem isPositive_iff {v : Option Value} :
    isPositive v = true ↔ ∃ n, v = some (.int n) ∧ 0 < n := by
  unfold isPositive
  split <;> simp_all

/-- A value counts as given if it is there and truthy. -/
theorem isGiven_iff {v : Option Value} : isGiven v = true ↔ ∃ w, v = some w ∧ w.truthy = true := by
  cases v <;> simp [isGiven]

/-- The parameters of an action pass if they are what its kind needs. -/
theorem clean_params (a : Action) (i : Nat) : Clean (params a i) ↔ a.HasParams := by
  unfold Action.HasParams
  split
  · next htype => simp [params, htype, StandardAction.tag, clean_messageText]
  · next htype =>
    simp [params, htype, StandardAction.tag, isNumber_iff, Action.GivesNumber]
  · next htype =>
    simp [params, htype, StandardAction.tag, isGiven_iff, isPositive_iff, Action.Gives]
  · next htype => simp [params, htype, StandardAction.tag, isGiven_iff, Action.Gives]
  · next hmessage hwarp hitem hflag =>
    have hnone : a.type ≠ StandardAction.message.tag ∧ a.type ≠ StandardAction.warp.tag ∧
        a.type ≠ StandardAction.item.tag ∧ a.type ≠ StandardAction.flag.tag :=
      ⟨hmessage, hwarp, hitem, hflag⟩
    rw [params, if_neg hnone.1, if_neg hnone.2.1, if_neg hnone.2.2.1, if_neg hnone.2.2.2]
    split <;> simp

/-- An action passes if it has an id, a type and its parameters, and no other has its id. -/
theorem clean_action (all : List Action) (a : Action) (i : Nat) :
    Clean (action all a i) ↔
      (a.id ≠ "" ∧ a.type ≠ "" ∧ a.HasParams) ∧ all.countP (·.id = a.id) ≤ 1 := by
  have hid : Clean (actionId all a i) ↔ a.id ≠ "" ∧ all.countP (·.id = a.id) ≤ 1 := by
    unfold actionId
    split <;> simp_all
  have htype : Clean (if a.type = "" then
      [.error s!"actions[{i}].type" s!"Action {i + 1} needs a type" none] else params a i) ↔
      a.type ≠ "" ∧ a.HasParams := by
    split <;> simp_all [clean_params]
  rw [action, clean_append, hid, htype]
  constructor
  · rintro ⟨⟨hnamed, hcount⟩, hrest⟩
    exact ⟨⟨hnamed, hrest⟩, hcount⟩
  · rintro ⟨⟨hnamed, hrest⟩, hcount⟩
    exact ⟨⟨hnamed, hcount⟩, hrest⟩

/-- Ids are distinct if none is counted twice. -/
theorem nodup_ids_iff {all : List Action} :
    (all.map (·.id)).Nodup ↔ ∀ a ∈ all, all.countP (·.id = a.id) ≤ 1 := by
  have hcount : ∀ id, (all.map (·.id)).count id = all.countP (·.id = id) := by
    intro id
    rw [List.count_eq_countP, List.countP_map]
    rfl
  rw [List.nodup_iff_count_le_one]
  simp only [hcount]
  refine ⟨fun h a _ => h a.id, fun h id => ?_⟩
  by_cases hid : ∃ a ∈ all, a.id = id
  · obtain ⟨a, ha, rfl⟩ := hid
    exact h a ha
  · have hzero : all.countP (·.id = id) = 0 := by simpa using hid
    omega

/-- An event without actions has nothing that could be wrong with them. -/
theorem clean_actions_iff_numbered {most : Int} {e : Event} :
    Clean (actions most e) ↔ Clean (numbered (action e.actions) 0 e.actions) := by
  unfold actions
  split
  · next hempty => simp [List.isEmpty_iff.mp hempty, numbered]
  · simp

/-- Actions pass if their ids are different and each one passes by itself. -/
theorem clean_actions {most : Int} {e : Event} :
    Clean (actions most e) ↔ (e.actions.map (·.id)).Nodup ∧
      ∀ a ∈ e.actions, a.id ≠ "" ∧ a.type ≠ "" ∧ a.HasParams := by
  rw [clean_actions_iff_numbered, clean_numbered_iff (clean_action e.actions), nodup_ids_iff]
  exact ⟨fun h => ⟨fun a ha => (h a ha).2, fun a ha => (h a ha).1⟩,
    fun h a ha => ⟨h.2 a ha, h.1 a ha⟩⟩

/-- The check of the chain raises no errors. -/
theorem clean_chain (e : Event) : Clean (chain e) := by
  have hdangling : Clean (danglingPointers e.actions) := by
    intro f hf
    obtain ⟨pointer, -, rfl⟩ := List.mem_map.mp hf
    exact (by decide : Severity.warning ≠ .error)
  have hcycle : Clean (cycle e.actions) := by
    unfold cycle
    split <;> simp
  simp [chain, unreachableActions, hdangling, hcycle]

theorem clean_combination (e : Event) : Clean (combination e) := by
  simp [combination]

/-! ## The verdict -/

/-- A report is valid if its findings are clean. -/
theorem isValid_ofFindings : (Report.ofFindings fs).isValid = true ↔ Clean fs := by
  simp [Report.isValid, Report.ofFindings, Clean]

/-- A report is valid exactly if every check finds nothing but warnings and remarks. -/
theorem isValid_report {checks : List Check} {e : Event} :
    (report checks e).isValid = true ↔ ∀ c ∈ checks, Clean (c.run e) := by
  rw [report, isValid_ofFindings]
  simp only [Clean, List.mem_flatMap]
  exact ⟨fun h c hc f hf => h f ⟨c, hc, hf⟩, fun h f ⟨c, hc, hf⟩ => h c hc f hf⟩

/-- Three checks decide, and the number of actions that they allow without a warning does not. -/
theorem isValid_deciding (most : Int) {e : Event} :
    (report [.requiredFields, .trigger, .actions most] e).isValid = true ↔ e.WellFormed := by
  simp only [isValid_report, List.forall_mem_cons, List.not_mem_nil, Check.run,
    clean_requiredFields, clean_trigger, clean_actions]
  constructor
  · rintro ⟨⟨hid, hname, htype⟩, ⟨hpolicy, hconditions⟩, ⟨hids, hactions⟩, -⟩
    exact ⟨hid, hname, htype, hpolicy, hconditions, hids, hactions⟩
  · intro h
    exact ⟨⟨h.id, h.name, h.type⟩, ⟨h.policy, h.conditions⟩, ⟨h.ids, h.actions⟩, by simp⟩

/-- The check of the actions finds no error in the action at this place. -/
def Approves (e : Event) (i : Nat) (a : Action) : Prop :=
  e.actions[i]? = some a ∧ Clean (action e.actions a i)

/-- The check of the actions finds no error if it approves of each of them. -/
theorem isValid_actions_iff (most : Int) {e : Event} :
    (report [.actions most] e).isValid = true ↔
      ∀ i a, e.actions[i]? = some a → Approves e i a := by
  have hclean : (report [.actions most] e).isValid = true ↔ Clean (actions most e) := by
    simp [isValid_report, Check.run]
  rw [hclean, clean_actions_iff_numbered, clean_numbered]
  simp only [Nat.zero_add]
  exact ⟨fun h i a ha => ⟨ha, h i a ha⟩, fun h i a ha => (h i a ha).2⟩

end Review

/-- An event is valid exactly if it is well formed. The verdict is that of the first three checks:
the graph of actions and rare combinations give rise to warnings and remarks alone. -/
theorem Event.review_isValid_iff (e : Event) :
    (e.review.isValid = true ↔ e.WellFormed) ∧
      (∀ f ∈ Review.chain e ++ Review.combination e, f.severity ≠ .error) ∧
      ∀ most, (Review.report [.requiredFields, .trigger, .actions most] e).isValid =
        e.review.isValid := by
  have hgraph := Review.clean_chain e
  have hcombination := Review.clean_combination e
  have hverdict : e.review.isValid = true ↔ e.WellFormed := by
    rw [← Review.isValid_deciding Review.maxActions, Event.review, Review.standard]
    simp [Review.isValid_report, Review.Check.run, hgraph, hcombination]
  refine ⟨hverdict, Review.clean_append.mpr ⟨hgraph, hcombination⟩, fun most => ?_⟩
  rw [Bool.eq_iff_iff, Review.isValid_deciding, hverdict]

end MapEvents
