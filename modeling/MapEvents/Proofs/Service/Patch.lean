import MapEvents.Proofs.Service.Idle
import MapEvents.Proofs.Session.Update
import MapEvents.Proofs.State.Patch
/-!
# Patches through the service

A patch of the state through the service is the update of the session with the fields of the body,
as long as they are all known and each is named once. It succeeds exactly if the update does, and
the session is left as the update leaves it. A refused patch changes nothing, and is answered 422.

Halves of characters are the exception. A new state that holds one is kept and cannot be sent, and a
report on a body that holds one cannot be sent either: instead of an answer there is a fault. A
patch brings no half into a state but from its body.
-/

namespace MapEvents

/-! ## Reports -/

/-- A report repeats a part of the input. -/
theorem Value.repeated_within (v : Value) : v.repeated.Within v := by
  refine Value.Within.of_edit (fun k k' h => ?_) v
  split at h
  · cases h
  · exact (Option.some.inj h).symm

namespace Response

/-- Issues that show parts of a value whose numbers are finite can be reported, unless the value
holds half a character. -/
theorem unfit_of_within {issues : List Issue} {v : Value} (h : ∀ i ∈ issues, i.input.Within v)
    (hfinite : ∀ u ∈ v.leaves, u.isFinite = true) :
    (∃ r, unfit issues = .ok r ∧ r.status = 422) ∨
      unfit issues = .error .brokenInput ∧ ¬v.Plain := by
  have hwithin : (Value.list (issues.map (·.input.repeated))).Within v :=
    .of_forall_mem (List.forall_mem_map.mpr fun i hi =>
      (Value.repeated_within i.input).trans (h i hi))
  have hleaves : (Value.list (issues.map (·.input.repeated))).leaves.all Value.isFinite = true :=
    List.all_eq_true.mpr fun u hu => hfinite u (hwithin.leaves hu)
  simp only [unfit, hleaves, Bool.not_true, Bool.false_eq_true, if_false]
  split
  · next hbroken =>
    refine .inr ⟨rfl, fun hplain => ?_⟩
    have hinputs := hplain.of_within hwithin
    have hleaf := Value.sendable_iff.mp hinputs.sendable
    have hname := List.any_eq_false.mpr fun k hk => (hinputs.names k hk).symm ▸ Bool.false_ne_true
    rw [hleaf, hname] at hbroken
    cases hbroken
  · exact .inl ⟨_, rfl, rfl⟩

end Response

/-! ## Both ways of a session -/

namespace World

open GameState

variable {σ : Type} {given : Data} {misfit : IssueKind} {patch : patchFields.Of}

/-- An update is accepted, or it is refused and leaves the world as it was. -/
theorem update_cases (given : Data) (w : World σ) :
    (∃ v, w.update given = (.ok (), v)) ∨ ∃ fault, w.update given = (.error fault, w) := by
  cases ht : w.state.update given with
  | error fault => exact .inr ⟨fault, update_of_error ht⟩
  | ok t => exact .inl ⟨_, update_of_ok ht⟩

/-- A session goes with what a patch sends where it goes with the raw values. -/
theorem update_sentFields (honce : NamesOnce given) (hknown : NamesKnown given)
    (hpatch : patchFields.check misfit given = .ok patch) {w v : World σ}
    (h : w.update given = (.ok (), v)) : w.update (sentFields given patch) = (.ok (), v) := by
  obtain ⟨t, ht, rfl⟩ := update_eq_ok_iff.mp h
  have hsent : w.state.update (sentFields given patch) = .ok t :=
    (GameState.update_sentFields honce hknown hpatch).mpr ht
  have hhistory : ∀ data : Data, (data.any fun p => Field.ofKey? p.1 = some .history) = true ↔
      Names data .history := by
    intro data
    simp only [List.any_eq_true, decide_eq_true_eq, Names]
  have hnames : (sentFields given patch).any (fun p => Field.ofKey? p.1 = some .history) =
      given.any fun p => Field.ofKey? p.1 = some .history := by
    rw [Bool.eq_iff_iff, hhistory, hhistory]
    exact names_sentFields honce
  rw [update_of_ok hsent]
  simp only [updated, hnames]

/-- If the update with the raw values is refused, so is the one with what a patch sends. -/
theorem invalid_of_update_sentFields (honce : NamesOnce given) (hknown : NamesKnown given)
    (hpatch : patchFields.check misfit given = .ok patch) {w : World σ} {fault : Fault}
    (h : w.update given = (.error fault, w)) :
    ∃ issues, w.update (sentFields given patch) = (.error (.invalid issues), w) := by
  cases hsent : w.state.update (sentFields given patch) with
  | error other =>
    obtain ⟨issues, rfl⟩ := invalid_of_update (namesKnown_sentFields given patch) hsent
    exact ⟨issues, update_of_error hsent⟩
  | ok t =>
    rw [update_of_ok ((GameState.update_sentFields honce hknown hpatch).mp hsent)] at h
    cases h

end World

/-! ## Patches -/

namespace Service

open GameState

/-- The body of a patch names fields alone, each of them once and in one spelling, and holds no
number that is not finite. -/
structure Patchable (given : Data) : Prop where
  known : NamesKnown given
  once : NamesOnce given
  finite : ∀ u ∈ (Value.obj given).leaves, u.isFinite = true

/-- A patch is answered as the session is updated with the same fields. -/
structure PatchActs (s : Service) (l : LiveSession) (given : Data) (answered : Answer × Service) :
    Prop where
  /-- The session is left as the update leaves it. -/
  session : answered.2 = s.running { l with world := (l.world.update given).2 }
  /-- If the update succeeds, the answer is the new state. -/
  accepted : (l.world.update given).1 = .ok () →
    answered.1 = some (answerState 200 { l with world := (l.world.update given).2 })
  /-- If the update is refused, the session is as it was. The answer is 422, or there is a half of a
  character in the body and the report on it cannot be sent. -/
  refused : ∀ fault, (l.world.update given).1 = .error fault → (l.world.update given).2 = l.world ∧
    ((∃ r, answered.1 = some (.ok r) ∧ r.status = 422) ∨
      answered.1 = some (.error .brokenInput) ∧ ¬(Value.obj given).Plain)

variable {env : Environment} {s : Service} {l : LiveSession} {given : Data}

namespace PatchActs

/-- A patch that the state accepts acts as its update. -/
theorem of_accepted {v : World Twister} (h : l.world.update given = (.ok (), v)) :
    PatchActs s l given
      (some (answerState 200 { l with world := v }), s.running { l with world := v }) := by
  refine ⟨by rw [h], fun _ => by rw [h], fun fault hfault => ?_⟩
  rw [h] at hfault
  cases hfault

/-- A patch that the state refuses acts as its update, if it is answered 422 or could not be. -/
theorem of_refused {fault : Fault} (h : l.world.update given = (.error fault, l.world))
    {answer : Answer} (hanswer : (∃ r, answer = some (.ok r) ∧ r.status = 422) ∨
      answer = some (.error .brokenInput) ∧ ¬(Value.obj given).Plain) :
    PatchActs s l given (answer, s.running l) := by
  refine ⟨by rw [h], fun hok => ?_, fun _ _ => ⟨by rw [h], hanswer⟩⟩
  rw [h] at hok
  cases hok

variable {answered : Answer × Service}

/-- An answer 200 says that the update succeeds, and that the new state could be sent. -/
theorem succeeds_iff (h : PatchActs s l given answered) :
    (∃ r, answered.1 = some (.ok r) ∧ r.status = 200) ↔
      (l.world.update given).1 = .ok () ∧
        ((l.world.update given).2.state.toValue .letter).Sendable := by
  constructor
  · rintro ⟨r, hr, hstatus⟩
    have hok : (l.world.update given).1 = .ok () := by
      cases hanswer : (l.world.update given).1 with
      | ok => rfl
      | error fault =>
        rcases (h.refused fault hanswer).2 with ⟨other, hother, hrefused⟩ | ⟨hbroken, -⟩
        · rw [hother] at hr
          cases hr
          omega
        · rw [hbroken] at hr
          cases hr
    have hsend := (h.accepted hok).symm.trans hr
    exact ⟨hok, (send_eq_ok_iff.mp (Option.some.inj hsend)).1⟩
  · rintro ⟨hok, hsendable⟩
    exact ⟨_, (h.accepted hok).trans (congrArg some (send_eq_ok_iff.mpr ⟨hsendable, rfl⟩)), rfl⟩

/-- Without halves of characters, the answer is 200 or 422. -/
theorem of_plain (h : PatchActs s l given answered) (honce : NamesOnce given)
    (hgiven : (Value.obj given).Plain) (hstate : (l.world.state.toValue .letter).Sendable) :
    ∃ r, answered.1 = some (.ok r) ∧
      ((l.world.update given).1 = .ok () ∧ r.status = 200 ∨
        (∃ fault, (l.world.update given).1 = .error fault) ∧ r.status = 422) := by
  rcases l.world.update_cases given with ⟨v, hupdate⟩ | ⟨fault, hupdate⟩
  · have hok : (l.world.update given).1 = .ok () := congrArg Prod.fst hupdate
    obtain ⟨t, ht, rfl⟩ := World.update_eq_ok_iff.mp hupdate
    have hsendable : (t.toValue .letter).Sendable :=
      (replaces_of_update honce ht).sendable hstate hgiven.sendable
    have hstatus := h.succeeds_iff.mpr ⟨hok, by rw [hupdate]; exact hsendable⟩
    obtain ⟨r, hr, hstatus⟩ := hstatus
    exact ⟨r, hr, .inl ⟨hok, hstatus⟩⟩
  · have hfault : (l.world.update given).1 = .error fault := congrArg Prod.fst hupdate
    rcases (h.refused fault hfault).2 with ⟨r, hr, hstatus⟩ | ⟨-, hbroken⟩
    · exact ⟨r, hr, .inr ⟨⟨fault, hfault⟩, hstatus⟩⟩
    · exact absurd hgiven hbroken

end PatchActs

/-- What a check of a body reports is in the body. -/
theorem within_of_check_body {issues : List Issue}
    (h : Body.check patchFields (some (.obj given)) = .error issues) :
    ∀ i ∈ issues, i.input.Within (.obj given) :=
  (Shape.shows_check .notReadable patchShape (Document.patch.defaults_accepted .notReadable)
    (.obj given)).under (.key "body") issues h

/-- A body that is refused as a patch is refused as an update. -/
theorem exists_fault_of_check_body {issues : List Issue}
    (h : Body.check patchFields (some (.obj given)) = .error issues) (honce : NamesOnce given)
    (w : World Twister) : ∃ fault, w.update given = (.error fault, w) := by
  refine (w.update_cases given).resolve_left ?_
  rintro ⟨v, hv⟩
  have haccepts : Accepts given :=
    (World.update_ok_iff_accepts honce w).mp (congrArg Prod.fst hv)
  obtain ⟨patch, hpatch⟩ := exists_patch_of_accepts .notReadable haccepts
  have hok : Body.check patchFields (some (.obj given)) = .ok patch :=
    Checked.under_eq_ok.mpr hpatch
  rw [hok] at h
  cases h

/-- A patch that can be patched with acts as the update with the same fields. -/
theorem patchState_acts (s : Service) (l : LiveSession) (h : Patchable given) :
    PatchActs s l given (Service.given (s.patchState l (some (.obj given)))) := by
  cases hcheck : Body.check patchFields (some (.obj given)) with
  | error issues =>
    obtain ⟨fault, hupdate⟩ := exists_fault_of_check_body hcheck h.once l.world
    have hanswer : s.patchState l (some (.obj given)) = (Response.unfit issues, s.running l) := by
      simp only [patchState, hcheck]
    have hreport := Response.unfit_of_within (within_of_check_body hcheck) h.finite
    rw [hanswer]
    exact .of_refused hupdate (by simpa only [Option.some.injEq] using hreport)
  | ok patch =>
    have hpatch : patchFields.check .notReadable given = .ok patch :=
      Checked.under_eq_ok.mp hcheck
    rcases l.world.update_cases given with ⟨v, hupdate⟩ | ⟨fault, hupdate⟩
    · have hsent := World.update_sentFields h.once h.known hpatch hupdate
      have hanswer : s.patchState l (some (.obj given)) =
          (answerState 200 { l with world := v }, s.running { l with world := v }) := by
        simp only [patchState, hcheck, hsent]
        rfl
      rw [hanswer]
      exact .of_accepted hupdate
    · obtain ⟨issues, hsent⟩ := World.invalid_of_update_sentFields h.once h.known hpatch hupdate
      have hanswer : s.patchState l (some (.obj given)) =
          (.ok (.nulls issues.length), s.running l) := by
        simp only [patchState, hcheck, hsent]
      rw [hanswer]
      exact .of_refused hupdate (.inl ⟨_, rfl, rfl⟩)

/-- A null is no new value for a field. -/
theorem exists_fault_of_null (honce : NamesOnce given) (hnull : ∃ p ∈ given, p.2 = .null)
    (w : World Twister) : ∃ fault, (w.update given).1 = .error fault := by
  cases hanswer : (w.update given).1 with
  | error fault => exact ⟨fault, rfl⟩
  | ok =>
    obtain ⟨p, hp, hvalue⟩ := hnull
    obtain ⟨f, x, -, hread⟩ := (World.update_ok_iff_accepts honce w).mp hanswer p hp
    rw [hvalue] at hread
    exact (f.read_null x hread).elim

/-- A patch does what the update of the session with the fields of its body does. The session is
left as the update leaves it, and an update that succeeds is answered with the new state, so that
the answer is 200 exactly if the update succeeds and its state can be sent. A refused update, as
every one with a null is, leaves the session as it was. As long as neither the body nor the state
holds half a character, the answer is 200 if the update succeeds, and 422 if it is refused. -/
theorem patch_acts_as_update {body : Body} (hlive : s.current env = .ok l)
    (hbody : body.read = .ok (some (.obj given))) (hgiven : Patchable given) :
    PatchActs s l given (s.handle env .patchState body) ∧
    ((∃ r, (s.handle env .patchState body).1 = some (.ok r) ∧ r.status = 200) ↔
      (l.world.update given).1 = .ok () ∧
        ((l.world.update given).2.state.toValue .letter).Sendable) ∧
    ((∃ p ∈ given, p.2 = .null) → ∃ fault, (l.world.update given).1 = .error fault) ∧
    ((Value.obj given).Plain → (l.world.state.toValue .letter).Sendable →
      ∃ r, (s.handle env .patchState body).1 = some (.ok r) ∧
        ((l.world.update given).1 = .ok () ∧ r.status = 200 ∨
          (∃ fault, (l.world.update given).1 = .error fault) ∧ r.status = 422)) := by
  have hroute : s.handle env .patchState body =
      Service.given (s.patchState l (some (.obj given))) := by
    simp only [handle, Route.readsBody, if_true, hbody, answerRoute, answerWithSession, hlive]
  have hacts : PatchActs s l given (s.handle env .patchState body) :=
    hroute ▸ patchState_acts s l hgiven
  exact ⟨hacts, hacts.succeeds_iff, fun hnull => exists_fault_of_null hgiven.once hnull l.world,
    hacts.of_plain hgiven.once⟩

/-- A new level and an empty stock. -/
def restock : Data := [("playerLevel", .int 7), ("inventory", .list [])]

/-- A patch with a new level and an empty stock is accepted, and acts as the update. -/
theorem restock_acts_as_update :
    Patchable restock ∧ ∃ l, waking.current (fun _ => none) = .ok l ∧
      PatchActs waking l restock
        (waking.handle (fun _ => none) .patchState (.value (.obj restock))) ∧
      ∃ r, (waking.handle (fun _ => none) .patchState (.value (.obj restock))).1 = some (.ok r) ∧
        r.status = 200 := by
  have hgiven : Patchable restock :=
    { known := List.forall_mem_cons.mpr
        ⟨⟨.level, rfl⟩, List.forall_mem_singleton.mpr ⟨.inventory, rfl⟩⟩
      once := by decide
      finite := List.forall_mem_singleton.mpr rfl }
  obtain ⟨l, hlive, hok, hsendable⟩ : ∃ l, waking.current (fun _ => none) = .ok l ∧
      (l.world.update restock).1 = .ok () ∧
        ((l.world.update restock).2.state.toValue .letter).Sendable :=
    ⟨_, rfl, rfl, Value.sendable_iff.mpr rfl⟩
  have hbody : (Body.value (.obj restock)).read = .ok (some (.obj restock)) := rfl
  obtain ⟨hacts, hsucceeds, -, -⟩ := patch_acts_as_update hlive hbody hgiven
  exact ⟨hgiven, l, hlive, hacts, hsucceeds.mpr ⟨hok, hsendable⟩⟩

/-- Half a character, given as the level. -/
def halfLevel : Data := [("playerLevel", .str (Half.ofCodes [0xd800]))]

/-- Half a character, given as a flag. -/
def halfFlag : Data := [("flags", .obj [("rune", .str (Half.ofCodes [0xd800]))])]

/-- A level that is half a character is refused, and the report on it cannot be sent. As a flag it
is accepted, and neither the answer nor the state can be sent from then on. -/
theorem half_character_breaks_patch :
    Patchable halfLevel ∧ Patchable halfFlag ∧ ∃ l, waking.current (fun _ => none) = .ok l ∧
      (∃ fault, (l.world.update halfLevel).1 = .error fault) ∧
      (waking.handle (fun _ => none) .patchState (.value (.obj halfLevel))).1 =
        some (.error .brokenInput) ∧
      (l.world.update halfFlag).1 = .ok () ∧
      (waking.handle (fun _ => none) .patchState (.value (.obj halfFlag))).1 =
        some (.error .brokenText) ∧
      ((waking.handle (fun _ => none) .patchState (.value (.obj halfFlag))).2.handle
        (fun _ => none) .readState .absent).1 = some (.error .brokenText) := by
  have hlevel : Patchable halfLevel :=
    { known := List.forall_mem_singleton.mpr ⟨.level, rfl⟩
      once := by decide
      finite := List.forall_mem_singleton.mpr rfl }
  have hflag : Patchable halfFlag :=
    { known := List.forall_mem_singleton.mpr ⟨.flags, rfl⟩
      once := by decide
      finite := List.forall_mem_singleton.mpr rfl }
  exact ⟨hlevel, hflag, _, rfl, ⟨_, rfl⟩, rfl, rfl, rfl, rfl⟩

end Service

end MapEvents
