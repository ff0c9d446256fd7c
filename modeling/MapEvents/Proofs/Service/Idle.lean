import MapEvents.Proofs.Schema.Halves
import MapEvents.Service.Basic
/-!
# Requests that leave the session alone

A request that only looks, or whose body is refused, leaves the session as it was: whatever comes
after it is answered as if it had not been there. This holds although such a request may be the one
that starts the session, because a session that has answered nothing yet is what the next request
would start. What the clock of a session shows between two requests does not count, since each
request sets it.

An answer that shows the state of the session shows what the next request to read the state is
answered.
-/

namespace MapEvents

/-- The session when its clock shows this. -/
def LiveSession.withClock (l : LiveSession) (clock : Clock) : LiveSession :=
  { l with world := l.world.turnTo clock }

/-- The sessions differ at most in what their clocks show, and a request does not see it. -/
def LiveSession.SameButClock (l m : LiveSession) : Prop :=
  ∀ clock, l.withClock clock = m.withClock clock

namespace Service

/-! ## Requests one after another -/

/-- A request as it arrives. -/
structure Arrival where
  /-- What the clock shows then. -/
  clock : Clock
  route : Route
  body : Body

/-- The answer to a request; none if a chain never ends. -/
abbrev Answer := Option (Except Fault Response)

/-- Answers a request that arrives. -/
def meet (s : Service) (env : Environment) (a : Arrival) : Answer × Service :=
  ({ s with clock := a.clock }).handle env a.route a.body

/-- Answers requests one after another. -/
def serve (s : Service) (env : Environment) : List Arrival → List (Arrival × Answer)
  | [] => []
  | a :: rest => (a, (s.meet env a).1) :: (s.meet env a).2.serve env rest

/-- The route only looks: at nothing, at the state, or at an event. -/
def Looks (route : Route) : Prop :=
  route = .healthcheck ∨ route = .info ∨ route = .readState ∨ route = .reviewEvent

/-- The request only looks, or it is refused. -/
def Idle (a : Arrival) (answer : Answer) : Prop :=
  Looks a.route ∨ ∃ r, answer = some (.ok r) ∧ r.status = 422

/-- The second list is the first one without some of the idle requests. -/
inductive Thinned : List (Arrival × Answer) → List (Arrival × Answer) → Prop
  | nil : Thinned [] []
  | keep (e : Arrival × Answer) {all kept : List (Arrival × Answer)} (h : Thinned all kept) :
    Thinned (e :: all) (e :: kept)
  | drop {e : Arrival × Answer} {all kept : List (Arrival × Answer)} (hidle : Idle e.1 e.2)
    (h : Thinned all kept) : Thinned (e :: all) kept

/-! ## The session that requests find -/

/-- The session that a request finds when the clock shows this. -/
def session (s : Service) (env : Environment) (clock : Clock) : Except Fault LiveSession :=
  (s.current env).map (·.withClock clock)

/-- Requests find the same in both services. -/
structure Alike (env : Environment) (s t : Service) : Prop where
  entropy : s.entropy = t.entropy
  horizon : s.horizon = t.horizon
  session : ∀ clock, s.session env clock = t.session env clock

variable {env : Environment} {s t u : Service} {l m : LiveSession}

/-- Without recent entries it does not matter which clock was there before. -/
theorem turnTo_of_recent_eq_zero {w : World Twister} (h : w.recent = 0) (clock : Clock) :
    w.turnTo clock = { w with clock } := by
  simp only [World.turnTo, h, ite_self]

/-- A new session has no recent entries. -/
theorem newSession_withClock (s : Service) (settings : Settings) (state : GameState)
    (clock : Clock) :
    (s.newSession settings state).withClock clock =
      ({ s with clock }).newSession settings state := by
  have hrecent : (s.newSession settings state).world.recent = 0 := by simp only [newSession]
  simp only [LiveSession.withClock, turnTo_of_recent_eq_zero hrecent]
  simp only [newSession]

namespace Alike

/-- Requests find the same in a service as in itself. -/
theorem refl (s : Service) : Alike env s s := ⟨rfl, rfl, fun _ => rfl⟩

/-- It does not matter which of the two services comes first. -/
theorem symm (h : Alike env s t) : Alike env t s :=
  ⟨h.entropy.symm, h.horizon.symm, fun clock => (h.session clock).symm⟩

/-- What requests find in a third service passes over the second. -/
theorem trans (hst : Alike env s t) (htu : Alike env t u) : Alike env s u :=
  ⟨hst.entropy.trans htu.entropy, hst.horizon.trans htu.horizon,
    fun clock => (hst.session clock).trans (htu.session clock)⟩

/-- What the clock of a service shows does not count, also if its session is still to be started. -/
theorem setClock (s : Service) (clock : Clock) : Alike env { s with clock } s := by
  refine ⟨rfl, rfl, fun now => ?_⟩
  obtain ⟨live, -, entropy, horizon⟩ := s
  cases live with
  | some l => rfl
  | none =>
    simp only [Service.session, current, start]
    cases Settings.read env with
    | error cause => rfl
    | ok settings =>
      simp only [Except.map, newSession_withClock]

/-- Starting the session now makes no difference to what requests find. -/
theorem running (h : s.current env = .ok l) : Alike env (s.running l) s := by
  refine ⟨rfl, rfl, fun clock => ?_⟩
  rw [Service.session, Service.session, h]
  rfl

/-- Requests find the same whatever the clock of the session shows. -/
theorem running_of_sameButClock (s : Service) (h : l.SameButClock m) :
    Alike env (s.running l) (s.running m) :=
  ⟨rfl, rfl, fun clock => congrArg Except.ok (h clock)⟩

end Alike

/-! ## Answers do not depend on more -/

/-- A reply does not depend on which session the service had, nor on what the clock of the session
shows. -/
structure Steady (reply : Service → LiveSession → Answer × Service) : Prop where
  live : ∀ s live l, reply { s with live } l = reply s l
  answer : ∀ s {l m : LiveSession}, l.SameButClock m → (reply s l).1 = (reply s m).1
  alike : ∀ env s {l m : LiveSession}, l.SameButClock m → Alike env (reply s l).2 (reply s m).2

/-- The clock is no part of the game state. -/
theorem state_of_sameButClock (h : l.SameButClock m) : l.world.state = m.world.state :=
  congrArg (·.world.state) (h l.world.clock)

theorem answerState_of_sameButClock (h : l.SameButClock m) (status : Nat) :
    answerState status l = answerState status m := by
  rw [answerState, answerState, state_of_sameButClock h]

/-- A request to read the state does not depend on more than the state. -/
theorem steady_readState : Steady fun s l => (some (answerState 200 l), s.running l) :=
  ⟨fun _ _ _ => rfl, fun _ _ _ h => congrArg some (answerState_of_sameButClock h 200),
    fun _ s _ _ h => .running_of_sameButClock s h⟩

/-- An update is the same whatever the clock shows, before it or after it. -/
theorem update_turnTo (given : Data) (w : World Twister) (clock : Clock) :
    (w.turnTo clock).update given = ((w.update given).1, (w.update given).2.turnTo clock) := by
  have hstate : (w.turnTo clock).state = w.state := rfl
  unfold World.update
  rw [hstate]
  cases w.state.update given with
  | error fault => rfl
  | ok state =>
    simp only [World.turnTo, Prod.mk.injEq, World.mk.injEq, true_and, and_true]
    split <;> split <;> rfl

/-- An update of sessions that differ in their clocks has one result, and they differ in no more
after it. -/
theorem update_of_sameButClock (h : l.SameButClock m) (given : Data) :
    (l.world.update given).1 = (m.world.update given).1 ∧
      LiveSession.SameButClock { l with world := (l.world.update given).2 }
        { m with world := (m.world.update given).2 } := by
  have hupdate : ∀ clock,
      (l.world.turnTo clock).update given = (m.world.turnTo clock).update given :=
    fun clock => congrArg (fun l : LiveSession => l.world.update given) (h clock)
  simp only [update_turnTo, Prod.mk.injEq] at hupdate
  have hsession : l.session = m.session := congrArg (·.session) (h l.world.clock)
  refine ⟨(hupdate l.world.clock).1, fun clock => ?_⟩
  simp only [LiveSession.withClock, hsession, (hupdate clock).2]

/-- A patch does not depend on what the clock shows, whether it is refused or accepted. -/
theorem steady_patchState (body : Option Value) :
    Steady fun s l => given (s.patchState l body) := by
  have hsame : ∀ (s : Service) {l m : LiveSession}, l.SameButClock m →
      (s.patchState l body).1 = (s.patchState m body).1 ∧
        ∀ env, Alike env (s.patchState l body).2 (s.patchState m body).2 := by
    intro s l m h
    unfold patchState
    cases Body.check GameState.patchFields body with
    | error issues => exact ⟨rfl, fun env => .running_of_sameButClock s h⟩
    | ok patch =>
      simp only
      generalize GameState.sentFields _ patch = sent
      obtain ⟨hresult, hafter⟩ := update_of_sameButClock h sent
      rcases hl : l.world.update sent with ⟨_ | ⟨⟩, v⟩ <;>
        rcases hm : m.world.update sent with ⟨_ | ⟨⟩, w⟩ <;> rw [hl, hm] at hresult hafter
      · next fault _ =>
        obtain rfl := Except.error.inj hresult
        cases fault <;> exact ⟨rfl, fun env => .running_of_sameButClock s h⟩
      · cases hresult
      · cases hresult
      · exact ⟨answerState_of_sameButClock hafter 200,
          fun env => .running_of_sameButClock (s.running l) hafter⟩
  exact ⟨fun _ _ _ => rfl, fun s _ _ h => congrArg some (hsame s h).1,
    fun env s _ _ h => (hsame s h).2 env⟩

/-- Work of a session is done by the clock of the service. -/
theorem perform_of_sameButClock {α : Type} (h : l.SameButClock m) (s : Service)
    (work : Session Twister → Task (World Twister) (Except Fault α))
    (reply : α → World Twister → Value) : s.perform l work reply = s.perform m work reply := by
  have hsession : l.session = m.session := congrArg (·.session) (h s.clock)
  have hworld : l.world.turnTo s.clock = m.world.turnTo s.clock := congrArg (·.world) (h s.clock)
  simp only [perform, hsession, hworld]

/-- Work of a session gives the same reply whatever session the service had and its clock showed. -/
theorem steady_perform {α : Type} (work : Session Twister → Task (World Twister) (Except Fault α))
    (reply : α → World Twister → Value) : Steady fun s l => s.perform l work reply := by
  refine ⟨fun _ _ _ => rfl, fun s l m h => ?_, fun env s l m h => ?_⟩
  · rw [perform_of_sameButClock h]
  · rw [perform_of_sameButClock h]
    exact .refl _

/-- A refused body does not depend on the session. -/
theorem steady_unfit (issues : List Issue) :
    Steady fun s l => (some (Response.unfit issues), s.running l) :=
  ⟨fun _ _ _ => rfl, fun _ _ _ _ => rfl, fun _ s _ _ h => .running_of_sameButClock s h⟩

theorem steady_executeEvent (body : Option Value) :
    Steady fun s l => s.executeEvent l body := by
  unfold executeEvent
  cases (Body.check executeFields body).map ExecuteRequest.ofData with
  | error issues => exact steady_unfit issues
  | ok r => exact steady_perform _ _

theorem steady_dispatchTrigger (body : Option Value) :
    Steady fun s l => s.dispatchTrigger l body := by
  unfold dispatchTrigger
  cases (Body.check dispatchFields body).map DispatchRequest.ofData with
  | error issues => exact steady_unfit issues
  | ok r => exact steady_perform _ _

/-- Alike services are given the same sessions up to their clocks. -/
theorem Alike.current (h : Alike env s t) :
    (∃ fault, s.current env = .error fault ∧ t.current env = .error fault) ∨
      ∃ l m, s.current env = .ok l ∧ t.current env = .ok m ∧ l.SameButClock m := by
  have hsession := h.session
  unfold Service.session at hsession
  cases hs : s.current env <;> cases ht : t.current env <;> simp only [hs, ht] at hsession
  · exact .inl ⟨_, rfl, congrArg _ (Except.error.inj (hsession s.clock)).symm⟩
  · cases hsession s.clock
  · cases hsession s.clock
  · exact .inr ⟨_, _, rfl, rfl, fun clock => Except.ok.inj (hsession clock)⟩

/-- Alike services whose clocks show the same differ only in their sessions. -/
theorem Alike.eq_withLive (h : Alike env s t) (hclock : s.clock = t.clock) :
    t = { s with live := t.live } := by
  obtain ⟨_, _, _, _⟩ := s
  obtain ⟨_, _, _, _⟩ := t
  obtain ⟨hentropy, hhorizon, -⟩ := h
  simp_all

/-- Alike services give the same answer to a request that is steady, and are alike after it. -/
theorem Alike.answerWithSession (h : Alike env s t) (hclock : s.clock = t.clock)
    {reply : Service → LiveSession → Answer × Service} (hreply : Steady reply) :
    (s.answerWithSession env (reply s)).1 = (t.answerWithSession env (reply t)).1 ∧
      Alike env (s.answerWithSession env (reply s)).2 (t.answerWithSession env (reply t)).2 := by
  unfold Service.answerWithSession
  rcases h.current with ⟨fault, hs, ht⟩ | ⟨l, m, hs, ht, hsame⟩
  · rw [hs, ht]
    exact ⟨rfl, h⟩
  · rw [hs, ht]
    have hlive : reply t m = reply s m := by
      rw [h.eq_withLive hclock]
      exact hreply.live s t.live m
    simp only [hlive]
    exact ⟨hreply.answer s hsame, hreply.alike env s hsame⟩

/-- Alike services answer the same when a session is started, and are alike after it. -/
theorem Alike.startSession (h : Alike env s t) (hclock : s.clock = t.clock) (body : Option Value) :
    (s.startSession env body).1 = (t.startSession env body).1 ∧
      Alike env (s.startSession env body).2 (t.startSession env body).2 := by
  have hstart : ∀ state, t.start env state = s.start env state := by
    intro state
    rw [h.eq_withLive hclock]
    rfl
  unfold Service.startSession
  cases Body.check GameState.fields body with
  | error issues => exact ⟨rfl, h⟩
  | ok d =>
    simp only [hstart]
    cases s.start env (GameState.ofData d) with
    | error fault => exact ⟨rfl, h⟩
    | ok l => exact ⟨rfl, h.entropy, h.horizon, fun _ => rfl⟩

/-- Services in which requests find the same give the same answer to a request, and requests find
the same in them after it. -/
theorem Alike.handle (h : Alike env s t) (hclock : s.clock = t.clock) (route : Route)
    (body : Body) :
    (s.handle env route body).1 = (t.handle env route body).1 ∧
      Alike env (s.handle env route body).2 (t.handle env route body).2 := by
  have hroute : ∀ v, (s.answerRoute env route v).1 = (t.answerRoute env route v).1 ∧
      Alike env (s.answerRoute env route v).2 (t.answerRoute env route v).2 := by
    intro v
    cases route with
    | healthcheck => exact ⟨rfl, h⟩
    | info => exact ⟨rfl, h⟩
    | reviewEvent => exact ⟨rfl, h⟩
    | startSession =>
      obtain ⟨hanswer, halike⟩ := h.startSession hclock v
      exact ⟨congrArg some hanswer, halike⟩
    | readState => exact h.answerWithSession hclock steady_readState
    | patchState => exact h.answerWithSession hclock (steady_patchState v)
    | executeEvent => exact h.answerWithSession hclock (steady_executeEvent v)
    | dispatchTrigger => exact h.answerWithSession hclock (steady_dispatchTrigger v)
  unfold Service.handle
  split
  · split
    · exact ⟨rfl, h⟩
    · exact ⟨rfl, h⟩
    · exact hroute _
  · exact hroute none

/-- Alike services give the same answer to a request that arrives, and are alike after it. -/
theorem Alike.meet (h : Alike env s t) (a : Arrival) :
    (s.meet env a).1 = (t.meet env a).1 ∧ Alike env (s.meet env a).2 (t.meet env a).2 := by
  have hset : Alike env { s with clock := a.clock } { t with clock := a.clock } :=
    (Alike.setClock s a.clock).trans (h.trans (Alike.setClock t a.clock).symm)
  exact hset.handle rfl a.route a.body

/-! ## What a request does to the session -/

/-- The state that the body of an answer shows. -/
def shownState : Route → Value → Option Value
  | .startSession, body => some body
  | .patchState, body => some body
  | .executeEvent, .obj fields => Fields.find? "state" fields
  | .dispatchTrigger, .obj fields => Fields.find? "state" fields
  | _, _ => none

/-- The answer shows what a request to read the state of the session is answered. -/
def Shows (route : Route) (r : Response) (l : LiveSession) : Prop :=
  ∃ body, shownState route r.body = some body ∧ answerState 200 l = .ok ⟨200, body⟩

/-- How a request ends: refused, with the session as it was, or with a session that its answer shows
if there is one. -/
inductive Ends (env : Environment) (s : Service) (route : Route) : Answer × Service → Prop
  | refused {answer : Answer} {t : Service}
    (hanswer : ∀ r, answer = some (.ok r) → r.status ≠ 200 ∧ r.status ≠ 201)
    (h : Alike env t s) : Ends env s route (answer, t)
  | acted {answer : Answer} (l : LiveSession)
    (hanswer : ∀ r, answer = some (.ok r) →
      (r.status = 200 ∨ r.status = 201) ∧ Shows route r l) :
    Ends env s route (answer, s.running l)

/-- A value is sent exactly if it can be, and as its texts are sent. -/
theorem send_eq_ok_iff {status : Nat} {v : Value} {r : Response} :
    Response.send status v = .ok r ↔ v.Sendable ∧ r = ⟨status, v.sent⟩ := by
  rw [Value.sendable_iff, Response.send]
  cases v.leaves.any Value.isBroken <;> simp [eq_comm]

/-- A body that does not fit is answered 422, if it can be answered at all. -/
theorem status_of_unfit {issues : List Issue} {r : Response}
    (h : Response.unfit issues = .ok r) : r.status = 422 := by
  simp only [Response.unfit] at h
  split at h
  · cases h
  · split at h
    · cases h
    · cases h
      rfl

/-- A request that is answered so is refused. -/
theorem Ends.unfit (route : Route) (issues : List Issue) (h : Alike env t s) :
    Ends env s route (some (Response.unfit issues), t) := by
  refine .refused (fun r hr => ?_) h
  rw [status_of_unfit (Option.some.inj hr)]
  decide

/-- An answer with the state alone shows it. -/
theorem shows_of_answerState {status : Nat} {l : LiveSession} {r : Response}
    (h : answerState status l = .ok r) :
    r.status = status ∧ answerState 200 l = .ok ⟨200, r.body⟩ := by
  obtain ⟨hleaves, rfl⟩ := send_eq_ok_iff.mp h
  exact ⟨rfl, send_eq_ok_iff.mpr ⟨hleaves, rfl⟩⟩

/-- A request for a new session is refused or starts one that its answer shows. -/
theorem ends_startSession (s : Service) (body : Option Value) :
    Ends env s .startSession (given (s.startSession env body)) := by
  unfold given startSession
  cases Body.check GameState.fields body with
  | error issues => exact .unfit _ issues (.refl s)
  | ok d =>
    cases hstart : s.start env (GameState.ofData d) with
    | error fault =>
      simp only [hstart]
      exact .refused (by simp) (.refl s)
    | ok l =>
      simp only [hstart]
      refine .acted l fun r hr => ?_
      obtain ⟨hstatus, hbody⟩ := shows_of_answerState (Option.some.inj hr)
      exact ⟨.inr hstatus, r.body, rfl, hbody⟩

/-- A patch is refused, or its answer shows the patched state. -/
theorem ends_patchState (h : s.current env = .ok l) (body : Option Value) :
    Ends env s .patchState (given (s.patchState l body)) := by
  unfold given patchState
  cases Body.check GameState.patchFields body with
  | error issues => exact .unfit _ issues (.running h)
  | ok patch =>
    simp only
    rcases l.world.update _ with ⟨_ | ⟨⟩, w⟩
    · next fault =>
      cases fault with
      | invalid issues => exact .refused (by simp [Response.nulls]) (.running h)
      | _ => exact .refused (by simp) (.running h)
    · refine .acted { l with world := w } fun r hr => ?_
      obtain ⟨hstatus, hbody⟩ := shows_of_answerState (Option.some.inj hr)
      exact ⟨.inl hstatus, r.body, rfl, hbody⟩

/-- Work of a session ends with an answer that shows the state of the session, if the reply to it
does. -/
theorem ends_perform {α : Type} {route : Route}
    {work : Session Twister → Task (World Twister) (Except Fault α)}
    {reply : α → World Twister → Value}
    (hreply : ∀ a w r, Response.send 200 (reply a w) = .ok r →
      Shows route r { l with world := w }) :
    Ends env s route (s.perform l work reply) := by
  unfold perform
  rcases (work l.session).run (l.world.turnTo s.clock) with ⟨_ | _ | a, w⟩
  · exact .acted { l with world := w } (by simp)
  · exact .acted { l with world := w } (by simp)
  · refine .acted { l with world := w } fun r hr => ?_
    have hsend := Option.some.inj hr
    exact ⟨.inl ((send_eq_ok_iff.mp hsend).2 ▸ rfl), hreply a w r hsend⟩

/-- A state that is sent as a part of an object can be sent alone. -/
theorem answerState_of_send {status : Nat} {fields : Data} {r : Response}
    (h : Response.send status (.obj fields) = .ok r)
    (hmem : ("state", l.world.state.toValue .letter) ∈ fields) :
    answerState 200 l = .ok ⟨200, (l.world.state.toValue .letter).sent⟩ := by
  have hwhole : (Value.obj fields).Sendable := (send_eq_ok_iff.mp h).1
  exact send_eq_ok_iff.mpr ⟨Value.sendable_obj.mp hwhole _ hmem, rfl⟩

/-- The answer to an execution shows the state after it. -/
theorem shows_of_executedValue {o : Outcome} {trail : List Phase} {r : Response}
    (h : Response.send 200 (executedValue o trail l.world.state) = .ok r) :
    Shows .executeEvent r l := by
  obtain ⟨result, steps, hvalue⟩ : ∃ result steps, executedValue o trail l.world.state =
      .obj [("result", result), ("trail", steps), ("state", l.world.state.toValue .letter)] :=
    ⟨_, _, rfl⟩
  rw [hvalue] at h
  refine ⟨_, ?_, answerState_of_send h (by simp)⟩
  obtain ⟨-, rfl⟩ := send_eq_ok_iff.mp h
  rfl

theorem shows_of_dispatchedValue {os : List (String × Outcome)} {r : Response}
    (h : Response.send 200 (dispatchedValue os l.world.state) = .ok r) :
    Shows .dispatchTrigger r l := by
  obtain ⟨outcomes, hvalue⟩ : ∃ outcomes, dispatchedValue os l.world.state =
      .obj [("outcomes", outcomes), ("state", l.world.state.toValue .letter)] :=
    ⟨_, rfl⟩
  rw [hvalue] at h
  refine ⟨_, ?_, answerState_of_send h (by simp)⟩
  obtain ⟨-, rfl⟩ := send_eq_ok_iff.mp h
  rfl

/-- An execution is refused, or its answer shows the state after it. -/
theorem ends_executeEvent (h : s.current env = .ok l) (body : Option Value) :
    Ends env s .executeEvent (s.executeEvent l body) := by
  unfold executeEvent
  cases (Body.check executeFields body).map ExecuteRequest.ofData with
  | error issues => exact .unfit _ issues (.running h)
  | ok r =>
    refine ends_perform fun o w response hsend => ?_
    exact shows_of_executedValue (l := { l with world := w }) hsend

theorem ends_dispatchTrigger (h : s.current env = .ok l) (body : Option Value) :
    Ends env s .dispatchTrigger (s.dispatchTrigger l body) := by
  unfold dispatchTrigger
  cases (Body.check dispatchFields body).map DispatchRequest.ofData with
  | error issues => exact .unfit _ issues (.running h)
  | ok r =>
    refine ends_perform fun os w response hsend => ?_
    exact shows_of_dispatchedValue (l := { l with world := w }) hsend

/-- A request that does not only look is refused or acts. -/
theorem ends_handle (s : Service) {route : Route} (hroute : ¬Looks route) (body : Body) :
    Ends env s route (s.handle env route body) := by
  have hsession : ∀ {route : Route} {reply : LiveSession → Answer × Service},
      (∀ l, s.current env = .ok l → Ends env s route (reply l)) →
        Ends env s route (s.answerWithSession env reply) := by
    intro route reply hreply
    unfold answerWithSession
    cases hcurrent : s.current env with
    | error fault => exact .refused (by simp) (.refl s)
    | ok l => exact hreply l hcurrent
  have hanswer : ∀ v, Ends env s route (s.answerRoute env route v) := by
    intro v
    cases route with
    | startSession => exact ends_startSession s v
    | patchState => exact hsession fun l hl => ends_patchState hl v
    | executeEvent => exact hsession fun l hl => ends_executeEvent hl v
    | dispatchTrigger => exact hsession fun l hl => ends_dispatchTrigger hl v
    | _ => exact absurd (by simp [Looks]) hroute
  unfold handle
  split
  · split
    · exact .refused (by simp [Response.unreadable]) (.refl s)
    · exact .unfit _ _ (.refl s)
    · exact hanswer _
  · exact hanswer none

/-! ## Idle requests -/

/-- A request that only looks leaves what requests find. -/
theorem alike_of_looks {a : Arrival} (h : Looks a.route) : Alike env (s.meet env a).2 s := by
  have hset : Alike env { s with clock := a.clock } s := .setClock s a.clock
  obtain ⟨clock, route, body⟩ := a
  unfold meet handle
  rcases h with rfl | rfl | rfl | rfl
  · exact hset
  · exact hset
  · show Alike env (answerWithSession _ env _).2 s
    unfold answerWithSession
    cases hcurrent : ({ s with clock } : Service).current env with
    | error fault => exact hset
    | ok l => exact (Alike.running hcurrent).trans hset
  · simp only [Route.readsBody, if_true]
    cases body.read with
    | error refusal => cases refusal <;> exact hset
    | ok v => exact hset

/-- An idle request leaves what requests find: one that is answered 422 was refused before it could
act. -/
theorem Idle.alike {a : Arrival} (h : Idle a (s.meet env a).1) : Alike env (s.meet env a).2 s := by
  by_cases hlooks : Looks a.route
  · exact alike_of_looks hlooks
  · obtain ⟨r, hr, hstatus⟩ := h.resolve_left hlooks
    have hends : Ends env { s with clock := a.clock } a.route (s.meet env a) :=
      ends_handle _ hlooks a.body
    generalize s.meet env a = p at hr hends
    cases hends with
    | refused _ halike => exact halike.trans (.setClock s a.clock)
    | acted l hanswer =>
      have := (hanswer r hr).1
      omega

/-- Without some of the idle requests, the others are answered the same, by any service in which
requests find the same. -/
theorem serve_of_thinned {arrivals : List Arrival} {kept : List (Arrival × Answer)}
    (h : Thinned (s.serve env arrivals) kept) (hst : Alike env s t) :
    t.serve env (kept.map (·.1)) = kept := by
  induction arrivals generalizing s t kept with
  | nil =>
    cases h
    rfl
  | cons a rest ih =>
    cases h with
    | keep _ h =>
      obtain ⟨hanswer, halike⟩ := hst.meet a
      rw [List.map_cons, serve, ← hanswer, ih h halike]
    | drop hidle h => exact ih h ((Idle.alike hidle).trans hst)

/-- Requests that only look, and requests that are refused, leave the session as it was, and without
any of them the others are answered the same. The state in an answer to a request that acted is what
a request to read the state is answered right after it. -/
theorem idle_requests_leave_no_trace (env : Environment) (s : Service) :
    (∀ a, Idle a (s.meet env a).1 →
      ∀ clock, (s.meet env a).2.session env clock = s.session env clock) ∧
    (∀ arrivals kept, Thinned (s.serve env arrivals) kept →
      s.serve env (kept.map (·.1)) = kept) ∧
    (∀ a r, ¬Looks a.route → (s.meet env a).1 = some (.ok r) → r.status = 200 ∨ r.status = 201 →
      ∃ state, shownState a.route r.body = some state ∧
        ∀ clock body, ((s.meet env a).2.meet env ⟨clock, .readState, body⟩).1 =
          some (.ok ⟨200, state⟩)) := by
  refine ⟨fun a h => (Idle.alike h).session, fun arrivals kept h => serve_of_thinned h (.refl s),
    fun a r hlooks hr hstatus => ?_⟩
  have hends : Ends env { s with clock := a.clock } a.route (s.meet env a) :=
    ends_handle _ hlooks a.body
  generalize s.meet env a = p at hr hends
  cases hends with
  | refused hanswer _ =>
    have := hanswer r hr
    omega
  | acted l hanswer =>
    obtain ⟨state, hshown, hread⟩ := (hanswer r hr).2
    exact ⟨state, hshown, fun clock body => congrArg some hread⟩

/-- A new service. -/
def waking : Service := { live := none, clock := .start, entropy := 0, horizon := 100 }

/-- Looks at the state, which starts the session. -/
def glance : Arrival := ⟨.start, .readState, .absent⟩

/-- Raises the level. -/
def promote : Arrival := ⟨.start, .patchState, .value (.obj [("playerLevel", .int 7)])⟩

/-- Sends a null, which is refused. -/
def unset : Arrival := ⟨.start, .patchState, .value (.obj [("flags", .null)])⟩

/-- A glance at the state and a refused patch around a promotion leave no trace, and the promotion
shows the state that is read after it. -/
theorem glance_and_unset_leave_no_trace :
    (∀ clock, (waking.meet (fun _ => none) glance).2.session (fun _ => none) clock =
      waking.session (fun _ => none) clock) ∧
    (∃ kept, Thinned (waking.serve (fun _ => none) [glance, promote, unset]) kept ∧
      kept.length = 1 ∧ waking.serve (fun _ => none) (kept.map (·.1)) = kept) ∧
    ∃ r state, (waking.meet (fun _ => none) promote).1 = some (.ok r) ∧ r.status = 200 ∧
      shownState .patchState r.body = some state ∧
      ((waking.meet (fun _ => none) promote).2.meet (fun _ => none) glance).1 =
        some (.ok ⟨200, state⟩) := by
  obtain ⟨halike, hthin, hshown⟩ := idle_requests_leave_no_trace (fun _ => none) waking
  have hglance : Looks glance.route := .inr (.inr (.inl rfl))
  have hpromote : ¬Looks promote.route := by simp [Looks, promote]
  have hthinned : Thinned (waking.serve (fun _ => none) [glance, promote, unset]) _ :=
    .drop (.inl hglance) (.keep _ (.drop (.inr ⟨_, rfl, rfl⟩) .nil))
  obtain ⟨r, hr, hstatus⟩ : ∃ r, (waking.meet (fun _ => none) promote).1 = some (.ok r) ∧
      r.status = 200 := ⟨_, rfl, rfl⟩
  obtain ⟨state, hstate, hread⟩ := hshown promote r hpromote hr (.inl hstatus)
  exact ⟨halike glance (.inl hglance), ⟨_, hthinned, rfl, hthin _ _ hthinned⟩,
    r, state, hr, hstatus, hstate, hread .start .absent⟩

end Service

end MapEvents
