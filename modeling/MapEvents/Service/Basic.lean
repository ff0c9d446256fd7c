import MapEvents.Calendar.Span
import MapEvents.Random.Twister
import MapEvents.Review.Checks
import MapEvents.Service.Response
import MapEvents.Service.Route
import MapEvents.Service.Shape
import MapEvents.Session.Execute
import MapEvents.Settings
/-!
# The service

The service keeps one session and answers requests. A session is started by a request of its own, or
with a new game by the first request that needs one; its settings are read when it starts. Its
random source is seeded by the settings, its host agrees to everything, and custom conditions and
branches always hold.

A request whose body does not fit is answered 422 with every issue, and one whose body cannot be
read is answered 400; both leave the state alone. A refused setting, a fault outside the actions of
an event, and an answer that cannot be sent are faults of the request. What the request did to the
state before its answer could not be sent is kept.
-/

namespace MapEvents

/-- A session that the service runs. -/
structure LiveSession where
  session : Session Twister
  world : World Twister

/-- The service: its session, once there is one, its clock, and what is fixed for all sessions. -/
structure Service where
  live : Option LiveSession
  clock : Clock
  /-- Seed of sessions whose settings give none. -/
  entropy : Int
  /-- Steps after which a chain without limit counts as endless. -/
  horizon : Nat

/-- Texts by name, from which settings are read. -/
abbrev Environment := String → Option String

namespace Service

/-- What the sessions of the service rely on. -/
def surroundings : Surroundings Twister :=
  { draw := Twister.draw
    hook := none
    resolver := none
    host := fun _ => .done (.ok .null) }

/-- A session with these settings and this state. -/
def newSession (s : Service) (settings : Settings) (state : GameState) : LiveSession :=
  { session :=
      { player := ⟨surroundings, Registry.standard, s.horizon⟩
        stepLimit := settings.maxChainSteps
        timeLimit := settings.chainTimeout }
    world :=
      { state
        clock := s.clock
        recent := 0
        journal := []
        execution := none
        outside := Twister.ofSeed (settings.seed.getD s.entropy) } }

/-- The session with a new game or the given state, unless a setting is refused. -/
def start (s : Service) (env : Environment) (state : GameState) : Except Fault LiveSession :=
  match Settings.read env with
  | .ok settings => .ok (s.newSession settings state)
  | .error cause => .error (.setting cause)

/-- The session in use; the first request that needs one starts it. -/
def current (s : Service) (env : Environment) : Except Fault LiveSession :=
  match s.live with
  | some l => .ok l
  | none => s.start env .initial

/-- The service with its session in this state. -/
def running (s : Service) (l : LiveSession) : Service := { s with live := some l }

/-- Answers with the state of a session. -/
def answerState (status : Nat) (l : LiveSession) : Except Fault Response :=
  Response.send status (l.world.state.toValue .letter)

/-- Starts a session with the state in the body. -/
def startSession (s : Service) (env : Environment) (body : Option Value) :
    Except Fault Response × Service :=
  match Body.check GameState.fields body with
  | .error issues => (Response.unfit issues, s)
  | .ok d =>
    match s.start env (GameState.ofData d) with
    | .error fault => (.error fault, s)
    | .ok l => (answerState 201 l, s.running l)

/-- Replaces the fields of the state that the body sends. -/
def patchState (s : Service) (l : LiveSession) (body : Option Value) :
    Except Fault Response × Service :=
  let s := s.running l
  match Body.check GameState.patchFields body with
  | .error issues => (Response.unfit issues, s)
  | .ok patch =>
    let sent := match body with
      | some (.obj given) => given
      | _ => []
    match l.world.update (GameState.sentFields sent patch) with
    | (.ok (), world) =>
      let l := { l with world }
      (answerState 200 l, s.running l)
    | (.error (.invalid issues), _) =>
      (.ok (.nulls issues.length), s)
    | (.error fault, _) => (.error fault, s)

/-- Runs work of the session to its end, by the clock of the service; a chain that never ends gives
no answer. -/
def perform {α : Type} (s : Service) (l : LiveSession)
    (work : Session Twister → Task (World Twister) (Except Fault α))
    (reply : α → World Twister → Value) : Option (Except Fault Response) × Service :=
  match (work l.session).run (l.world.turnTo s.clock) with
  | (none, world) => (none, s.running { l with world })
  | (some (.error fault), world) => (some (.error fault), s.running { l with world })
  | (some (.ok a), world) => (some (Response.send 200 (reply a world)), s.running { l with world })

/-- Executes the event in the body. -/
def executeEvent (s : Service) (l : LiveSession) (body : Option Value) :
    Option (Except Fault Response) × Service :=
  match (Body.check executeFields body).map ExecuteRequest.ofData with
  | .error issues => (some (Response.unfit issues), s.running l)
  | .ok r =>
    s.perform l (·.execute r.event r.data) fun o w =>
      executedValue o ((w.execution.map (·.trail)).getD []) w.state

/-- Fires the trigger in the body. -/
def dispatchTrigger (s : Service) (l : LiveSession) (body : Option Value) :
    Option (Except Fault Response) × Service :=
  match (Body.check dispatchFields body).map DispatchRequest.ofData with
  | .error issues => (some (Response.unfit issues), s.running l)
  | .ok r =>
    s.perform l (·.dispatch r.events r.kind r.data) fun os w => dispatchedValue os w.state

/-- Reviews the event in the body. -/
def reviewEvent (body : Option Value) : Except Fault Response :=
  match (Body.check Event.record body).map Event.ofData with
  | .error issues => Response.unfit issues
  | .ok e => Response.send 200 e.review.toValue

/-- Answers a request for a session's state or for a change of it. -/
def answerWithSession (s : Service) (env : Environment)
    (reply : LiveSession → Option (Except Fault Response) × Service) :
    Option (Except Fault Response) × Service :=
  match s.current env with
  | .error fault => (some (.error fault), s)
  | .ok l => reply l

/-- An answer that is always there. -/
def given (r : Except Fault Response × Service) : Option (Except Fault Response) × Service :=
  (some r.1, r.2)

/-- Answers a request whose body, if it has one, could be read. -/
def answerRoute (s : Service) (env : Environment) (route : Route) (body : Option Value) :
    Option (Except Fault Response) × Service :=
  match route with
  | .healthcheck => (some (.ok ⟨200, .obj [("status", .str "ok")]⟩), s)
  | .info =>
    (some (.ok ⟨200, .obj [("name", .str "dungeon-event-engine"), ("version", .str "0.1.0")]⟩), s)
  | .startSession => given (s.startSession env body)
  | .readState => s.answerWithSession env fun l => (some (answerState 200 l), s.running l)
  | .patchState => s.answerWithSession env fun l => given (s.patchState l body)
  | .executeEvent => s.answerWithSession env fun l => s.executeEvent l body
  | .dispatchTrigger => s.answerWithSession env fun l => s.dispatchTrigger l body
  | .reviewEvent => (some (reviewEvent body), s)

/-- Answers a request; a chain that never ends gives no answer. -/
def handle (s : Service) (env : Environment) (route : Route) (body : Body) :
    Option (Except Fault Response) × Service :=
  if route.readsBody then
    match body.read with
    | .error .unreadable => (some (.ok .unreadable), s)
    | .error (.unfit issues) => (some (Response.unfit issues), s)
    | .ok v => s.answerRoute env route v
  else s.answerRoute env route none

/-- The service with its clock moved. -/
def advance (s : Service) (amounts : Data) : Except Fault Service :=
  (s.clock.advance amounts).map fun clock => { s with clock }

end Service

end MapEvents
