import MapEvents.Event.Basic
import MapEvents.State.Basic
/-!
# Repeat policies

A repeat policy decides from the history of an event whether it may fire again; every entry counts,
whatever its outcome. The daily policy compares calendar days in the zone of the session clock,
which fails for an entry whose stamp cannot be moved to that zone. Entries that were stamped since
the clock was last set are in its zone already; they are the last ones of the history, and `recent`
is their number.
-/

namespace MapEvents.RepeatPolicy

/-- Wall-clock reading of a stamp in the zone of the clock. -/
def localReading (clock : Clock) (isRecent : Bool) (stamp : Moment) : Except Fault Reading :=
  if isRecent then .ok stamp.reading else stamp.readingAt clock.offset

/-- Whether an entry of the event falls on the day that the clock shows; entries are looked at in
order, up to the first that does. -/
def firedToday (event : String) (clock : Clock) (recent : Nat) :
    List HistoryEntry → Except Fault Bool
  | [] => .ok false
  | h :: rest =>
    if h.event = event then
      match localReading clock (rest.length < recent) h.stamp with
      | .error fault => .error fault
      | .ok r => if r.date = clock.today then .ok true else firedToday event clock recent rest
    else
      firedToday event clock recent rest

/-- Whether the policy lets the event fire. -/
def allows (p : RepeatPolicy) (event : String) (history : List HistoryEntry) (recent : Nat)
    (clock : Clock) : Except Fault Bool :=
  let count := HistoryEntry.countOf event history
  match p.kind with
  | .once => .ok (count = 0)
  | .count =>
    match p.maxCount with
    | none => .ok true
    | some n => .ok (n = 0 || (count : Int) < n)
  | .daily => (firedToday event clock recent history).map (!·)
  | .always => .ok true
  | .custom => .ok true

end MapEvents.RepeatPolicy

namespace MapEvents.Event

/-- Whether the event's repeat policy, if it has one, lets it fire. -/
def mayRepeat (e : Event) (history : List HistoryEntry) (recent : Nat) (clock : Clock) :
    Except Fault Bool :=
  match e.trigger.policy with
  | none => .ok true
  | some p => p.allows e.id history recent clock

end MapEvents.Event
