import MapEvents.Event.Shape
import MapEvents.Proofs.Schema.RoundTrip
import MapEvents.Proofs.State.Valid
/-!
# Documents of the editor

The editor keeps game states, events and their parts, and it sends patches of a state. `Document`
names these kinds of data. All of them have proper shapes, so that a document that was read, with
its defaults filled in, is written in a form that is read as the same document, and writing it once
more gives the same form. Nothing is lost on the way: neither the kind of a flag, nor the offset or
the microseconds of a stamp, nor what an absent field counted as.
-/

namespace MapEvents

/-- A kind of data that the editor keeps or sends. -/
inductive Document where
  | item
  | position
  | entry
  | state
  | patch
  | condition
  | policy
  | trigger
  | branch
  | action
  | place
  | event
  deriving DecidableEq

namespace Document

/-- Fields of a document. -/
abbrev record : Document → Record
  | item => Item.record
  | position => Position.record
  | entry => HistoryEntry.record
  | state => GameState.fields
  | patch => GameState.patchFields
  | condition => Condition.record
  | policy => RepeatPolicy.record
  | trigger => Trigger.record
  | branch => Branch.record
  | action => Action.record
  | place => Event.placeRecord
  | event => Event.record

/-- Shape of a document. -/
abbrev shape (d : Document) : Shape := .record d.record

/-- What is written of a document can be told apart, whichever document it is. -/
theorem proper_shape (d : Document) : d.shape.Proper := by
  cases d <;>
    simp [Shape.Proper, Record.Proper, Record.names, Shape.NeverNull, Leaf.Proper] <;> decide

/-- A document that was read is read back from what is written for it, in either style of writing
UTC, and what is written stays the same from then on. So is a game state that is kept as such. -/
theorem read_back (style : UtcStyle) :
    (∀ (d : Document) (v : Value) (x : d.shape.Of), d.shape.read v = .ok x →
      d.shape.read (d.shape.dump style x) = .ok x ∧
        (d.shape.read (d.shape.dump style x)).map (d.shape.dump style) =
          .ok (d.shape.dump style x)) ∧
    ∀ (v : Value) (s : GameState), GameState.read v = .ok s →
      GameState.read (s.toValue style) = .ok s := by
  refine ⟨fun d v x h => ?_, fun v s h => ?_⟩
  · have hsound : d.shape.Sound x := Shape.sound_of_check .notRecord d.shape h
    have hback : d.shape.read (d.shape.dump style x) = .ok x :=
      Shape.check_dump .notRecord style d.shape d.proper_shape x hsound
    exact ⟨hback, by rw [hback]; rfl⟩
  · exact (GameState.read_toValue_iff style).mpr (GameState.valid_of_read h)

/-- A state with flags of several kinds and a stamp of a leap day, half an hour off the full one. -/
def campfire : Value :=
  .obj
    [("flags",
        .obj [("lit", .bool true), ("logs", .int 1), ("name", .str "1"), ("guest", .null)]),
      ("player_level", .str " 7 "), ("time", .float .nan),
      ("eventHistory", .list
        [.obj
          [("event_id", .str "dusk"), ("timestamp", .str "2024-02-29 23:59:59.25+0530"),
            ("result", .str "success")]])]

/-- The campfire is read, and what is written of it is read back. -/
theorem campfire_read_back :
    (∃ x, state.shape.read campfire = .ok x ∧
      state.shape.read (state.shape.dump .letter x) = .ok x) ∧
    ∃ s, GameState.read campfire = .ok s ∧ GameState.read (s.toValue .letter) = .ok s := by
  obtain ⟨x, hx⟩ : ∃ x, state.shape.read campfire = .ok x := ⟨_, rfl⟩
  obtain ⟨s, hs⟩ : ∃ s, GameState.read campfire = .ok s := ⟨_, rfl⟩
  have hback := read_back .letter
  exact ⟨⟨x, hx, (hback.1 state campfire x hx).1⟩, s, hs, hback.2 campfire s hs⟩

end Document

end MapEvents
