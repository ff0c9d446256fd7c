import MapEvents.Proofs.Session.Quota
import MapEvents.Proofs.State.Valid
/-!
# Valid states over any run

A session with the standard actions keeps its state valid, up to the items that the actions of its
events drain: whatever is executed, fired, patched and updated, in any order of turns, all counts
stay whole, and only a drained item may get a negative one. The state is read back from the value
that stands for it exactly if no count is negative. An event whose action adds a negative number of
an item that is there brings a valid state to one that is refused when it is read.
-/

namespace MapEvents

variable {σ : Type} {drained : String → Prop}

/-! ## What drains an item -/

/-- The standard action of this tag adds a negative number of this item. -/
def Action.Drains (a : Action) (id : String) : Prop :=
  ∃ std : StandardAction, std.tag = a.type ∧ std.Drains a.params id

/-- An action of the event drains the item. -/
def Event.Drains (e : Event) (id : String) : Prop := ∃ a ∈ e.actions, a.Drains id

/-- An event that the call may run drains the item. -/
def Call.Drains (c : Call) (id : String) : Prop := ∃ e ∈ c.events, e.Drains id

/-- The call drains no other items. -/
def Call.DrainsOnly (drained : String → Prop) (c : Call) : Prop := ∀ id, c.Drains id → drained id

/-! ## Worlds that stay valid -/

namespace World

/-- The state is valid but for drained items, and the offset of the clock is less than a day. -/
structure ValidUpTo (drained : String → Prop) (w : World σ) : Prop where
  state : w.state.ValidUpTo drained
  clock : w.clock.offset.natAbs < 1440

/-- The second world is valid if the first one is. -/
def StaysValid (drained : String → Prop) (w v : World σ) : Prop :=
  w.ValidUpTo drained → v.ValidUpTo drained

theorem StaysValid.of_eq {w v : World σ} (hstate : v.state = w.state) (hclock : v.clock = w.clock) :
    w.StaysValid drained v :=
  fun h => ⟨hstate ▸ h.state, hclock ▸ h.clock⟩

/-- Chains may do what stays valid. -/
theorem staysValid_admits : Admits (StaysValid drained : World σ → World σ → Prop) :=
  ⟨fun _ h => h, fun _ _ _ huv hvw h => hvw (huv h), fun _ _ => .of_eq rfl rfl,
    fun _ _ => .of_eq rfl rfl⟩

/-- An entry of the history is stamped by the clock. -/
theorem record_staysValid (event : String) (o : Outcome) (w : World σ) :
    w.StaysValid drained (w.record event o) := by
  intro h
  refine ⟨⟨h.state.counts, fun e he => ?_⟩, h.clock⟩
  rcases List.mem_append.mp he with he | he
  · exact h.state.stamps e he
  · obtain rfl := List.mem_singleton.mp he
    intro minutes hminutes
    cases hminutes
    exact h.clock

/-- An update keeps the state valid, since it is checked as a whole. -/
theorem update_staysValid (given : Data) (w : World σ) :
    w.StaysValid drained (w.update given).2 := by
  unfold update
  split
  · next state hstate => exact fun h => ⟨h.state.update hstate, h.clock⟩
  · exact fun h => h

end World

/-! ## What the calls do -/

/-- Standard actions keep the state valid but for the items that they drain. -/
theorem Registry.standard_obeys {a : Action} (ha : ∀ id, a.Drains id → drained id) :
    (standard : Registry σ).Obeys (World.StaysValid drained) a := by
  intro handler hhandler
  obtain ⟨std, -, hstd⟩ := List.mem_map.mp (Fields.mem_of_find? hhandler)
  obtain ⟨htag, rfl⟩ := Prod.mk.inj hstd
  intro w h
  exact ⟨std.perform_validUpTo a.params (fun id hid => ha id ⟨std, htag, hid⟩) h.state, h.clock⟩

namespace Session

variable {s : Session σ}

/-- The end of an execution keeps the state valid. -/
theorem conclude_staysValid (event : Event) (r : Except Fault Outcome) (w : World σ) :
    w.StaysValid drained (conclude event r w).2 := by
  cases r with
  | ok o => exact fun h => World.record_staysValid event.id o (w.showing _) ⟨h.state, h.clock⟩
  | error fault => exact .of_eq rfl rfl

/-- An execution keeps the state valid but for the items that its actions drain. -/
theorem execute_obeys (hregistry : s.player.registry = .standard) {event : Event}
    (hevent : ∀ id, event.Drains id → drained id) (data : Data) :
    (s.execute event data).Obeys (World.StaysValid drained) := by
  have hactions : ∀ a ∈ event.actions, s.player.registry.Obeys (World.StaysValid drained) a := by
    intro a ha
    rw [hregistry]
    exact Registry.standard_obeys fun id hid => hevent id ⟨a, ha, hid⟩
  refine Task.Obeys.andThen (.step fun w => ?_) fun refused => ?_
  · have hchecks := screen_afterChecks s event w
    exact .of_eq hchecks.state hchecks.clock
  · cases refused with
    | some o => trivial
    | none =>
      refine (runActions_obeys hactions World.staysValid_admits data).bind fun r => ?_
      exact (Task.Obeys.step fun w => conclude_staysValid event r w).map _

/-- Several executions keep the state valid but for the items that their actions drain. -/
theorem executeAll_obeys (hregistry : s.player.registry = .standard) {events : List Event}
    (hevents : ∀ e ∈ events, ∀ id, e.Drains id → drained id) (data : Data) :
    (s.executeAll data events).Obeys (World.StaysValid drained) := by
  induction events with
  | nil => trivial
  | cons event rest ih =>
    have hrest := ih fun e he => hevents e (List.mem_cons_of_mem event he)
    refine (execute_obeys hregistry (hevents event List.mem_cons_self) data).andThen fun o => ?_
    exact hrest.andThen fun os => trivial

/-- A call keeps the state valid but for the items that it drains. -/
theorem work_obeys (hregistry : s.player.registry = .standard) {call : Call}
    (hcall : call.DrainsOnly drained) : (call.work s).Obeys (World.StaysValid drained) := by
  have hevents : ∀ e ∈ call.events, ∀ id, e.Drains id → drained id :=
    fun e he id hid => hcall id ⟨e, he, hid⟩
  cases call with
  | execute event data =>
    exact (execute_obeys hregistry (hevents event List.mem_cons_self) data).map _
  | dispatch events kind data => exact (executeAll_obeys hregistry hevents data).map _
  | patch given =>
    refine .step fun w => ?_
    rw [Call.patchState_world]
    exact World.update_staysValid given w
  | update given => exact .step fun w => World.update_staysValid given w

/-! ## Reachable states -/

/-- Whatever is started for calls keeps the state valid but for the items that they drain. -/
theorem starts_obeys (hregistry : s.player.registry = .standard) {exclusive : Bool}
    {t : Task (World σ) (Except Fault Reply)} (h : s.Starts (Call.DrainsOnly drained) exclusive t) :
    t.Obeys (World.StaysValid drained) := by
  rcases h.cases with ⟨call, hcall, -, rfl⟩ | ⟨-, fault, rfl⟩
  · exact work_obeys hregistry hcall
  · trivial

/-- From a state that was read, calls in any order and any number lead only to states that are valid
up to the items that they drain: counts are whole, and negative only of drained items. Such a state
is read back as it is from the value that stands for it, unless a count is negative; if nothing is
drained, it always is. Meanwhile others may do whatever leaves the world as valid as it was. Hook
and resolver look at the game state and never write it. -/
theorem reachable_state_valid (hregistry : s.player.registry = .standard) {saved : Value}
    {w v : World σ} (hread : GameState.read saved = .ok w.state)
    (hclock : w.clock.offset.natAbs < 1440) (drained : String → Prop)
    {c : Calls (World σ) (Except Fault Reply)}
    (h : Calls.Reaches (s.Starts (Call.DrainsOnly drained)) (World.StaysValid drained) (.empty, w)
      (c, v)) :
    v.state.ValidUpTo drained ∧
      (∀ style, GameState.read (v.state.toValue style) = .ok v.state ↔
        ∀ i ∈ v.state.inventory, ∀ n : Int, i.count = .whole n → 0 ≤ n) ∧
      ((∀ id, ¬drained id) → ∀ style, GameState.read (v.state.toValue style) = .ok v.state) := by
  have hstart : w.ValidUpTo drained :=
    ⟨(GameState.valid_of_read hread).validUpTo drained, hclock⟩
  have hrules : Calls.Rules (s.Starts (Call.DrainsOnly drained))
      (World.StaysValid drained : World σ → World σ → Prop) (World.ValidUpTo drained) :=
    .of_obeys (fun _ h => h) (fun huv hvw h => hvw (huv h)) (fun _ _ hv hw => hv hw)
      fun _ _ ht => starts_obeys hregistry ht
  have hend := (h.sound hrules (.empty hstart)).world
  refine ⟨hend.state, fun style => ?_, fun hnone style => ?_⟩
  · exact (GameState.read_toValue_iff style).trans hend.state.valid_iff
  · exact (GameState.read_toValue_iff style).mpr (hend.state.mono hnone)

/-! ## Samples -/

/-- A session with the standard actions. -/
def equipped : Session Unit :=
  { idle with player := { Player.idle with registry := .standard } }

/-- An event that adds less than nothing of an item. -/
def leak : Event :=
  { Event.blank with
    id := "leak"
    actions := [⟨"1", "item", [("operation", .str "add"), ("itemId", .str "potion"),
      ("count", .int (-3))], none, none, []⟩] }

/-- A saved game with one potion. -/
def onePotion : Value :=
  .obj [("inventory", .list [.obj [("id", .str "potion"), ("name", .str "Potion"),
    ("count", .int 1)]])]

/-- The saved game, loaded. -/
def holding : World Unit :=
  { World.fresh with
    state := { GameState.initial with inventory := [⟨"potion", "Potion", .whole 1⟩] } }

/-- The event is executed, and the level is changed. -/
def leaking : List (Except Fault Call) :=
  [.ok (.execute leak []), .ok (.update [("playerLevel", .int 3)])]

theorem read_onePotion : GameState.read onePotion = .ok holding.state := by
  decide +kernel

/-- After a leak, which adds less than nothing of an item, the state is valid but for this item. -/
theorem reachable_state_valid_leaking :
    equipped.player.registry = .standard ∧ GameState.read onePotion = .ok holding.state ∧
      holding.clock.offset.natAbs < 1440 ∧
      (equipped.gather leaking holding).2.state.ValidUpTo fun id => id = "potion" := by
  have hleak : ∀ id, leak.Drains id → id = "potion" := by
    rintro id ⟨a, ha, std, htag, hdrains⟩
    obtain rfl := List.mem_singleton.mp ha
    cases std with
    | item => exact hdrains.2.1.symm
    | _ => exact absurd htag (by decide)
  have hallowed : ∀ call, .ok call ∈ leaking → call.DrainsOnly fun id => id = "potion" := by
    intro call hcall id
    obtain rfl | rfl : call = .execute leak [] ∨ call = .update [("playerLevel", .int 3)] := by
      simpa [leaking] using hcall
    · rintro ⟨e, he, hid⟩
      obtain rfl := List.mem_singleton.mp he
      exact hleak id hid
    · rintro ⟨e, he, -⟩
      cases he
  obtain ⟨c, hreaches⟩ := equipped.gather_reaches hallowed
    (World.StaysValid fun id => id = "potion") holding
  have hclock : holding.clock.offset.natAbs < 1440 := by decide
  exact ⟨rfl, read_onePotion, hclock,
    (reachable_state_valid rfl read_onePotion hclock _ hreaches).1⟩

/-- An execution of one event, with the standard actions alone, leaves a state that was read with a
negative count, and the state that it leaves is not read back. -/
theorem leak_spoils_state :
    GameState.read onePotion = .ok holding.state ∧
      ((equipped.execute leak []).run holding).1 = some (.ok .success) ∧
      ((equipped.execute leak []).run holding).2.state.inventory =
        [⟨"potion", "Potion", .whole (-2)⟩] ∧
      ∀ style, GameState.read (((equipped.execute leak []).run holding).2.state.toValue style) ≠
        .ok ((equipped.execute leak []).run holding).2.state := by
  have hinventory : ((equipped.execute leak []).run holding).2.state.inventory =
      [⟨"potion", "Potion", .whole (-2)⟩] := rfl
  refine ⟨read_onePotion, rfl, hinventory, fun style hback => ?_⟩
  have hvalid := (GameState.read_toValue_iff style).mp hback
  obtain ⟨n, hn, hneg⟩ := hvalid.counts ⟨"potion", "Potion", .whole (-2)⟩
    (hinventory ▸ List.mem_singleton_self _)
  obtain rfl : -2 = n := Number.whole.inj hn
  exact hneg (by decide)

end Session

end MapEvents
