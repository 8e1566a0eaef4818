import PokerServer.Domain.Operations

/-!
# Room tasks

Model of `src/poker/application/room_manager.cpp`: what the task does that each call of
`RoomManager` posts, when a worker runs it. A task works on the room it captured, which may have
been closed since; `callback` says whether a non-empty callback was passed, and the result is what
the callback was given.

Six of the wrappers run their `Table` operation only as the argument of the callback (`errorTask`).
The calls `act`, `setConnected` and `onActionTimeout` run it first and report afterwards.
`applies_iff`: a call without a callback does what it stands for iff it is one of those three, or
`Table` refuses the operation.
-/

namespace PokerServer

/-- `RoomManager::Room`. -/
structure Room where
  table : Table
  closed : Bool := false

/-- What a callback is given. -/
inductive Reply where
  | error (error : TableError)
  | snapshot (error : TableError) (view : TableSnapshot)
  | action (result : ActionResult) (view audit : TableSnapshot)
  deriving DecidableEq

/-- The calls that post a task. -/
inductive RoomCall where
  | seatPlayer (player : PlayerId) (seat : Nat) (buyIn : Int)
  | removePlayer (player : PlayerId)
  | setReady (player : PlayerId) (ready : Bool)
  | startHand (deck : FullDeck)
  | startHandWithDeck (cards : List Card)
  | abortHand
  | act (expectedHandId : Nat) (command : ActionCommand)
  | setConnected (player : PlayerId) (connected : Bool)
  | snapshot (viewer : Option PlayerId)
  | auditSnapshot
  | onActionTimeout (player : PlayerId) (expectedServerSequence : Nat)

namespace Room

/-- `if (callback) callback(reply)`. -/
def report (callback : Bool) (reply : Reply) : Option Reply := if callback then some reply else none

/-- The task of a call with an `ErrorCallback`: the operation is the callback's argument. -/
def errorTask (op : TableOp) (callback : Bool) (room : Room) :
    Except Fault (Option Reply × Room) :=
  if room.closed then .ok (report callback (.error .serviceUnavailable), room)
  else if callback then do
    let (error, table) ← room.table.exec op
    return (some (.error error), { room with table := table })
  else .ok (none, room)

/-- The reply of a task that finds its room closed. -/
def closedAction (callback : Bool) : Option Reply :=
  report callback (.action { error := .serviceUnavailable, message := "table is closed" } {} {})

/-- The reply after an action. -/
def actionReply (callback : Bool) (player : PlayerId) (result : ActionResult) (table : Table) :
    Option Reply :=
  report callback (.action result (table.snapshot (some player)) table.auditSnapshot)

/-- The task of `RoomManager::act`. -/
def actTask (expectedHandId : Nat) (command : ActionCommand) (callback : Bool) (room : Room) :
    Except Fault (Option Reply × Room) :=
  if room.closed then .ok (closedAction callback, room)
  else do
    let before := room.table.snapshot (some command.playerId)
    let (result, table) ←
      if expectedHandId ≠ 0 ∧ before.handId ≠ expectedHandId then
        pure ({ error := .actionNotAllowed, message := "action belongs to a stale hand",
                serverSequence := before.serverSequence }, room.table)
      else room.table.act command
    return (actionReply callback command.playerId result table, { room with table := table })

/-- The task of `RoomManager::setConnected`. -/
def setConnectedTask (player : PlayerId) (connected callback : Bool) (room : Room) :
    Option Reply × Room :=
  if room.closed then (report callback (.snapshot .serviceUnavailable {}), room)
  else
    let (error, table) := room.table.setConnected player connected
    (report callback (.snapshot error (table.snapshot (some player))), { room with table := table })

/-- The task of `RoomManager::snapshot` and `RoomManager::auditSnapshot`. -/
def viewTask (view : Table → TableSnapshot) (callback : Bool) (room : Room) : Option Reply × Room :=
  if room.closed then (report callback (.snapshot .serviceUnavailable {}), room)
  else (report callback (.snapshot .ok (view room.table)), room)

/-- Whether a timeout is stale: the state moved on, or somebody else acts. -/
def staleTimeout (before : TableSnapshot) (player : PlayerId) (expectedServerSequence : Nat) :
    Bool :=
  (expectedServerSequence != 0 && before.serverSequence != expectedServerSequence)
    || before.actingPlayer != some player

/-- The action a timeout stands for: a check if nothing is owed, else a fold. -/
def timeoutCommand (before : TableSnapshot) (player : PlayerId) : ActionCommand :=
  let canCheck := (before.players.find? fun view => view.id == player).any fun view =>
    view.streetCommitment == before.currentBet
  { playerId := player, type := if canCheck then .check else .fold, amount := 0 }

/-- The task of `RoomManager::onActionTimeout`. -/
def onActionTimeoutTask (player : PlayerId) (expectedServerSequence : Nat) (callback : Bool)
    (room : Room) : Except Fault (Option Reply × Room) :=
  if room.closed then .ok (closedAction callback, room)
  else do
    let before := room.table.snapshot (some player)
    let (result, table) ←
      if staleTimeout before player expectedServerSequence then
        pure ({ error := .notPlayersTurn,
                message := "timeout is stale or no longer belongs to this player",
                serverSequence := before.serverSequence }, room.table)
      else room.table.act (timeoutCommand before player)
    return (actionReply callback player result table, { room with table := table })

/-- What a worker does with the task of a call. -/
def run (call : RoomCall) (callback : Bool) (room : Room) : Except Fault (Option Reply × Room) :=
  match call with
  | .seatPlayer player seat buyIn => errorTask (.seatPlayer player seat buyIn) callback room
  | .removePlayer player => errorTask (.removePlayer player) callback room
  | .setReady player ready => errorTask (.setReady player ready) callback room
  | .startHand deck => errorTask (.startHand deck) callback room
  | .startHandWithDeck cards => errorTask (.startHandWithDeck cards) callback room
  | .abortHand => errorTask .abortHand callback room
  | .act expectedHandId command => actTask expectedHandId command callback room
  | .setConnected player connected => .ok (setConnectedTask player connected callback room)
  | .snapshot viewer => .ok (viewTask (fun t => t.snapshot viewer) callback room)
  | .auditSnapshot => .ok (viewTask Table.auditSnapshot callback room)
  | .onActionTimeout player expectedServerSequence =>
    onActionTimeoutTask player expectedServerSequence callback room

end Room

/-! ## What a call stands for -/

namespace RoomCall

/-- The `Table` operation a call stands for on table `t`: none for a view, and none when the guard
of an action finds it stale. -/
def operation (t : Table) : RoomCall → Option TableOp
  | .seatPlayer player seat buyIn => some (.seatPlayer player seat buyIn)
  | .removePlayer player => some (.removePlayer player)
  | .setReady player ready => some (.setReady player ready)
  | .startHand deck => some (.startHand deck)
  | .startHandWithDeck cards => some (.startHandWithDeck cards)
  | .abortHand => some .abortHand
  | .act expectedHandId command =>
    if expectedHandId ≠ 0 ∧ t.handId ≠ expectedHandId then none else some (.act command)
  | .setConnected player connected => some (.setConnected player connected)
  | .snapshot _ | .auditSnapshot => none
  | .onActionTimeout player expectedServerSequence =>
    if Room.staleTimeout (t.snapshot (some player)) player expectedServerSequence then none
    else some (.act (Room.timeoutCommand (t.snapshot (some player)) player))

/-- The table the operation of a call leaves. -/
def result (t : Table) (call : RoomCall) : Except Fault Table :=
  match call.operation t with
  | none => .ok t
  | some op => (t.exec op).map Prod.snd

/-- The calls that run their operation whether or not there is a callback. -/
def runsFirst : RoomCall → Bool
  | .act .. | .setConnected .. | .onActionTimeout .. | .snapshot .. | .auditSnapshot => true
  | _ => false

/-- `Table` refuses the operation of a call. -/
def Refused (t : Table) (call : RoomCall) : Prop :=
  ∀ op e t', call.operation t = some op → t.exec op = .ok (e, t') → e ≠ .ok

end RoomCall

namespace Room

variable {room : Room} {call : RoomCall} {callback : Bool}

/-- The table a task leaves in an open room. -/
def tableAfter (call : RoomCall) (callback : Bool) (t : Table) : Except Fault Table :=
  (run call callback { table := t }).map fun r => r.2.table

theorem map_bind {α β γ : Type} (x : Except Fault α) (f : α → Except Fault β) (g : β → γ) :
    (x >>= f).map g = x >>= fun a => (f a).map g := by
  cases x <;> rfl

/-- With a callback every call runs its operation. -/
theorem tableAfter_of_callback (t : Table) : tableAfter call true t = call.result t := by
  unfold tableAfter RoomCall.result
  cases call with
  | act expectedHandId command =>
    simp only [run, actTask, RoomCall.operation, Bool.false_eq_true, if_false]
    rw [show (t.snapshot (some command.playerId)).handId = t.handId from rfl]
    split_ifs with hstale
    · rfl
    · simp only [Table.exec]
      cases t.act command <;> rfl
  | onActionTimeout player expectedServerSequence =>
    simp only [run, onActionTimeoutTask, RoomCall.operation, Bool.false_eq_true, if_false]
    split_ifs with hstale
    · rfl
    · simp only [Table.exec]
      cases t.act (timeoutCommand (t.snapshot (some player)) player) <;> rfl
  | seatPlayer player seat buyIn => rfl
  | removePlayer player => rfl
  | setReady player ready => rfl
  | setConnected player connected => rfl
  | abortHand => rfl
  | snapshot viewer => rfl
  | auditSnapshot => rfl
  | startHand deck =>
    simp only [run, errorTask, RoomCall.operation, Bool.false_eq_true, if_false, if_true]
    cases t.exec (.startHand deck) <;> rfl
  | startHandWithDeck cards =>
    simp only [run, errorTask, RoomCall.operation, Bool.false_eq_true, if_false, if_true]
    cases t.exec (.startHandWithDeck cards) <;> rfl

/-- A call that runs first leaves the same table with and without a callback. -/
theorem tableAfter_of_runsFirst (h : call.runsFirst = true) (t : Table) :
    tableAfter call false t = tableAfter call true t := by
  unfold tableAfter
  cases call with
  | act expectedHandId command =>
    simp only [run, actTask, Bool.false_eq_true, if_false]
    split_ifs <;> simp only [map_bind] <;> rfl
  | onActionTimeout player expectedServerSequence =>
    simp only [run, onActionTimeoutTask, Bool.false_eq_true, if_false]
    split_ifs <;> simp only [map_bind] <;> rfl
  | setConnected player connected => rfl
  | snapshot viewer => rfl
  | auditSnapshot => rfl
  | seatPlayer | removePlayer | setReady | startHand | startHandWithDeck | abortHand =>
    exact absurd h (by simp [RoomCall.runsFirst])

/-- The other calls do nothing without a callback. -/
theorem tableAfter_of_skipped (h : call.runsFirst = false) (t : Table) :
    tableAfter call false t = .ok t := by
  cases call <;> first | rfl | exact absurd h (by simp [RoomCall.runsFirst])

/-- A task that finds its room open leaves the table the operation of its call leaves. -/
def Applies (call : RoomCall) (callback : Bool) (t : Table) : Prop :=
  ∀ t', call.result t = .ok t' → tableAfter call callback t = .ok t'

/-- In a reachable state an operation is refused iff it leaves the table as it was. -/
theorem refused_iff_unchanged {config : TableConfig} {t t' : Table} {op : TableOp}
    {e : TableError} (hr : Reaches Table.Steps (Table.new config) t)
    (h : t.exec op = .ok (e, t')) : e ≠ .ok ↔ t' = t := by
  by_cases hc : config.validateConfig = .ok
  · rcases Table.exec_sequence (Table.reach_inv hc hr) h with ⟨hne, heq⟩ | ⟨heq, hlt⟩
    · exact iff_of_true hne heq
    · exact iff_of_false (not_not.mpr heq) fun hsame => absurd (hsame ▸ hlt) (Nat.lt_irrefl _)
  · -- nothing ever happens at a table with an invalid configuration
    have hnew : t = Table.new config := hr.invariant (I := fun t => t = Table.new config) rfl
      fun a l b ha hs => by
        subst ha
        exact (Table.exec_new_invalid hc hs).2
    subst hnew
    exact iff_of_true (Table.exec_new_invalid hc h).1 (Table.exec_new_invalid hc h).2

theorem result_of_operation {t : Table} {op : TableOp} (h : call.operation t = some op) :
    call.result t = (t.exec op).map Prod.snd := by
  unfold RoomCall.result
  rw [h]

/-- **When a call does what it stands for**: for every call, every reachable table and all
arguments, iff it has a callback, or runs its operation first, or `Table` refuses. -/
theorem applies_iff {config : TableConfig} {t : Table}
    (hr : Reaches Table.Steps (Table.new config) t) :
    Applies call callback t ↔ callback = true ∨ call.runsFirst = true ∨ call.Refused t := by
  constructor
  · intro happ
    by_cases hcb : callback = true
    · exact Or.inl hcb
    by_cases hfirst : call.runsFirst = true
    · exact Or.inr (Or.inl hfirst)
    refine Or.inr (Or.inr fun op e t' hop hexec => ?_)
    rw [Bool.not_eq_true] at hcb hfirst
    have hsame := happ t' (by rw [result_of_operation hop, hexec]; rfl)
    rw [hcb, tableAfter_of_skipped hfirst, Except.ok.injEq] at hsame
    exact (refused_iff_unchanged hr hexec).mpr hsame.symm
  · intro hcond t' hres
    cases hcb : callback with
    | true => rw [tableAfter_of_callback, hres]
    | false =>
      by_cases hfirst : call.runsFirst = true
      · rw [tableAfter_of_runsFirst hfirst, tableAfter_of_callback, hres]
      · have hrefused := (hcond.resolve_left (by rw [hcb]; decide)).resolve_left hfirst
        rw [tableAfter_of_skipped (Bool.not_eq_true _ ▸ hfirst), Except.ok.injEq]
        cases hop : call.operation t with
        | none =>
          unfold RoomCall.result at hres
          rw [hop] at hres
          exact Except.ok.inj hres
        | some op =>
          rw [result_of_operation hop] at hres
          cases hexec : t.exec op with
          | error f => rw [hexec] at hres; exact absurd hres (by simp [Except.map])
          | ok r =>
            obtain ⟨e, u⟩ := r
            rw [hexec] at hres
            have hu : u = t := (refused_iff_unchanged hr hexec).mp (hrefused op e u hop hexec)
            rw [← hu]
            exact Except.ok.inj hres

/-- Two players ready at a table with the default configuration, and a hand between them. -/
def headsUp : List TableOp :=
  [.seatPlayer 1 0 2000, .seatPlayer 2 1 2000, .setReady 1 true, .setReady 2 true,
    .startHandWithDeck orderedDeck]

/-- A timeout of the dealer folds without a callback as well. -/
theorem timeout_applies :
    ∃ t, Reaches Table.Steps (Table.new {}) t ∧ t.street = .preflop ∧
      Applies (.onActionTimeout 1 0) false t := by
  have hcheck : (replay Table.perform (Table.new {}) headsUp).any (fun r =>
      decide (r.2.street = .preflop)) = true := by
    decide +kernel
  obtain ⟨⟨trace, t⟩, hr, hc⟩ := (Option.any_eq_true _ _).mp hcheck
  have hreach : Reaches Table.Steps (Table.new {}) t := ⟨trace, Table.run_of_replay hr⟩
  exact ⟨t, hreach, of_decide_eq_true hc, (applies_iff hreach).mpr (Or.inr (Or.inl rfl))⟩

/-- `abortHand` with an empty callback, the rollback of a hand start, leaves the hand running. -/
theorem abort_skipped :
    ∃ t t', Reaches Table.Steps (Table.new {}) t ∧ t.street = .preflop ∧
      RoomCall.result t .abortHand = .ok t' ∧ t'.street = .waiting ∧
      tableAfter .abortHand true t = .ok t' ∧ tableAfter .abortHand false t = .ok t ∧
      ¬ Applies .abortHand false t := by
  have hcheck : (replay Table.perform (Table.new {}) headsUp).any (fun r =>
      decide (r.2.street = .preflop ∧ r.2.abortHand.2.street = .waiting)) = true := by
    decide +kernel
  obtain ⟨⟨trace, t⟩, hr, hc⟩ := (Option.any_eq_true _ _).mp hcheck
  rw [decide_eq_true_eq] at hc
  refine ⟨t, t.abortHand.2, ⟨trace, Table.run_of_replay hr⟩, hc.1, rfl, hc.2, rfl, rfl, ?_⟩
  intro happ
  have hsame : t = t.abortHand.2 := Except.ok.inj (happ t.abortHand.2 rfl)
  have hstreet := hc.2
  rw [← hsame, hc.1] at hstreet
  exact absurd hstreet (by decide)

end Room

end PokerServer
