import PokerServer.Application.RoomExecutor
import PokerServer.Application.RoomManager
import PokerServer.Domain.Integrity
import PokerServer.Lib.Runs
import PokerServer.Storage.InMemoryGameStore

/-!
# Rooms and their executor

Model of `src/poker/application/room_manager.cpp` around the tasks: the rooms by table id, the
executor, and the calls that other threads are in the middle of.

* A room is shared by everybody who has found it, so it is an index into `instances`, which only
  grows; `rooms` says which instance a table id stands for now.
* A call first looks up its room (`found`, or `missing`, which answers at once), then posts its task
  (`post`, accepted or refused; a refusal answers at once). A worker runs the front task of its
  shard as one step (`work`).
* Callbacks are not empty; `answered` lists the replies they were given, with the number of the
  call.
* A task that evaluates a card outside the enumerations has no defined behaviour and no step
  (`work_or_uncounted`).
-/

namespace PokerServer

/-- A task in a queue: the number of its call, the table it was posted for, the room it captured. -/
structure PostedTask where
  call : Nat
  table : TableId
  room : Nat
  op : RoomCall

structure Rooms where
  rooms : Dict TableId Nat := ∅
  instances : List Room := []
  executor : RoomExecutor PostedTask
  calls : Nat := 0
  looked : List PostedTask := []
  answered : List (Nat × Reply) := []

/-- The reply of a call that does not reach its table. -/
def RoomCall.refuse (op : RoomCall) (error : TableError) (message : String) : Reply :=
  match op with
  | .act .. | .onActionTimeout .. => .action { error, message } {} {}
  | .setConnected .. | .snapshot _ | .auditSnapshot => .snapshot error {}
  | _ => .error error

def Reply.code : Reply → TableError
  | .error e => e
  | .snapshot e _ => e
  | .action result _ _ => result.error

namespace Rooms

def findRoom (r : Rooms) (table : TableId) : Option Nat := r.rooms.lookup table

/-- `RoomManager::createTable`. -/
def createTable (r : Rooms) (table : TableId) (config : TableConfig) : TableError × Rooms :=
  if table = 0 then (.invalidConfiguration, r)
  else if (r.findRoom table).isSome then (.seatOccupied, r)
  else
    (.ok, { r with
      rooms := r.rooms.insert table r.instances.length
      instances := r.instances ++ [{ table := Table.new config }] })

/-- `RoomManager::closeTable`. -/
def closeTable (r : Rooms) (table : TableId) : Bool × Rooms :=
  match r.findRoom table with
  | none => (false, r)
  | some i =>
    (true, { r with
      rooms := r.rooms.erase table
      instances := r.instances.modify i fun room => { room with closed := true } })

/-- A call that finds no room: `rejectMissingRoom`. -/
def rejectMissing (r : Rooms) (op : RoomCall) : Rooms :=
  { r with
    calls := r.calls + 1
    answered := r.answered ++ [(r.calls, op.refuse .playerNotFound "table does not exist")] }

/-- A call that has found its room. -/
def look (r : Rooms) (table : TableId) (room : Nat) (op : RoomCall) : Rooms :=
  { r with calls := r.calls + 1, looked := r.looked ++ [⟨r.calls, table, room, op⟩] }

/-- A call that has found its room posts its task. -/
def post (r : Rooms) (before after : List PostedTask) (task : PostedTask) : Bool × Rooms :=
  let (accepted, executor) := r.executor.post task.table task
  (accepted, { r with
    executor := executor
    looked := before ++ after
    answered :=
      if accepted then r.answered
      else r.answered ++
        [(task.call, task.op.refuse .serviceUnavailable "room executor is overloaded")] })

/-- What a worker leaves when the task it took gave `reply` and left `room`. -/
def finish (r : Rooms) (executor : RoomExecutor PostedTask) (task : PostedTask)
    (reply : Option Reply)
    (room : Room) : Rooms :=
  { r with
    executor := executor
    instances := r.instances.set task.room room
    answered := r.answered ++ reply.toList.map fun reply => (task.call, reply) }

end Rooms

/-- What happens to the rooms. -/
inductive RoomsEvent where
  | createTable (table : TableId) (error : TableError)
  | closeTable (table : TableId) (found : Bool)
  | missing (call : Nat)
  | found (task : PostedTask)
  | post (task : PostedTask) (accepted : Bool)
  | work (task : PostedTask) (reply : Option Reply)
  | stop (shard : Nat)

open Rooms in
inductive RoomsStep : Rooms → RoomsEvent → Rooms → Prop
  | createTable (r : Rooms) (table : TableId) (config : TableConfig) :
      RoomsStep r (.createTable table (r.createTable table config).1)
        (r.createTable table config).2
  | closeTable (r : Rooms) (table : TableId) :
      RoomsStep r (.closeTable table (r.closeTable table).1) (r.closeTable table).2
  | missing {r : Rooms} {table : TableId} (op : RoomCall) :
      r.findRoom table = none → RoomsStep r (.missing r.calls) (r.rejectMissing op)
  | found {r : Rooms} {table : TableId} {room : Nat} (op : RoomCall) :
      r.findRoom table = some room →
      RoomsStep r (.found ⟨r.calls, table, room, op⟩) (r.look table room op)
  | post {r : Rooms} {before after : List PostedTask} {task : PostedTask} :
      r.looked = before ++ task :: after →
      RoomsStep r (.post task (r.post before after task).1) (r.post before after task).2
  | work {r : Rooms} {shard : Nat} {task : PostedTask} {executor : RoomExecutor PostedTask}
      {room room' : Room} {reply : Option Reply} :
      r.executor.take shard = some (task, executor) → r.instances[task.room]? = some room →
      Room.run task.op true room = .ok (reply, room') →
      RoomsStep r (.work task reply) (r.finish executor task reply room')
  | stop (r : Rooms) (shard : Nat) :
      RoomsStep r (.stop shard) { r with executor := r.executor.stopShard shard }

/-! ## What a task does -/

namespace Room

variable {room room' : Room} {op : RoomCall} {reply : Option Reply}

/-- **A task that finds its room closed** changes nothing and reports the service unavailable. -/
theorem run_of_closed (hclosed : room.closed = true) (op : RoomCall) :
    run op true room = .ok (some (op.refuse .serviceUnavailable "table is closed"), room) := by
  cases op with
  | seatPlayer | removePlayer | setReady | startHand | startHandWithDeck | abortHand =>
    exact if_pos hclosed
  | act => exact if_pos hclosed
  | onActionTimeout => exact if_pos hclosed
  | setConnected | snapshot | auditSnapshot => exact congrArg Except.ok (if_pos hclosed)

/-- A task reports once, and leaves its room open or closed as it was. -/
theorem run_reports (h : run op true room = .ok (reply, room')) :
    (∃ r, reply = some r) ∧ room'.closed = room.closed := by
  by_cases hclosed : room.closed = true
  · rw [run_of_closed hclosed] at h
    obtain ⟨rfl, rfl⟩ := Prod.mk.inj (Except.ok.inj h)
    exact ⟨⟨_, rfl⟩, rfl⟩
  have haction {x : Except Fault (ActionResult × Table)} {player : PlayerId}
      (h : (x >>= fun r => pure (actionReply true player r.1 r.2, { room with table := r.2 })) =
        .ok (reply, room')) : (∃ r, reply = some r) ∧ room'.closed = room.closed := by
    obtain ⟨⟨result, table⟩, -, h⟩ := Checked.bind_ok_iff.mp h
    obtain ⟨rfl, rfl⟩ := Prod.mk.inj (Checked.pure_ok_iff.mp h)
    exact ⟨⟨_, rfl⟩, rfl⟩
  have herror {tableOp : TableOp} (h : errorTask tableOp true room = .ok (reply, room')) :
      (∃ r, reply = some r) ∧ room'.closed = room.closed := by
    rw [errorTask, if_neg hclosed, if_pos rfl, Checked.bind_ok_iff] at h
    obtain ⟨⟨e, table⟩, -, h⟩ := h
    obtain ⟨rfl, rfl⟩ := Prod.mk.inj (Checked.pure_ok_iff.mp h)
    exact ⟨⟨_, rfl⟩, rfl⟩
  cases op with
  | seatPlayer | removePlayer | setReady | startHand | startHandWithDeck | abortHand =>
    exact herror h
  | act expectedHandId command =>
    simp only [run, actTask, if_neg hclosed] at h
    split at h <;> exact haction h
  | onActionTimeout player expectedServerSequence =>
    simp only [run, onActionTimeoutTask, if_neg hclosed] at h
    split at h <;> exact haction h
  | setConnected player connected =>
    simp only [run, setConnectedTask, if_neg hclosed] at h
    obtain ⟨rfl, rfl⟩ := Prod.mk.inj (Except.ok.inj h)
    exact ⟨⟨_, rfl⟩, rfl⟩
  | snapshot | auditSnapshot =>
    simp only [run, viewTask, if_neg hclosed] at h
    obtain ⟨rfl, rfl⟩ := Prod.mk.inj (Except.ok.inj h)
    exact ⟨⟨_, rfl⟩, rfl⟩

theorem run_map_table (hopen : room.closed = false) (op : RoomCall) :
    (run op true room).map (fun r => r.2.table) = op.result room.table := by
  rw [← tableAfter_of_callback]
  obtain ⟨table, closed⟩ := room
  obtain rfl : closed = false := hopen
  rfl

/-- What a task does to its table is an operation of the table, or nothing. -/
theorem reaches_of_run {config : TableConfig}
    (hr : Reaches Table.Steps (Table.new config) room.table)
    (h : run op true room = .ok (reply, room')) :
    Reaches Table.Steps (Table.new config) room'.table := by
  by_cases hclosed : room.closed = true
  · rw [run_of_closed hclosed] at h
    obtain ⟨-, rfl⟩ := Prod.mk.inj (Except.ok.inj h)
    exact hr
  have hresult := run_map_table (Bool.not_eq_true _ ▸ hclosed) op
  rw [h] at hresult
  cases hop : op.operation room.table with
  | none =>
    rw [RoomCall.result, hop] at hresult
    exact (Except.ok.inj hresult : room'.table = room.table) ▸ hr
  | some tableOp =>
    rw [result_of_operation hop] at hresult
    cases hexec : room.table.exec tableOp with
    | error fault =>
      rw [hexec] at hresult
      exact absurd hresult (by simp [Except.map])
    | ok r =>
      obtain ⟨e, table⟩ := r
      rw [hexec] at hresult
      have hstep : Table.Steps room.table (tableOp, e) table := hexec
      exact (Except.ok.inj hresult : room'.table = table) ▸ hr.tail hstep

/-- A task returns, unless it meets a card outside the enumerations. -/
theorem run_returns_or {config : TableConfig}
    (hr : Reaches Table.Steps (Table.new config) room.table) (op : RoomCall) :
    (∃ reply room', run op true room = .ok (reply, room')) ∨
      ∃ tableOp, op.operation room.table = some tableOp ∧
        ∃ card ∈ room.table.inPlay ++ tableOp.cards, ¬ card.Counted := by
  cases hrun : run op true room with
  | ok r => exact Or.inl ⟨r.1, r.2, rfl⟩
  | error fault =>
    refine Or.inr ?_
    by_cases hclosed : room.closed = true
    · rw [run_of_closed hclosed] at hrun
      exact absurd hrun (by simp)
    have hresult := run_map_table (Bool.not_eq_true _ ▸ hclosed) op
    rw [hrun] at hresult
    cases hop : op.operation room.table with
    | none =>
      rw [RoomCall.result, hop] at hresult
      exact absurd hresult (by simp [Except.map])
    | some tableOp =>
      rw [result_of_operation hop] at hresult
      rcases Table.exec_returns_or hr tableOp with ⟨e, t', hexec⟩ | ⟨-, card, hcard, hbad⟩
      · rw [hexec] at hresult
        exact absurd hresult (by simp [Except.map])
      · refine ⟨tableOp, rfl, card, ?_, hbad⟩
        rw [List.mem_append] at hcard ⊢
        exact hcard.imp_left (Table.atShowdown_subset _ ·)

end Room

end PokerServer
