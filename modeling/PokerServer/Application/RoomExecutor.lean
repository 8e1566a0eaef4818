import Mathlib.Data.List.Basic
import Mathlib.Data.List.GetD

/-!
# The room executor

Model of `src/poker/application/room_executor.cpp`, over any type of tasks: one queue for each
shard, and for each shard one worker that runs the tasks of its queue one after another. A table
belongs to one shard. `stop` sets the flag of one shard after the other; a worker goes on until its
queue is empty.

What the constructor checks are fields of the structure. `take` is the worker removing the front of
its queue; it returns, and does not come back, where the queue is empty and the shard is stopping.
-/

namespace PokerServer

abbrev TableId := Nat

structure Shard (T : Type) where
  tasks : List T := []
  stopping : Bool := false

structure RoomExecutor (T : Type) where
  shards : List (Shard T)
  maxPendingPerShard : Nat
  sharded : 0 < shards.length
  roomy : 0 < maxPendingPerShard

namespace RoomExecutor

variable {T : Type}

/-- The constructor. -/
def create (shardCount maxPendingPerShard : Nat) : Except String (RoomExecutor T) :=
  if h : shardCount = 0 ∨ maxPendingPerShard = 0 then
    .error "room executor requires positive shard and queue sizes"
  else
    .ok { shards := List.replicate shardCount {}
          maxPendingPerShard
          sharded := by rw [List.length_replicate]; omega
          roomy := by omega }

def shardFor (e : RoomExecutor T) (table : TableId) : Nat := table % e.shards.length

def shard (e : RoomExecutor T) (i : Nat) : Shard T := e.shards.getD i {}

def setShard (e : RoomExecutor T) (i : Nat) (s : Shard T) : RoomExecutor T :=
  { e with
    shards := e.shards.set i s
    sharded := by rw [List.length_set]; exact e.sharded }

/-- `RoomExecutor::post` of a task that is not empty. -/
def post (e : RoomExecutor T) (table : TableId) (task : T) : Bool × RoomExecutor T :=
  let shard := e.shard (e.shardFor table)
  if shard.stopping ∨ e.maxPendingPerShard ≤ shard.tasks.length then (false, e)
  else (true, e.setShard (e.shardFor table) { shard with tasks := shard.tasks ++ [task] })

/-- `stop`, as far as one shard is concerned. -/
def stopShard (e : RoomExecutor T) (i : Nat) : RoomExecutor T :=
  e.setShard i { e.shard i with stopping := true }

/-- The worker of a shard takes the next task. -/
def take (e : RoomExecutor T) (i : Nat) : Option (T × RoomExecutor T) :=
  match (e.shard i).tasks with
  | [] => none
  | task :: tasks => some (task, e.setShard i { e.shard i with tasks })

/-- The tasks waiting in the queues. -/
def pending (e : RoomExecutor T) : List T := e.shards.flatMap Shard.tasks

variable {e e' : RoomExecutor T} {i j : Nat} {s : Shard T} {task : T} {table : TableId}

theorem shardFor_lt (e : RoomExecutor T) (table : TableId) : e.shardFor table < e.shards.length :=
  Nat.mod_lt _ e.sharded

@[simp] theorem length_setShard (e : RoomExecutor T) (i : Nat) (s : Shard T) :
    (e.setShard i s).shards.length = e.shards.length := List.length_set

@[simp] theorem shardFor_setShard (e : RoomExecutor T) (i : Nat) (s : Shard T) (table : TableId) :
    (e.setShard i s).shardFor table = e.shardFor table := by
  rw [shardFor, shardFor, length_setShard]

theorem shard_setShard_self (h : i < e.shards.length) : (e.setShard i s).shard i = s := by
  rw [shard, setShard, List.getD_eq_getElem?_getD, List.getElem?_set_self h, Option.getD_some]

theorem shard_setShard_of_ne (h : j ≠ i) : (e.setShard i s).shard j = e.shard j := by
  rw [shard, shard, setShard, List.getD_eq_getElem?_getD, List.getD_eq_getElem?_getD,
    List.getElem?_set_ne (Ne.symm h)]

/-- An index past the shards names no queue. -/
theorem shard_of_le (h : e.shards.length ≤ i) : e.shard i = {} := by
  rw [shard, List.getD_eq_default _ _ h]

theorem setShard_of_le (h : e.shards.length ≤ i) : e.setShard i s = e := by
  obtain ⟨shards, maximum, hsharded, hroomy⟩ := e
  simp only [setShard, mk.injEq, and_true]
  exact List.set_eq_of_length_le h

/-- Changing one queue changes the waiting tasks there. -/
theorem pending_setShard (h : i < e.shards.length) :
    e.pending = (e.shards.take i).flatMap Shard.tasks ++
        ((e.shard i).tasks ++ (e.shards.drop (i + 1)).flatMap Shard.tasks) ∧
      (e.setShard i s).pending = (e.shards.take i).flatMap Shard.tasks ++
        (s.tasks ++ (e.shards.drop (i + 1)).flatMap Shard.tasks) := by
  constructor
  · have hsplit : e.shards = e.shards.take i ++ e.shards[i] :: e.shards.drop (i + 1) := by
      rw [← List.drop_eq_getElem_cons h, List.take_append_drop]
    have hshard : e.shard i = e.shards[i] := by
      rw [shard, List.getD_eq_getElem _ _ h]
    rw [pending, hshard]
    conv_lhs => rw [hsplit]
    rw [List.flatMap_append, List.flatMap_cons]
  · rw [pending, setShard]
    simp only [List.set_eq_take_append_cons_drop, if_pos h]
    rw [List.flatMap_append, List.flatMap_cons]

theorem pending_perm_of_push (h : i < e.shards.length)
    (hs : s.tasks.Perm (task :: (e.shard i).tasks)) :
    (e.setShard i s).pending.Perm (task :: e.pending) := by
  obtain ⟨hold, hnew⟩ := pending_setShard (s := s) h
  rw [hnew, hold]
  refine List.Perm.trans ?_ List.perm_middle
  exact (hs.append_right _).append_left _

/-- **Everything `post` can do**: the task goes to the end of its queue, or it is refused. -/
theorem post_cases (e : RoomExecutor T) (table : TableId) (task : T) :
    (e.post table task = (true, e.setShard (e.shardFor table)
        { tasks := (e.shard (e.shardFor table)).tasks ++ [task] }) ∧
      (e.shard (e.shardFor table)).stopping = false) ∨
    e.post table task = (false, e) := by
  by_cases h : (e.shard (e.shardFor table)).stopping ∨
      e.maxPendingPerShard ≤ (e.shard (e.shardFor table)).tasks.length
  · exact Or.inr (if_pos h)
  · refine Or.inl ⟨(if_neg h).trans ?_, ?_⟩
    all_goals rw [not_or, Bool.not_eq_true] at h
    · rw [h.1]
    · exact h.1

theorem take_eq_some (h : e.take i = some (task, e')) :
    i < e.shards.length ∧ ∃ rest, (e.shard i).tasks = task :: rest ∧
      e' = e.setShard i { e.shard i with tasks := rest } := by
  rw [take] at h
  split at h
  · exact absurd h (by simp)
  · rename_i first rest htasks
    obtain ⟨rfl, rfl⟩ := Prod.mk.inj (Option.some.inj h)
    refine ⟨?_, rest, htasks, rfl⟩
    by_contra hle
    rw [shard_of_le (Nat.not_lt.mp hle)] at htasks
    exact absurd htasks (by simp)

/-- The task taken was waiting. -/
theorem pending_take (h : e.take i = some (task, e')) : e.pending.Perm (task :: e'.pending) := by
  obtain ⟨hlt, rest, htasks, rfl⟩ := take_eq_some h
  obtain ⟨hold, hnew⟩ := pending_setShard (s := { e.shard i with tasks := rest }) hlt
  rw [hnew, hold, htasks]
  exact List.perm_middle

@[simp] theorem pending_stopShard (e : RoomExecutor T) (i : Nat) :
    (e.stopShard i).pending = e.pending := by
  rw [stopShard]
  by_cases h : i < e.shards.length
  · obtain ⟨hold, hnew⟩ := pending_setShard (s := { e.shard i with stopping := true }) h
    rw [hnew, hold]
  · rw [setShard_of_le (Nat.not_lt.mp h)]

@[simp] theorem tasks_stopShard (e : RoomExecutor T) (i j : Nat) :
    ((e.stopShard i).shard j).tasks = (e.shard j).tasks := by
  rw [stopShard]
  by_cases h : i < e.shards.length
  · by_cases hj : j = i
    · rw [hj, shard_setShard_self h]
    · rw [shard_setShard_of_ne hj]
  · rw [setShard_of_le (Nat.not_lt.mp h)]

end RoomExecutor

end PokerServer
