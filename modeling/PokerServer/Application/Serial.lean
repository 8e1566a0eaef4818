import PokerServer.Application.Rooms

/-!
# Rooms are serial

What holds along every run of the rooms, whatever other threads create, close, call and stop in
between.

* `Accounted`: every call is at one place, waiting to post, in a queue or answered.
* `Lodged`: a room is open exactly as long as a table id stands for it, and every task has captured
  a room that its table id stood for.
* `Ordered`: of the tasks accepted for a table those that have run come first, and the rest waits in
  the queue of its shard.

`rooms_serial` puts together what follows for a run.
-/

namespace PokerServer

namespace Rooms

variable {r r' : Rooms} {event : RoomsEvent}

/-! ## Every call is answered once -/

/-- The calls whose callback has been invoked. -/
def answeredCalls (r : Rooms) : List Nat := r.answered.map Prod.fst

/-- Every call is at one place. -/
def Accounted (r : Rooms) : Prop :=
  ∀ call, r.answeredCalls.count call + (r.looked.map PostedTask.call).count call +
    (r.executor.pending.map PostedTask.call).count call = (List.range r.calls).count call

theorem accounted_step (h : r.Accounted) (hs : RoomsStep r event r') : r'.Accounted := by
  intro call
  have hcall := h call
  cases hs with
  | createTable table config =>
    unfold createTable
    split
    · exact hcall
    split <;> exact hcall
  | closeTable table =>
    unfold closeTable
    split <;> exact hcall
  | missing op hnone =>
    simp only [rejectMissing, answeredCalls, List.map_append, List.count_append, List.range_succ,
      List.map_cons, List.map_nil] at hcall ⊢
    omega
  | found op hroom =>
    simp only [look, answeredCalls, List.map_append, List.count_append, List.range_succ,
      List.map_cons, List.map_nil] at hcall ⊢
    omega
  | @post before after task hlooked =>
    rw [hlooked] at hcall
    have hshard := r.executor.shardFor_lt task.table
    rcases r.executor.post_cases task.table task with ⟨hpost, -⟩ | hpost
    · have hpush := (RoomExecutor.pending_perm_of_push (s := { tasks :=
        (r.executor.shard (r.executor.shardFor task.table)).tasks ++ [task] }) hshard
        (List.perm_append_singleton _ _)).map PostedTask.call
      have hcount := hpush.count_eq call
      simp only [Rooms.post, hpost, if_true, answeredCalls, List.map_append, List.map_cons,
        List.count_append, List.count_cons] at hcall hcount ⊢
      omega
    · simp only [Rooms.post, hpost, answeredCalls, List.map_append, List.map_cons, List.map_nil,
        Bool.false_eq_true, if_false, List.count_append, List.count_cons, List.count_nil]
        at hcall ⊢
      omega
  | @work shard task executor room room' reply htake hroom hrun =>
    obtain ⟨⟨answer, rfl⟩, -⟩ := Room.run_reports hrun
    have hcount := ((RoomExecutor.pending_take htake).map PostedTask.call).count_eq call
    simp only [finish, answeredCalls, Option.toList_some, List.map_append, List.map_cons,
      List.map_nil, List.count_append, List.count_cons, List.count_nil] at hcall hcount ⊢
    omega
  | stop shard =>
    simp only [RoomExecutor.pending_stopShard, answeredCalls] at hcall ⊢
    exact hcall

/-- Answers are only added. -/
theorem answered_grows (hs : RoomsStep r event r') : ∃ more, r'.answered = r.answered ++ more := by
  cases hs with
  | createTable table config =>
    unfold createTable
    split
    · exact ⟨[], (List.append_nil _).symm⟩
    split <;> exact ⟨[], (List.append_nil _).symm⟩
  | closeTable table =>
    unfold closeTable
    split <;> exact ⟨[], (List.append_nil _).symm⟩
  | missing op hnone => exact ⟨_, rfl⟩
  | found op hroom => exact ⟨[], (List.append_nil _).symm⟩
  | @post before after task hlooked =>
    rcases r.executor.post_cases task.table task with ⟨hpost, -⟩ | hpost
    · exact ⟨[], by simp [Rooms.post, hpost]⟩
    · exact ⟨[(task.call, task.op.refuse .serviceUnavailable "room executor is overloaded")],
        by simp [Rooms.post, hpost]⟩
  | work htake hroom hrun => exact ⟨_, rfl⟩
  | stop shard => exact ⟨[], (List.append_nil _).symm⟩

/-- The events that answer a call. -/
def answersNow : RoomsEvent → Option Nat
  | .missing call => some call
  | .post task false => some task.call
  | .work task _ => some task.call
  | _ => none

theorem answered_now {call : Nat} (hs : RoomsStep r event r') (h : answersNow event = some call) :
    call ∈ r'.answeredCalls := by
  cases hs with
  | missing op hnone =>
    obtain rfl := Option.some.inj h
    simp [rejectMissing, answeredCalls]
  | @post before after task hlooked =>
    rcases r.executor.post_cases task.table task with ⟨hpost, -⟩ | hpost
    · simp [Rooms.post, hpost, answersNow] at h
    · simp only [Rooms.post, hpost, answersNow, Option.some.injEq] at h
      subst h
      simp [Rooms.post, hpost, answeredCalls]
  | @work shard task executor room room' reply htake hroom hrun =>
    obtain ⟨⟨answer, rfl⟩, -⟩ := Room.run_reports hrun
    obtain rfl := Option.some.inj h
    simp [finish, answeredCalls]
  | createTable | closeTable | found | stop => exact absurd h (by simp [answersNow])

/-! ## Rooms and tasks -/

/-- A room is open exactly as long as a table id stands for it, and a task has captured a room its
table id stood for. -/
structure Lodged (r : Rooms) : Prop where
  registered : ∀ table i, r.findRoom table = some i →
    ∃ room, r.instances[i]? = some room ∧ room.closed = false
  apart : ∀ table table' i, r.findRoom table = some i → r.findRoom table' = some i →
    table = table'
  captured : ∀ task, task ∈ r.looked ∨ task ∈ r.executor.pending →
    ∃ room, r.instances[task.room]? = some room ∧
      (room.closed = false → r.findRoom task.table = some task.room)
  reached : ∀ (i : Nat) (room : Room), r.instances[i]? = some room →
    ∃ config, Reaches Table.Steps (Table.new config) room.table

theorem createTable_instances (r : Rooms) (table : TableId) (config : TableConfig) :
    (r.createTable table config).2.instances = r.instances ∨
      (r.createTable table config).2.instances = r.instances ++
      [{ table := Table.new config }] := by
  unfold createTable
  split
  · exact Or.inl rfl
  split
  · exact Or.inl rfl
  · exact Or.inr rfl

theorem closeTable_instances (r : Rooms) (table : TableId) :
    (r.closeTable table).2.instances = r.instances ∨
      ∃ i, r.findRoom table = some i ∧ (r.closeTable table).2.instances =
        r.instances.modify i fun room => { room with closed := true } := by
  unfold closeTable
  split
  · exact Or.inl rfl
  · rename_i i hi
    exact Or.inr ⟨i, hi, rfl⟩

/-- **What a step does to a room**: a closed room stays as it is, and only a task that captured a
room changes its table. -/
theorem instances_step (hs : RoomsStep r event r') {i : Nat} {room : Room}
    (h : r.instances[i]? = some room) :
    ∃ room' : Room, r'.instances[i]? = some room' ∧ (room.closed = true → room' = room) ∧
      ((∀ task reply, event = .work task reply → task.room ≠ i) → room'.table = room.table) := by
  have hlt := (List.getElem?_eq_some_iff.mp h).1
  cases hs with
  | createTable table config =>
    refine ⟨room, ?_, fun _ => rfl, fun _ => rfl⟩
    rcases createTable_instances r table config with heq | heq
    · rw [heq, h]
    · rw [heq, List.getElem?_append_left hlt, h]
  | closeTable table =>
    rcases closeTable_instances r table with heq | ⟨j, -, heq⟩
    · exact ⟨room, by rw [heq, h], fun _ => rfl, fun _ => rfl⟩
    · by_cases hij : j = i
      · subst hij
        refine ⟨{ room with closed := true }, ?_, fun hclosed => ?_, fun _ => rfl⟩
        · rw [heq, List.getElem?_modify_eq, h]
          rfl
        · rw [← hclosed]
      · refine ⟨room, ?_, fun _ => rfl, fun _ => rfl⟩
        rw [heq, List.getElem?_modify_ne _ _ hij, h]
  | missing | found | post | stop => exact ⟨room, h, fun _ => rfl, fun _ => rfl⟩
  | @work shard task executor before room' reply htake hroom hrun =>
    by_cases hij : task.room = i
    · subst hij
      obtain rfl := Option.some.inj (h.symm.trans hroom)
      refine ⟨room', ?_, fun hclosed => ?_, fun hne => absurd rfl (hne task reply rfl)⟩
      · exact List.getElem?_set_self hlt
      · rw [Room.run_of_closed hclosed] at hrun
        exact (Prod.mk.inj (Except.ok.inj hrun)).2.symm
    · refine ⟨room, ?_, fun _ => rfl, fun _ => rfl⟩
      exact (List.getElem?_set_ne hij).trans h

theorem lodged_empty (executor : RoomExecutor PostedTask) (h : executor.pending = []) :
    Lodged { executor } where
  registered := by
    intro table i hfind
    exact absurd hfind (by simp [findRoom])
  apart := by
    intro table table' i hfind
    exact absurd hfind (by simp [findRoom])
  captured := by
    intro task hmem
    rw [h] at hmem
    exact absurd hmem (by simp)
  reached := by
    intro i room hroom
    exact absurd hroom (by simp)

namespace Lodged

theorem createTable (h : r.Lodged) (table : TableId) (config : TableConfig) :
    (r.createTable table config).2.Lodged := by
  unfold Rooms.createTable
  split
  · exact h
  split
  · exact h
  rename_i hfree
  have hnone : r.findRoom table = none := Option.not_isSome_iff_eq_none.mp hfree
  have hold {i : Nat} {room : Room} (hi : r.instances[i]? = some room) :
      (r.instances ++ [({ table := Table.new config } : Room)])[i]? = some room := by
    rw [List.getElem?_append_left (List.getElem?_eq_some_iff.mp hi).1]
    exact hi
  have hlt {t : TableId} {i : Nat} (hi : r.findRoom t = some i) : i < r.instances.length := by
    obtain ⟨room, hroom, -⟩ := h.registered t i hi
    exact (List.getElem?_eq_some_iff.mp hroom).1
  have hself : (r.rooms.insert table r.instances.length).lookup table = some r.instances.length :=
    AList.lookup_insert _
  have hother {t : TableId} (ht : t ≠ table) :
      (r.rooms.insert table r.instances.length).lookup t = r.findRoom t := AList.lookup_insert_ne ht
  constructor
  · intro t i hi
    change (r.rooms.insert table r.instances.length).lookup t = some i at hi
    by_cases ht : t = table
    · rw [ht, hself] at hi
      obtain rfl := Option.some.inj hi
      exact ⟨_, List.getElem?_concat_length, rfl⟩
    · rw [hother ht] at hi
      obtain ⟨room, hroom, hopen⟩ := h.registered t i hi
      exact ⟨room, hold hroom, hopen⟩
  · intro t t' i hi hi'
    change (r.rooms.insert table r.instances.length).lookup t = some i at hi
    change (r.rooms.insert table r.instances.length).lookup t' = some i at hi'
    by_cases ht : t = table <;> by_cases ht' : t' = table
    · rw [ht, ht']
    · rw [ht, hself] at hi
      rw [hother ht'] at hi'
      exact absurd (hlt hi') (by simp [← Option.some.inj hi])
    · rw [ht', hself] at hi'
      rw [hother ht] at hi
      exact absurd (hlt hi) (by simp [← Option.some.inj hi'])
    · rw [hother ht] at hi
      rw [hother ht'] at hi'
      exact h.apart t t' i hi hi'
  · intro task hmem
    obtain ⟨room, hroom, hopen⟩ := h.captured task hmem
    refine ⟨room, hold hroom, fun hclosed => ?_⟩
    have hfind := hopen hclosed
    have ht : task.table ≠ table := by
      rintro heq
      rw [heq, hnone] at hfind
      exact absurd hfind (by simp)
    exact (hother ht).trans hfind
  · intro i room hi
    dsimp only at hi
    by_cases hlen : i < r.instances.length
    · rw [List.getElem?_append_left hlen] at hi
      exact h.reached i room hi
    · rw [List.getElem?_append_right (Nat.not_lt.mp hlen), List.getElem?_singleton] at hi
      split at hi
      · obtain rfl := Option.some.inj hi
        exact ⟨config, Reaches.refl _⟩
      · exact absurd hi (by simp)

theorem closeTable (h : r.Lodged) (table : TableId) : (r.closeTable table).2.Lodged := by
  unfold Rooms.closeTable
  split
  · exact h
  rename_i i hi
  have hclosed : (r.instances.modify i fun room => { room with closed := true })[i]? =
      r.instances[i]?.map fun room => { room with closed := true } := by
    rw [List.getElem?_modify_eq]
    rfl
  have hold {j : Nat} (hj : j ≠ i) :
      (r.instances.modify i fun room => { room with closed := true })[j]? = r.instances[j]? :=
    List.getElem?_modify_ne _ _ (Ne.symm hj)
  have hself : (r.rooms.erase table).lookup table = none := AList.lookup_erase _ _
  have hother {t : TableId} (ht : t ≠ table) : (r.rooms.erase table).lookup t = r.findRoom t :=
    AList.lookup_erase_ne ht
  have hkept {t : TableId} {j : Nat} (hj : (r.rooms.erase table).lookup t = some j) :
      r.findRoom t = some j ∧ j ≠ i := by
    have ht : t ≠ table := by
      rintro rfl
      rw [hself] at hj
      exact absurd hj (by simp)
    rw [hother ht] at hj
    exact ⟨hj, fun heq => ht (h.apart t table i (heq ▸ hj) hi)⟩
  constructor
  · intro t j hj
    obtain ⟨hj, hne⟩ := hkept hj
    obtain ⟨room, hroom, hopen⟩ := h.registered t j hj
    exact ⟨room, (hold hne).trans hroom, hopen⟩
  · intro t t' j hj hj'
    exact h.apart t t' j (hkept hj).1 (hkept hj').1
  · intro task hmem
    obtain ⟨room, hroom, hopen⟩ := h.captured task hmem
    by_cases hj : task.room = i
    · refine ⟨{ room with closed := true }, ?_, fun hfalse => absurd hfalse (by simp)⟩
      dsimp only
      rw [hj, hclosed, ← hj, hroom]
      rfl
    · refine ⟨room, (hold hj).trans hroom, fun hfalse => ?_⟩
      have hfind := hopen hfalse
      have ht : task.table ≠ table := by
        rintro heq
        rw [heq, hi] at hfind
        exact hj (Option.some.inj hfind).symm
      exact (hother ht).trans hfind
  · intro j room hj
    dsimp only at hj
    by_cases hji : j = i
    · rw [hji, hclosed] at hj
      obtain ⟨before, hbefore, rfl⟩ := Option.map_eq_some_iff.mp hj
      exact h.reached i before hbefore
    · rw [hold hji] at hj
      exact h.reached j room hj

/-- Rooms and instances are the same, and the tasks are among those before. -/
theorem of_tasks (h : r.Lodged) (hrooms : r'.rooms = r.rooms)
    (hinstances : r'.instances = r.instances)
    (htasks : ∀ task, task ∈ r'.looked ∨ task ∈ r'.executor.pending →
      (task ∈ r.looked ∨ task ∈ r.executor.pending) ∨ r.findRoom task.table = some task.room) :
    r'.Lodged := by
  have hfind (table : TableId) : r'.findRoom table = r.findRoom table := by
    rw [findRoom, hrooms, findRoom]
  constructor
  · intro table i hi
    rw [hfind] at hi
    rw [hinstances]
    exact h.registered table i hi
  · intro table table' i hi hi'
    rw [hfind] at hi hi'
    exact h.apart table table' i hi hi'
  · intro task hmem
    rw [hinstances, hfind]
    rcases htasks task hmem with hmem | hroom
    · exact h.captured task hmem
    · obtain ⟨room, hroom', -⟩ := h.registered _ _ hroom
      exact ⟨room, hroom', fun _ => hroom⟩
  · rw [hinstances]
    exact h.reached

theorem post (h : r.Lodged) {before after : List PostedTask} {task : PostedTask}
    (hlooked : r.looked = before ++ task :: after) : (r.post before after task).2.Lodged := by
  have hkept {t : PostedTask} (ht : t ∈ before ++ after) : t ∈ r.looked := by
    rw [hlooked]
    rcases List.mem_append.mp ht with ht | ht
    · exact List.mem_append_left _ ht
    · exact List.mem_append_right _ (List.mem_cons_of_mem _ ht)
  have htask : task ∈ r.looked := hlooked ▸ List.mem_append_right _ List.mem_cons_self
  refine h.of_tasks rfl rfl fun t ht => Or.inl ?_
  rcases ht with ht | ht
  · exact Or.inl (hkept ht)
  rcases r.executor.post_cases task.table task with ⟨hpost, -⟩ | hpost
  · simp only [Rooms.post, hpost] at ht
    have hpush := RoomExecutor.pending_perm_of_push (r.executor.shardFor_lt task.table)
      (s := { tasks := (r.executor.shard (r.executor.shardFor task.table)).tasks ++ [task] })
      (List.perm_append_singleton _ _)
    rcases List.mem_cons.mp (hpush.mem_iff.mp ht) with rfl | ht
    · exact Or.inl htask
    · exact Or.inr ht
  · simp only [Rooms.post, hpost] at ht
    exact Or.inr ht

theorem work (h : r.Lodged) {shard : Nat} {task : PostedTask} {executor : RoomExecutor PostedTask}
    {room room' : Room} {reply : Option Reply}
    (htake : r.executor.take shard = some (task, executor))
    (hroom : r.instances[task.room]? = some room)
    (hrun : Room.run task.op true room = .ok (reply, room')) :
    (r.finish executor task reply room').Lodged := by
  have hlt := (List.getElem?_eq_some_iff.mp hroom).1
  have hset (i : Nat) (before : Room) (hi : r.instances[i]? = some before) :
      ∃ after, (r.instances.set task.room room')[i]? = some after ∧ after.closed = before.closed ∧
        ∀ config, Reaches Table.Steps (Table.new config) before.table →
          Reaches Table.Steps (Table.new config) after.table := by
    by_cases hij : task.room = i
    · subst hij
      obtain rfl := Option.some.inj (hi.symm.trans hroom)
      exact ⟨room', List.getElem?_set_self hlt, (Room.run_reports hrun).2,
        fun config hr => Room.reaches_of_run hr hrun⟩
    · exact ⟨before, (List.getElem?_set_ne hij).trans hi, rfl, fun _ hr => hr⟩
  constructor
  · intro table i hi
    obtain ⟨before, hbefore, hopen⟩ := h.registered table i hi
    obtain ⟨after, hafter, hclosed, -⟩ := hset i before hbefore
    exact ⟨after, hafter, hclosed.trans hopen⟩
  · exact h.apart
  · intro t ht
    have hmem : t ∈ r.looked ∨ t ∈ r.executor.pending := by
      rcases ht with ht | ht
      · exact Or.inl ht
      · exact Or.inr ((RoomExecutor.pending_take htake).mem_iff.mpr (List.mem_cons_of_mem _ ht))
    obtain ⟨before, hbefore, hopen⟩ := h.captured t hmem
    obtain ⟨after, hafter, hclosed, -⟩ := hset t.room before hbefore
    exact ⟨after, hafter, fun hfalse => hopen (hclosed.symm.trans hfalse)⟩
  · intro i after hi
    obtain ⟨before, hbefore⟩ : ∃ before, r.instances[i]? = some before := by
      refine ⟨_, List.getElem?_eq_getElem (h := ?_)⟩
      have hlen := (List.getElem?_eq_some_iff.mp hi).1
      rwa [finish, List.length_set] at hlen
    obtain ⟨config, hr⟩ := h.reached i before hbefore
    obtain ⟨after', hafter, -, hreach⟩ := hset i before hbefore
    obtain rfl := Option.some.inj (hi.symm.trans hafter)
    exact ⟨config, hreach config hr⟩

theorem step (h : r.Lodged) (hs : RoomsStep r event r') : r'.Lodged := by
  cases hs with
  | createTable table config => exact h.createTable table config
  | closeTable table => exact h.closeTable table
  | missing op hnone => exact h.of_tasks rfl rfl fun t ht => Or.inl ht
  | found op hroom =>
    refine h.of_tasks rfl rfl fun t ht => ?_
    rcases ht with ht | ht
    · rcases List.mem_append.mp ht with ht | ht
      · exact Or.inl (Or.inl ht)
      · rw [List.mem_singleton] at ht
        subst ht
        exact Or.inr hroom
    · exact Or.inl (Or.inr ht)
  | post hlooked => exact h.post hlooked
  | work htake hroom hrun => exact h.work htake hroom hrun
  | stop shard =>
    refine h.of_tasks rfl rfl fun t ht => Or.inl ?_
    simpa using ht

end Lodged

/-! ## The order of a table's tasks -/

/-- The call whose task the event puts into the queue of the table. -/
def acceptsFor (table : TableId) : RoomsEvent → Option Nat
  | .post task true => if task.table = table then some task.call else none
  | _ => none

theorem eq_of_acceptsFor {table : TableId} {call : Nat} (h : acceptsFor table event = some call) :
    ∃ task, event = .post task true ∧ task.table = table ∧ task.call = call := by
  unfold acceptsFor at h
  split at h
  · rename_i task
    obtain ⟨htable, hcall⟩ := Option.ite_none_right_eq_some.mp h
    exact ⟨task, rfl, htable, Option.some.inj hcall⟩
  · exact absurd h (by simp)

/-- The call whose task the event runs. -/
def runsFor (table : TableId) : RoomsEvent → Option Nat
  | .work task _ => if task.table = table then some task.call else none
  | _ => none

abbrev RoomsTrace := List (Step Rooms RoomsEvent)

/-- The calls whose tasks were accepted for a table, in order. -/
def acceptedFor (table : TableId) (trace : RoomsTrace) : List Nat :=
  trace.filterMap fun e => acceptsFor table e.label

/-- The calls whose tasks were run for a table, in order. -/
def ranFor (table : TableId) (trace : RoomsTrace) : List Nat :=
  trace.filterMap fun e => runsFor table e.label

/-- The calls whose tasks wait for a table, in order. -/
def waitingFor (r : Rooms) (table : TableId) : List Nat :=
  ((r.executor.shard (r.executor.shardFor table)).tasks.filter (·.table = table)).map
    PostedTask.call

/-- Every task waits in the shard of its table. -/
def Sharded (r : Rooms) : Prop :=
  ∀ i, ∀ task ∈ (r.executor.shard i).tasks, r.executor.shardFor task.table = i

theorem sharded_setShard {e : RoomExecutor PostedTask} {i : Nat} {s : Shard PostedTask}
    (h : ∀ i, ∀ task ∈ (e.shard i).tasks, e.shardFor task.table = i)
    (hs : ∀ task ∈ s.tasks, e.shardFor task.table = i) :
    ∀ j, ∀ task ∈ ((e.setShard i s).shard j).tasks, (e.setShard i s).shardFor task.table = j := by
  intro j task htask
  rw [RoomExecutor.shardFor_setShard]
  by_cases hi : i < e.shards.length
  · by_cases hj : j = i
    · subst hj
      rw [RoomExecutor.shard_setShard_self hi] at htask
      exact hs task htask
    · rw [RoomExecutor.shard_setShard_of_ne hj] at htask
      exact h j task htask
  · rw [RoomExecutor.setShard_of_le (Nat.not_lt.mp hi)] at htask
    exact h j task htask

theorem waitingFor_setShard {executor : RoomExecutor PostedTask} {i : Nat} {s : Shard PostedTask}
    {table : TableId} (hr : r.executor = executor.setShard i s) (hi : i < executor.shards.length) :
    r.waitingFor table =
      ((if executor.shardFor table = i then s.tasks
        else (executor.shard (executor.shardFor table)).tasks).filter (·.table = table)).map
          PostedTask.call := by
  rw [waitingFor, hr, RoomExecutor.shardFor_setShard]
  split
  · rename_i heq
    rw [heq, RoomExecutor.shard_setShard_self hi]
  · rename_i hne
    rw [RoomExecutor.shard_setShard_of_ne hne]

/-- **One step of the queues**: an accepted task goes to the end of its table's, and the task that
runs is taken from the front. -/
theorem waiting_step (hsharded : r.Sharded) (hs : RoomsStep r event r') :
    r'.Sharded ∧ ∀ table, (runsFor table event).toList ++ r'.waitingFor table =
      r.waitingFor table ++ (acceptsFor table event).toList := by
  have same {r'' : Rooms} (hexecutor : r''.executor = r.executor) :
      r''.Sharded ∧ ∀ table, r''.waitingFor table = r.waitingFor table := by
    unfold Sharded waitingFor
    rw [hexecutor]
    exact ⟨hsharded, fun _ => rfl⟩
  have quiet {r'' : Rooms} {event : RoomsEvent} (hexecutor : r''.executor = r.executor)
      (hevent : ∀ table, acceptsFor table event = none ∧ runsFor table event = none) :
      r''.Sharded ∧ ∀ table, (runsFor table event).toList ++ r''.waitingFor table =
        r.waitingFor table ++ (acceptsFor table event).toList := by
    refine ⟨(same hexecutor).1, fun table => ?_⟩
    rw [(hevent table).1, (hevent table).2, (same hexecutor).2]
    simp
  cases hs with
  | createTable table config =>
    refine quiet ?_ fun _ => ⟨rfl, rfl⟩
    unfold createTable
    split
    · rfl
    split <;> rfl
  | closeTable table =>
    refine quiet ?_ fun _ => ⟨rfl, rfl⟩
    unfold closeTable
    split <;> rfl
  | missing op hnone => exact quiet rfl fun _ => ⟨rfl, rfl⟩
  | found op hroom => exact quiet rfl fun _ => ⟨rfl, rfl⟩
  | @post before after task hlooked =>
    rcases r.executor.post_cases task.table task with ⟨hpost, -⟩ | hpost
    · have hlt := r.executor.shardFor_lt task.table
      have hexecutor : (r.post before after task).2.executor =
          r.executor.setShard (r.executor.shardFor task.table)
            { tasks := (r.executor.shard (r.executor.shardFor task.table)).tasks ++ [task] } := by
        simp only [Rooms.post, hpost]
      have haccepted : (r.post before after task).1 = true := by simp only [Rooms.post, hpost]
      refine ⟨?_, fun table => ?_⟩
      · unfold Sharded
        rw [hexecutor]
        refine sharded_setShard hsharded fun t ht => ?_
        rcases List.mem_append.mp ht with ht | ht
        · exact hsharded _ t ht
        · rw [List.mem_singleton] at ht
          rw [ht]
      · rw [waitingFor_setShard hexecutor hlt, haccepted]
        simp only [runsFor, acceptsFor, Option.toList_none, List.nil_append]
        by_cases htable : task.table = table
        · subst htable
          rw [if_pos rfl, if_pos rfl, List.filter_append, List.map_append, waitingFor]
          simp
        · rw [if_neg htable, Option.toList_none, List.append_nil, waitingFor]
          split
          · rename_i heq
            rw [List.filter_append, heq]
            simp [htable]
          · rfl
    · have haccepted : (r.post before after task).1 = false := by simp only [Rooms.post, hpost]
      rw [haccepted]
      refine quiet ?_ fun _ => ⟨rfl, rfl⟩
      simp only [Rooms.post, hpost]
  | @work shard task executor room room' reply htake hroom hrun =>
    obtain ⟨hlt, rest, htasks, hexecutor⟩ := RoomExecutor.take_eq_some htake
    have hshard : r.executor.shardFor task.table = shard :=
      hsharded shard task (htasks ▸ List.mem_cons_self)
    have hafter : (r.finish executor task reply room').executor =
        r.executor.setShard shard { r.executor.shard shard with tasks := rest } := hexecutor
    refine ⟨?_, fun table => ?_⟩
    · unfold Sharded
      rw [hafter]
      exact sharded_setShard hsharded fun t ht =>
        hsharded shard t (htasks ▸ List.mem_cons_of_mem _ ht)
    · rw [waitingFor_setShard hafter hlt]
      simp only [runsFor, acceptsFor, Option.toList_none, List.append_nil]
      by_cases htable : task.table = table
      · subst htable
        rw [if_pos rfl, if_pos hshard, waitingFor, hshard, htasks, List.filter_cons,
          if_pos (by simp)]
        rfl
      · rw [if_neg htable, Option.toList_none, List.nil_append, waitingFor]
        split
        · rename_i heq
          rw [heq, htasks, List.filter_cons, if_neg (by simpa using htable)]
        · rfl
  | stop shard =>
    refine ⟨?_, fun table => ?_⟩
    · intro i task htask
      rw [RoomExecutor.tasks_stopShard] at htask
      exact (RoomExecutor.shardFor_setShard ..).trans (hsharded i task htask)
    · simp only [runsFor, acceptsFor, Option.toList_none, List.nil_append, List.append_nil]
      unfold waitingFor
      simp only [RoomExecutor.tasks_stopShard]
      rw [RoomExecutor.stopShard, RoomExecutor.shardFor_setShard]

theorem ordered_run {s : Rooms} {trace : RoomsTrace} (hr : Run RoomsStep s trace r)
    (hsharded : s.Sharded) (hempty : ∀ table, s.waitingFor table = []) :
    r.Sharded ∧ ∀ table, acceptedFor table trace = ranFor table trace ++ r.waitingFor table := by
  induction hr with
  | nil => exact ⟨hsharded, fun table => (hempty table).symm⟩
  | @snoc trace t u event hr hs ih =>
    obtain ⟨hsharded, horder⟩ := ih
    obtain ⟨hsharded', hstep⟩ := waiting_step hsharded hs
    refine ⟨hsharded', fun table => ?_⟩
    have hone (f : RoomsEvent → Option Nat) :
        (trace ++ [⟨t, event, u⟩] : RoomsTrace).filterMap (fun e => f e.label) =
          trace.filterMap (fun e => f e.label) ++ (f event).toList := by
      rw [List.filterMap_append]
      cases h : f event <;> simp [h]
    have haccepted : acceptedFor table (trace ++ [⟨t, event, u⟩]) =
        acceptedFor table trace ++ (acceptsFor table event).toList := hone _
    have hran : ranFor table (trace ++ [⟨t, event, u⟩]) =
        ranFor table trace ++ (runsFor table event).toList := hone _
    rw [haccepted, hran, horder, List.append_assoc, List.append_assoc, hstep]

/-! ## Along a run -/

theorem answered_run {s : Rooms} {trace : RoomsTrace} (hr : Run RoomsStep s trace r) :
    ∃ more, r.answered = s.answered ++ more := by
  induction hr with
  | nil => exact ⟨[], (List.append_nil _).symm⟩
  | snoc _ hs ih =>
    obtain ⟨more, hmore⟩ := ih
    obtain ⟨last, hlast⟩ := answered_grows hs
    exact ⟨more ++ last, by rw [hlast, hmore, List.append_assoc]⟩

/-- What an event of a run has answered stays answered. -/
theorem answered_of_event {s : Rooms} {trace : RoomsTrace} (hr : Run RoomsStep s trace r)
    {e : Step Rooms RoomsEvent} (he : e ∈ trace) {call : Nat}
    (hcall : answersNow e.label = some call) : call ∈ r.answeredCalls := by
  obtain ⟨before, after, rfl⟩ := List.append_of_mem he
  obtain ⟨-, hs, hafter⟩ := hr.split
  obtain ⟨more, hmore⟩ := answered_run hafter
  rw [answeredCalls, hmore, List.map_append]
  exact List.mem_append_left _ (answered_now hs hcall)

/-- A closed room stays as it is. -/
theorem frozen_run {s : Rooms} {trace : RoomsTrace} (hr : Run RoomsStep s trace r) {i : Nat}
    {room : Room} (h : s.instances[i]? = some room) (hclosed : room.closed = true) :
    r.instances[i]? = some room := by
  induction hr with
  | nil => exact h
  | snoc _ hs ih =>
    obtain ⟨room', hroom', hsame, -⟩ := instances_step hs ih
    rw [hroom', hsame hclosed]

/-- `closeTable` closes the room the table id stands for. -/
theorem closeTable_closes (h : r.Lodged) {table : TableId} {i : Nat}
    (hi : r.findRoom table = some i) : ∃ room : Room, r.instances[i]? = some room ∧
      (r.closeTable table).2.instances[i]? = some { room with closed := true } := by
  obtain ⟨room, hroom, -⟩ := h.registered table i hi
  refine ⟨room, hroom, ?_⟩
  simp only [closeTable, hi]
  rw [List.getElem?_modify_eq, hroom]
  rfl

/-- **What a task that runs does**: it reports once, and changes the table of no room but the one
it has captured; and that one only where its table id still stands for it. -/
theorem work_effect (h : r.Lodged) {task : PostedTask} {reply : Option Reply}
    (hs : RoomsStep r (.work task reply) r') :
    (∀ i, i ≠ task.room → r'.instances[i]? = r.instances[i]?) ∧
    (∀ room, r.instances[task.room]? = some room → room.closed = true →
      ∃ answer, reply = some answer ∧ answer.code = .serviceUnavailable) ∧
    (r'.instances ≠ r.instances → r.findRoom task.table = some task.room) := by
  generalize hevent : RoomsEvent.work task reply = event at hs
  cases hs with
  | @work shard t executor room room' answer htake hroom hrun =>
    obtain ⟨rfl, rfl⟩ := RoomsEvent.work.inj hevent
    refine ⟨fun i hi => List.getElem?_set_ne (Ne.symm hi), ?_, ?_⟩
    · intro before hbefore hclosed
      obtain rfl := Option.some.inj (hbefore.symm.trans hroom)
      rw [Room.run_of_closed hclosed] at hrun
      obtain ⟨rfl, -⟩ := Prod.mk.inj (Except.ok.inj hrun)
      refine ⟨_, rfl, ?_⟩
      cases task.op <;> rfl
    · intro hchanged
      have hpending : task ∈ r.executor.pending :=
        (RoomExecutor.pending_take htake).mem_iff.mpr List.mem_cons_self
      obtain ⟨before, hbefore, hopen⟩ := h.captured task (Or.inr hpending)
      obtain rfl := Option.some.inj (hbefore.symm.trans hroom)
      refine hopen (Bool.not_eq_true _ ▸ fun hclosed => hchanged ?_)
      rw [Room.run_of_closed hclosed] at hrun
      obtain ⟨-, rfl⟩ := Prod.mk.inj (Except.ok.inj hrun)
      obtain ⟨hlt, rfl⟩ := List.getElem?_eq_some_iff.mp hroom
      exact List.set_getElem_self hlt
  | createTable | closeTable | missing | found | post | stop => exact absurd hevent (by simp)

theorem mem_looked_of_post {task : PostedTask} {accepted : Bool}
    (hs : RoomsStep r (.post task accepted) r') : task ∈ r.looked := by
  generalize hevent : RoomsEvent.post task accepted = event at hs
  cases hs with
  | post hlooked =>
    obtain ⟨rfl, -⟩ := RoomsEvent.post.inj hevent
    rw [hlooked]
    exact List.mem_append_right _ List.mem_cons_self
  | createTable | closeTable | missing | found | work | stop => exact absurd hevent (by simp)

theorem eq_of_closeTable {table : TableId} {found : Bool}
    (hs : RoomsStep r (.closeTable table found) r') : r' = (r.closeTable table).2 := by
  generalize hevent : RoomsEvent.closeTable table found = event at hs
  cases hs with
  | closeTable t =>
    obtain ⟨rfl, -⟩ := RoomsEvent.closeTable.inj hevent
    rfl
  | createTable | post | missing | found | work | stop => exact absurd hevent (by simp)

/-- The worker of a shard with waiting tasks runs the first one, unless that task evaluates a card
outside the enumerations. -/
theorem work_or_uncounted (h : r.Lodged) {shard : Nat} {task : PostedTask} {rest : List PostedTask}
    (htasks : (r.executor.shard shard).tasks = task :: rest) :
    (∃ reply r', RoomsStep r (.work task reply) r') ∨
      ∃ room tableOp, r.instances[task.room]? = some room ∧
        task.op.operation room.table = some tableOp ∧
        ∃ card ∈ room.table.inPlay ++ tableOp.cards, ¬ card.Counted := by
  have htake : r.executor.take shard =
      some (task, r.executor.setShard shard { r.executor.shard shard with tasks := rest }) := by
    rw [RoomExecutor.take, htasks]
  have hpending : task ∈ r.executor.pending :=
    (RoomExecutor.pending_take htake).mem_iff.mpr List.mem_cons_self
  obtain ⟨room, hroom, -⟩ := h.captured task (Or.inr hpending)
  obtain ⟨config, hreach⟩ := h.reached _ room hroom
  rcases Room.run_returns_or hreach task.op with ⟨reply, room', hrun⟩ | ⟨tableOp, hop, hcard⟩
  · exact Or.inl ⟨reply, _, .work htake hroom hrun⟩
  · exact Or.inr ⟨room, tableOp, hroom, hop, hcard⟩

section Run

variable {executor : RoomExecutor PostedTask} {shardCount maxPending : Nat} {trace : RoomsTrace}

theorem shard_create (hnew : RoomExecutor.create shardCount maxPending = .ok executor) (i : Nat) :
    (executor.shard i).tasks = [] := by
  unfold RoomExecutor.create at hnew
  split at hnew
  · exact absurd hnew (by simp)
  · obtain rfl := Except.ok.inj hnew
    rw [RoomExecutor.shard, List.getD_eq_getElem?_getD, List.getElem?_replicate]
    split <;> rfl

theorem pending_create (hnew : RoomExecutor.create shardCount maxPending = .ok executor) :
    executor.pending = [] := by
  unfold RoomExecutor.create at hnew
  split at hnew
  · exact absurd hnew (by simp)
  · obtain rfl := Except.ok.inj hnew
    rw [RoomExecutor.pending, List.flatMap_eq_nil_iff]
    intro s hs
    rw [List.eq_of_mem_replicate hs]

theorem lodged_run (hnew : RoomExecutor.create shardCount maxPending = .ok executor)
    (hr : Run RoomsStep { executor } trace r) : r.Lodged :=
  hr.invariant (lodged_empty executor (pending_create hnew)) fun _ _ _ h hs => h.step hs

theorem accounted_run (hnew : RoomExecutor.create shardCount maxPending = .ok executor)
    (hr : Run RoomsStep { executor } trace r) : r.answeredCalls.Nodup := by
  have haccounted : r.Accounted := hr.invariant (I := Accounted)
    (fun call => by simp [answeredCalls, pending_create hnew]) fun _ _ _ h hs => accounted_step h hs
  rw [List.nodup_iff_count_le_one]
  intro call
  have hcall := haccounted call
  have hrange := List.nodup_iff_count_le_one.mp (List.nodup_range (n := r.calls)) call
  omega

/-- A task affects the room its table id stood for when it was posted, and no other. -/
theorem isolated_run (hnew : RoomExecutor.create shardCount maxPending = .ok executor)
    (hr : Run RoomsStep { executor } trace r) {before between after : RoomsTrace}
    {posted ran : Step Rooms RoomsEvent} {task : PostedTask} {reply : Option Reply}
    (hsplit : trace = before ++ posted :: (between ++ ran :: after))
    (hposted : posted.label = .post task true) (hran : ran.label = .work task reply) :
    (∀ i, i ≠ task.room → ran.after.instances[i]? = ran.before.instances[i]?) ∧
      (ran.after.instances ≠ ran.before.instances →
        posted.before.findRoom task.table = some task.room ∧
          ran.before.findRoom task.table = some task.room) := by
  subst hsplit
  obtain ⟨hbefore, hpost, hrest⟩ := hr.split
  obtain ⟨hbetween, hwork, -⟩ := hrest.split
  have hlodged := lodged_run hnew hbefore
  have hlodged' : ran.before.Lodged :=
    hbetween.invariant (hlodged.step hpost) fun _ _ _ h hs => h.step hs
  rw [hran] at hwork
  obtain ⟨hother, -, hchanged⟩ := work_effect hlodged' hwork
  refine ⟨hother, fun hne => ⟨?_, hchanged hne⟩⟩
  -- the room was open when the task was posted, for a closed one stays closed
  have hmem : task ∈ posted.before.looked := mem_looked_of_post (hposted ▸ hpost)
  obtain ⟨room, hroom, hopen⟩ := hlodged.captured task (Or.inl hmem)
  refine hopen (Bool.not_eq_true _ ▸ fun hclosed => ?_)
  obtain ⟨room', hroom', hsame, -⟩ := instances_step hpost hroom
  obtain rfl := hsame hclosed
  have hlater := frozen_run hbetween hroom' hclosed
  obtain ⟨now, hnow, hnowOpen⟩ := hlodged'.registered _ _ (hchanged hne)
  obtain rfl := Option.some.inj (hlater.symm.trans hnow)
  rw [hclosed] at hnowOpen
  exact absurd hnowOpen (by simp)

/-- After `closeTable` no task changes the room's table or reports anything but that the service is
unavailable. -/
theorem closed_run (hnew : RoomExecutor.create shardCount maxPending = .ok executor)
    (hr : Run RoomsStep { executor } trace r) {before after : RoomsTrace}
    {closing : Step Rooms RoomsEvent} {table : TableId} {found : Bool} {i : Nat}
    (hsplit : trace = before ++ closing :: after)
    (hclosing : closing.label = .closeTable table found)
    (hi : closing.before.findRoom table = some i) :
    ∃ room : Room, closing.before.instances[i]? = some room ∧ ∀ e ∈ after,
      e.after.instances[i]? = some { room with closed := true } ∧
      ∀ task reply, e.label = .work task reply → task.room = i →
        ∃ answer, reply = some answer ∧ answer.code = .serviceUnavailable := by
  subst hsplit
  obtain ⟨hbefore, hclose, hafter⟩ := hr.split
  have hlodged := lodged_run hnew hbefore
  obtain ⟨room, hroom, hclosed⟩ := closeTable_closes hlodged hi
  have hstate : closing.after = (closing.before.closeTable table).2 :=
    eq_of_closeTable (hclosing ▸ hclose)
  rw [← hstate] at hclosed
  refine ⟨room, hroom, fun e he => ?_⟩
  obtain ⟨early, late, rfl⟩ := List.append_of_mem he
  obtain ⟨hearly, hs, -⟩ := hafter.split
  have hnow := frozen_run hearly hclosed rfl
  obtain ⟨room', hroom', hsame, -⟩ := instances_step hs hnow
  refine ⟨by rw [hroom', hsame rfl], fun task reply hlabel htask => ?_⟩
  have hlodged' : e.before.Lodged :=
    hearly.invariant (hlodged.step hclose) fun _ _ _ h hs => h.step hs
  rw [hlabel] at hs
  obtain ⟨-, hanswer, -⟩ := work_effect hlodged' hs
  exact hanswer _ (htask ▸ hnow) rfl

/-- An accepted task whose queue has drained has been answered. -/
theorem answered_of_drained (hnew : RoomExecutor.create shardCount maxPending = .ok executor)
    (hr : Run RoomsStep { executor } trace r) {e : Step Rooms RoomsEvent} (he : e ∈ trace)
    {task : PostedTask} (hlabel : e.label = .post task true)
    (hdrained : (r.executor.shard (r.executor.shardFor task.table)).tasks = []) :
    task.call ∈ r.answeredCalls := by
  have hempty : ∀ table, ({ executor : Rooms }).waitingFor table = [] := fun table => by
    rw [waitingFor, shard_create hnew]
    rfl
  obtain ⟨-, horder⟩ := ordered_run hr (fun i t ht => absurd ht (by simp [shard_create hnew]))
    hempty
  have haccepted : task.call ∈ acceptedFor task.table trace :=
    List.mem_filterMap.mpr ⟨e, he, by rw [hlabel]; exact if_pos rfl⟩
  rw [horder, waitingFor, hdrained, List.filter_nil, List.map_nil, List.append_nil] at haccepted
  obtain ⟨e', he', hran⟩ := List.mem_filterMap.mp haccepted
  refine answered_of_event hr he' ?_
  unfold runsFor at hran
  split at hran
  · rename_i t reply hwork
    rw [hwork]
    split at hran
    · exact hran
    · exact absurd hran (by simp)
  · exact absurd hran (by simp)

/-- **Rooms are serial, closed rooms are frozen, every call is answered once.** -/
theorem rooms_serial (hnew : RoomExecutor.create shardCount maxPending = .ok executor)
    (hr : Run RoomsStep { executor } trace r) :
    (∀ table, acceptedFor table trace = ranFor table trace ++ r.waitingFor table) ∧
    (∀ before posted between ran after task reply,
      trace = before ++ posted :: (between ++ ran :: after) → posted.label = .post task true →
      ran.label = .work task reply →
        (∀ i : Nat, i ≠ task.room → ran.after.instances[i]? = ran.before.instances[i]?) ∧
        (ran.after.instances ≠ ran.before.instances →
          posted.before.findRoom task.table = some task.room ∧
            ran.before.findRoom task.table = some task.room)) ∧
    (∀ e ∈ trace, (∀ task reply, e.label ≠ .work task reply) → ∀ (i : Nat) (room : Room),
      e.before.instances[i]? = some room →
        ∃ room' : Room, e.after.instances[i]? = some room' ∧ room'.table = room.table) ∧
    (∀ before closing after table found i, trace = before ++ closing :: after →
      closing.label = .closeTable table found → closing.before.findRoom table = some i →
        ∃ room : Room, closing.before.instances[i]? = some room ∧ ∀ e ∈ after,
          e.after.instances[i]? = some { room with closed := true } ∧
          ∀ task reply, e.label = .work task reply → task.room = i →
            ∃ answer, reply = some answer ∧ answer.code = .serviceUnavailable) ∧
    (∀ call, r.answeredCalls.count call ≤ 1) ∧
    (∀ e ∈ trace, ∀ call, (e.label = .missing call ∨
        ∃ task, e.label = .post task false ∧ task.call = call) →
      r.answeredCalls.count call = 1) ∧
    (∀ e ∈ trace, ∀ task, e.label = .post task true →
      (r.executor.shard (r.executor.shardFor task.table)).tasks = [] →
        r.answeredCalls.count task.call = 1) ∧
    ∀ shard task rest, (r.executor.shard shard).tasks = task :: rest →
      (∃ reply r', RoomsStep r (.work task reply) r') ∨
        ∃ room tableOp, r.instances[task.room]? = some room ∧
          task.op.operation room.table = some tableOp ∧
          ∃ card ∈ room.table.inPlay ++ tableOp.cards, ¬ card.Counted := by
  have hnodup := accounted_run hnew hr
  have hempty : ∀ table, ({ executor : Rooms }).waitingFor table = [] := fun table => by
    rw [waitingFor, shard_create hnew]
    rfl
  obtain ⟨-, horder⟩ := ordered_run hr (fun i t ht => absurd ht (by simp [shard_create hnew]))
    hempty
  refine ⟨horder, ?_, ?_, ?_, List.nodup_iff_count_le_one.mp hnodup, ?_, ?_, ?_⟩
  · intro before posted between ran after task reply hsplit hposted hran
    exact isolated_run hnew hr hsplit hposted hran
  · intro e he hquiet i room hroom
    obtain ⟨room', hroom', -, hsame⟩ := instances_step (hr.entry he).2 hroom
    exact ⟨room', hroom', hsame fun task reply hlabel => absurd hlabel (hquiet task reply)⟩
  · intro before closing after table found i hsplit hclosing hi
    exact closed_run hnew hr hsplit hclosing hi
  · intro e he call hlabel
    refine List.count_eq_one_of_mem hnodup (answered_of_event hr he ?_)
    rcases hlabel with hlabel | ⟨task, hlabel, rfl⟩
    · rw [hlabel]
      rfl
    · rw [hlabel]
      rfl
  · intro e he task hlabel hdrained
    exact List.count_eq_one_of_mem hnodup (answered_of_drained hnew hr he hlabel hdrained)
  · intro shard task rest htasks
    exact work_or_uncounted (lodged_run hnew hr) htasks

end Run

/-! ## A run that can be computed -/

/-- A call of one thread, the oldest call that is about to post, or a worker. -/
inductive Turn where
  | createTable (table : TableId) (config : TableConfig)
  | closeTable (table : TableId)
  | call (table : TableId) (op : RoomCall)
  | post
  | work (shard : Nat)

def perform (r : Rooms) : Turn → Option (RoomsEvent × Rooms)
  | .createTable table config =>
    some (.createTable table (r.createTable table config).1, (r.createTable table config).2)
  | .closeTable table => some (.closeTable table (r.closeTable table).1, (r.closeTable table).2)
  | .call table op =>
    match r.findRoom table with
    | none => some (.missing r.calls, r.rejectMissing op)
    | some room => some (.found ⟨r.calls, table, room, op⟩, r.look table room op)
  | .post =>
    match r.looked with
    | [] => none
    | task :: after => some (.post task (r.post [] after task).1, (r.post [] after task).2)
  | .work shard => do
    let (task, executor) ← r.executor.take shard
    let room ← r.instances[task.room]?
    let (reply, room') ← (Room.run task.op true room).toOption
    pure (.work task reply, r.finish executor task reply room')

theorem perform_step (r : Rooms) (turn : Turn) (event : RoomsEvent) (r' : Rooms)
    (h : r.perform turn = some (event, r')) : RoomsStep r event r' := by
  cases turn with
  | createTable table config =>
    obtain ⟨rfl, rfl⟩ := Prod.mk.inj (Option.some.inj h)
    exact .createTable r table config
  | closeTable table =>
    obtain ⟨rfl, rfl⟩ := Prod.mk.inj (Option.some.inj h)
    exact .closeTable r table
  | call table op =>
    rw [perform] at h
    split at h
    · rename_i hnone
      obtain ⟨rfl, rfl⟩ := Prod.mk.inj (Option.some.inj h)
      exact .missing op hnone
    · rename_i room hroom
      obtain ⟨rfl, rfl⟩ := Prod.mk.inj (Option.some.inj h)
      exact .found op hroom
  | post =>
    rw [perform] at h
    split at h
    · exact absurd h (by simp)
    · rename_i task after hlooked
      obtain ⟨rfl, rfl⟩ := Prod.mk.inj (Option.some.inj h)
      exact .post (by rw [hlooked, List.nil_append])
  | work shard =>
    obtain ⟨⟨task, executor⟩, htake, h⟩ := Option.bind_eq_some_iff.mp h
    obtain ⟨room, hroom, h⟩ := Option.bind_eq_some_iff.mp h
    obtain ⟨⟨reply, room'⟩, hrun, h⟩ := Option.bind_eq_some_iff.mp h
    obtain ⟨rfl, rfl⟩ := Prod.mk.inj (Option.some.inj h)
    refine .work htake hroom ?_
    cases hresult : Room.run task.op true room with
    | error fault => rw [hresult] at hrun; exact absurd hrun (by simp [Except.toOption])
    | ok result => rw [hresult] at hrun; exact congrArg Except.ok (Option.some.inj hrun)

/-- One shard: a player sits down, a second call is queued, the table is closed and made again, and
the queued call finds its room closed. -/
theorem rooms_serial_closed :
    ∃ (executor : RoomExecutor PostedTask) (trace : RoomsTrace) (r : Rooms),
    RoomExecutor.create 1 16 = .ok executor ∧ Run RoomsStep { executor } trace r ∧
      trace.length = 9 ∧ ranFor 89 trace = [0, 1] ∧
      acceptedFor 89 trace = ranFor 89 trace ++ r.waitingFor 89 ∧
      r.answeredCalls.count 0 = 1 ∧ r.answeredCalls.count 1 = 1 := by
  obtain ⟨executor, hnew, rfl⟩ : ∃ executor : RoomExecutor PostedTask,
      RoomExecutor.create 1 16 = .ok executor ∧ executor = ⟨[{}], 16, by simp, by simp⟩ :=
    ⟨_, rfl, rfl⟩
  have hcheck : (replay perform ({ executor := ⟨[{}], 16, by simp, by simp⟩ } : Rooms)
      [.createTable 89 {}, .call 89 (.seatPlayer 1 0 2000), .post, .work 0,
        .call 89 (.seatPlayer 2 1 2000), .post, .closeTable 89, .createTable 89 {}, .work 0]).any
      (fun run => decide (run.1.length = 9 ∧ ranFor 89 run.1 = [0, 1] ∧
        (run.2.executor.shard (run.2.executor.shardFor 89)).tasks.isEmpty = true ∧
        acceptedFor 89 run.1 = [0, 1])) = true := by
    decide +kernel
  obtain ⟨⟨trace, r⟩, hrun, hfacts⟩ := (Option.any_eq_true _ _).mp hcheck
  obtain ⟨hlength, hran, hempty, haccepted⟩ := of_decide_eq_true hfacts
  have hr := replay_run perform_step hrun
  obtain ⟨horder, -, -, -, -, -, honce, -⟩ := rooms_serial hnew hr
  have hanswered : ∀ call ∈ acceptedFor 89 trace, r.answeredCalls.count call = 1 := by
    intro call hcall
    obtain ⟨e, he, haccepts⟩ := List.mem_filterMap.mp hcall
    obtain ⟨task, hlabel, htable, rfl⟩ := eq_of_acceptsFor haccepts
    exact honce e he task hlabel (htable ▸ List.isEmpty_iff.mp hempty)
  rw [haccepted] at hanswered
  exact ⟨_, trace, r, hnew, hr, hlength, hran, horder 89, hanswered 0 (by simp),
    hanswered 1 (by simp)⟩

end Rooms

end PokerServer
