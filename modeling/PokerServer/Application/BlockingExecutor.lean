import Mathlib.Algebra.Ring.Nat
import PokerServer.Lib.Runs

/-!
# The blocking executor

Model of `src/poker/application/blocking_executor.cpp`, over any type of tasks: one bounded queue
and a pool of workers that wait for it at a condition variable. What happens under the mutex is one
step, and what follows after the mutex is given back is another: `post` and `stop` notify in a step
of their own (`notices`, `alarms`), so that workers run in between. `notify_one` wakes any one of
the workers that wait, and a worker can wake without being notified.

A worker looks at its task only after it gave the mutex back, so that tasks overlap and end in any
order. A task that throws ends like one that returns: the handler sees the exception, and the worker
goes on.

* `tasks_run_once_in_order`: the accepted tasks are started in the order they were posted in, each
  by one worker, and none is slept through: where no worker can go on, every accepted task has
  ended. When the workers have been joined, too, and nothing was accepted after `stop`.
-/

namespace PokerServer

/-- Where a worker is in `run`. -/
inductive Worker (T : Type) where
  /-- About to lock the mutex and look at the queue. -/
  | locking
  /-- Blocked in `ready_.wait`. -/
  | waiting
  | running (task : T)
  | returned
  deriving DecidableEq

structure BlockingExecutor (T : Type) where
  maxPending : Nat
  tasks : List T := []
  workers : List (Worker T)
  stopping : Bool := false
  /-- Posts that have not called `notify_one` yet. -/
  notices : Nat := 0
  /-- Stops that have not called `notify_all` yet. -/
  alarms : Nat := 0
  roomy : 0 < maxPending
  staffed : 0 < workers.length

inductive PoolEvent (T : Type) where
  | post (task : T)
  | notifyOne (woken : Option Nat)
  | stop
  | notifyAll
  | wake (i : Nat)
  | lock (i : Nat)
  | finish (i : Nat) (threw : Bool)

variable {T : Type}

namespace Worker

def task? : Worker T → Option T
  | running task => some task
  | _ => none

def isWaiting : Worker T → Bool
  | waiting => true
  | _ => false

/-- A worker that will look at the queue by itself. -/
def Busy (w : Worker T) : Prop := w = locking ∨ ∃ task, w = running task

/-- What `notify_all` does to a worker. -/
def notified : Worker T → Worker T
  | waiting => locking
  | w => w

theorem busy_or_idle (w : Worker T) : w.Busy ∨ w = waiting ∨ w = returned := by
  cases w with
  | locking => exact Or.inl (Or.inl rfl)
  | running task => exact Or.inl (Or.inr ⟨task, rfl⟩)
  | waiting => exact Or.inr (Or.inl rfl)
  | returned => exact Or.inr (Or.inr rfl)

/-- How often a worker will still lock the mutex or end a task before it waits. -/
def work : Worker T → Nat
  | locking => 1
  | running _ => 2
  | _ => 0

theorem work_notified (w : Worker T) : w.notified.work ≤ w.work + 1 := by
  cases w <;> simp [notified, work]

end Worker

namespace BlockingExecutor

theorem maxPending_pos {threadCount maxPending : Nat}
    (h : ¬ (threadCount = 0 ∨ maxPending = 0)) : 0 < maxPending := by
  omega

theorem workers_pos {threadCount maxPending : Nat} (h : ¬ (threadCount = 0 ∨ maxPending = 0))
    (w : Worker T) : 0 < (List.replicate threadCount w).length := by
  rw [List.length_replicate]
  omega

/-- The constructor. -/
def create (threadCount maxPending : Nat) : Except String (BlockingExecutor T) :=
  if h : threadCount = 0 ∨ maxPending = 0 then
    .error "blocking executor requires positive thread and queue sizes"
  else
    .ok { maxPending
          workers := List.replicate threadCount .locking
          roomy := maxPending_pos h
          staffed := workers_pos h .locking }

def setWorker (e : BlockingExecutor T) (i : Nat) (w : Worker T) : BlockingExecutor T :=
  { e with
    workers := e.workers.set i w
    staffed := by rw [List.length_set]; exact e.staffed }

/-- `post` of a task that is not empty, up to `notify_one`. -/
def post (e : BlockingExecutor T) (task : T) : Bool × BlockingExecutor T :=
  if e.stopping ∨ e.maxPending ≤ e.tasks.length then (false, e)
  else (true, { e with tasks := e.tasks ++ [task], notices := e.notices + 1 })

def notifyOne (e : BlockingExecutor T) (woken : Option Nat) : Option (BlockingExecutor T) :=
  if e.notices = 0 then none
  else
    match woken with
    | none =>
      if e.workers.any Worker.isWaiting then none else some { e with notices := e.notices - 1 }
    | some i =>
      match e.workers[i]? with
      | some .waiting => some { e.setWorker i .locking with notices := e.notices - 1 }
      | _ => none

/-- `stop`, up to `notify_all`. Then it joins the workers. -/
def stop (e : BlockingExecutor T) : BlockingExecutor T :=
  { e with stopping := true, alarms := e.alarms + 1 }

def notifyAll (e : BlockingExecutor T) : Option (BlockingExecutor T) :=
  if e.alarms = 0 then none
  else
    some { e with
      workers := e.workers.map Worker.notified
      alarms := e.alarms - 1
      staffed := by rw [List.length_map]; exact e.staffed }

/-- `run` while it holds the mutex: the worker takes the front of the queue, returns, or waits. -/
def lock (e : BlockingExecutor T) (i : Nat) : Option (BlockingExecutor T) :=
  match e.workers[i]? with
  | some .locking =>
    match e.tasks with
    | task :: tasks => some { e.setWorker i (.running task) with tasks }
    | [] => some (e.setWorker i (if e.stopping then .returned else .waiting))
  | _ => none

def wake (e : BlockingExecutor T) (i : Nat) : Option (BlockingExecutor T) :=
  match e.workers[i]? with
  | some .waiting => some (e.setWorker i .locking)
  | _ => none

/-- The task of a worker ends, by returning or by throwing. -/
def finish (e : BlockingExecutor T) (i : Nat) : Option (BlockingExecutor T) :=
  match e.workers[i]? with
  | some (.running _) => some (e.setWorker i .locking)
  | _ => none

def pending (e : BlockingExecutor T) : Nat := e.tasks.length

def exec (e : BlockingExecutor T) : PoolEvent T → Option (BlockingExecutor T)
  | .post task => some (e.post task).2
  | .notifyOne woken => e.notifyOne woken
  | .stop => some e.stop
  | .notifyAll => e.notifyAll
  | .wake i => e.wake i
  | .lock i => e.lock i
  | .finish i _ => e.finish i

def Works (e : BlockingExecutor T) (event : PoolEvent T) (e' : BlockingExecutor T) : Prop :=
  e.exec event = some e'

abbrev PoolTrace (T : Type) := List (Step (BlockingExecutor T) (PoolEvent T))

/-! ## What a trace tells -/

def acceptedAt (s : Step (BlockingExecutor T) (PoolEvent T)) : Option T :=
  match s.label with
  | .post task => if (s.before.post task).1 then some task else none
  | _ => none

def startedAt (s : Step (BlockingExecutor T) (PoolEvent T)) : Option T :=
  match s.label with
  | .lock _ => s.before.tasks.head?
  | _ => none

def finishedAt (s : Step (BlockingExecutor T) (PoolEvent T)) : Option T :=
  match s.label with
  | .finish i _ => s.before.workers[i]?.bind Worker.task?
  | _ => none

/-- The tasks that were posted and not refused, in that order. -/
def accepted (trace : PoolTrace T) : List T := trace.filterMap acceptedAt

/-- The tasks that workers took from the queue, in that order. -/
def started (trace : PoolTrace T) : List T := trace.filterMap startedAt

/-- The tasks that ended, in that order. -/
def finished (trace : PoolTrace T) : List T := trace.filterMap finishedAt

def runningTasks (e : BlockingExecutor T) : List T := e.workers.filterMap Worker.task?

def Stopped (trace : PoolTrace T) : Prop := ∃ s ∈ trace, s.label = .stop

/-- `stop` has joined the workers. -/
def Joined (e : BlockingExecutor T) : Prop := ∀ w ∈ e.workers, w = .returned

/-- What the pool does by itself, without new tasks. A worker that wakes without being notified
goes back to wait. -/
def Internal : PoolEvent T → Prop
  | .post _ | .stop | .wake _ => False
  | _ => True

/-! ## One step -/

variable {e e' : BlockingExecutor T} {i : Nat} {task : T}

theorem post_cases (e : BlockingExecutor T) (task : T) :
    (e.stopping = false ∧ e.tasks.length < e.maxPending ∧
      e.post task = (true, { e with tasks := e.tasks ++ [task], notices := e.notices + 1 })) ∨
    e.post task = (false, e) := by
  by_cases h : e.stopping ∨ e.maxPending ≤ e.tasks.length
  · exact Or.inr (if_pos h)
  · refine Or.inl ⟨?_, ?_, if_neg h⟩
    all_goals rw [not_or, Bool.not_eq_true] at h
    · exact h.1
    · exact Nat.lt_of_not_le h.2

theorem notifyOne_cases {woken : Option Nat} (h : e.notifyOne woken = some e') :
    0 < e.notices ∧
      (((∀ w ∈ e.workers, w ≠ .waiting) ∧ e' = { e with notices := e.notices - 1 }) ∨
        ∃ i, e.workers[i]? = some .waiting ∧
          e' = { e.setWorker i .locking with notices := e.notices - 1 }) := by
  unfold notifyOne at h
  split at h
  · cases h
  · refine ⟨by omega, ?_⟩
    cases woken with
    | none =>
      simp only at h
      split at h
      · cases h
      · rename_i hany
        refine Or.inl ⟨fun w hw hwaiting => hany ?_, (Option.some.inj h).symm⟩
        exact List.any_eq_true.mpr ⟨w, hw, by rw [hwaiting, Worker.isWaiting]⟩
    | some i =>
      simp only at h
      split at h
      · rename_i hi
        exact Or.inr ⟨i, hi, (Option.some.inj h).symm⟩
      · cases h

theorem notifyAll_cases (h : e.notifyAll = some e') :
    0 < e.alarms ∧ e'.workers = e.workers.map Worker.notified ∧ e'.alarms = e.alarms - 1 ∧
      e'.tasks = e.tasks ∧ e'.notices = e.notices ∧ e'.stopping = e.stopping ∧
      e'.maxPending = e.maxPending := by
  rw [notifyAll] at h
  split at h
  · cases h
  · obtain rfl := Option.some.inj h
    exact ⟨by omega, rfl, rfl, rfl, rfl, rfl, rfl⟩

theorem lock_cases (h : e.lock i = some e') :
    e.workers[i]? = some .locking ∧
      ((∃ task tasks, e.tasks = task :: tasks ∧
          e' = { e.setWorker i (.running task) with tasks }) ∨
        e.tasks = [] ∧ e' = e.setWorker i (if e.stopping then .returned else .waiting)) := by
  rw [lock] at h
  split at h
  · rename_i hi
    refine ⟨hi, ?_⟩
    split at h
    · rename_i task tasks htasks
      exact Or.inl ⟨task, tasks, htasks, (Option.some.inj h).symm⟩
    · rename_i htasks
      exact Or.inr ⟨htasks, (Option.some.inj h).symm⟩
  · cases h

theorem wake_cases (h : e.wake i = some e') :
    e.workers[i]? = some .waiting ∧ e' = e.setWorker i .locking := by
  rw [wake] at h
  split at h
  · rename_i hi
    exact ⟨hi, (Option.some.inj h).symm⟩
  · cases h

theorem finish_cases (h : e.finish i = some e') :
    ∃ task, e.workers[i]? = some (.running task) ∧ e' = e.setWorker i .locking := by
  rw [finish] at h
  split at h
  · rename_i task hi
    exact ⟨task, hi, (Option.some.inj h).symm⟩
  · cases h

/-- Where a worker stands in the pool, and the pool with another in its place. -/
theorem workers_split {w : Worker T} (h : e.workers[i]? = some w) :
    ∃ early late, e.workers = early ++ w :: late ∧
      ∀ w', (e.setWorker i w').workers = early ++ w' :: late := by
  obtain ⟨hi, rfl⟩ := List.getElem?_eq_some_iff.mp h
  refine ⟨e.workers.take i, e.workers.drop (i + 1), ?_, fun w' => ?_⟩
  · rw [← List.drop_eq_getElem_cons hi, List.take_append_drop]
  · simp only [setWorker, List.set_eq_take_append_cons_drop, if_pos hi]

/-! ## The tasks -/

theorem runningTasks_split {w w' : Worker T} {early late : List (Worker T)}
    (h : e.workers = early ++ w :: late) (h' : e'.workers = early ++ w' :: late) :
    (w.task?.toList ++ e'.runningTasks).Perm (w'.task?.toList ++ e.runningTasks) := by
  have hmiddle : ∀ v : Worker T, ((early ++ v :: late).filterMap Worker.task?).Perm
      (v.task?.toList ++ (early ++ late).filterMap Worker.task?) := by
    intro v
    rw [List.filterMap_append, List.filterMap_append, List.filterMap_cons]
    cases v.task? with
    | none => exact List.Perm.refl _
    | some task => exact List.perm_middle
  rw [runningTasks, runningTasks, h, h']
  refine ((hmiddle w').append_left _).trans (List.Perm.trans ?_ ((hmiddle w).append_left _).symm)
  rw [← List.append_assoc, ← List.append_assoc]
  exact List.perm_append_comm.append_right _

/-- How a trace accounts for the tasks of the pool it leads to. -/
structure Accounts (trace : PoolTrace T) (e : BlockingExecutor T) : Prop where
  order : accepted trace = started trace ++ e.tasks
  once : (started trace).Perm (finished trace ++ e.runningTasks)

theorem accepted_snoc (trace : PoolTrace T) (s : Step (BlockingExecutor T) (PoolEvent T)) :
    accepted (trace ++ [s]) = accepted trace ++ (acceptedAt s).toList := by
  rw [accepted, List.filterMap_append, ← accepted]
  cases h : acceptedAt s <;> simp [h]

theorem started_snoc (trace : PoolTrace T) (s : Step (BlockingExecutor T) (PoolEvent T)) :
    started (trace ++ [s]) = started trace ++ (startedAt s).toList := by
  rw [started, List.filterMap_append, ← started]
  cases h : startedAt s <;> simp [h]

theorem finished_snoc (trace : PoolTrace T) (s : Step (BlockingExecutor T) (PoolEvent T)) :
    finished (trace ++ [s]) = finished trace ++ (finishedAt s).toList := by
  rw [finished, List.filterMap_append, ← finished]
  cases h : finishedAt s <;> simp [h]

/-- A step that neither accepts, starts nor ends a task keeps the account. -/
theorem Accounts.quiet {trace : PoolTrace T} {s : Step (BlockingExecutor T) (PoolEvent T)}
    (h : Accounts trace s.before) (haccepted : acceptedAt s = none) (hstarted : startedAt s = none)
    (hfinished : finishedAt s = none) (htasks : s.after.tasks = s.before.tasks)
    (hrunning : s.after.runningTasks.Perm s.before.runningTasks) :
    Accounts (trace ++ [s]) s.after := by
  constructor
  · rw [accepted_snoc, started_snoc, haccepted, hstarted, htasks]
    simpa using h.order
  · rw [started_snoc, finished_snoc, hstarted, hfinished]
    simpa using h.once.trans (hrunning.symm.append_left _)

theorem runningTasks_same {w w' : Worker T} {early late : List (Worker T)}
    (h : e.workers = early ++ w :: late) (h' : e'.workers = early ++ w' :: late)
    (hw : w.task? = none) (hw' : w'.task? = none) : e'.runningTasks.Perm e.runningTasks := by
  have hperm := runningTasks_split h h'
  rw [hw, hw'] at hperm
  exact hperm

theorem runningTasks_notified (h : e'.workers = e.workers.map Worker.notified) :
    e'.runningTasks = e.runningTasks := by
  rw [runningTasks, runningTasks, h, List.filterMap_map]
  congr 1
  funext w
  cases w <;> rfl

theorem Accounts.step {trace : PoolTrace T} {event : PoolEvent T} (h : Accounts trace e)
    (hs : Works e event e') : Accounts (trace ++ [⟨e, event, e'⟩]) e' := by
  cases event with
  | post task =>
    obtain rfl : (e.post task).2 = e' := Option.some.inj hs
    rcases post_cases e task with ⟨-, -, hpost⟩ | hpost
    · have haccepted : acceptedAt ⟨e, .post task, (e.post task).2⟩ = some task := by
        simp only [acceptedAt, hpost, if_true]
      constructor
      · rw [accepted_snoc, started_snoc, haccepted, hpost, h.order]
        simp [startedAt]
      · have hrunning : (e.post task).2.runningTasks = e.runningTasks := by
          rw [hpost]
          rfl
        rw [started_snoc, finished_snoc, hrunning]
        simpa [startedAt, finishedAt] using h.once
    · refine h.quiet ?_ rfl rfl ?_ ?_
      · simp [acceptedAt, hpost]
      · rw [hpost]
      · rw [hpost]
  | notifyOne woken =>
    obtain ⟨-, ⟨-, rfl⟩ | ⟨i, hi, rfl⟩⟩ := notifyOne_cases hs
    · exact h.quiet rfl rfl rfl rfl (List.Perm.refl _)
    · obtain ⟨early, late, hw, hset⟩ := workers_split hi
      exact h.quiet rfl rfl rfl rfl (runningTasks_same hw (hset _) rfl rfl)
  | stop =>
    obtain rfl : e.stop = e' := Option.some.inj hs
    exact h.quiet rfl rfl rfl rfl (List.Perm.refl _)
  | notifyAll =>
    obtain ⟨-, hworkers, -, htasks, -⟩ := notifyAll_cases hs
    refine h.quiet rfl rfl rfl htasks ?_
    rw [runningTasks_notified hworkers]
  | wake i =>
    obtain ⟨hi, rfl⟩ := wake_cases hs
    obtain ⟨early, late, hw, hset⟩ := workers_split hi
    exact h.quiet rfl rfl rfl rfl (runningTasks_same hw (hset _) rfl rfl)
  | lock i =>
    obtain ⟨hi, ⟨task, tasks, htasks, rfl⟩ | ⟨htasks, rfl⟩⟩ := lock_cases hs
    · obtain ⟨early, late, hw, hset⟩ := workers_split hi
      have hperm := runningTasks_split hw (hset (.running task))
      constructor
      · rw [accepted_snoc, started_snoc, h.order, htasks]
        simp [acceptedAt, startedAt, htasks]
      · rw [started_snoc, finished_snoc]
        simp only [startedAt, finishedAt, htasks, List.head?_cons, Option.toList_some,
          Option.toList_none, List.append_nil]
        refine (h.once.append_right _).trans ?_
        rw [List.append_assoc]
        exact (List.perm_append_comm.trans hperm.symm).append_left _
    · obtain ⟨early, late, hw, hset⟩ := workers_split hi
      refine h.quiet rfl ?_ rfl rfl (runningTasks_same hw (hset _) rfl ?_)
      · simp [startedAt, htasks]
      · split <;> rfl
  | finish i threw =>
    obtain ⟨task, hi, rfl⟩ := finish_cases hs
    obtain ⟨early, late, hw, hset⟩ := workers_split hi
    have hperm := runningTasks_split hw (hset .locking)
    constructor
    · rw [accepted_snoc, started_snoc, h.order]
      simp [acceptedAt, startedAt, setWorker]
    · rw [started_snoc, finished_snoc]
      simp only [startedAt, finishedAt, hi, Option.bind_some, Worker.task?, Option.toList_some,
        Option.toList_none, List.append_nil]
      rw [List.append_assoc]
      exact h.once.trans (hperm.symm.append_left _)

theorem accounts_run (hr : Run Works e trace e') (h : e.tasks = [] ∧ e.runningTasks = []) :
    Accounts trace e' := by
  induction hr with
  | nil => exact ⟨by rw [h.1]; rfl, by rw [h.2]; exact List.Perm.refl _⟩
  | snoc _ hs ih => exact ih.step hs

/-! ## The workers -/

/-- **No worker sleeps through what it waits for.** -/
structure Alert (e : BlockingExecutor T) : Prop where
  /-- A task that waits has a worker coming, or a notice that will send one. -/
  served : e.tasks ≠ [] → 0 < e.notices ∨ ∃ w ∈ e.workers, w.Busy
  alarmed : e.stopping = true → 0 < e.alarms ∨ .waiting ∉ e.workers
  drained : .returned ∈ e.workers → e.stopping = true ∧ e.tasks = []

/-- Where nobody waits, somebody looks at the queue by itself. -/
theorem Alert.busy (h : e.Alert) (htasks : e.tasks ≠ [])
    (hwaiting : ∀ w ∈ e.workers, w ≠ .waiting) :
    ∃ w ∈ e.workers, w.Busy := by
  obtain ⟨w, hw⟩ := List.exists_mem_of_length_pos e.staffed
  rcases w.busy_or_idle with hbusy | hidle | hreturned
  · exact ⟨w, hw, hbusy⟩
  · exact absurd hidle (hwaiting w hw)
  · exact absurd (h.drained (hreturned ▸ hw)).2 htasks

/-- A worker that looks at the queue by itself keeps the pool alert. -/
theorem Alert.of_busy (h : e.Alert) {w w' : Worker T} {early late : List (Worker T)}
    (hw : e.workers = early ++ w :: late) (hw' : e'.workers = early ++ w' :: late)
    (hbusy : w'.Busy) (hstopping : e'.stopping = e.stopping) (halarms : e'.alarms = e.alarms)
    (htasks : e.tasks = [] → e'.tasks = []) : e'.Alert := by
  have hother : ∀ v, v = .waiting ∨ v = .returned → v ∈ e'.workers → v ∈ e.workers := by
    rintro v hv hmem
    rw [hw', List.mem_append, List.mem_cons] at hmem
    rw [hw, List.mem_append, List.mem_cons]
    rcases hmem with hmem | rfl | hmem
    · exact Or.inl hmem
    · rcases hv with rfl | rfl <;> rcases hbusy with h | ⟨task, h⟩ <;> cases h
    · exact Or.inr (Or.inr hmem)
  refine ⟨fun _ => Or.inr ⟨w', ?_, hbusy⟩, fun hstop => ?_, fun hreturned => ?_⟩
  · rw [hw']
    simp
  · rw [hstopping] at hstop
    rw [halarms]
    exact (h.alarmed hstop).imp_right fun hnone hmem => hnone (hother _ (Or.inl rfl) hmem)
  · obtain ⟨hstop, hnone⟩ := h.drained (hother _ (Or.inr rfl) hreturned)
    exact ⟨hstopping.trans hstop, htasks hnone⟩

theorem Alert.step {event : PoolEvent T} (h : e.Alert) (hs : Works e event e') : e'.Alert := by
  cases event with
  | post task =>
    obtain rfl : (e.post task).2 = e' := Option.some.inj hs
    rcases post_cases e task with ⟨hopen, -, hpost⟩ | hpost
    · rw [hpost]
      refine ⟨fun _ => Or.inl (Nat.succ_pos _), fun hstop => ?_, fun hreturned => ?_⟩
      · exact absurd (hopen.symm.trans hstop) (by simp)
      · exact absurd (hopen.symm.trans (h.drained hreturned).1) (by simp)
    · rw [hpost]
      exact h
  | notifyOne woken =>
    obtain ⟨-, ⟨hwaiting, rfl⟩ | ⟨i, hi, rfl⟩⟩ := notifyOne_cases hs
    · exact ⟨fun htasks => Or.inr (h.busy htasks hwaiting), h.alarmed, h.drained⟩
    · obtain ⟨early, late, hw, hset⟩ := workers_split hi
      exact h.of_busy hw (hset _) (Or.inl rfl) rfl rfl fun htasks => htasks
  | stop =>
    obtain rfl : e.stop = e' := Option.some.inj hs
    refine ⟨h.served, fun _ => Or.inl (Nat.succ_pos _), fun hreturned => ?_⟩
    exact ⟨rfl, (h.drained hreturned).2⟩
  | notifyAll =>
    obtain ⟨-, hworkers, -, htasks, hnotices, hstopping, -⟩ := notifyAll_cases hs
    have hnone : Worker.waiting ∉ e'.workers := by
      rw [hworkers]
      rintro hmem
      obtain ⟨w, -, hw⟩ := List.mem_map.mp hmem
      cases w <;> cases hw
    have hreturned : Worker.returned ∈ e'.workers → Worker.returned ∈ e.workers := by
      rw [hworkers]
      rintro hmem
      obtain ⟨w, hw, hw'⟩ := List.mem_map.mp hmem
      cases w <;> cases hw'
      exact hw
    refine ⟨fun hwork => ?_, fun _ => Or.inr hnone, fun hmem => ?_⟩
    · rw [htasks] at hwork
      rw [hnotices, hworkers]
      refine (h.served hwork).imp_right ?_
      rintro ⟨w, hw, hbusy⟩
      refine ⟨_, List.mem_map_of_mem hw, ?_⟩
      rcases hbusy with rfl | ⟨task, rfl⟩
      · exact Or.inl rfl
      · exact Or.inr ⟨task, rfl⟩
    · rw [hstopping, htasks]
      exact h.drained (hreturned hmem)
  | wake i =>
    obtain ⟨hi, rfl⟩ := wake_cases hs
    obtain ⟨early, late, hw, hset⟩ := workers_split hi
    exact h.of_busy hw (hset _) (Or.inl rfl) rfl rfl fun htasks => htasks
  | lock i =>
    obtain ⟨hi, ⟨task, tasks, htasks, rfl⟩ | ⟨htasks, rfl⟩⟩ := lock_cases hs
    · obtain ⟨early, late, hw, hset⟩ := workers_split hi
      refine h.of_busy hw (hset _) (Or.inr ⟨task, rfl⟩) rfl rfl fun hnone => ?_
      exact absurd (htasks.symm.trans hnone) (by simp)
    · obtain ⟨early, late, hw, hset⟩ := workers_split hi
      -- an empty queue: the worker waits, or it returns if the pool is stopping
      refine ⟨fun hwork => absurd htasks hwork, fun hstop => ?_, fun hreturned => ?_⟩
      · have hstop' : e.stopping = true := hstop
        refine (h.alarmed hstop').imp_right fun hnone hmem => hnone ?_
        rw [hset, if_pos hstop', List.mem_append, List.mem_cons] at hmem
        rw [hw, List.mem_append, List.mem_cons]
        simpa using hmem
      · by_cases hstop : e.stopping = true
        · exact ⟨hstop, htasks⟩
        · rw [hset, if_neg hstop, List.mem_append, List.mem_cons] at hreturned
          refine absurd (h.drained ?_).1 hstop
          rw [hw, List.mem_append, List.mem_cons]
          simpa using hreturned
  | finish i threw =>
    obtain ⟨task, hi, rfl⟩ := finish_cases hs
    obtain ⟨early, late, hw, hset⟩ := workers_split hi
    exact h.of_busy hw (hset _) (Or.inl rfl) rfl rfl fun htasks => htasks

/-! ## Coming to rest -/

/-- The steps left, when nothing is posted or stopped any more. -/
def work (e : BlockingExecutor T) : Nat :=
  (e.workers.map Worker.work).sum + 2 * e.tasks.length + 2 * e.notices +
    (e.workers.length + 1) * e.alarms

theorem sum_work_split {w w' : Worker T} {early late : List (Worker T)}
    (h : e.workers = early ++ w :: late) (h' : e'.workers = early ++ w' :: late) :
    (e'.workers.map Worker.work).sum + w.work = (e.workers.map Worker.work).sum + w'.work := by
  rw [h, h']
  simp only [List.map_append, List.map_cons, List.sum_append, List.sum_cons]
  omega

theorem sum_work_notified (workers : List (Worker T)) :
    ((workers.map Worker.notified).map Worker.work).sum ≤
      (workers.map Worker.work).sum + workers.length := by
  induction workers with
  | nil => exact Nat.le_refl _
  | cons w workers ih =>
    have hw := w.work_notified
    simp only [List.map_cons, List.sum_cons, List.length_cons]
    omega

@[simp] theorem length_setWorker (e : BlockingExecutor T) (i : Nat) (w : Worker T) :
    (e.setWorker i w).workers.length = e.workers.length := List.length_set

theorem step_work {event : PoolEvent T} (hs : Works e event e') (hinternal : Internal event) :
    e'.work < e.work := by
  cases event with
  | post task => exact hinternal.elim
  | stop => exact hinternal.elim
  | wake i => exact hinternal.elim
  | notifyOne woken =>
    obtain ⟨hnotices, ⟨-, rfl⟩ | ⟨i, hi, rfl⟩⟩ := notifyOne_cases hs
    · simp only [work]
      omega
    · obtain ⟨early, late, hw, hset⟩ := workers_split hi
      have hsum := sum_work_split hw (hset .locking)
      simp only [Worker.work] at hsum
      simp only [work, length_setWorker]
      have hsame : (e.setWorker i .locking).tasks = e.tasks := rfl
      have halarms : (e.setWorker i .locking).alarms = e.alarms := rfl
      rw [hsame, halarms]
      omega
  | notifyAll =>
    obtain ⟨halarms, hworkers, halarms', htasks, hnotices, -⟩ := notifyAll_cases hs
    have hsum := sum_work_notified e.workers
    obtain ⟨k, hk⟩ : ∃ k, e.alarms = k + 1 := ⟨e.alarms - 1, by omega⟩
    rw [work, work, hworkers, halarms', htasks, hnotices, List.length_map, hk, Nat.mul_succ]
    simp only [Nat.add_sub_cancel]
    omega
  | lock i =>
    obtain ⟨hi, ⟨task, tasks, htasks, rfl⟩ | ⟨htasks, rfl⟩⟩ := lock_cases hs
    · obtain ⟨early, late, hw, hset⟩ := workers_split hi
      have hsum := sum_work_split hw (hset (.running task))
      simp only [Worker.work] at hsum
      have hnotices : (e.setWorker i (.running task)).notices = e.notices := rfl
      have halarms : (e.setWorker i (.running task)).alarms = e.alarms := rfl
      simp only [work, length_setWorker, htasks, hnotices, halarms, List.length_cons]
      omega
    · obtain ⟨early, late, hw, hset⟩ := workers_split hi
      have hsum := sum_work_split hw (hset (if e.stopping then .returned else .waiting))
      have hidle :
          (if e.stopping then Worker.returned else Worker.waiting : Worker T).work = 0 := by
        split <;> rfl
      rw [hidle] at hsum
      simp only [Worker.work] at hsum
      rw [work, work, length_setWorker]
      change _ + 2 * e.tasks.length + 2 * e.notices + (e.workers.length + 1) * e.alarms < _
      omega
  | finish i threw =>
    obtain ⟨task, hi, rfl⟩ := finish_cases hs
    obtain ⟨early, late, hw, hset⟩ := workers_split hi
    have hsum := sum_work_split hw (hset .locking)
    simp only [Worker.work] at hsum
    rw [work, work, length_setWorker]
    change _ + 2 * e.tasks.length + 2 * e.notices + (e.workers.length + 1) * e.alarms < _
    omega

/-- Where the pool can do nothing by itself, its workers wait, or have returned. -/
theorem idle_of_stuck (hstuck : ∀ event, Internal event → e.exec event = none) :
    e.notices = 0 ∧ e.alarms = 0 ∧ ∀ w ∈ e.workers, ¬ w.Busy := by
  refine ⟨?_, ?_, fun w hw hbusy => ?_⟩
  · by_contra hnotices
    by_cases hany : e.workers.any Worker.isWaiting = true
    · obtain ⟨w, hw, hwaiting⟩ := List.any_eq_true.mp hany
      obtain ⟨i, hi⟩ := List.mem_iff_getElem?.mp hw
      obtain rfl : w = .waiting := by
        cases w <;> simp [Worker.isWaiting] at hwaiting ⊢
      have hnone := hstuck (.notifyOne (some i)) trivial
      simp [exec, notifyOne, hnotices, hi] at hnone
    · have hnone := hstuck (.notifyOne none) trivial
      simp [exec, notifyOne, hnotices, hany] at hnone
  · by_contra halarms
    have hnone := hstuck .notifyAll trivial
    simp [exec, notifyAll, halarms] at hnone
  · obtain ⟨i, hi⟩ := List.mem_iff_getElem?.mp hw
    rcases hbusy with rfl | ⟨task, rfl⟩
    · have hnone := hstuck (.lock i) trivial
      cases htasks : e.tasks <;> simp [exec, lock, hi, htasks] at hnone
    · have hnone := hstuck (.finish i false) trivial
      simp [exec, finish, hi] at hnone

/-! ## Whole runs -/

theorem stopping_step {event : PoolEvent T} (hs : Works e event e') :
    e'.stopping = true ↔ e.stopping = true ∨ event = .stop := by
  cases event with
  | post task =>
    obtain rfl : (e.post task).2 = e' := Option.some.inj hs
    rcases post_cases e task with ⟨-, -, hpost⟩ | hpost <;> simp [hpost]
  | notifyOne woken =>
    obtain ⟨-, ⟨-, rfl⟩ | ⟨i, -, rfl⟩⟩ := notifyOne_cases hs <;> simp [setWorker]
  | stop =>
    obtain rfl : e.stop = e' := Option.some.inj hs
    simp [stop]
  | notifyAll =>
    obtain ⟨-, -, -, -, -, hstopping, -⟩ := notifyAll_cases hs
    simp [hstopping]
  | wake i =>
    obtain ⟨-, rfl⟩ := wake_cases hs
    simp [setWorker]
  | lock i =>
    obtain ⟨-, ⟨task, tasks, -, rfl⟩ | ⟨-, rfl⟩⟩ := lock_cases hs <;> simp [setWorker]
  | finish i threw =>
    obtain ⟨task, -, rfl⟩ := finish_cases hs
    simp [setWorker]

theorem stopping_run {trace : PoolTrace T} (hr : Run Works e trace e') (h : e.stopping = false) :
    e'.stopping = true ↔ Stopped trace := by
  induction hr with
  | nil => simp [h, Stopped]
  | @snoc trace t u event _ hs ih =>
    rw [stopping_step hs, ih]
    simp [Stopped, or_and_right, exists_or]

/-- The pool keeps its size, and its queue its bound. -/
structure Sized (threadCount maxPending : Nat) (e : BlockingExecutor T) : Prop where
  workers : e.workers.length = threadCount
  limit : e.maxPending = maxPending
  bounded : e.pending ≤ maxPending

theorem Sized.step {threadCount maxPending : Nat} {event : PoolEvent T}
    (h : e.Sized threadCount maxPending) (hs : Works e event e') :
    e'.Sized threadCount maxPending := by
  have hsame : ∀ i w, (e.setWorker i w).Sized threadCount maxPending := fun i w =>
    ⟨(length_setWorker e i w).trans h.workers, h.limit, h.bounded⟩
  cases event with
  | post task =>
    obtain rfl : (e.post task).2 = e' := Option.some.inj hs
    rcases post_cases e task with ⟨-, hroom, hpost⟩ | hpost
    · rw [hpost]
      refine ⟨h.workers, h.limit, ?_⟩
      rw [h.limit] at hroom
      rw [pending, List.length_append]
      exact hroom
    · rw [hpost]
      exact h
  | notifyOne woken =>
    obtain ⟨-, ⟨-, rfl⟩ | ⟨i, -, rfl⟩⟩ := notifyOne_cases hs
    · exact ⟨h.workers, h.limit, h.bounded⟩
    · exact ⟨(hsame i .locking).workers, h.limit, h.bounded⟩
  | stop =>
    obtain rfl : e.stop = e' := Option.some.inj hs
    exact ⟨h.workers, h.limit, h.bounded⟩
  | notifyAll =>
    obtain ⟨-, hworkers, -, htasks, -, -, hlimit⟩ := notifyAll_cases hs
    refine ⟨?_, hlimit.trans h.limit, ?_⟩
    · rw [hworkers, List.length_map, h.workers]
    · rw [pending, htasks]
      exact h.bounded
  | wake i =>
    obtain ⟨-, rfl⟩ := wake_cases hs
    exact hsame i _
  | lock i =>
    obtain ⟨-, ⟨task, tasks, htasks, rfl⟩ | ⟨-, rfl⟩⟩ := lock_cases hs
    · refine ⟨(hsame i (.running task)).workers, h.limit, ?_⟩
      have hbounded := h.bounded
      rw [pending, htasks, List.length_cons] at hbounded
      exact Nat.le_of_succ_le hbounded
    · exact hsame i _
  | finish i threw =>
    obtain ⟨task, -, rfl⟩ := finish_cases hs
    exact hsame i _

theorem create_ok {threadCount maxPending : Nat}
    (h : create threadCount maxPending = .ok e) :
    e.workers = List.replicate threadCount .locking ∧ e.maxPending = maxPending ∧ e.tasks = [] ∧
      e.stopping = false := by
  unfold create at h
  split at h
  · cases h
  · cases h
    exact ⟨rfl, rfl, rfl, rfl⟩

/-- What is known of a pool after a run from its creation. -/
structure Delivers (threadCount maxPending : Nat) (trace : PoolTrace T)
    (e : BlockingExecutor T) : Prop where
  /-- The accepted tasks are started in order, and those that are left wait in order. -/
  order : accepted trace = started trace ++ e.tasks
  /-- A started task has ended, or one worker runs it. -/
  once : (started trace).Perm (finished trace ++ e.runningTasks)
  bounded : e.pending ≤ maxPending ∧ e.runningTasks.length ≤ threadCount
  closed : ∀ early s late task, trace = early ++ s :: late → Stopped early →
    s.label = .post task → (s.before.post task).1 = false
  /-- Left to itself, the pool stops after a bounded number of steps. -/
  settles : ∀ later t, Run Works e later t → (∀ s ∈ later, Internal s.label) →
    later.length ≤ e.work
  /-- Where it has stopped, every accepted task has ended. -/
  rests : (∀ event, Internal event → e.exec event = none) →
    (finished trace).Perm (accepted trace) ∧ (Stopped trace → e.Joined)
  /-- `stop` comes back when every accepted task has ended. -/
  joined : e.Joined → Stopped trace ∧ (finished trace).Perm (accepted trace)

theorem Accounts.all_ended {trace : PoolTrace T} (h : Accounts trace e) (htasks : e.tasks = [])
    (hworkers : ∀ w ∈ e.workers, ¬ w.Busy) : (finished trace).Perm (accepted trace) := by
  have hnone : e.runningTasks = [] := by
    rw [runningTasks, List.filterMap_eq_nil_iff]
    intro w hw
    cases w with
    | running task => exact absurd (Or.inr ⟨task, rfl⟩) (hworkers _ hw)
    | _ => rfl
  have honce := h.once
  rw [hnone, List.append_nil] at honce
  rw [h.order, htasks, List.append_nil]
  exact honce.symm

/-- **Every accepted task is run once, in its turn, and none is slept through.** -/
theorem tasks_run_once_in_order {threadCount maxPending : Nat} {trace : PoolTrace T}
    (hcreate : create threadCount maxPending = .ok e) (hr : Run Works e trace e') :
    Delivers threadCount maxPending trace e' := by
  obtain ⟨hworkers, hlimit, htasks, hopen⟩ := create_ok hcreate
  have hidle : e.runningTasks = [] := by
    rw [runningTasks, hworkers, List.filterMap_replicate_of_none rfl]
  have haccounts := accounts_run hr ⟨htasks, hidle⟩
  have halert : e'.Alert := by
    refine hr.invariant ⟨fun h => absurd htasks h, fun h => ?_, fun h => ?_⟩
      fun _ _ _ h hs => h.step hs
    · exact absurd (hopen.symm.trans h) (by simp)
    · rw [hworkers] at h
      cases List.eq_of_mem_replicate h
  have hsized : e'.Sized threadCount maxPending := by
    refine hr.invariant ⟨?_, hlimit, ?_⟩ fun _ _ _ h hs => h.step hs
    · rw [hworkers, List.length_replicate]
    · rw [pending, htasks]
      exact Nat.zero_le _
  refine ⟨haccounts.order, haccounts.once, ⟨hsized.bounded, ?_⟩, ?_, ?_, ?_, ?_⟩
  · exact Nat.le_trans (List.length_filterMap_le _ _) (Nat.le_of_eq hsized.workers)
  · rintro early s late task rfl hstopped hlabel
    have hstopping := (stopping_run hr.split.1 hopen).mpr hstopped
    rw [post, if_pos (Or.inl hstopping)]
  · intro later t hlater hinternal
    have hlength := hlater.length_le fun s hs hstep => step_work hstep (hinternal s hs)
    exact Nat.le_of_add_right_le hlength
  · intro hstuck
    obtain ⟨hnotices, halarms, hidle⟩ := idle_of_stuck hstuck
    have hnone : e'.tasks = [] := by
      by_contra hwork
      rcases halert.served hwork with hnotice | ⟨w, hw, hbusy⟩
      · exact absurd hnotices (Nat.pos_iff_ne_zero.mp hnotice)
      · exact hidle w hw hbusy
    refine ⟨haccounts.all_ended hnone hidle, fun hstopped w hw => ?_⟩
    have hwaiting := (halert.alarmed ((stopping_run hr hopen).mpr hstopped)).resolve_left (by omega)
    rcases w.busy_or_idle with hbusy | rfl | hreturned
    · exact absurd hbusy (hidle w hw)
    · exact absurd hw hwaiting
    · exact hreturned
  · intro hjoined
    obtain ⟨w, hw⟩ := List.exists_mem_of_length_pos e'.staffed
    have hdrained := halert.drained (hjoined w hw ▸ hw)
    refine ⟨(stopping_run hr hopen).mp hdrained.1, haccounts.all_ended hdrained.2 ?_⟩
    intro w' hw' hbusy
    obtain rfl := hjoined w' hw'
    rcases hbusy with h | ⟨task, h⟩ <;> cases h

/-- Two workers and room for two tasks: a third is refused, the second ends before the first, which
throws, and `stop` joins both workers. -/
theorem tasks_run_once_in_order_stopped :
    ∃ (e e' : BlockingExecutor Nat) (trace : PoolTrace Nat), create 2 2 = .ok e ∧
      Run Works e trace e' ∧ accepted trace = [7, 8] ∧ finished trace = [8, 7] ∧ e'.Joined ∧
      Delivers 2 2 trace e' := by
  obtain ⟨e, he⟩ : ∃ e : BlockingExecutor Nat, create 2 2 = .ok e := ⟨_, rfl⟩
  have hcheck : ((create 2 2).toOption.bind fun e : BlockingExecutor Nat =>
      (replay (fun e event => (e.exec event).map (event, ·)) e
        [.lock 0, .lock 1, .post 7, .post 8, .post 9, .notifyOne (some 0), .lock 0,
          .notifyOne (some 1), .lock 1, .finish 1 false, .stop, .post 9, .finish 0 true, .lock 0,
          .lock 1, .notifyAll])).any (fun run : PoolTrace Nat × BlockingExecutor Nat =>
      decide (accepted run.1 = [7, 8] ∧ finished run.1 = [8, 7] ∧
        ∀ w ∈ run.2.workers, w = .returned)) = true := by
    decide +kernel
  rw [he] at hcheck
  obtain ⟨⟨trace, e'⟩, hrun, hfacts⟩ := (Option.any_eq_true _ _).mp hcheck
  obtain ⟨haccepted, hfinished, hjoined⟩ := of_decide_eq_true hfacts
  have hr : Run Works e trace e' := by
    refine replay_run (fun s event l t h => ?_) hrun
    obtain ⟨u, hu, heq⟩ := Option.map_eq_some_iff.mp h
    obtain ⟨rfl, rfl⟩ := Prod.mk.inj heq
    exact hu
  exact ⟨e, e', trace, he, hr, haccepted, hfinished, hjoined, tasks_run_once_in_order he hr⟩

end BlockingExecutor

end PokerServer
