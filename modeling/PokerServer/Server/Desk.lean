import PokerServer.Lib.Runs
import PokerServer.Server.ProtocolService

/-!
# One operation at a time

The fence makes the service at a table behave as a `Desk`: at most one job that holds the fence is
pending anywhere, and what the service does is what that job does, between unfenced jobs.

* `Move`: the steps of a desk, each with what it does to the table, the store, the timers and the
  job in hand.
* `Rests`: between steps the service is what its desk shows: the fence is set iff one pending job
  holds it, and that job waits for the room that is open. `Holds` is the same inside the step of
  such a job, which then owes the fence to somebody.

That every step of the service is a move of its desk is `Server/Refinement.lean`.
-/

namespace PokerServer

/-- A job of either executor. -/
inductive Job where
  | room (job : RoomJob)
  | storage (job : StorageJob)
  deriving DecidableEq

def Job.fenced : Job → Bool
  | .room job => job.fenced
  | .storage job => job.fenced

/-- What a step of the service can depend on: the job that holds the fence, the open room and how
many there have been, the store, the timeouts, and the unfenced jobs that wait for the room. -/
structure Desk where
  job : Option Job
  table : Option Table
  rooms : Nat
  store : InMemoryGameStore
  latest : Option Nat
  timers : List Timeout
  pending : List RoomJob

namespace Service

/-- The pending jobs that hold the fence. -/
def holders (s : Service) : List Job :=
  ((s.queue.filter fun task => task.job.fenced).map fun task => .room task.job) ++
    (s.storage.filter StorageJob.fenced).map .storage

/-- The unfenced jobs that wait for the room number `rooms`. -/
def waiting (rooms : Nat) (queue : List RoomTask) : List RoomJob :=
  (queue.filter fun task => task.room == rooms && !task.job.fenced).map (·.job)

/-- The desk of a service. -/
def desk (s : Service) : Desk :=
  { job := s.holders.head?
    table := s.room
    rooms := s.rooms
    store := s.store
    latest := s.latestTimeout
    timers := s.timers
    pending := waiting s.rooms s.queue }

/-- The job an event runs. -/
def runs (s : Service) : Event → Option Job
  | .room => s.queue.head?.map fun task => .room task.job
  | .storage index => (s.storage[index]?).map .storage
  | _ => none

end Service

/-- Executors that take every task and a store that answers every call. -/
def Env.Healthy (env : Env) : Prop :=
  env.roomAccepts = true ∧ env.storageAccepts = true ∧ ∀ call, env.available call = true

namespace RoomJob

/-- What an action job asks the table, unless it is stale. -/
def command (t : Table) : RoomJob → Option ActionCommand
  | .act _ handId command => if handId ≠ 0 ∧ t.handId ≠ handId then none else some command
  | .onActionTimeout timeout =>
    let before := t.snapshot (some timeout.player)
    if Room.staleTimeout before timeout.player timeout.sequence then none
    else some (Room.timeoutCommand before timeout.player)
  | _ => none

/-- The request an action job answers. -/
def request : RoomJob → Option Request
  | .act request _ _ => some request
  | _ => none

/-- The record of an action job that the table accepted, leaving `t'`. -/
def record (tableId : Nat) (result : ActionResult) (t' : Table) (job : RoomJob) :
    HandActionRecord :=
  let record : HandActionRecord :=
    { handId := persistentHandId tableId t'.handId
      sequence := result.serverSequence
      street := result.actionStreet }
  match job with
  | .act request _ command =>
    { record with requestId := request.id, userId := request.user, action := command.type,
                  targetAmount := command.amount }
  | .onActionTimeout timeout =>
    { record with requestId := 2 ^ 63 ||| timeout.sequence, userId := timeout.player,
                  action := timeout.action, targetAmount := 0 }
  | _ => record

/-- The settlement that goes with it. -/
def settlement (tableId : Nat) (result : ActionResult) (t' : Table) :
    Option HandSettlementRecord :=
  if t'.street = .settled then some (t'.auditSnapshot.handSettlement tableId result.awards)
  else none

end RoomJob

/-- The jobs that ask the table for an action. -/
def RoomJob.acts : RoomJob → Bool
  | .act .. | .onActionTimeout _ => true
  | _ => false

/-- The unfenced jobs a handler or a storage task posts by itself. -/
def RoomJob.notice : RoomJob → Bool
  | .snapshot _ | .setConnected .. => true
  | _ => false

/-- The jobs that only look at the table. -/
def RoomJob.quiet : RoomJob → Bool
  | .snapshot _ | .currentSnapshot _ false | .abortHand => true
  | _ => false

/-- What `handle` and the request window let through. -/
def Request.Valid (request : Request) : Prop :=
  request.user ≠ 0 ∧ 0 < request.id ∧ request.id < 2 ^ 63

/-- The jobs with which a request takes the fence. -/
def Job.Opens : Job → Prop
  | .room (.setReady request _) | .room (.setUnready request) | .storage (.sitDown request _ _) =>
    request.Valid
  | .room (.act request _ command) => request.Valid ∧ command.playerId = request.user
  | _ => False

namespace Desk

variable {d d' : Desk}

/-- `scheduleTimeout` on a desk. -/
def schedule (snapshot : TableSnapshot) (d : Desk) : Desk :=
  if d.latest.any fun latest => snapshot.serverSequence < latest then d
  else
    { d with
      latest := some snapshot.serverSequence
      timers := d.timers ++ (snapshot.actingPlayer.map fun player =>
        { player := player, sequence := snapshot.serverSequence,
          action := Service.timeoutAction snapshot player : Timeout }).toList }

/-- The room is closed, with the store as it is then. -/
def close (d : Desk) (store : InMemoryGameStore) : Desk :=
  { d with job := none, table := none, store := store }

/-- A room for the table, a new one if none is open. -/
def opened (config : TableConfig) (d : Desk) : Desk :=
  if d.table.isSome then d
  else { d with table := some (Table.new config), rooms := d.rooms + 1, pending := [] }

/-- What is left of the store when the room is closed: refunded if the store answers. -/
def Refunded (tableId : Nat) (ok : Prop) (before after : InMemoryGameStore) : Prop :=
  after = (before.abortTableAndRefund tableId).2 ∨ after = before ∧ ¬ ok

/-- The job that goes on, if the executor takes it. -/
def Next (ok : Prop) (job : Job) (next : Option Job) : Prop := next = some job ∨ next = none ∧ ¬ ok

/-- **The steps of a desk**, under the job that runs, if any. `ok` says that executors and store are
healthy. -/
inductive Move (tableId : Nat) (ok : Prop) : Desk → Option Job → Desk → Prop
  /- Unfenced steps. -/
  | stay {d job} (quiet : ∀ j, job = some j → j.fenced = false) : Move tableId ok d job d
  | post {d job x} (quiet : ∀ j, job = some j → j.fenced = false) (notice : x.notice = true)
      (room : d.table.isSome = true) :
      Move tableId ok d job { d with pending := d.pending ++ [x] }
  | take {d x} (free : d.job = none) (opens : x.Opens)
      (room : ∀ j, x = .room j → d.table.isSome = true) :
      Move tableId ok d none { d with job := some x }
  | fire {d timeout index} (timer : d.timers[index]? = some timeout)
      (live : d.latest = some timeout.sequence) (room : d.table.isSome = true) :
      Move tableId ok d none
        { d with
          timers := d.timers.eraseIdx index
          pending := d.pending ++ [.timeoutAudit timeout] }
  | expire {d timeout index} (timer : d.timers[index]? = some timeout)
      (dead : d.latest ≠ some timeout.sequence ∨ d.table = none ∨ ¬ ok) :
      Move tableId ok d none { d with timers := d.timers.eraseIdx index }
  | refund {d attempt} : Move tableId ok d (some (.storage (.refund attempt)))
      { d with store := (d.store.abortTableAndRefund tableId).2 }
  /- Unfenced jobs of the open room. -/
  | pass {d x rest} (pending : d.pending = x :: rest) (unfenced : x.fenced = false)
      (quiet : d.table = none ∨ x.quiet = true) :
      Move tableId ok d (some (.room x)) { d with pending := rest }
  | rearm {d rest request t} (pending : d.pending = .currentSnapshot request true :: rest)
      (table : d.table = some t) :
      Move tableId ok d (some (.room (.currentSnapshot request true)))
        ({ d with pending := rest }.schedule (t.snapshot (some request.user)))
  | connect {d rest user connected reason t t' e}
      (pending : d.pending = .setConnected user connected reason :: rest)
      (table : d.table = some t) (call : t.setConnected user connected = (e, t')) :
      Move tableId ok d (some (.room (.setConnected user connected reason)))
        (if e = .ok ∧ reason ≠ .sessionEnd then
          { d with pending := rest, table := some t' }.schedule (t'.snapshot (some user))
        else { d with pending := rest, table := some t' })
  | claim {d rest timeout t} (pending : d.pending = .timeoutAudit timeout :: rest)
      (table : d.table = some t) (sequence : t.serverSequence = timeout.sequence)
      (acting : t.auditSnapshot.actingPlayer = some timeout.player) (free : d.job = none) :
      Move tableId ok d (some (.room (.timeoutAudit timeout)))
        { d with pending := rest, job := some (.room (.onActionTimeout timeout)) }
  | miss {d rest timeout t} (pending : d.pending = .timeoutAudit timeout :: rest)
      (table : d.table = some t)
      (reason : t.serverSequence ≠ timeout.sequence ∨
        t.auditSnapshot.actingPlayer ≠ some timeout.player ∨ d.job ≠ none ∨ ¬ ok) :
      Move tableId ok d (some (.room (.timeoutAudit timeout))) { d with pending := rest }
  /- The job in hand, in the room. -/
  | seat {d request seat stack t t' next}
      (job : d.job = some (.room (.seatPlayer request seat stack))) (table : d.table = some t)
      (call : t.seatPlayer request.user seat stack = (.ok, t'))
      (goes : Next ok (.room (.seatedSnapshot request)) next) :
      Move tableId ok d d.job { d with table := some t', job := next }
  | seatRefused {d request seat stack t t' e}
      (job : d.job = some (.room (.seatPlayer request seat stack))) (table : d.table = some t)
      (call : t.seatPlayer request.user seat stack = (e, t')) (refused : e ≠ .ok) :
      Move tableId ok d d.job
        { d with table := some t', job := some (.storage (.rollback request)) }
  | seatLost {d request seat stack} (job : d.job = some (.room (.seatPlayer request seat stack)))
      (sick : ¬ ok) : Move tableId ok d d.job (d.close d.store)
  | seated {d request} (job : d.job = some (.room (.seatedSnapshot request))) :
      Move tableId ok d d.job { d with job := none }
  | ready {d request t t' next} (job : d.job = some (.room (.setReady request true)))
      (table : d.table = some t) (call : t.setReady request.user true = (.ok, t')) (deck : FullDeck)
      (goes : Next ok (.room (.startHand request deck)) next) :
      Move tableId ok d d.job { d with table := some t', job := next }
  | notReady {d request ready t t' e extra} (job : d.job = some (.room (.setReady request ready)))
      (table : d.table = some t) (call : t.setReady request.user ready = (e, t'))
      (ends : e ≠ .ok ∨ ready = false)
      (posts : extra = [] ∨ extra = [.currentSnapshot request false]) :
      Move tableId ok d d.job
        { d with table := some t', job := none, pending := d.pending ++ extra }
  | start {d request deck t t' next} (job : d.job = some (.room (.startHand request deck)))
      (table : d.table = some t) (call : t.startHand deck.toDeck = .ok (.ok, t'))
      (goes : Next ok (.room (.startAudit request)) next) :
      Move tableId ok d d.job { d with table := some t', job := next }
  | startRefused {d request deck t t' e extra}
      (job : d.job = some (.room (.startHand request deck))) (table : d.table = some t)
      (call : t.startHand deck.toDeck = .ok (e, t')) (refused : e ≠ .ok)
      (posts : extra = [] ∨ extra = [.currentSnapshot request true]) :
      Move tableId ok d d.job
        { d with table := some t', job := none, pending := d.pending ++ extra }
  | audit {d request t} (job : d.job = some (.room (.startAudit request)))
      (table : d.table = some t) :
      Move tableId ok d d.job
        { d with job := some (.storage (.beginHand request (t.auditSnapshot.handStart tableId))) }
  | auditLost {d request extra} (job : d.job = some (.room (.startAudit request))) (sick : ¬ ok)
      (posts : extra = [] ∨ extra = [.abortHand]) :
      Move tableId ok d d.job { d with job := none, pending := d.pending ++ extra }
  | accept {d x t t' command result} (job : d.job = some (.room x)) (table : d.table = some t)
      (asks : x.command t = some command) (call : t.act command = .ok (result, t'))
      (accepted : result.error = .ok) :
      Move tableId ok d d.job
        { d with
          table := some t'
          job := some (.storage (.storeAction x.request (x.record tableId result t')
            (RoomJob.settlement tableId result t') (t'.snapshot (some command.playerId)))) }
  | acceptLost {d x t t' command result} (job : d.job = some (.room x)) (table : d.table = some t)
      (asks : x.command t = some command) (call : t.act command = .ok (result, t'))
      (accepted : result.error = .ok) (sick : ¬ ok) : Move tableId ok d d.job (d.close d.store)
  | actRefused {d x t t'} (job : d.job = some (.room x)) (acts : x.acts = true)
      (table : d.table = some t)
      (refused : x.command t = none ∧ t' = t ∨ ∃ command result,
        x.command t = some command ∧ t.act command = .ok (result, t') ∧ result.error ≠ .ok) :
      Move tableId ok d d.job { d with table := some t', job := none }
  | unready {d request t t' next} (job : d.job = some (.room (.setUnready request)))
      (table : d.table = some t) (call : t.setReady request.user false = (.ok, t'))
      (goes : Next ok (.storage (.cashOut request)) next) :
      Move tableId ok d d.job { d with table := some t', job := next }
  | unreadyRefused {d request t t' e} (job : d.job = some (.room (.setUnready request)))
      (table : d.table = some t) (call : t.setReady request.user false = (e, t'))
      (refused : e ≠ .ok) : Move tableId ok d d.job { d with table := some t', job := none }
  | remove {d request t t' e} (job : d.job = some (.room (.removePlayer request)))
      (table : d.table = some t) (call : t.removePlayer request.user = (e, t')) :
      Move tableId ok d d.job { d with table := some t', job := none }
  /- The job in hand, at the store. -/
  | noSeat {d request seat buyIn} (job : d.job = some (.storage (.sitDown request seat buyIn))) :
      Move tableId ok d d.job { d with job := none }
  | noBuyIn {d request seat buyIn record}
      (job : d.job = some (.storage (.sitDown request seat buyIn)))
      (found : (d.store.findTable tableId).value = some record) :
      Move tableId ok d d.job { d.opened record.config with job := none }
  | buyIn {d request seat buyIn record receipt reserved store}
      (job : d.job = some (.storage (.sitDown request seat buyIn)))
      (found : (d.store.findTable tableId).value = some record)
      (call : d.store.reserveBuyIn tableId request.user seat buyIn
        (Service.buyKey tableId request) =
        (reserved, store))
      (value : reserved.value = some receipt) :
      Move tableId ok d d.job
        { d.opened record.config with
          store := store, job := some (.room (.seatPlayer request seat receipt.tableStack)) }
  | buyInLost {d request seat buyIn record receipt reserved store d'}
      (job : d.job = some (.storage (.sitDown request seat buyIn)))
      (found : (d.store.findTable tableId).value = some record)
      (call : d.store.reserveBuyIn tableId request.user seat buyIn
        (Service.buyKey tableId request) =
        (reserved, store))
      (value : reserved.value = some receipt) (sick : ¬ ok)
      (ends : d' = { d.opened record.config with
          store := store, job := some (.storage (.rollback request)) } ∨
        d' = (d.opened record.config).close store) :
      Move tableId ok d d.job d'
  | rollback {d request receipt store} (job : d.job = some (.storage (.rollback request)))
      (call : d.store.cashOut tableId request.user (Service.rollbackKey tableId request) =
        (receipt, store)) (done : receipt.error = .ok) :
      Move tableId ok d d.job { d with store := store, job := none }
  | rollbackFailed {d request receipt store after}
      (job : d.job = some (.storage (.rollback request)))
      (call : d.store.cashOut tableId request.user (Service.rollbackKey tableId request) =
        (receipt, store)) (failed : receipt.error ≠ .ok ∨ ¬ ok)
      (refunded : Refunded tableId ok d.store after) : Move tableId ok d d.job (d.close after)
  | handBegun {d request start stored store extra}
      (job : d.job = some (.storage (.beginHand request start)))
      (call : d.store.beginHand start = (stored, store))
      (done : stored = .ok ∨ stored = .duplicate)
      (posts : extra = [.currentSnapshot request true] ∨ extra = [] ∧ (d.table = none ∨ ¬ ok)) :
      Move tableId ok d d.job
        { d with store := store, job := none, pending := d.pending ++ extra }
  | handNotBegun {d request start stored store extra}
      (job : d.job = some (.storage (.beginHand request start)))
      (call : d.store.beginHand start = (stored, store))
      (failed : stored ≠ .ok ∧ stored ≠ .duplicate ∨ ¬ ok)
      (posts : extra = [] ∨ extra = [.abortHand]) :
      Move tableId ok d d.job { d with job := none, pending := d.pending ++ extra }
  | stored {d request action settlement view appended store store'}
      (job : d.job = some (.storage (.storeAction request action settlement view)))
      (append : d.store.appendAction action = (appended, store))
      (done : appended = .ok ∨ appended = .duplicate)
      (settle : settlement = none ∧ store' = store ∨
        ∃ record settled, settlement = some record ∧ store.settleHand record = (settled, store') ∧
          (settled = .ok ∨ settled = .duplicate)) :
      Move tableId ok d d.job ({ d with store := store', job := none }.schedule view)
  | actionLost {d request action settlement view appended store after}
      (job : d.job = some (.storage (.storeAction request action settlement view)))
      (append : d.store.appendAction action = (appended, store))
      (failed : appended ≠ .ok ∧ appended ≠ .duplicate ∨ ¬ ok)
      (refunded : Refunded tableId ok d.store after) : Move tableId ok d d.job (d.close after)
  | settlementLost {d request action record view appended store settled store' after}
      (job : d.job = some (.storage (.storeAction request action (some record) view)))
      (append : d.store.appendAction action = (appended, store))
      (done : appended = .ok ∨ appended = .duplicate)
      (settle : store.settleHand record = (settled, store'))
      (failed : settled ≠ .ok ∧ settled ≠ .duplicate ∨ ¬ ok)
      (refunded : Refunded tableId ok store after) : Move tableId ok d d.job (d.close after)
  | cashOut {d request receipt store next} (job : d.job = some (.storage (.cashOut request)))
      (call : d.store.cashOut tableId request.user (Service.cashKey tableId request) =
        (receipt, store)) (done : receipt.error = .ok)
      (goes : next = some (.room (.removePlayer request)) ∨ next = none ∧ (d.table = none ∨ ¬ ok)) :
      Move tableId ok d d.job { d with store := store, job := next }
  | noCashOut {d request receipt store} (job : d.job = some (.storage (.cashOut request)))
      (call : d.store.cashOut tableId request.user (Service.cashKey tableId request) =
        (receipt, store)) (failed : receipt.error ≠ .ok ∨ ¬ ok) :
      Move tableId ok d d.job { d with job := none }

end Desk

/-! ## Services and their desks -/

namespace Service

variable {tableId : Nat} {jobs : List Job} {d : Desk} {s : Service} {env : Env}

/-- The service is what the desk shows, `jobs` being the pending jobs that hold the fence. -/
structure Agrees (tableId : Nat) (jobs : List Job) (d : Desk) (s : Service) : Prop where
  id : s.tableId = tableId
  holders : s.holders = jobs
  table : s.room = d.table
  rooms : s.rooms = d.rooms
  store : s.store = d.store
  latest : s.latestTimeout = d.latest
  timers : s.timers = d.timers
  pending : waiting s.rooms s.queue = d.pending
  past : ∀ task ∈ s.queue, task.room ≤ s.rooms
  current : ∀ task ∈ s.queue, task.job.fenced = true → task.room = s.rooms ∧ s.room.isSome = true

/-- **The fence is set iff one pending job holds it.** -/
structure Rests (tableId : Nat) (d : Desk) (s : Service) : Prop where
  agrees : s.Agrees tableId d.job.toList d
  fence : s.fence = d.job.isSome

/-- The running step holds the fence. -/
structure Holds (tableId : Nat) (d : Desk) (s : Service) : Prop where
  agrees : s.Agrees tableId [] d
  fence : s.fence = true
  free : d.job = none

theorem Rests.desk (h : s.Rests tableId d) : s.desk = d := by
  obtain ⟨⟨-, hholders, htable, hrooms, hstore, hlatest, htimers, hpending, -, -⟩, -⟩ := h
  unfold Service.desk
  rw [hholders, htable, hstore, hlatest, htimers, hpending, hrooms]
  cases d with
  | mk job => cases job <;> rfl

namespace Agrees

/-- The request window, the sessions, the refund attempts and the fence itself do not show. -/
theorem frame {s' : Service} (h : s.Agrees tableId jobs d)
    (hs : s' = { s with cache := s'.cache, sessions := s'.sessions, fence := s'.fence,
                        refunds := s'.refunds }) : s'.Agrees tableId jobs d := by
  rw [hs]
  exact ⟨h.id, h.holders, h.table, h.rooms, h.store, h.latest, h.timers, h.pending, h.past,
    h.current⟩

theorem complete (h : s.Agrees tableId jobs d) (request : Request) :
    (s.complete request).Agrees tableId jobs d := h.frame rfl

theorem setSession (h : s.Agrees tableId jobs d) (conn : Nat) (session : Session) :
    (s.setSession conn session).Agrees tableId jobs d := h.frame rfl

theorem retryRefund (h : s.Agrees tableId jobs d) (attempt : Nat) :
    (s.retryRefund attempt).Agrees tableId jobs d := by
  unfold Service.retryRefund
  split_ifs
  · exact h
  · exact h.frame rfl

theorem setStore (h : s.Agrees tableId jobs d) (store : InMemoryGameStore) :
    Agrees tableId jobs { d with store := store } { s with store := store } :=
  ⟨h.id, h.holders, h.table, h.rooms, rfl, h.latest, h.timers, h.pending, h.past, h.current⟩

theorem setRoom (h : s.Agrees tableId jobs d) (t : Table) :
    Agrees tableId jobs { d with table := some t } { s with room := some t } :=
  ⟨h.id, h.holders, rfl, h.rooms, h.store, h.latest, h.timers, h.pending, h.past,
    fun task hm hf => ⟨(h.current task hm hf).1, rfl⟩⟩

theorem schedule (h : s.Agrees tableId jobs d) (view : TableSnapshot) :
    (s.scheduleTimeout view).Agrees tableId jobs (d.schedule view) := by
  unfold scheduleTimeout Desk.schedule
  rw [h.latest]
  split
  · exact h
  · cases hacting : view.actingPlayer with
    | none =>
      exact ⟨h.id, h.holders, h.table, h.rooms, h.store, rfl, by simpa using h.timers, h.pending,
        h.past, h.current⟩
    | some player =>
      exact ⟨h.id, h.holders, h.table, h.rooms, h.store, rfl, by simp [h.timers], h.pending,
        h.past, h.current⟩

/-- Without holders no task of the queue is fenced. -/
theorem unfenced (h : s.Agrees tableId [] d) : ∀ task ∈ s.queue, task.job.fenced = false := by
  have hnil := (List.append_eq_nil_iff.mp h.holders).1
  rw [List.map_eq_nil_iff, List.filter_eq_nil_iff] at hnil
  exact fun task hm => by simpa using hnil task hm

theorem closeRoom (h : s.Agrees tableId [] d) :
    Agrees tableId [] { d with table := none } { s with room := none } :=
  ⟨h.id, h.holders, rfl, h.rooms, h.store, h.latest, h.timers, h.pending, h.past,
    fun task hm hf => absurd hf (by simp [h.unfenced task hm])⟩

/-- A room for the table; the tasks in the queue were posted to older ones. -/
theorem openRoom (h : s.Agrees tableId [] d) (config : TableConfig) :
    Agrees tableId [] (d.opened config)
      (if s.room.isSome then s
        else { s with room := some (Table.new config), rooms := s.rooms + 1 }) := by
  unfold Desk.opened
  rw [h.table]
  split_ifs with hopen
  · exact h
  · refine ⟨h.id, h.holders, rfl, by rw [h.rooms], h.store, h.latest, h.timers, ?_, ?_, ?_⟩
    · unfold waiting
      rw [List.map_eq_nil_iff, List.filter_eq_nil_iff]
      intro task hm
      have := h.past task hm
      simp only [Bool.and_eq_true, beq_iff_eq, not_and]
      intro heq
      omega
    · intro task hm
      have := h.past task hm
      simp only
      omega
    · exact fun task hm hf => absurd hf (by simp [h.unfenced task hm])

/-! ### Posting -/

theorem past_enqueue (h : s.Agrees tableId jobs d) (job : RoomJob) :
    ∀ task ∈ (s.enqueue job).queue, task.room ≤ s.rooms := by
  intro task hm
  rcases List.mem_append.mp hm with hm | hm
  · exact h.past task hm
  · rw [List.mem_singleton.mp hm]

theorem enqueue (h : s.Agrees tableId jobs d) {job : RoomJob} (hjob : job.fenced = false) :
    (s.enqueue job).Agrees tableId jobs { d with pending := d.pending ++ [job] } := by
  refine ⟨h.id, ?_, h.table, h.rooms, h.store, h.latest, h.timers, ?_, ?_, ?_⟩
  · rw [← h.holders]
    simp [Service.holders, Service.enqueue, List.filter_append, hjob]
  · rw [← h.pending]
    simp [Service.waiting, Service.enqueue, List.filter_append, hjob]
  · exact h.past_enqueue job
  · intro task hm hf
    rcases List.mem_append.mp hm with hm | hm
    · exact h.current task hm hf
    · rw [List.mem_singleton.mp hm] at hf
      exact absurd hf (by simp [hjob])

theorem enqueue_fenced (h : s.Agrees tableId [] d) {job : RoomJob} (hjob : job.fenced = true)
    (hroom : d.table.isSome = true) : (s.enqueue job).Agrees tableId [.room job] d := by
  obtain ⟨hqueue, hstorage⟩ := List.append_eq_nil_iff.mp h.holders
  refine ⟨h.id, ?_, h.table, h.rooms, h.store, h.latest, h.timers, ?_, ?_, ?_⟩
  · unfold Service.holders
    simp only [Service.enqueue]
    rw [List.filter_append, List.map_append, hqueue, hstorage]
    simp [hjob]
  · rw [← h.pending]
    simp [Service.waiting, Service.enqueue, List.filter_append, hjob]
  · exact h.past_enqueue job
  · intro task hm hf
    rcases List.mem_append.mp hm with hm | hm
    · exact h.current task hm hf
    · rw [List.mem_singleton.mp hm]
      exact ⟨rfl, by rw [← h.table] at hroom; exact hroom⟩

theorem submit (h : s.Agrees tableId jobs d) {job : StorageJob} (hjob : job.fenced = false) :
    (s.submit job).Agrees tableId jobs d := by
  refine ⟨h.id, ?_, h.table, h.rooms, h.store, h.latest, h.timers, h.pending, h.past, h.current⟩
  rw [← h.holders]
  simp [Service.holders, Service.submit, List.filter_append, hjob]

theorem submit_fenced (h : s.Agrees tableId [] d) {job : StorageJob} (hjob : job.fenced = true) :
    (s.submit job).Agrees tableId [.storage job] d := by
  obtain ⟨hqueue, hstorage⟩ := List.append_eq_nil_iff.mp h.holders
  refine ⟨h.id, ?_, h.table, h.rooms, h.store, h.latest, h.timers, h.pending, h.past, h.current⟩
  unfold Service.holders
  simp only [Service.submit]
  rw [List.filter_append, List.map_append, hqueue, hstorage]
  simp [hjob]

/-! ### Running -/

theorem dequeue (h : s.Agrees tableId jobs d) {task : RoomTask} {queue : List RoomTask}
    (hq : s.queue = task :: queue) (hjob : task.job.fenced = false) :
    (task.room ≠ s.rooms ∧ Agrees tableId jobs d { s with queue := queue }) ∨
      task.room = s.rooms ∧ ∃ rest, d.pending = task.job :: rest ∧
        Agrees tableId jobs { d with pending := rest } { s with queue := queue } := by
  have hpast : ∀ x ∈ queue, x.room ≤ s.rooms := fun x hx =>
    h.past x (hq ▸ List.mem_cons_of_mem _ hx)
  have hcurrent : ∀ x ∈ queue, x.job.fenced = true → x.room = s.rooms ∧ s.room.isSome = true :=
    fun x hx => h.current x (hq ▸ List.mem_cons_of_mem _ hx)
  have hholders : ({ s with queue := queue } : Service).holders = jobs := by
    rw [← h.holders]
    simp [Service.holders, hq, hjob]
  have hpending := h.pending
  rw [hq] at hpending
  by_cases hroom : task.room = s.rooms
  · refine Or.inr ⟨hroom, waiting s.rooms queue, ?_, ?_⟩
    · rw [← hpending]
      simp [waiting, hroom, hjob]
    · exact ⟨h.id, hholders, h.table, h.rooms, h.store, h.latest, h.timers, rfl, hpast, hcurrent⟩
  · refine Or.inl ⟨hroom, h.id, hholders, h.table, h.rooms, h.store, h.latest, h.timers, ?_, hpast,
      hcurrent⟩
    rw [← hpending]
    simp [waiting, hroom]

end Agrees

/-! ### The fence -/

theorem Env.not_healthy_of_unavailable {call : StoreCall} (h : env.available call ≠ true) :
    ¬ env.Healthy := fun hok => h (hok.2.2 call)

/-- Running the job in hand from the room leaves the step holding the fence. -/
theorem Rests.runRoom (h : s.Rests tableId d) {task : RoomTask} {queue : List RoomTask}
    (hq : s.queue = task :: queue) (hjob : task.job.fenced = true) :
    d.job = some (.room task.job) ∧ task.room = s.rooms ∧
      Holds tableId { d with job := none } { s with queue := queue } := by
  have hag := h.agrees
  have hholders : s.holders = .room task.job :: ({ s with queue := queue } : Service).holders := by
    simp [holders, hq, hjob]
  have hfence := h.fence
  rw [hag.holders] at hholders
  cases hd : d.job with
  | none => exact absurd hholders (by simp [hd])
  | some job =>
    rw [hd, Option.toList_some, List.cons.injEq] at hholders
    obtain ⟨hroom, -⟩ := hag.current task (hq ▸ List.mem_cons_self) hjob
    refine ⟨by rw [hholders.1], hroom, ⟨hag.id, hholders.2.symm, hag.table, hag.rooms, hag.store,
      hag.latest, hag.timers, ?_, fun x hx => hag.past x (hq ▸ List.mem_cons_of_mem _ hx),
      fun x hx => hag.current x (hq ▸ List.mem_cons_of_mem _ hx)⟩, by rw [hfence, hd]; rfl, rfl⟩
    rw [← hag.pending, hq]
    simp [waiting, hjob]

theorem holders_eraseIdx {index : Nat} {job : StorageJob} (hget : s.storage[index]? = some job) :
    ∃ before after, s.holders = before ++ (if job.fenced then [.storage job] else []) ++ after ∧
      ({ s with storage := s.storage.eraseIdx index } : Service).holders = before ++ after := by
  obtain ⟨hlt, rfl⟩ := List.getElem?_eq_some_iff.mp hget
  have hsplit := List.take_append_drop index s.storage
  rw [List.drop_eq_getElem_cons hlt] at hsplit
  refine ⟨((s.queue.filter fun task => task.job.fenced).map fun task => .room task.job) ++
    ((s.storage.take index).filter StorageJob.fenced).map .storage,
    ((s.storage.drop (index + 1)).filter StorageJob.fenced).map .storage, ?_, ?_⟩
  · unfold holders
    conv_lhs => rw [← hsplit]
    rw [List.filter_append, List.filter_cons]
    split_ifs <;> simp
  · simp [holders, List.eraseIdx_eq_take_drop_succ, List.filter_append]

theorem Rests.runStorage (h : s.Rests tableId d) {index : Nat} {job : StorageJob}
    (hget : s.storage[index]? = some job) (hjob : job.fenced = true) :
    d.job = some (.storage job) ∧
      Holds tableId { d with job := none } { s with storage := s.storage.eraseIdx index } := by
  have hag := h.agrees
  have hfence := h.fence
  obtain ⟨before, after, hwith, hwithout⟩ := holders_eraseIdx hget
  rw [if_pos hjob, hag.holders] at hwith
  cases hd : d.job with
  | none => exact absurd hwith (by simp [hd])
  | some x =>
    rw [hd, Option.toList_some, eq_comm, List.append_assoc, List.append_eq_singleton_iff] at hwith
    have hparts : before = [] ∧ after = [] ∧ x = .storage job := by
      rcases hwith with ⟨hb, hrest⟩ | ⟨-, hrest⟩
      · rw [List.singleton_append, List.cons.injEq] at hrest
        exact ⟨hb, hrest.2, hrest.1.symm⟩
      · exact absurd hrest (by simp)
    obtain ⟨rfl, rfl, rfl⟩ := hparts
    exact ⟨rfl, ⟨hag.id, hwithout, hag.table, hag.rooms, hag.store, hag.latest, hag.timers,
      hag.pending, hag.past, hag.current⟩, by rw [hfence, hd]; rfl, rfl⟩

theorem Rests.runStorage_unfenced (h : s.Rests tableId d) {index : Nat} {job : StorageJob}
    (hget : s.storage[index]? = some job) (hjob : job.fenced = false) :
    Rests tableId d { s with storage := s.storage.eraseIdx index } := by
  have hag := h.agrees
  obtain ⟨before, after, hwith, hwithout⟩ := holders_eraseIdx hget
  rw [if_neg (by simp [hjob]), List.append_nil] at hwith
  exact ⟨⟨hag.id, by rw [hwithout, ← hwith, hag.holders], hag.table, hag.rooms, hag.store,
    hag.latest, hag.timers, hag.pending, hag.past, hag.current⟩, h.fence⟩

@[simp] theorem schedule_job (d : Desk) (view : TableSnapshot) : (d.schedule view).job = d.job := by
  unfold Desk.schedule
  split_ifs <;> rfl

namespace Rests

theorem complete (h : s.Rests tableId d) (request : Request) :
    (s.complete request).Rests tableId d := ⟨h.agrees.complete request, h.fence⟩

theorem setSession (h : s.Rests tableId d) (conn : Nat) (session : Session) :
    (s.setSession conn session).Rests tableId d := ⟨h.agrees.setSession conn session, h.fence⟩

theorem enqueue (h : s.Rests tableId d) {job : RoomJob} (hjob : job.fenced = false) :
    (s.enqueue job).Rests tableId { d with pending := d.pending ++ [job] } :=
  ⟨h.agrees.enqueue hjob, h.fence⟩

theorem submit (h : s.Rests tableId d) {job : StorageJob} (hjob : job.fenced = false) :
    (s.submit job).Rests tableId d := ⟨h.agrees.submit hjob, h.fence⟩

theorem schedule (h : s.Rests tableId d) (view : TableSnapshot) :
    (s.scheduleTimeout view).Rests tableId (d.schedule view) := by
  refine ⟨?_, ?_⟩
  · rw [schedule_job]
    exact h.agrees.schedule view
  · rw [schedule_job, ← h.fence]
    unfold scheduleTimeout
    split
    · rfl
    · cases view.actingPlayer <;> rfl

/-- A request takes the fence. -/
theorem take (h : s.Rests tableId d) (hfree : s.fence = false) :
    Holds tableId d { s with fence := true } := by
  have hnone : d.job = none := by
    have := h.fence
    rw [hfree] at this
    exact Option.isNone_iff_eq_none.mp (by rw [← Option.not_isSome, ← this]; rfl)
  refine ⟨?_, rfl, hnone⟩
  have hag := h.agrees
  rw [hnone] at hag
  exact hag.frame rfl

end Rests

namespace Holds

theorem release (h : s.Holds tableId d) : s.release.Rests tableId d := by
  refine ⟨?_, by rw [h.free]; rfl⟩
  rw [h.free]
  exact h.agrees.frame rfl

theorem complete (h : s.Holds tableId d) (request : Request) :
    (s.complete request).Holds tableId d := ⟨h.agrees.complete request, h.fence, h.free⟩

theorem setSession (h : s.Holds tableId d) (conn : Nat) (session : Session) :
    (s.setSession conn session).Holds tableId d :=
  ⟨h.agrees.setSession conn session, h.fence, h.free⟩

theorem setStore (h : s.Holds tableId d) (store : InMemoryGameStore) :
    Holds tableId { d with store := store } { s with store := store } :=
  ⟨h.agrees.setStore store, h.fence, h.free⟩

theorem schedule (h : s.Holds tableId d) (view : TableSnapshot) :
    (s.scheduleTimeout view).Holds tableId (d.schedule view) := by
  refine ⟨h.agrees.schedule view, ?_, by rw [schedule_job, h.free]⟩
  rw [← h.fence]
  unfold scheduleTimeout
  split
  · rfl
  · cases view.actingPlayer <;> rfl

theorem enqueue (h : s.Holds tableId d) {job : RoomJob} (hjob : job.fenced = true)
    (hroom : d.table.isSome = true) :
    (s.enqueue job).Rests tableId { d with job := some (.room job) } := by
  have hag := h.agrees.enqueue_fenced hjob hroom
  exact ⟨⟨hag.id, hag.holders, hag.table, hag.rooms, hag.store, hag.latest, hag.timers,
    hag.pending, hag.past, hag.current⟩, h.fence⟩

theorem submit (h : s.Holds tableId d) {job : StorageJob} (hjob : job.fenced = true) :
    (s.submit job).Rests tableId { d with job := some (.storage job) } := by
  have hag := h.agrees.submit_fenced hjob
  exact ⟨⟨hag.id, hag.holders, hag.table, hag.rooms, hag.store, hag.latest, hag.timers,
    hag.pending, hag.past, hag.current⟩, h.fence⟩

/-- The room is closed; the refund comes now or later. -/
theorem abort (h : s.Holds tableId d) (env : Env) (attempt : Bool) :
    ∃ after, Holds tableId { d with table := none, store := after }
        (s.abortTableAndNotify env attempt) ∧
      (attempt = true → Desk.Refunded tableId env.Healthy d.store after) ∧
      (attempt = false → after = d.store) := by
  have hag := h.agrees.closeRoom
  unfold abortTableAndNotify askStore
  cases attempt with
  | false =>
    exact ⟨d.store, ⟨hag.retryRefund 1, h.fence, h.free⟩, by simp, fun _ => rfl⟩
  | true =>
    simp only [if_true]
    by_cases havail : env.available .abortTableAndRefund = true
    · simp only [havail, if_true]
      refine ⟨(d.store.abortTableAndRefund tableId).2, ?_, fun _ => Or.inl rfl, by simp⟩
      have hset := hag.setStore (d.store.abortTableAndRefund tableId).2
      rw [← h.agrees.id, ← h.agrees.store] at hset ⊢
      split_ifs
      · exact ⟨hset, h.fence, h.free⟩
      · exact ⟨hset.retryRefund 1, h.fence, h.free⟩
    · simp only [havail]
      refine ⟨d.store, ?_, fun _ => Or.inr ⟨rfl, Env.not_healthy_of_unavailable havail⟩, by simp⟩
      exact ⟨hag.retryRefund 1, h.fence, h.free⟩

end Holds

/-! ### Posting to the room -/

variable {job : RoomJob}

theorem Rests.failed (h : s.Rests tableId d) (env : Env) (job : RoomJob)
    (hjob : job.fenced = false) :
    (s.failed env job).Rests tableId d := by
  cases job with
  | snapshot request => exact h.complete request
  | currentSnapshot request armTimeout => exact h.complete request
  | setConnected user connected reason =>
    cases reason with
    | reconnect request => exact h.complete request
    | disconnect => exact h
    | sessionEnd => exact h
  | timeoutAudit timeout => exact h
  | abortHand => exact h
  | _ => exact absurd hjob (by simp [RoomJob.fenced])

/-- An unfenced job is posted, or its callback is told why not. -/
theorem Rests.postRoom (h : s.Rests tableId d) (env : Env) (job : RoomJob)
    (hjob : job.fenced = false) :
    (d.table.isSome = true ∧
      (s.postRoom env job).Rests tableId { d with pending := d.pending ++ [job] }) ∨
    ((d.table = none ∨ ¬ env.Healthy) ∧ (s.postRoom env job).Rests tableId d) := by
  unfold Service.postRoom
  rw [h.agrees.table]
  split_ifs with hroom
  · exact Or.inl ⟨hroom.1, h.enqueue hjob⟩
  · refine Or.inr ⟨?_, h.failed env job hjob⟩
    by_cases hsome : d.table.isSome = true
    · exact Or.inr fun hok => hroom ⟨hsome, hok.1⟩
    · exact Or.inl (Option.not_isSome_iff_eq_none.mp hsome)

/-- The callback of a fenced job gives the fence back, unless chips were paid for a seat or a hand
was started. -/
theorem Holds.failed (h : s.Holds tableId d) (hjob : job.fenced = true)
    (hseat : ∀ request seat stack, job ≠ .seatPlayer request seat stack)
    (haudit : ∀ request, job ≠ .startAudit request) : (s.failed env job).Rests tableId d := by
  cases job with
  | seatPlayer request seat stack => exact absurd rfl (hseat request seat stack)
  | startAudit request => exact absurd rfl (haudit request)
  | seatedSnapshot request => exact (h.complete request).release
  | setReady request ready => exact (h.complete request).release
  | startHand request deck => exact (h.complete request).release
  | act request handId command => exact (h.complete request).release
  | setUnready request => exact (h.complete request).release
  | removePlayer request => exact (h.complete request).release
  | onActionTimeout timeout => exact h.release
  | _ => exact absurd hjob (by simp [RoomJob.fenced])

/-- A fenced job is posted with the fence. -/
theorem Holds.postRoom (h : s.Holds tableId d) (env : Env) (job : RoomJob)
    (hjob : job.fenced = true) :
    (d.table.isSome = true ∧
      (s.postRoom env job).Rests tableId { d with job := some (.room job) }) ∨
    ((d.table = none ∨ ¬ env.Healthy) ∧ s.postRoom env job = s.failed env job ∧
      s.postAbortHand env = s) := by
  unfold Service.postRoom Service.postAbortHand
  rw [h.agrees.table]
  split_ifs with hroom
  · exact Or.inl ⟨hroom.1, h.enqueue hjob hroom.1⟩
  · refine Or.inr ⟨?_, rfl, rfl⟩
    by_cases hsome : d.table.isSome = true
    · exact Or.inr fun hok => hroom ⟨hsome, hok.1⟩
    · exact Or.inl (Option.not_isSome_iff_eq_none.mp hsome)

/-- The next job of an operation: posted, or the operation ends. -/
theorem Holds.postNext (h : s.Holds tableId d) (env : Env) (job : RoomJob)
    (hjob : job.fenced = true)
    (hseat : ∀ request seat stack, job ≠ .seatPlayer request seat stack)
    (haudit : ∀ request, job ≠ .startAudit request) :
    ∃ next, (s.postRoom env job).Rests tableId { d with job := next } ∧
      (next = some (.room job) ∧ d.table.isSome = true ∨
        next = none ∧ (d.table = none ∨ ¬ env.Healthy)) := by
  rcases h.postRoom env job hjob with ⟨hroom, hrests⟩ | ⟨hwhy, hpost, -⟩
  · exact ⟨_, hrests, Or.inl ⟨rfl, hroom⟩⟩
  · refine ⟨none, ?_, Or.inr ⟨rfl, hwhy⟩⟩
    rw [hpost]
    have hd : { d with job := none } = d := by rw [← h.free]
    rw [hd]
    exact h.failed hjob hseat haudit

/-- `abortHand` is posted without a callback, or it is not. -/
theorem Holds.postAbortHand (h : s.Holds tableId d) (env : Env) :
    ∃ extra, (s.postAbortHand env).Holds tableId { d with pending := d.pending ++ extra } ∧
      (extra = [] ∨ extra = [.abortHand]) := by
  unfold Service.postAbortHand
  split_ifs
  · exact ⟨[.abortHand], ⟨h.agrees.enqueue rfl, h.fence, h.free⟩, Or.inr rfl⟩
  · refine ⟨[], ?_, Or.inl rfl⟩
    rw [List.append_nil]
    exact h

end Service

end PokerServer
