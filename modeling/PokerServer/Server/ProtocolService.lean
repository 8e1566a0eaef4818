import PokerServer.Application.IdempotencyCache
import PokerServer.Application.RoomManager
import PokerServer.Server.HandRecords

/-!
# The protocol service at one table

Model of `apps/server/protocol_service.cpp` for one table id: the requests that name the table, the
tasks they leave in the room executor and in the storage executor, the scheduled timeouts, the
table's room and the store. A closure of the source is a value of `RoomJob` or `StorageJob` that
holds what it captured.

* A step runs one handler or one task to its end (`Service.step`). The room executor runs the tasks
  of a table in the order they were posted, the storage executor in any order.
* What the code does not decide is in the event: which request comes, whether a session has expired
  (`expired`), whether an executor has room for a task, whether the store answers, whether a ticket
  is good, how the deck is shuffled (`Env`).
* `fence` is the table's place in `active_table_operations_`. The job that holds the
  `TableOperation` is `fenced`; it hands it on or gives it back (`release`).
* A room that was closed stays closed; the jobs posted to it carry its number. At most one room of
  the table is open.

Left out: the answers themselves, pushed snapshots and metrics, which no later step reads, and
requests that do not name the table. A task that throws takes no step.
-/

namespace PokerServer

/-- An authorized request: who sent it, on which connection, under which id. -/
structure Request where
  user : UserId
  conn : Nat
  id : Nat
  deriving DecidableEq

/-- A scheduled timeout, as `scheduleTimeout` captures it. -/
structure Timeout where
  player : PlayerId
  sequence : Nat
  action : ActionType
  deriving DecidableEq

/-- Why a player's connection changes: `RECONNECT_REQUEST`, `onDisconnect`, or a session that ends
by `LOGOUT_REQUEST` or by expiry. -/
inductive Reason where
  | reconnect (request : Request)
  | disconnect
  | sessionEnd
  deriving DecidableEq

/-- The tasks the service posts to the table's room, with what their callbacks captured. -/
inductive RoomJob where
  | seatPlayer (request : Request) (seat : Nat) (stack : Int)
  | seatedSnapshot (request : Request)
  | setReady (request : Request) (ready : Bool)
  | startHand (request : Request) (deck : FullDeck)
  | startAudit (request : Request)
  | abortHand
  | act (request : Request) (handId : Nat) (command : ActionCommand)
  | snapshot (request : Request)
  | currentSnapshot (request : Request) (armTimeout : Bool)
  | setConnected (user : UserId) (connected : Bool) (reason : Reason)
  | setUnready (request : Request)
  | removePlayer (request : Request)
  | timeoutAudit (timeout : Timeout)
  | onActionTimeout (timeout : Timeout)
  deriving DecidableEq

/-- The tasks the service posts to the storage executor. -/
inductive StorageJob where
  | sitDown (request : Request) (seat : Nat) (buyIn : Int)
  | rollback (request : Request)
  | beginHand (request : Request) (start : HandStartRecord)
  | storeAction (request : Option Request) (action : HandActionRecord)
      (settlement : Option HandSettlementRecord) (view : TableSnapshot)
  | cashOut (request : Request)
  | logout (request : Request) (atTable : Bool)
  | refund (attempt : Nat)
  deriving DecidableEq

/-- The `RoomManager` call a job makes. -/
def RoomJob.call : RoomJob → RoomCall
  | .seatPlayer request seat stack => .seatPlayer request.user seat stack
  | .seatedSnapshot request => .snapshot (some request.user)
  | .setReady request ready => .setReady request.user ready
  | .startHand _ deck => .startHand deck
  | .startAudit _ => .auditSnapshot
  | .abortHand => .abortHand
  | .act _ handId command => .act handId command
  | .snapshot request => .snapshot (some request.user)
  | .currentSnapshot request _ => .snapshot (some request.user)
  | .setConnected user connected _ => .setConnected user connected
  | .setUnready request => .setReady request.user false
  | .removePlayer request => .removePlayer request.user
  | .timeoutAudit _ => .auditSnapshot
  | .onActionTimeout timeout => .onActionTimeout timeout.player timeout.sequence

/-- Only `abortHand` is posted with an empty callback. -/
def RoomJob.callback : RoomJob → Bool
  | .abortHand => false
  | _ => true

/-- The jobs whose closure holds the `TableOperation`. -/
def RoomJob.fenced : RoomJob → Bool
  | .seatPlayer .. | .seatedSnapshot .. | .setReady .. | .startHand .. | .startAudit .. | .act ..
  | .setUnready .. | .removePlayer .. | .onActionTimeout .. => true
  | .abortHand | .snapshot .. | .currentSnapshot .. | .setConnected .. | .timeoutAudit .. => false

def StorageJob.fenced : StorageJob → Bool
  | .sitDown .. | .rollback .. | .beginHand .. | .storeAction .. | .cashOut .. => true
  | .logout .. | .refund .. => false

/-- A posted task and the room it captured. -/
structure RoomTask where
  room : Nat
  job : RoomJob
  deriving DecidableEq

/-- The part of `ConnectionSession` that later steps read; `atTable` says that `table_id` is the
table's. -/
structure Session where
  userId : Option UserId := none
  atTable : Bool := false

/-- The calls of the store that can find it unavailable. -/
inductive StoreCall where
  | findTable
  | reserveBuyIn
  | cashOut
  | beginHand
  | appendAction
  | settleHand
  | abortTableAndRefund
  deriving DecidableEq

/-- What a step finds around it. -/
structure Env where
  roomAccepts : Bool := true
  storageAccepts : Bool := true
  available : StoreCall → Bool := fun _ => true
  ticketValid : Bool := true
  loggedOut : Bool := true
  deck : FullDeck := { cards := orderedDeck, perm := List.Perm.refl _, fresh := rfl }

structure Service where
  tableId : Nat
  nodeId : String
  store : InMemoryGameStore
  room : Option Table := none
  rooms : Nat := 0
  fence : Bool := false
  queue : List RoomTask := []
  storage : List StorageJob := []
  timers : List Timeout := []
  refunds : List Nat := []
  latestTimeout : Option Nat := none
  cache : IdempotencyCache Unit := {}
  sessions : Nat → Session := fun _ => {}

namespace Service

/-! ## What handlers and tasks are made of -/

/-- `reply`, `fail` and `acknowledge` for an authorized request: the request is complete. -/
def complete (request : Request) (s : Service) : Service :=
  { s with cache := s.cache.complete request.user request.id () }

/-- `finishTableOperation`. -/
def release (s : Service) : Service := { s with fence := false }

def submit (job : StorageJob) (s : Service) : Service := { s with storage := s.storage ++ [job] }

def enqueue (job : RoomJob) (s : Service) : Service :=
  { s with queue := s.queue ++ [{ room := s.rooms, job := job }] }

def setSession (conn : Nat) (session : Session) (s : Service) : Service :=
  { s with sessions := Function.update s.sessions conn session }

/-- A call of the store: without an answer nothing was done. -/
def askStore (env : Env) (call : StoreCall) (s : Service)
    (answer : StorageError × InMemoryGameStore) : StorageError × Service :=
  if env.available call then (answer.1, { s with store := answer.2 }) else (.unavailable, s)

/-- `retryRefund`: another attempt is scheduled, eight at most. -/
def retryRefund (attempt : Nat) (s : Service) : Service :=
  if 8 < attempt then s else { s with refunds := s.refunds ++ [attempt] }

/-- `abortTableAndNotify`: the room is closed and the stacks are refunded, now or later. -/
def abortTableAndNotify (env : Env) (attemptRefund : Bool) (s : Service) : Service :=
  let s := { s with room := none }
  if attemptRefund then
    let (refunded, s) := s.askStore env .abortTableAndRefund (s.store.abortTableAndRefund s.tableId)
    if refunded = .ok then s else s.retryRefund 1
  else s.retryRefund 1

/-- The action `scheduleTimeout` expects the player to have taken. -/
def timeoutAction (snapshot : TableSnapshot) (player : PlayerId) : ActionType :=
  if (snapshot.players.find? fun view => view.id == player).any fun view =>
      view.streetCommitment == snapshot.currentBet then .check
  else .fold

/-- `scheduleTimeout`. -/
def scheduleTimeout (snapshot : TableSnapshot) (s : Service) : Service :=
  if s.latestTimeout.any fun latest => snapshot.serverSequence < latest then s
  else
    let s := { s with latestTimeout := some snapshot.serverSequence }
    match snapshot.actingPlayer with
    | none => s
    | some player =>
      { s with
        timers := s.timers ++
          [{ player := player
             sequence := snapshot.serverSequence
             action := timeoutAction snapshot player }] }

/-- The keys under which the ledger knows what a request did. -/
def buyKey (tableId : Nat) (request : Request) : String :=
  "buy:" ++ toString tableId ++ ":" ++ toString request.id

def rollbackKey (tableId : Nat) (request : Request) : String :=
  "rollback:" ++ toString tableId ++ ":" ++ toString request.id

def cashKey (tableId : Nat) (request : Request) : String :=
  "cash:" ++ toString tableId ++ ":" ++ toString request.id

/-- `rooms_.abortHand(table_id, {})`: posted if there is a room and a place for it. -/
def postAbortHand (env : Env) (s : Service) : Service :=
  if s.room.isSome ∧ env.roomAccepts = true then s.enqueue .abortHand else s

/-! ## Callbacks -/

/-- The callback of a job that is told an error: a refusal of the table, a room that is closed or
missing, or an executor that is full. -/
def failed (env : Env) (job : RoomJob) (s : Service) : Service :=
  match job with
  | .seatPlayer request _ _ =>
    if env.storageAccepts then (s.submit (.rollback request)).complete request
    else ((s.abortTableAndNotify env false).complete request).release
  | .startAudit request => ((s.postAbortHand env).complete request).release
  | .seatedSnapshot request | .setReady request _ | .startHand request _ | .act request _ _
  | .setUnready request | .removePlayer request => (s.complete request).release
  | .snapshot request | .currentSnapshot request _ => s.complete request
  | .setConnected _ _ (.reconnect request) => s.complete request
  | .onActionTimeout _ => s.release
  | .setConnected _ _ .disconnect | .setConnected _ _ .sessionEnd | .timeoutAudit _ | .abortHand =>
    s

/-- Post a task to the table's room. Without a room or without a place in the executor the callback
is told at once. -/
def postRoom (env : Env) (job : RoomJob) (s : Service) : Service :=
  if s.room.isSome ∧ env.roomAccepts = true then s.enqueue job else s.failed env job

/-- The end of the two callbacks that store an accepted action. -/
def postAction (env : Env) (request : Option Request) (action : HandActionRecord)
    (result : ActionResult) (view audit : TableSnapshot) (s : Service) : Service :=
  if env.storageAccepts then
    let settlement :=
      if audit.street = .settled then some (audit.handSettlement s.tableId result.awards) else none
    s.submit (.storeAction request action settlement view)
  else
    let s := s.abortTableAndNotify env false
    (match request with
      | some request => s.complete request
      | none => s).release

/-- The record of an accepted action. -/
def actionRecord (s : Service) (requestId : Nat) (user : UserId) (type : ActionType)
    (amount : Int) (result : ActionResult) (audit : TableSnapshot) : HandActionRecord :=
  { handId := persistentHandId s.tableId audit.handId
    sequence := result.serverSequence
    requestId := requestId
    userId := user
    street := result.actionStreet
    action := type
    targetAmount := amount }

/-- The callback of a job, once its task ran. -/
def callback (env : Env) (job : RoomJob) (reply : Reply) (s : Service) : Service :=
  match job, reply with
  | .seatPlayer request _ _, .error error =>
    if error ≠ .ok then s.failed env job
    else
      (s.setSession request.conn { s.sessions request.conn with atTable := true }).postRoom env
        (.seatedSnapshot request)
  | .seatedSnapshot request, .snapshot error _ =>
    if error ≠ .ok then s.failed env job else (s.complete request).release
  | .setReady request ready, .error error =>
    if error ≠ .ok then s.failed env job
    else if ready then s.postRoom env (.startHand request env.deck)
    else s.release.postRoom env (.currentSnapshot request false)
  | .startHand request _, .error error =>
    if error = .ok then s.postRoom env (.startAudit request)
    else if error = .notEnoughPlayers ∨ error = .handInProgress then
      s.release.postRoom env (.currentSnapshot request true)
    else s.failed env job
  | .startAudit request, .snapshot error audit =>
    if error ≠ .ok then s.failed env job
    else if env.storageAccepts then s.submit (.beginHand request (audit.handStart s.tableId))
    else ((s.postAbortHand env).complete request).release
  | .act request _ command, .action result view audit =>
    if result.error ≠ .ok then s.failed env job
    else
      s.postAction env (some request)
        (s.actionRecord request.id request.user command.type command.amount result audit)
        result view audit
  | .snapshot request, .snapshot _ _ => s.complete request
  | .currentSnapshot request armTimeout, .snapshot error view =>
    if error ≠ .ok then s.failed env job
    else if armTimeout then (s.complete request).scheduleTimeout view
    else s.complete request
  | .setConnected _ _ reason, .snapshot error view =>
    if error ≠ .ok then s.failed env job
    else match reason with
      | .reconnect request => (s.complete request).scheduleTimeout view
      | .disconnect => s.scheduleTimeout view
      | .sessionEnd => s
  | .setUnready request, .error error =>
    if error ≠ .ok then s.failed env job
    else if env.storageAccepts then s.submit (.cashOut request)
    else (s.complete request).release
  | .removePlayer request, .error error =>
    if error ≠ .ok then s.failed env job
    else
      ((s.setSession request.conn { s.sessions request.conn with atTable := false }).complete
        request).release
  | .timeoutAudit timeout, .snapshot error current =>
    if error ≠ .ok ∨ current.serverSequence ≠ timeout.sequence
        ∨ current.actingPlayer ≠ some timeout.player then s
    else if s.fence then s
    else { s with fence := true }.postRoom env (.onActionTimeout timeout)
  | .onActionTimeout timeout, .action result after audit =>
    if result.error ≠ .ok then s.failed env job
    else
      s.postAction env none
        (s.actionRecord (2 ^ 63 ||| timeout.sequence) timeout.player timeout.action 0 result audit)
        result after audit
  | _, _ => s

/-! ## Tasks -/

/-- The room a task captured. -/
def capturedRoom (s : Service) (task : RoomTask) : Room :=
  match s.room with
  | some table => { table := table, closed := task.room != s.rooms }
  | none => { table := Table.new {}, closed := true }

/-- The room executor runs its next task. -/
def runRoom (env : Env) (s : Service) : Option Service :=
  match s.queue with
  | [] => none
  | task :: queue =>
    let room := s.capturedRoom task
    match Room.run task.job.call task.job.callback room with
    | .error _ => none
    | .ok (reply, room') =>
      let s := { s with queue := queue, room := if room.closed then s.room else some room'.table }
      match reply with
      | none => some s
      | some reply => some (s.callback env task.job reply)

/-- The task of `SIT_DOWN_REQUEST`, once the ticket is good and the table is found. -/
def reserveSeat (env : Env) (request : Request) (seat : Nat) (buyIn : Int) (config : TableConfig)
    (s : Service) : Service :=
  -- rooms_.createTable refuses the id 0
  if s.room.isNone ∧ s.tableId = 0 then (s.complete request).release
  else
    let s := if s.room.isSome then s
      else { s with room := some (Table.new config), rooms := s.rooms + 1 }
    let (reserved, store) :=
      s.store.reserveBuyIn s.tableId request.user seat buyIn (buyKey s.tableId request)
    match env.available .reserveBuyIn, reserved.value with
    | true, some receipt =>
      { s with store := store }.postRoom env (.seatPlayer request seat receipt.tableStack)
    | _, _ => (s.complete request).release

/-- The end of a task that stored an accepted action and its settlement. -/
def actionStored (request : Option Request) (view : TableSnapshot) (s : Service) : Service :=
  let s := (s.scheduleTimeout view).release
  match request with
  | some request => s.complete request
  | none => s

/-- The end of a task that could not. -/
def actionLost (env : Env) (request : Option Request) (s : Service) : Service :=
  let s := s.abortTableAndNotify env true
  (match request with
    | some request => s.complete request
    | none => s).release

/-- What a storage thread does with a task. -/
def runStorage (env : Env) (job : StorageJob) (s : Service) : Service :=
  match job with
  | .sitDown request seat buyIn =>
    if !env.ticketValid then (s.complete request).release
    else match env.available .findTable, (s.store.findTable s.tableId).value with
      | true, some record =>
        if record.nodeId ≠ s.nodeId then (s.complete request).release
        else s.reserveSeat env request seat buyIn record.config
      | _, _ => (s.complete request).release
  | .rollback request =>
    let (rolledBack, store) := s.store.cashOut s.tableId request.user
      (rollbackKey s.tableId request)
    let (error, s) := s.askStore env .cashOut (rolledBack.error, store)
    if error = .ok then s.release else (s.abortTableAndNotify env true).release
  | .beginHand request start =>
    let (stored, s) := s.askStore env .beginHand (s.store.beginHand start)
    if stored = .ok ∨ stored = .duplicate then
      s.release.postRoom env (.currentSnapshot request true)
    else ((s.postAbortHand env).complete request).release
  | .storeAction request action settlement view =>
    let (stored, s) := s.askStore env .appendAction (s.store.appendAction action)
    if stored ≠ .ok ∧ stored ≠ .duplicate then s.actionLost env request
    else match settlement with
      | none => s.actionStored request view
      | some settlement =>
        let (settled, s) := s.askStore env .settleHand (s.store.settleHand settlement)
        if settled ≠ .ok ∧ settled ≠ .duplicate then s.actionLost env request
        else s.actionStored request view
  | .cashOut request =>
    let (cashedOut, store) := s.store.cashOut s.tableId request.user (cashKey s.tableId request)
    let (error, s) := s.askStore env .cashOut (cashedOut.error, store)
    if error = .ok then s.postRoom env (.removePlayer request) else (s.complete request).release
  | .logout request atTable =>
    if !env.loggedOut then s.complete request
    else
      let s := s.setSession request.conn {}
      let s := { s with cache := s.cache.reset request.user }
      (if atTable then s.postRoom env (.setConnected request.user false .sessionEnd)
        else s).complete request
  | .refund attempt =>
    let (refunded, s) := s.askStore env .abortTableAndRefund (s.store.abortTableAndRefund s.tableId)
    if refunded = .ok then s else s.retryRefund (attempt + 1)

/-- A scheduled timeout fires. -/
def fireTimeout (env : Env) (timeout : Timeout) (s : Service) : Service :=
  if s.latestTimeout = some timeout.sequence then s.postRoom env (.timeoutAudit timeout) else s

/-- A scheduled refund attempt fires. -/
def fireRefund (env : Env) (attempt : Nat) (s : Service) : Service :=
  if env.storageAccepts then s.submit (.refund attempt) else s.retryRefund (attempt + 1)

/-! ## Requests -/

/-- The requests that name the table. -/
inductive Body where
  | logout
  | sitDown (seat : Nat) (buyIn : Int)
  | ready (ready : Bool)
  | action (handId : Nat) (type : ActionType) (amount : Int)
  | snapshot
  | reconnect
  | leave
  deriving DecidableEq

/-- The switch of `handle`, for an authorized request. A command that changes the table takes the
fence first (`beginTableOperation`). -/
def dispatch (env : Env) (request : Request) (body : Body) (s : Service) : Service :=
  let fenced := fun (start : Service → Service) =>
    if s.tableId = 0 ∨ s.fence = true then s.complete request else start { s with fence := true }
  match body with
  | .logout =>
    if env.storageAccepts then s.submit (.logout request (s.sessions request.conn).atTable)
    else s.complete request
  | .sitDown seat buyIn =>
    fenced fun s =>
      if env.storageAccepts then s.submit (.sitDown request seat buyIn)
      else (s.complete request).release
  | .ready ready => fenced (·.postRoom env (.setReady request ready))
  | .action handId type amount =>
    fenced (·.postRoom env
      (.act request handId { playerId := request.user, type := type, amount := amount }))
  | .snapshot => s.postRoom env (.snapshot request)
  | .reconnect =>
    (s.setSession request.conn { s.sessions request.conn with atTable := true }).postRoom env
      (.setConnected request.user true (.reconnect request))
  | .leave => fenced (·.postRoom env (.setUnready request))

/-- `handle`, for a request that needs a session: the id is checked, an expired session ends, and
the request window decides. -/
def handle (env : Env) (conn requestId clientSequence : Nat) (expired : Bool) (body : Body)
    (s : Service) : Service :=
  let session := s.sessions conn
  if requestId = 0 ∨ 2 ^ 63 - 1 < requestId then s
  else match session.userId with
    | none => s
    | some user =>
      if expired then
        let s := s.setSession conn {}
        if session.atTable then s.postRoom env (.setConnected user false .sessionEnd) else s
      else
        let (decision, cache) := s.cache.begin user requestId clientSequence
        let s := { s with cache := cache }
        if decision.status = .accepted then
          s.dispatch env { user := user, conn := conn, id := requestId } body
        else s

/-- `LOGIN_REQUEST`, `AUTHENTICATE_SESSION_REQUEST` and the first half of `RECONNECT_REQUEST`: a
connection with a live session is refused, an expired session is forgotten, and the account store
names the user or refuses. -/
def authenticate (conn : Nat) (user : Option UserId) (expired : Bool) (s : Service) : Service :=
  if (s.sessions conn).userId.isSome ∧ expired = false then s
  else
    let s := if (s.sessions conn).userId.isSome then s.setSession conn {} else s
    match user with
    | none => s
    | some user =>
      let s := s.setSession conn { s.sessions conn with userId := some user }
      { s with cache := s.cache.reset user }

/-- `onDisconnect`. -/
def onDisconnect (env : Env) (conn : Nat) (s : Service) : Service :=
  let session := s.sessions conn
  match session.userId, session.atTable with
  | some user, true => s.postRoom env (.setConnected user false .disconnect)
  | _, _ => s

/-! ## Steps -/

inductive Event where
  | request (conn requestId clientSequence : Nat) (expired : Bool) (body : Body)
  | authenticate (conn : Nat) (user : Option UserId) (expired : Bool)
  | disconnect (conn : Nat)
  | room
  | storage (index : Nat)
  | timer (index : Nat)
  | refund (index : Nat)
  deriving DecidableEq

/-- One step; none if there is no such task, or if it throws. -/
def step (s : Service) : Event × Env → Option Service
  | (.request conn requestId clientSequence expired body, env) =>
    some (s.handle env conn requestId clientSequence expired body)
  | (.authenticate conn user expired, _) => some (s.authenticate conn user expired)
  | (.disconnect conn, env) => some (s.onDisconnect env conn)
  | (.room, env) => s.runRoom env
  | (.storage index, env) =>
    (s.storage[index]?).map fun job =>
      { s with storage := s.storage.eraseIdx index }.runStorage env job
  | (.timer index, env) =>
    (s.timers[index]?).map fun timeout =>
      { s with timers := s.timers.eraseIdx index }.fireTimeout env timeout
  | (.refund index, env) =>
    (s.refunds[index]?).map fun attempt =>
      { s with refunds := s.refunds.eraseIdx index }.fireRefund env attempt

/-- `step` as a relation. -/
def Steps (s : Service) (event : Event × Env) (s' : Service) : Prop := s.step event = some s'

end Service

end PokerServer
