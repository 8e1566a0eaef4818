import PokerServer.Cluster.JoinTickets
import PokerServer.Cluster.Refunds
import PokerServer.Server.Connections
import PokerServer.Storage.ConfigChecks

/-!
# The requests of the lobby

Model of `CREATE_TABLE_REQUEST`, `LIST_TABLES_REQUEST` and `JOIN_TABLE_REQUEST` in
`ProtocolService::handle` (`apps/server/protocol_service.cpp`), once the request is authorized: its
checks on the event loop, and its storage task. Any number of processes serve requests over one
store, and everybody else calls the store in between (`LobbyCommand.store`).

* The registry and the generator of tokens answer anything (`LobbyTaskEnv.lobby`): a node can come
  and go, a lease can run out, an id can be given out twice.
* The environment says whether the storage queue takes a task and whether the local room could be
  made.
* Sizes of names are in bytes.

Left out: `reply`, which keeps the response for a repeated request (`Connections`).

`answers_lead_to_one_node` says what the answers promise: a table is made once, and every answer
about it, of whatever process, leads to the node that it was made on.
-/

namespace PokerServer

/-- `TableSummary` of the protocol, as far as it is filled. -/
structure TableSummary where
  tableId : Nat
  name : String
  maxPlayers : Nat
  smallBlind : Int
  bigBlind : Int
  gameNodeId : String
  deriving DecidableEq

def TableRecord.summary (table : TableRecord) : TableSummary where
  tableId := table.tableId
  name := table.name
  maxPlayers := table.config.maxPlayers
  smallBlind := table.config.smallBlind
  bigBlind := table.config.bigBlind
  gameNodeId := table.nodeId

inductive LobbyResponse where
  | error (code : ErrorCode) (message : String)
  | createTable (table : TableSummary) (nodeEndpoint joinTicket : String)
  | listTables (tables : List TableSummary)
  | joinTable (nodeEndpoint joinTicket : String)
  deriving DecidableEq

structure CreateTableRequest where
  name : String := ""
  maxPlayers : Nat := 0
  smallBlind : Int := 0
  bigBlind : Int := 0
  minBuyIn : Int := 0
  maxBuyIn : Int := 0

/-- `table_config`; `min_players` keeps its default. -/
def CreateTableRequest.config (body : CreateTableRequest) : TableConfig where
  maxPlayers := body.maxPlayers
  smallBlind := body.smallBlind
  bigBlind := body.bigBlind
  minBuyIn := body.minBuyIn
  maxBuyIn := body.maxBuyIn

structure ListTablesRequest where
  pageSize : Nat := 0
  pageToken : String := ""

/-- The message type with the body, where `has_..._request()` says that there is one. -/
inductive LobbyBody where
  | createTable (body : Option CreateTableRequest)
  | listTables (body : Option ListTablesRequest)
  | joinTable (tableId : Option Nat)

/-! ## Tasks -/

/-- What the requests call. -/
inductive LobbyTaskOp where
  | post
  | lobby (op : LobbyOp)
  | store (call : StoreOp)
  | findTable (tableId : Nat)
  | listOpenTables (limit : Nat)
  | createRoom (tableId : Nat) (config : TableConfig)

abbrev LobbyTaskOp.Ans : LobbyTaskOp → Type
  | .post => Bool
  | .lobby op => op.Ans
  | .store _ => StoreAnswer
  | .findTable _ => StorageResult TableRecord
  | .listOpenTables _ => StorageResult (List TableRecord)
  | .createRoom .. => TableError

abbrev LobbyTask := Script LobbyTaskOp LobbyTaskOp.Ans

def LobbyTask.call (op : LobbyTaskOp) : LobbyTask op.Ans := Script.perform op

/-- What the storage queue, the registry, the generator of tokens and the rooms answer. -/
structure LobbyTaskEnv where
  accepts : Bool := true
  room : TableError := .ok
  lobby : (op : LobbyOp) → op.Ans

def LobbyTaskOp.exec (env : LobbyTaskEnv) (store : InMemoryGameStore) :
    (op : LobbyTaskOp) → Option (op.Ans × InMemoryGameStore)
  | .post => some (env.accepts, store)
  | .lobby op => some (env.lobby op, store)
  | .store call => some (store.perform call)
  | .findTable tableId => some (store.findTable tableId, store)
  | .listOpenTables limit => some (store.listOpenTables limit, store)
  | .createRoom .. => some (env.room, store)

/-- `map(storage::StorageError)`. -/
def StorageError.map : StorageError → ErrorCode
  | .ok => .ok
  | .notFound => .notFound
  | .duplicate => .conflict
  | .conflict => .conflict
  | .insufficientFunds => .tableRuleViolation
  | .invalidData => .invalidMessage
  | .unavailable => .serviceUnavailable

namespace LobbyRouter

variable (l : LobbyRouter)

def refuse (code : ErrorCode) (message : String) : LobbyTask LobbyResponse :=
  pure (.error code message)

/-- `storage_executor_.post`. -/
def postTask (task : LobbyTask LobbyResponse) : LobbyTask LobbyResponse := do
  let accepted ← LobbyTask.call .post
  if accepted = true then task else refuse .serviceUnavailable "storage queue is full"

/-- A call of `router_`. -/
def route {α : Type} (call : LobbyScript α) : LobbyTask α :=
  call.subst fun op => LobbyTask.call (.lobby op)

/-- The end of the task of `CREATE_TABLE_REQUEST`, where the table is stored. -/
def openTable (nodeId : String) (table : TableRecord) (assignment : RouteAssignment) :
    LobbyTask LobbyResponse :=
  let created := LobbyResponse.createTable table.summary assignment.node.endpoint
    assignment.joinTicket
  if assignment.node.nodeId = nodeId then do
    let opened ← LobbyTask.call (.createRoom table.tableId table.config)
    if opened = .ok then pure created
    else refuse .serviceUnavailable "local room could not be created"
  else pure created

/-- The storage task of `CREATE_TABLE_REQUEST`. -/
def createTableTask (nodeId : String) (user : UserId) (body : CreateTableRequest) :
    LobbyTask LobbyResponse := do
  let allocated ← LobbyTask.call (.lobby (.registry .allocateTableId))
  match allocated with
  | none => refuse .serviceUnavailable "could not allocate a global table id"
  | some tableId => do
    let assignment ← route (l.assignNewTable tableId user)
    match assignment with
    | none => refuse .serviceUnavailable "no healthy game node is available"
    | some assignment => do
      let table : TableRecord :=
        { tableId
          name := if body.name = "" then "Table " ++ toString tableId else body.name
          nodeId := assignment.node.nodeId
          config := body.config
          createdBy := user }
      let stored ← LobbyTask.call (.store (.createTable table))
      if stored.error = .ok then openTable nodeId table assignment
      else refuse stored.error.map "table metadata could not be stored"

def createTable (nodeId : String) (user : UserId) (body : CreateTableRequest) :
    LobbyTask LobbyResponse :=
  if body.config.validConfig = false ∨ 64 < body.name.utf8ByteSize then
    refuse .invalidMessage "invalid table configuration"
  else postTask (l.createTableTask nodeId user body)

def listTables (body : ListTablesRequest) : LobbyTask LobbyResponse :=
  let limit := if body.pageSize = 0 then 50 else min body.pageSize 100
  postTask do
    let tables ← LobbyTask.call (.listOpenTables limit)
    match tables.toOption with
    | none => refuse tables.error.map tables.message
    | some records => pure (.listTables (records.map TableRecord.summary))

def joinTable (user : UserId) (tableId : Nat) : LobbyTask LobbyResponse :=
  postTask do
    let table ← LobbyTask.call (.findTable tableId)
    match table.toOption with
    | none => refuse table.error.map table.message
    | some table => do
      let assignment ← route (l.routeExistingTable tableId user table.nodeId)
      match assignment with
      | none => refuse .serviceUnavailable "table owner is unavailable"
      | some assignment =>
        if assignment.node.nodeId = table.nodeId then
          pure (.joinTable assignment.node.endpoint assignment.joinTicket)
        else refuse .serviceUnavailable "table owner is unavailable"

/-- The lobby commands of the switch of `handle`, in a process whose `node_id` is `nodeId`. -/
def serve (nodeId : String) (user : UserId) : LobbyBody → LobbyTask LobbyResponse
  | .createTable none => refuse .invalidMessage "create-table body is missing"
  | .createTable (some body) => l.createTable nodeId user body
  | .listTables none =>
    refuse .invalidMessage "list-tables body is missing or page token is unsupported"
  | .listTables (some body) =>
    if body.pageToken = "" then listTables body
    else refuse .invalidMessage "list-tables body is missing or page token is unsupported"
  | .joinTable none => refuse .invalidMessage "join-table body is missing"
  | .joinTable (some tableId) => l.joinTable user tableId

end LobbyRouter

/-- A request of the lobby, or a call on the store from elsewhere. -/
inductive LobbyCommand where
  | request (nodeId : String) (user : UserId) (body : LobbyBody)
  | store (call : StoreOp)

abbrev LobbyCommand.Res : LobbyCommand → Type
  | .request .. => LobbyResponse
  | .store _ => StoreAnswer

def LobbyRouter.commands (l : LobbyRouter) : (call : LobbyCommand) → LobbyTask call.Res
  | .request nodeId user body => l.serve nodeId user body
  | .store call => LobbyTask.call (.store call)

abbrev LobbyTaskThreads :=
  Threads InMemoryGameStore LobbyTaskOp LobbyTaskOp.Ans LobbyCommand LobbyCommand.Res
abbrev LobbyTaskEvent :=
  ThreadsEvent LobbyTaskEnv LobbyTaskOp LobbyTaskOp.Ans LobbyCommand LobbyCommand.Res
abbrev LobbyTaskTrace :=
  ThreadsTrace InMemoryGameStore LobbyTaskEnv LobbyTaskOp LobbyTaskOp.Ans LobbyCommand
    LobbyCommand.Res

abbrev LobbyRouter.Serves (l : LobbyRouter) :
    LobbyTaskThreads → LobbyTaskEvent → LobbyTaskThreads → Prop :=
  ThreadsStep l.commands LobbyTaskOp.exec

/-! ## Records in the store -/

namespace InMemoryGameStore

variable {store store' : InMemoryGameStore} {call : StoreOp} {answer : StoreAnswer}

/-- The record that a table was created with. -/
def recordOf (store : InMemoryGameStore) (tableId : Nat) : Option TableRecord :=
  (store.tables.lookup tableId).map StoredTable.record

/-- The store has the table. -/
def Registers (store : InMemoryGameStore) (table : TableRecord) : Prop :=
  store.recordOf table.tableId = some table

/-- Every table is under its own id. -/
def Filed (store : InMemoryGameStore) : Prop :=
  ∀ tableId table, store.recordOf tableId = some table → table.tableId = tableId

theorem recordOf_eq_some {tableId : Nat} {table : StoredTable}
    (h : store.tables.lookup tableId = some table) :
    store.recordOf tableId = some table.record := by
  rw [recordOf, h, Option.map_some]

theorem registers_setTable (store : InMemoryGameStore) (table : TableRecord) :
    (store.setTable table.tableId { record := table }).Registers table :=
  congrArg (Option.map StoredTable.record) (AList.lookup_insert store.tables)

/-- **A record is written once**, by the call that creates the table. -/
theorem Performed.recordOf (h : Performed store call answer store') (tableId : Nat) :
    store'.recordOf tableId = store.recordOf tableId ∨
      ∃ table, call = .createTable table ∧ table.tableId = tableId ∧
        store.recordOf tableId = none ∧ store'.recordOf tableId = some table := by
  have hsame {id : Nat} {old new : StoredTable} (hold : store.tables.lookup id = some old)
      (hrecord : new.record = old.record) :
      ((store.tables.insert id new).lookup tableId).map StoredTable.record =
        store.recordOf tableId := by
    by_cases heq : tableId = id
    · subst heq
      rw [AList.lookup_insert, InMemoryGameStore.recordOf, hold]
      exact congrArg some hrecord
    · rw [AList.lookup_insert_ne heq]
      rfl
  cases h with
  | refused error => exact Or.inl rfl
  | repeated again => exact Or.inl rfl
  | seeded real solvent new => exact Or.inl rfl
  | @created table new =>
    by_cases heq : tableId = table.tableId
    · subst heq
      exact Or.inr ⟨table, rfl, rfl, congrArg (Option.map StoredTable.record) new,
        registers_setTable store table⟩
    · exact Or.inl (congrArg (Option.map StoredTable.record) (AList.lookup_insert_ne heq))
  | boughtIn fresh found => exact Or.inl (hsame found rfl)
  | cashedOut fresh found => exact Or.inl (hsame found rfl)
  | begun new unsettled found => exact Or.inl (hsame found rfl)
  | appended begun unsettled => exact Or.inl rfl
  | settled valid begun unsettled found =>
    exact Or.inl (hsame found (by rw [writeStacks_frame]))
  | refunded found => exact Or.inl (hsame found rfl)
  | halted found opened stopped => exact Or.inl rfl

theorem Performed.recordOf_kept (h : Performed store call answer store') {tableId : Nat}
    {table : TableRecord} (hrecord : store.recordOf tableId = some table) :
    store'.recordOf tableId = some table := by
  rcases h.recordOf tableId with hsame | ⟨_, -, -, hnone, -⟩
  · rw [hsame, hrecord]
  · exact absurd (hnone.symm.trans hrecord) (by simp)

theorem Performed.filed (h : Performed store call answer store') (hfiled : store.Filed) :
    store'.Filed := by
  intro tableId table hrecord
  rcases h.recordOf tableId with hsame | ⟨created, -, hid, -, hcreated⟩
  · exact hfiled tableId table (hsame.symm.trans hrecord)
  · obtain rfl := Option.some.inj (hcreated.symm.trans hrecord)
    exact hid

theorem Performed.registers {table : TableRecord}
    (h : Performed store (.createTable table) answer store') (hok : answer.error = .ok) :
    store.recordOf table.tableId = none ∧ store'.Registers table := by
  cases h with
  | refused error => exact absurd hok error
  | repeated again => exact again.elim
  | created new =>
    exact ⟨congrArg (Option.map StoredTable.record) new, registers_setTable store table⟩

theorem recordOf_findTable {tableId : Nat} {table : TableRecord}
    (h : (store.findTable tableId).toOption = some table) :
    store.recordOf tableId = some table := by
  unfold findTable at h
  split at h
  · exact absurd h (by simp [refusal, StorageResult.toOption])
  · rename_i stored hstored
    split at h
    · exact absurd h (by simp [refusal, StorageResult.toOption])
    · obtain rfl := Option.some.inj h
      exact recordOf_eq_some hstored

/-- What is listed is in the store, and no more than the limit. -/
theorem recordOf_listOpenTables {limit : Nat} {tables : List TableRecord}
    (h : (store.listOpenTables limit).toOption = some tables) :
    tables.length ≤ limit ∧
      ∀ table ∈ tables, ∃ tableId, store.recordOf tableId = some table := by
  unfold listOpenTables at h
  split at h
  · exact absurd h (by simp [StorageResult.toOption])
  obtain rfl := Option.some.inj h
  refine ⟨List.length_take_le _ _, fun table htable => ?_⟩
  obtain ⟨entry, hentry, rfl⟩ := List.mem_map.mp
    (List.mem_mergeSort.mp (List.mem_of_mem_take htable))
  exact ⟨entry.1, recordOf_eq_some (AList.mem_lookup_iff.mpr (List.mem_filter.mp hentry).1)⟩

end InMemoryGameStore

/-! ## What an answer rests on -/

namespace LobbyRouter

open Script

variable {l : LobbyRouter} {made : List ((op : LobbyTaskOp) × op.Ans)} {nodeId : String}
  {user : UserId} {response : LobbyResponse}

/-- The endpoint is that of a node which was healthy when the request asked, and the ticket was
accepted for the user and the table. -/
def Leads (l : LobbyRouter) (made : List ((op : LobbyTaskOp) × op.Ans)) (user : UserId)
    (tableId : Nat) (nodeId endpoint ticket : String) : Prop :=
  ∃ nodes : List NodeInfo, ⟨.lobby (.registry .healthyNodes), nodes⟩ ∈ made ∧
    (∃ node ∈ nodes, node.nodeId = nodeId ∧ node.endpoint = endpoint) ∧
    ⟨.lobby (.registry (.storeJoinTicket (l.hashSessionToken ticket) ⟨user, tableId⟩
      l.ticketTtlSeconds)), true⟩ ∈ made

/-- The calls of a request, and its answer. -/
inductive RestsOn (l : LobbyRouter) (made : List ((op : LobbyTaskOp) × op.Ans)) (user : UserId) :
    LobbyBody → LobbyResponse → Prop
  | refused {body : LobbyBody} {code : ErrorCode} {message : String} :
      RestsOn l made user body (.error code message)
  | created {body : CreateTableRequest} {table : TableRecord} {answer : StoreAnswer}
      {endpoint ticket : String} :
      ⟨.store (.createTable table), answer⟩ ∈ made → answer.error = .ok →
      table.createdBy = user → table.config = body.config →
      l.Leads made user table.tableId table.nodeId endpoint ticket →
      RestsOn l made user (.createTable (some body)) (.createTable table.summary endpoint ticket)
  | listed {body : ListTablesRequest} {limit : Nat} {result : StorageResult (List TableRecord)}
      {tables : List TableRecord} :
      limit ≤ 100 → ⟨.listOpenTables limit, result⟩ ∈ made → result.toOption = some tables →
      RestsOn l made user (.listTables (some body)) (.listTables (tables.map TableRecord.summary))
  | joined {tableId : Nat} {result : StorageResult TableRecord} {table : TableRecord}
      {endpoint ticket : String} :
      ⟨.findTable tableId, result⟩ ∈ made → result.toOption = some table →
      l.Leads made user tableId table.nodeId endpoint ticket →
      RestsOn l made user (.joinTable (some tableId)) (.joinTable endpoint ticket)

/-- A call of the router makes its calls one by one. -/
theorem route_returns {α : Type} {call : LobbyScript α} {r : α} (h : (route call).Returns made r) :
    ∃ calls, call.Returns calls r ∧
      ∀ (op : LobbyOp) (ans : op.Ans), ⟨op, ans⟩ ∈ calls → ⟨.lobby op, ans⟩ ∈ made := by
  obtain ⟨calls, hcalls, hexpands⟩ := returns_subst h
  refine ⟨calls, hcalls, fun op ans hmem => ?_⟩
  obtain ⟨first, ⟨ans', rest, rfl, rfl, rfl⟩, hsub⟩ := hexpands.of_mem hmem
  exact hsub _ List.mem_cons_self

theorem leads_of_route {call : LobbyScript (Option RouteAssignment)} {r : RouteAssignment}
    {tableId : Nat}
    (hreturns : ∀ calls, call.Returns calls (some r) →
      Listed calls r.node ∧ l.Stores calls tableId user r)
    (h : (route call).Returns made (some r)) :
    l.Leads made user tableId r.node.nodeId r.node.endpoint r.joinTicket := by
  obtain ⟨calls, hcalls, hmade⟩ := route_returns h
  obtain ⟨⟨nodes, hnodes, hnode⟩, hstores⟩ := hreturns calls hcalls
  exact ⟨nodes, hmade _ _ hnodes, ⟨r.node, hnode, rfl, rfl⟩, hmade _ _ hstores⟩

theorem Leads.mono {tableId : Nat} {endpoint ticket : String}
    {more : List ((op : LobbyTaskOp) × op.Ans)}
    (h : l.Leads made user tableId nodeId endpoint ticket) (hsub : ∀ m ∈ made, m ∈ more) :
    l.Leads more user tableId nodeId endpoint ticket := by
  obtain ⟨nodes, hnodes, hnode, hticket⟩ := h
  exact ⟨nodes, hsub _ hnodes, hnode, hsub _ hticket⟩

theorem refuse_returns {body : LobbyBody} {code : ErrorCode} {message : String}
    {more : List ((op : LobbyTaskOp) × op.Ans)} (h : (refuse code message).Returns made response) :
    l.RestsOn more user body response := by
  obtain ⟨rfl, rfl⟩ := h
  exact .refused

theorem postTask_returns {body : LobbyBody} {task : LobbyTask LobbyResponse}
    (htask : ∀ made, task.Returns made response →
      ∀ more, (∀ m ∈ made, m ∈ more) → l.RestsOn more user body response)
    (h : (postTask task).Returns made response) : l.RestsOn made user body response := by
  obtain ⟨accepted, rest, rfl, hrest⟩ := returns_perform_bind.mp h
  cases accepted with
  | false => exact refuse_returns hrest
  | true => exact htask rest hrest _ fun m hm => List.mem_cons_of_mem _ hm

variable {more : List ((op : LobbyTaskOp) × op.Ans)}

theorem openTable_returns {table : TableRecord} {assignment : RouteAssignment}
    {body : CreateTableRequest} {answer : StoreAnswer}
    (hstored : ⟨.store (.createTable table), answer⟩ ∈ more) (hok : answer.error = .ok)
    (huser : table.createdBy = user) (hconfig : table.config = body.config)
    (hleads : l.Leads more user table.tableId table.nodeId assignment.node.endpoint
      assignment.joinTicket)
    (h : (openTable nodeId table assignment).Returns made response) :
    l.RestsOn more user (.createTable (some body)) response := by
  have hcreated : ∀ {made : List ((op : LobbyTaskOp) × op.Ans)},
      (pure (.createTable table.summary assignment.node.endpoint assignment.joinTicket) :
        LobbyTask LobbyResponse).Returns made response →
      l.RestsOn more user (.createTable (some body)) response := by
    rintro _ ⟨rfl, rfl⟩
    exact .created hstored hok huser hconfig hleads
  unfold openTable at h
  split at h
  · obtain ⟨opened, rest, rfl, hrest⟩ := returns_perform_bind.mp h
    split at hrest
    · exact hcreated hrest
    · exact refuse_returns hrest
  · exact hcreated h

theorem createTableTask_returns {body : CreateTableRequest}
    (h : (l.createTableTask nodeId user body).Returns made response)
    (hsub : ∀ m ∈ made, m ∈ more) : l.RestsOn more user (.createTable (some body)) response := by
  obtain ⟨allocated, rest, rfl, hrest⟩ := returns_perform_bind.mp h
  cases allocated with
  | none => exact refuse_returns hrest
  | some tableId =>
    obtain ⟨first, rest', assignment, rfl, hroute, hlast⟩ := returns_bind.mp hrest
    cases assignment with
    | none => exact refuse_returns hlast
    | some assignment =>
      have hleads : l.Leads more user tableId assignment.node.nodeId assignment.node.endpoint
          assignment.joinTicket :=
        (leads_of_route (fun _ hcalls => ⟨assignNewTable_returns hcalls,
          assignNewTable_stores hcalls⟩) hroute).mono fun m hm =>
            hsub m (List.mem_cons_of_mem _ (List.mem_append_left _ hm))
      obtain ⟨stored, rest'', rfl, hend⟩ := returns_perform_bind.mp hlast
      have hstored := hsub _ (List.mem_cons_of_mem _ (List.mem_append_right _ List.mem_cons_self))
      split at hend
      · rename_i hok
        exact openTable_returns hstored hok rfl rfl hleads hend
      · exact refuse_returns hend

theorem listTables_returns {body : ListTablesRequest}
    (h : (listTables body).Returns made response) :
    l.RestsOn made user (.listTables (some body)) response := by
  refine postTask_returns (fun made hmade more hsub => ?_) h
  obtain ⟨result, rest, rfl, hrest⟩ := returns_perform_bind.mp hmade
  split at hrest
  · exact refuse_returns hrest
  · rename_i tables htables
    obtain ⟨rfl, rfl⟩ := hrest
    refine .listed ?_ (hsub _ List.mem_cons_self) htables
    split <;> omega

theorem joinTable_returns {tableId : Nat} (h : (l.joinTable user tableId).Returns made response) :
    l.RestsOn made user (.joinTable (some tableId)) response := by
  refine postTask_returns (fun made hmade more hsub => ?_) h
  obtain ⟨result, rest, rfl, hrest⟩ := returns_perform_bind.mp hmade
  split at hrest
  · exact refuse_returns hrest
  · rename_i table htable
    obtain ⟨first, rest', assignment, rfl, hroute, hlast⟩ := returns_bind.mp hrest
    cases assignment with
    | none => exact refuse_returns hlast
    | some assignment =>
      have hleads := (leads_of_route (fun _ hcalls => ⟨(routeExistingTable_returns hcalls).1,
        routeExistingTable_stores hcalls⟩) hroute).mono fun m hm =>
          hsub m (List.mem_cons_of_mem _ (List.mem_append_left _ hm))
      simp only at hlast
      split at hlast
      · rename_i hnode
        obtain ⟨rfl, rfl⟩ := hlast
        rw [hnode] at hleads
        exact .joined (hsub _ List.mem_cons_self) htable hleads
      · exact refuse_returns hlast

theorem serve_returns {body : LobbyBody} (h : (l.serve nodeId user body).Returns made response) :
    l.RestsOn made user body response := by
  unfold serve at h
  split at h
  · exact refuse_returns h
  · unfold createTable at h
    split at h
    · exact refuse_returns h
    · exact postTask_returns (fun _ hmade _ hsub => createTableTask_returns hmade hsub) h
  · exact refuse_returns h
  · split at h
    · exact listTables_returns h
    · exact refuse_returns h
  · exact refuse_returns h
  · exact joinTable_returns h

/-! ## Runs -/

theorem exec_store {env : LobbyTaskEnv} {store store' : InMemoryGameStore} {op : LobbyTaskOp}
    {ans : op.Ans} (h : op.exec env store = some (ans, store')) :
    store' = store ∨ ∃ call answer, InMemoryGameStore.Performed store call answer store' := by
  cases op with
  | store call => exact Or.inr ⟨call, ans, InMemoryGameStore.perform_performed (Option.some.inj h)⟩
  | _ =>
    obtain ⟨-, rfl⟩ := Prod.mk.inj (Option.some.inj h)
    exact Or.inl rfl

variable {t : LobbyTaskThreads} {entries : LobbyTaskTrace}

/-- Once written, a record stays. -/
theorem recordOf_run {s : LobbyTaskThreads} (hr : Run l.Serves s entries t) {tableId : Nat}
    {table : TableRecord} (h : s.shared.recordOf tableId = some table) :
    t.shared.recordOf tableId = some table := by
  refine Threads.invariant_run (I := fun store => store.recordOf tableId = some table) hr h
    fun env a op ans b ha hexec => ?_
  rcases exec_store hexec with rfl | ⟨call, answer, hperformed⟩
  · exact ha
  · exact hperformed.recordOf_kept ha

theorem filed_run (hr : Run l.Serves { shared := {} } entries t) : t.shared.Filed := by
  refine Threads.invariant_run hr (fun tableId table h => nomatch h)
    fun env a op ans b ha hexec => ?_
  rcases exec_store hexec with rfl | ⟨call, answer, hperformed⟩
  · exact ha
  · exact hperformed.filed ha

/-- A call of a run, as it was executed, and what follows it. -/
theorem made_run {e : Step LobbyTaskThreads LobbyTaskEvent} {s : LobbyTaskThreads}
    (hr : Run l.Serves s entries t) (he : e ∈ entries) {id : Nat} {env : LobbyTaskEnv}
    {op : LobbyTaskOp} {ans : op.Ans} (hlabel : e.label = .made id env op ans) :
    op.exec env e.before.shared = some (ans, e.after.shared) ∧ ∀ tableId table,
      e.after.shared.recordOf tableId = some table → t.shared.recordOf tableId = some table := by
  obtain ⟨before, after, rfl⟩ := List.append_of_mem he
  obtain ⟨-, hs, hafter⟩ := hr.split
  rw [hlabel] at hs
  exact ⟨Threads.exec_step hs, fun tableId table h => recordOf_run hafter h⟩

/-- The event creates the table. -/
def Creates (id : Nat) (table : TableRecord) (event : LobbyTaskEvent) : Prop :=
  ∃ env answer, event = .made id env (.store (.createTable table)) answer ∧ answer.error = .ok

theorem creates_run {e : Step LobbyTaskThreads LobbyTaskEvent} {s : LobbyTaskThreads}
    (hr : Run l.Serves s entries t) (he : e ∈ entries) {id : Nat} {table : TableRecord}
    (hcreates : Creates id table e.label) :
    e.before.shared.recordOf table.tableId = none ∧ t.shared.Registers table := by
  obtain ⟨env, answer, hlabel, hok⟩ := hcreates
  obtain ⟨hexec, hkept⟩ := made_run hr he hlabel
  obtain ⟨hnone, hregisters⟩ :=
    (InMemoryGameStore.perform_performed (Option.some.inj hexec)).registers hok
  exact ⟨hnone, hkept _ _ hregisters⟩

/-- **A table is created once.** -/
theorem created_once (hr : Run l.Serves { shared := {} } entries t)
    {e e' : Step LobbyTaskThreads LobbyTaskEvent} (he : e ∈ entries) (he' : e' ∈ entries)
    {id id' : Nat} {table table' : TableRecord} (h : Creates id table e.label)
    (h' : Creates id' table' e'.label) (hid : table.tableId = table'.tableId) : id = id' := by
  have hnot : ∀ {i j : Nat} {e e' : Step LobbyTaskThreads LobbyTaskEvent} {id id' : Nat}
      {table table' : TableRecord}, entries[i]? = some e → entries[j]? = some e' →
      Creates id table e.label → Creates id' table' e'.label → table.tableId = table'.tableId →
      ¬ i < j := by
    intro i j e e' id id' table table' he he' h h' hid hlt
    have hmem : e ∈ entries.take j :=
      List.mem_of_getElem? (by rw [List.getElem?_take_of_lt hlt, he])
    have hregisters := (creates_run (hr.entry_at he').1 hmem h).2
    have hnone := (creates_run hr (List.mem_of_getElem? he') h').1
    rw [InMemoryGameStore.Registers, hid] at hregisters
    exact absurd (hnone.symm.trans hregisters) (by simp)
  obtain ⟨i, hi⟩ := List.mem_iff_getElem?.mp he
  obtain ⟨j, hj⟩ := List.mem_iff_getElem?.mp he'
  have hij : i = j := Nat.le_antisymm (Nat.le_of_not_lt (hnot hj hi h' h hid.symm))
    (Nat.le_of_not_lt (hnot hi hj h h' hid))
  subst hij
  obtain rfl := Option.some.inj (hi.symm.trans hj)
  obtain ⟨env, answer, hlabel, -⟩ := h
  obtain ⟨env', answer', hlabel', -⟩ := h'
  cases hlabel.symm.trans hlabel'
  rfl

/-- A request of the run was answered. -/
def Answers (entries : LobbyTaskTrace) (id : Nat) (user : UserId) (body : LobbyBody)
    (response : LobbyResponse) : Prop :=
  ∃ e ∈ entries, ∃ nodeId, e.label = .returned id (.request nodeId user body) response

theorem answers_restsOn (hr : Run l.Serves { shared := {} } entries t) {id : Nat} {body : LobbyBody}
    (h : Answers entries id user body response) :
    ∃ made, Threads.Shows entries id made ∧ l.RestsOn made user body response := by
  obtain ⟨e, he, nodeId, hlabel⟩ := h
  obtain ⟨before, after, rfl⟩ := List.append_of_mem he
  obtain ⟨-, made, hshows, hreturns⟩ := Threads.returned_run hr hlabel
  refine ⟨made, fun m hm => ?_, serve_returns hreturns⟩
  obtain ⟨e, he, hmade⟩ := hshows m hm
  exact ⟨e, List.mem_append_left _ he, hmade⟩

/-- The request was led to the node of the table. -/
def LedTo (l : LobbyRouter) (entries : LobbyTaskTrace) (id : Nat) (user : UserId)
    (table : TableRecord) (endpoint ticket : String) : Prop :=
  ∃ made, Threads.Shows entries id made ∧
    l.Leads made user table.tableId table.nodeId endpoint ticket

/-- What the answers say about the tables of the store. -/
structure TableAnswers (l : LobbyRouter) (entries : LobbyTaskTrace) (store : InMemoryGameStore) :
    Prop where
  created : ∀ id user body summary endpoint ticket,
    Answers entries id user body (.createTable summary endpoint ticket) →
      ∃ request table, body = .createTable (some request) ∧ store.Registers table ∧
        summary = table.summary ∧ table.config = request.config ∧ table.createdBy = user ∧
        LedTo l entries id user table endpoint ticket
  joined : ∀ id user body endpoint ticket,
    Answers entries id user body (.joinTable endpoint ticket) →
      ∃ table, store.Registers table ∧ body = .joinTable (some table.tableId) ∧
        LedTo l entries id user table endpoint ticket
  listed : ∀ id user body summaries, Answers entries id user body (.listTables summaries) →
    summaries.length ≤ 100 ∧
      ∀ summary ∈ summaries, ∃ table, store.Registers table ∧ summary = table.summary
  once : ∀ id id' user user' body body' summary summary' endpoint endpoint' ticket ticket',
    Answers entries id user body (.createTable summary endpoint ticket) →
    Answers entries id' user' body' (.createTable summary' endpoint' ticket') →
    summary.tableId = summary'.tableId → id = id'
  /-- A record never changes. -/
  kept : ∀ e ∈ entries, ∀ table, e.before.shared.Registers table → store.Registers table

theorem created_answer (hr : Run l.Serves { shared := {} } entries t) {id : Nat} {body : LobbyBody}
    {summary : TableSummary} {endpoint ticket : String}
    (h : Answers entries id user body (.createTable summary endpoint ticket)) :
    ∃ request table, body = .createTable (some request) ∧
      (∃ e ∈ entries, Creates id table e.label) ∧ summary = table.summary ∧
      table.config = request.config ∧ table.createdBy = user ∧
      LedTo l entries id user table endpoint ticket := by
  obtain ⟨made, hshows, hrests⟩ := answers_restsOn hr h
  cases hrests with
  | created hstored hok huser hconfig hleads =>
    obtain ⟨e, he, env, hlabel⟩ := hshows _ hstored
    exact ⟨_, _, rfl, ⟨e, he, env, _, hlabel, hok⟩, rfl, hconfig, huser, made, hshows, hleads⟩

theorem joined_answer (hr : Run l.Serves { shared := {} } entries t) {id : Nat} {body : LobbyBody}
    {endpoint ticket : String} (h : Answers entries id user body (.joinTable endpoint ticket)) :
    ∃ table, t.shared.Registers table ∧ body = .joinTable (some table.tableId) ∧
      LedTo l entries id user table endpoint ticket := by
  obtain ⟨made, hshows, hrests⟩ := answers_restsOn hr h
  cases hrests with
  | @joined tableId result table _ _ hfound htable hleads =>
    obtain ⟨e, he, env, hlabel⟩ := hshows _ hfound
    obtain ⟨hexec, hkept⟩ := made_run hr he hlabel
    obtain ⟨rfl, hsame⟩ := Prod.mk.inj (Option.some.inj hexec)
    have hrecord := hkept tableId table (hsame ▸ InMemoryGameStore.recordOf_findTable htable)
    obtain rfl := filed_run hr tableId table hrecord
    exact ⟨table, hrecord, rfl, made, hshows, hleads⟩

theorem listed_answer (hr : Run l.Serves { shared := {} } entries t) {id : Nat} {body : LobbyBody}
    {summaries : List TableSummary} (h : Answers entries id user body (.listTables summaries)) :
    summaries.length ≤ 100 ∧
      ∀ summary ∈ summaries, ∃ table, t.shared.Registers table ∧ summary = table.summary := by
  obtain ⟨made, hshows, hrests⟩ := answers_restsOn hr h
  cases hrests with
  | @listed _ limit result tables hlimit hlisted htables =>
    obtain ⟨e, he, env, hlabel⟩ := hshows _ hlisted
    obtain ⟨hexec, hkept⟩ := made_run hr he hlabel
    obtain ⟨rfl, hsame⟩ := Prod.mk.inj (Option.some.inj hexec)
    obtain ⟨hlength, hrecords⟩ := InMemoryGameStore.recordOf_listOpenTables htables
    refine ⟨by rw [List.length_map]; omega, fun summary hsummary => ?_⟩
    obtain ⟨table, htable, rfl⟩ := List.mem_map.mp hsummary
    obtain ⟨tableId, hrecord⟩ := hrecords table htable
    have hend := hkept tableId table (hsame ▸ hrecord)
    obtain rfl := filed_run hr tableId table hend
    exact ⟨table, hend, rfl⟩

/-- **The answers about a table lead to one node**, whatever the registry answers, however many
processes serve requests, and whatever else is done with the store in between. A table is created
once, its record never changes, and each answer is about a record of the store and leads to the node
of the record. -/
theorem answers_lead_to_one_node (hr : Run l.Serves { shared := {} } entries t) :
    TableAnswers l entries t.shared where
  created id user body summary endpoint ticket h := by
    obtain ⟨request, table, hbody, ⟨e, he, hcreates⟩, hrest⟩ := created_answer hr h
    exact ⟨request, table, hbody, (creates_run hr he hcreates).2, hrest⟩
  joined id user body endpoint ticket h := joined_answer hr h
  listed id user body summaries h := listed_answer hr h
  once id id' user user' body body' summary summary' endpoint endpoint' ticket ticket' h h'
      hid := by
    obtain ⟨-, table, -, ⟨e, he, hcreates⟩, rfl, -⟩ := created_answer hr h
    obtain ⟨-, table', -, ⟨e', he', hcreates'⟩, rfl, -⟩ := created_answer hr h'
    exact created_once hr he he' hcreates hcreates' hid
  kept e he table h := by
    obtain ⟨early, late, rfl⟩ := List.append_of_mem he
    obtain ⟨-, hs, hlate⟩ := hr.split
    exact recordOf_run (Run.cons hs hlate) h

/-- One node is healthy and owns every room, and the registry takes every ticket. -/
def oneNode (token : String) : LobbyTaskEnv where
  lobby
    | .generateSessionToken => token
    | .registry .healthyNodes => [{ nodeId := "game-a", endpoint := "10.0.0.1:9000" }]
    | .registry .allocateTableId => some 7
    | .registry (.roomOwner _) => some "game-a"
    | .registry (.consumeJoinTicket _) => none
    | .registry .ping | .registry (.heartbeat ..) | .registry (.assignRoom ..)
    | .registry (.storeJoinTicket ..) => true

/-- A join was answered with the endpoint. -/
def joins (endpoint : String) : LobbyTaskEvent → Bool
  | .returned _ (.request ..) (.joinTable nodeEndpoint _) => nodeEndpoint == endpoint
  | _ => false

/-- User 1 creates a table at one lobby, and user 2 joins it at another. -/
theorem answers_lead_to_one_node_joined : ∃ (entries : LobbyTaskTrace) (t : LobbyTaskThreads),
    Run (Serves ⟨fun token => token, 86400, 30⟩) { shared := {} } entries t ∧
      entries.countP (fun e => joins "10.0.0.1:9000" e.label) = 1 ∧
      TableAnswers ⟨fun token => token, 86400, 30⟩ entries t.shared := by
  have hcheck : (replay (Threads.play (commands ⟨fun token => token, 86400, 30⟩) LobbyTaskOp.exec)
      { shared := {} }
      ([.begin (.request "lobby-a" 1 (.createTable (some
          { maxPlayers := 6, smallBlind := 50, bigBlind := 100, minBuyIn := 2000,
            maxBuyIn := 20000 })))] ++ List.replicate 8 (.advance 0 (oneNode "t1")) ++
        [.begin (.request "lobby-b" 2 (.joinTable (some 7)))] ++
        List.replicate 7 (.advance 0 (oneNode "t2")))).any
      (fun run : LobbyTaskTrace × LobbyTaskThreads =>
        decide (run.1.countP (fun e => joins "10.0.0.1:9000" e.label) = 1)) = true := by
    decide +kernel
  obtain ⟨⟨entries, t⟩, hrun, hfacts⟩ := (Option.any_eq_true _ _).mp hcheck
  have hr := replay_run Threads.play_step hrun
  exact ⟨entries, t, hr, of_decide_eq_true hfacts, answers_lead_to_one_node hr⟩

end LobbyRouter

end PokerServer
