import PokerServer.Storage.InMemoryGameStore

/-!
# The node registry

Model of `src/poker/cluster/in_memory_node_registry.cpp`. Every call reads the clock once; `now` is
what it reads. Times are milliseconds, unbounded integers.

Nodes, rooms and tickets expire. An expired node stays until `healthyNodes` meets it, an expired
room until it is assigned again or its owner is asked for.
-/

namespace PokerServer

structure NodeInfo where
  nodeId : String := ""
  endpoint : String := ""
  activeTables : Nat := 0
  connections : Nat := 0
  deriving DecidableEq

structure JoinTicket where
  userId : UserId := 0
  tableId : Nat := 0
  deriving DecidableEq

structure Expiring (T : Type) where
  value : T
  expiresAtMs : Int := 0
  deriving DecidableEq

structure InMemoryNodeRegistry where
  nodes : Dict String (Expiring NodeInfo) := ∅
  rooms : Dict Nat (Expiring String) := ∅
  tickets : Dict String (Expiring JoinTicket) := ∅
  nextTableId : Nat := 1000

/-- The order in which `healthyNodes` sorts. -/
def NodeInfo.less (lhs rhs : NodeInfo) : Bool :=
  if lhs.activeTables ≠ rhs.activeTables then decide (lhs.activeTables < rhs.activeTables)
  else if lhs.connections ≠ rhs.connections then decide (lhs.connections < rhs.connections)
  else decide (lhs.nodeId < rhs.nodeId)

namespace InMemoryNodeRegistry

variable (r : InMemoryNodeRegistry) (now : Int)

def expiry (now : Int) (ttlSeconds : Nat) : Int := now + ttlSeconds * 1000

def nodeIsHealthy (nodeId : String) : Bool :=
  match r.nodes.lookup nodeId with
  | none => false
  | some node => decide (now < node.expiresAtMs)

def heartbeat (node : NodeInfo) (ttlSeconds : Nat) : Bool × InMemoryNodeRegistry :=
  if node.nodeId = "" ∨ node.endpoint = "" ∨ ttlSeconds = 0 then (false, r)
  else (true, { r with nodes := r.nodes.insert node.nodeId ⟨node, expiry now ttlSeconds⟩ })

/-- The nodes that have not expired. -/
def unexpired : Dict String (Expiring NodeInfo) :=
  ⟨r.nodes.entries.filter fun e => decide (now < e.2.expiresAtMs),
    r.nodes.nodupKeys.sublist List.filter_sublist⟩

def healthyNodes : List NodeInfo × InMemoryNodeRegistry :=
  (((r.unexpired now).entries.map fun e => e.2.value).mergeSort fun lhs rhs => !rhs.less lhs,
    { r with nodes := r.unexpired now })

/-- Table ids are 64-bit numbers; zero says that they are used up. -/
def allocateTableId : Option Nat × InMemoryNodeRegistry :=
  if r.nextTableId = 0 then (none, r)
  else (some r.nextTableId, { r with nextTableId := (r.nextTableId + 1) % 2 ^ 64 })

/-- A node has one table more. -/
def addTable (nodeId : String) : Dict String (Expiring NodeInfo) :=
  match r.nodes.lookup nodeId with
  | none => r.nodes
  | some node => r.nodes.insert nodeId
      { node with value :=
          { node.value with activeTables := (node.value.activeTables + 1) % 2 ^ 64 } }

def assignRoom (tableId : Nat) (nodeId : String) (ttlSeconds : Nat) :
    Bool × InMemoryNodeRegistry :=
  if tableId = 0 ∨ ttlSeconds = 0 ∨ r.nodeIsHealthy now nodeId = false then (false, r)
  else
    match r.rooms.lookup tableId with
    | some existing =>
      if now < existing.expiresAtMs ∧ existing.value ≠ nodeId then (false, r)
      else
        (true, { r with
          rooms := r.rooms.insert tableId ⟨nodeId, expiry now ttlSeconds⟩
          nodes := if existing.expiresAtMs ≤ now then r.addTable nodeId else r.nodes })
    | none =>
      (true, { r with
        rooms := r.rooms.insert tableId ⟨nodeId, expiry now ttlSeconds⟩
        nodes := r.addTable nodeId })

def roomOwner (tableId : Nat) : Option String × InMemoryNodeRegistry :=
  match r.rooms.lookup tableId with
  | none => (none, r)
  | some room =>
    if room.expiresAtMs ≤ now ∨ r.nodeIsHealthy now room.value = false then
      (none, { r with rooms := r.rooms.erase tableId })
    else (some room.value, r)

def storeJoinTicket (tokenHash : String) (ticket : JoinTicket) (ttlSeconds : Nat) :
    Bool × InMemoryNodeRegistry :=
  if tokenHash = "" ∨ ticket.userId = 0 ∨ ticket.tableId = 0 ∨ ttlSeconds = 0 then (false, r)
  else if (r.tickets.lookup tokenHash).any fun existing => decide (now < existing.expiresAtMs) then
    (false, r)
  else (true, { r with tickets := r.tickets.insert tokenHash ⟨ticket, expiry now ttlSeconds⟩ })

def consumeJoinTicket (tokenHash : String) : Option JoinTicket × InMemoryNodeRegistry :=
  match r.tickets.lookup tokenHash with
  | none => (none, r)
  | some ticket =>
    (if now < ticket.expiresAtMs then some ticket.value else none,
      { r with tickets := r.tickets.erase tokenHash })

end InMemoryNodeRegistry

/-! ## The calls -/

inductive RegistryOp where
  | ping
  | heartbeat (node : NodeInfo) (ttlSeconds : Nat)
  | healthyNodes
  | allocateTableId
  | assignRoom (tableId : Nat) (nodeId : String) (ttlSeconds : Nat)
  | roomOwner (tableId : Nat)
  | storeJoinTicket (tokenHash : String) (ticket : JoinTicket) (ttlSeconds : Nat)
  | consumeJoinTicket (tokenHash : String)

abbrev RegistryOp.Ans : RegistryOp → Type
  | .ping => Bool
  | .heartbeat .. => Bool
  | .healthyNodes => List NodeInfo
  | .allocateTableId => Option Nat
  | .assignRoom .. => Bool
  | .roomOwner _ => Option String
  | .storeJoinTicket .. => Bool
  | .consumeJoinTicket _ => Option JoinTicket

/-- When the node's heartbeat expires, if the call is one that the registry accepted. -/
def RegistryOp.beats (nodeId : String) (now : Int) : (op : RegistryOp) → op.Ans → Option Int
  | .heartbeat node ttlSeconds, true =>
    if node.nodeId = nodeId then some (InMemoryNodeRegistry.expiry now ttlSeconds) else none
  | _, _ => none

/-- When the room expires, if the call is one that assigned it to the node. -/
def RegistryOp.assigns (tableId : Nat) (nodeId : String) (now : Int) :
    (op : RegistryOp) → op.Ans → Option Int
  | .assignRoom table node ttlSeconds, true =>
    if table = tableId ∧ node = nodeId then some (InMemoryNodeRegistry.expiry now ttlSeconds)
    else none
  | _, _ => none

namespace InMemoryNodeRegistry

def perform (r : InMemoryNodeRegistry) (now : Int) :
    (op : RegistryOp) → op.Ans × InMemoryNodeRegistry
  | .ping => (true, r)
  | .heartbeat node ttlSeconds => r.heartbeat now node ttlSeconds
  | .healthyNodes => r.healthyNodes now
  | .allocateTableId => r.allocateTableId
  | .assignRoom tableId nodeId ttlSeconds => r.assignRoom now tableId nodeId ttlSeconds
  | .roomOwner tableId => r.roomOwner now tableId
  | .storeJoinTicket tokenHash ticket ttlSeconds =>
    r.storeJoinTicket now tokenHash ticket ttlSeconds
  | .consumeJoinTicket tokenHash => r.consumeJoinTicket now tokenHash

variable {r : InMemoryNodeRegistry} {now : Int}

/-! ## What a call does to a node -/

theorem lookup_unexpired {nodeId : String} {node : Expiring NodeInfo} :
    (r.unexpired now).lookup nodeId = some node ↔
      r.nodes.lookup nodeId = some node ∧ now < node.expiresAtMs := by
  rw [← Option.mem_def, ← Option.mem_def, AList.mem_lookup_iff, AList.mem_lookup_iff, unexpired,
    List.mem_filter, decide_eq_true_iff]

/-- `++active_tables` keeps every node and its expiry. -/
theorem lookup_addTable {nodeId other : String} {info : NodeInfo} {expires : Int}
    (h : r.nodes.lookup nodeId = some ⟨info, expires⟩) :
    ∃ info', (r.addTable other).lookup nodeId = some ⟨info', expires⟩ := by
  unfold addTable
  split
  · exact ⟨info, h⟩
  · rename_i node hnode
    by_cases hother : nodeId = other
    · subst hother
      obtain rfl := Option.some.inj (hnode.symm.trans h)
      exact ⟨_, AList.lookup_insert _⟩
    · rw [AList.lookup_insert_ne hother]
      exact ⟨info, h⟩

variable {op : RegistryOp} {nodeId : String} {tableId : Nat} {expires : Int}

/-- An accepted heartbeat says when the node expires. -/
theorem node_of_beats (h : op.beats nodeId now (r.perform now op).1 = some expires) :
    ∃ info, (r.perform now op).2.nodes.lookup nodeId = some ⟨info, expires⟩ := by
  cases op with
  | heartbeat node ttlSeconds =>
    simp only [perform, heartbeat] at h ⊢
    split at h
    · exact absurd h (by simp [RegistryOp.beats])
    · rename_i hvalid
      obtain ⟨rfl, hexpires⟩ := Option.ite_none_right_eq_some.mp h
      rw [if_neg hvalid, ← Option.some.inj hexpires]
      exact ⟨node, AList.lookup_insert _⟩
  | _ => exact absurd h (by simp [RegistryOp.beats])

/-- Any other call keeps a node that has not expired. -/
theorem node_kept {info : NodeInfo} (h : r.nodes.lookup nodeId = some ⟨info, expires⟩)
    (hnow : now < expires) (hop : op.beats nodeId now (r.perform now op).1 = none) :
    ∃ info', (r.perform now op).2.nodes.lookup nodeId = some ⟨info', expires⟩ := by
  cases op with
  | ping => exact ⟨info, h⟩
  | heartbeat node ttlSeconds =>
    simp only [perform, heartbeat] at hop ⊢
    split
    · exact ⟨info, h⟩
    · rename_i hvalid
      rw [if_neg hvalid] at hop
      have hne : node.nodeId ≠ nodeId := fun heq => by simp [RegistryOp.beats, heq] at hop
      exact ⟨info, (AList.lookup_insert_ne hne.symm).trans h⟩
  | healthyNodes => exact ⟨info, lookup_unexpired.mpr ⟨h, hnow⟩⟩
  | allocateTableId =>
    simp only [perform, allocateTableId]
    split <;> exact ⟨info, h⟩
  | assignRoom table node ttlSeconds =>
    simp only [perform, assignRoom]
    split
    · exact ⟨info, h⟩
    split
    · rename_i existing hexisting
      split
      · exact ⟨info, h⟩
      · by_cases hlate : existing.expiresAtMs ≤ now
        · rw [if_pos hlate]
          exact lookup_addTable h
        · rw [if_neg hlate]
          exact ⟨info, h⟩
    · exact lookup_addTable h
  | roomOwner table =>
    simp only [perform, roomOwner]
    split
    · exact ⟨info, h⟩
    · split <;> exact ⟨info, h⟩
  | storeJoinTicket tokenHash ticket ttlSeconds =>
    simp only [perform, storeJoinTicket]
    split
    · exact ⟨info, h⟩
    · split <;> exact ⟨info, h⟩
  | consumeJoinTicket tokenHash =>
    simp only [perform, consumeJoinTicket]
    split <;> exact ⟨info, h⟩

/-! ## What a call does to a room -/

theorem nodeIsHealthy_iff : r.nodeIsHealthy now nodeId = true ↔
    ∃ node, r.nodes.lookup nodeId = some node ∧ now < node.expiresAtMs := by
  unfold nodeIsHealthy
  cases r.nodes.lookup nodeId with
  | none => simp
  | some node => simp

theorem room_of_assigns (h : op.assigns tableId nodeId now (r.perform now op).1 = some expires) :
    (r.perform now op).2.rooms.lookup tableId = some ⟨nodeId, expires⟩ := by
  cases op with
  | assignRoom table node ttlSeconds =>
    simp only [perform, assignRoom] at h ⊢
    split at h
    · exact absurd h (by simp [RegistryOp.assigns])
    rename_i hvalid
    rw [if_neg hvalid]
    cases hexisting : r.rooms.lookup table with
    | none =>
      rw [hexisting] at h
      obtain ⟨⟨rfl, rfl⟩, hexpires⟩ := Option.ite_none_right_eq_some.mp h
      rw [← Option.some.inj hexpires]
      exact AList.lookup_insert _
    | some existing =>
      rw [hexisting] at h
      simp only at h ⊢
      split at h
      · exact absurd h (by simp [RegistryOp.assigns])
      · rename_i hfree
        obtain ⟨⟨rfl, rfl⟩, hexpires⟩ := Option.ite_none_right_eq_some.mp h
        rw [if_neg hfree, ← Option.some.inj hexpires]
        exact AList.lookup_insert _
  | _ => exact absurd h (by simp [RegistryOp.assigns])

/-- **An owned room is refused to every other node** and stays with its owner. -/
theorem room_kept (h : r.rooms.lookup tableId = some ⟨nodeId, expires⟩) (hnow : now < expires)
    (halive : r.nodeIsHealthy now nodeId = true)
    (hop : op.assigns tableId nodeId now (r.perform now op).1 = none) :
    (r.perform now op).2.rooms.lookup tableId = some ⟨nodeId, expires⟩ := by
  cases op with
  | ping => exact h
  | heartbeat node ttlSeconds =>
    simp only [perform, heartbeat]
    split <;> exact h
  | healthyNodes => exact h
  | allocateTableId =>
    simp only [perform, allocateTableId]
    split <;> exact h
  | assignRoom table node ttlSeconds =>
    simp only [perform, assignRoom] at hop ⊢
    split
    · exact h
    rename_i hvalid
    rw [if_neg hvalid] at hop
    by_cases htable : table = tableId
    · subst htable
      rw [h] at hop ⊢
      simp only at hop ⊢
      by_cases hnode : nodeId = node
      · rw [if_neg (fun hlive => hlive.2 hnode)] at hop
        simp [RegistryOp.assigns, hnode] at hop
      · rw [if_pos ⟨hnow, hnode⟩]
        exact h
    · split
      · split
        · exact h
        · exact (AList.lookup_insert_ne (Ne.symm htable)).trans h
      · exact (AList.lookup_insert_ne (Ne.symm htable)).trans h
  | roomOwner table =>
    simp only [perform, roomOwner]
    split
    · exact h
    rename_i room hroom
    split
    · rename_i hgone
      have htable : tableId ≠ table := by
        rintro rfl
        obtain rfl := Option.some.inj (hroom.symm.trans h)
        rcases hgone with hgone | hgone
        · exact absurd hgone (not_le.mpr hnow)
        · exact absurd halive (by simp [hgone])
      exact (AList.lookup_erase_ne htable).trans h
    · exact h
  | storeJoinTicket tokenHash ticket ttlSeconds =>
    simp only [perform, storeJoinTicket]
    split
    · exact h
    · split <;> exact h
  | consumeJoinTicket tokenHash =>
    simp only [perform, consumeJoinTicket]
    split <;> exact h

theorem assignRoom_refused (h : r.rooms.lookup tableId = some ⟨nodeId, expires⟩)
    (hnow : now < expires) {other : String} (hother : other ≠ nodeId) (ttlSeconds : Nat) :
    (r.assignRoom now tableId other ttlSeconds).1 = false := by
  unfold assignRoom
  split
  · rfl
  · rw [h]
    simp only
    rw [if_pos ⟨hnow, hother.symm⟩]

theorem roomOwner_owned (h : r.rooms.lookup tableId = some ⟨nodeId, expires⟩) (hnow : now < expires)
    (halive : r.nodeIsHealthy now nodeId = true) : (r.roomOwner now tableId).1 = some nodeId := by
  rw [roomOwner, h]
  simp only
  rw [if_neg (by simp [halive, hnow])]

/-! ## Node ids -/

/-- Every node is stored under its id, which is not empty. -/
def Named (nodes : Dict String (Expiring NodeInfo)) : Prop :=
  ∀ key node, nodes.lookup key = some node → node.value.nodeId = key ∧ key ≠ ""

theorem Named.insert {nodes : Dict String (Expiring NodeInfo)} (h : Named nodes) {key : String}
    {node : Expiring NodeInfo} (hnode : node.value.nodeId = key) (hkey : key ≠ "") :
    Named (nodes.insert key node) := by
  intro other node' hlookup
  by_cases hother : other = key
  · subst hother
    rw [AList.lookup_insert] at hlookup
    exact Option.some.inj hlookup ▸ ⟨hnode, hkey⟩
  · rw [AList.lookup_insert_ne hother] at hlookup
    exact h other node' hlookup

theorem Named.addTable (h : Named r.nodes) (nodeId : String) : Named (r.addTable nodeId) := by
  unfold InMemoryNodeRegistry.addTable
  split
  · exact h
  · rename_i node hnode
    exact h.insert (h nodeId node hnode).1 (h nodeId node hnode).2

theorem Named.perform (h : Named r.nodes) (now : Int) (op : RegistryOp) :
    Named (r.perform now op).2.nodes := by
  cases op with
  | ping => exact h
  | heartbeat node ttlSeconds =>
    simp only [InMemoryNodeRegistry.perform, heartbeat]
    split
    · exact h
    · rename_i hvalid
      exact h.insert rfl fun hempty => hvalid (Or.inl hempty)
  | healthyNodes => exact fun key node hlookup => h key node (lookup_unexpired.mp hlookup).1
  | allocateTableId =>
    simp only [InMemoryNodeRegistry.perform, allocateTableId]
    split <;> exact h
  | assignRoom table node ttlSeconds =>
    simp only [InMemoryNodeRegistry.perform, assignRoom]
    split
    · exact h
    split
    · split
      · exact h
      · split
        · exact h.addTable node
        · exact h
    · exact h.addTable node
  | roomOwner table =>
    simp only [InMemoryNodeRegistry.perform, roomOwner]
    split
    · exact h
    · split <;> exact h
  | storeJoinTicket tokenHash ticket ttlSeconds =>
    simp only [InMemoryNodeRegistry.perform, storeJoinTicket]
    split
    · exact h
    · split <;> exact h
  | consumeJoinTicket tokenHash =>
    simp only [InMemoryNodeRegistry.perform, consumeJoinTicket]
    split <;> exact h

/-- The healthy nodes are the nodes that have not expired. -/
theorem mem_healthyNodes {info : NodeInfo} :
    info ∈ (r.healthyNodes now).1 ↔
      ∃ nodeId expires, r.nodes.lookup nodeId = some ⟨info, expires⟩ ∧ now < expires := by
  rw [healthyNodes, List.mem_mergeSort, List.mem_map]
  constructor
  · rintro ⟨⟨nodeId, node⟩, hentry, rfl⟩
    rw [← AList.mem_lookup_iff, Option.mem_def, lookup_unexpired] at hentry
    exact ⟨nodeId, node.expiresAtMs, hentry⟩
  · rintro ⟨nodeId, expires, hlookup⟩
    refine ⟨⟨nodeId, ⟨info, expires⟩⟩, ?_, rfl⟩
    rw [← AList.mem_lookup_iff, Option.mem_def, lookup_unexpired]
    exact hlookup

end InMemoryNodeRegistry

end PokerServer
