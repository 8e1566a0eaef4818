import PokerServer.Cluster.NodeRegistry
import PokerServer.Lib.Threads

/-!
# The lobby router

Model of `src/poker/cluster/lobby_router.cpp`. The router makes several calls on the registry for
one route, and other threads make theirs in between, so a router call is a `Script`.

`generateSessionToken` is a call of its own, answered by the environment; `hashSessionToken` is a
function.
-/

namespace PokerServer

inductive LobbyOp where
  | registry (op : RegistryOp)
  | generateSessionToken

abbrev LobbyOp.Ans : LobbyOp → Type
  | .registry op => op.Ans
  | .generateSessionToken => String

abbrev LobbyScript := Script LobbyOp LobbyOp.Ans

structure RouteAssignment where
  node : NodeInfo
  joinTicket : String

structure LobbyRouter where
  hashSessionToken : String → String
  roomTtlSeconds : Nat := 86400
  ticketTtlSeconds : Nat := 30

namespace LobbyRouter

def ask (op : RegistryOp) : LobbyScript op.Ans := Script.perform (LobbyOp.registry op)

def issue (l : LobbyRouter) (node : NodeInfo) (tableId : Nat) (userId : UserId) :
    LobbyScript (Option RouteAssignment) := do
  let rawTicket ← Script.perform .generateSessionToken
  let stored ← ask (.storeJoinTicket (l.hashSessionToken rawTicket) ⟨userId, tableId⟩
    l.ticketTtlSeconds)
  if stored = false then pure none else pure (some ⟨node, rawTicket⟩)

def assignNewTable (l : LobbyRouter) (tableId : Nat) (creatorUserId : UserId) :
    LobbyScript (Option RouteAssignment) := do
  let nodes ← ask .healthyNodes
  match nodes with
  | [] => pure none
  | node :: _ =>
    if tableId = 0 ∨ creatorUserId = 0 then pure none
    else
      let assigned ← ask (.assignRoom tableId node.nodeId l.roomTtlSeconds)
      if assigned = false then pure none else l.issue node tableId creatorUserId

/-- The end of `routeExistingTable`: the owner's node, if it is the expected one. -/
def routeToOwner (l : LobbyRouter) (tableId : Nat) (userId : UserId) (expectedNodeId : String)
    (nodes : List NodeInfo) (owner : String) : LobbyScript (Option RouteAssignment) :=
  if expectedNodeId ≠ "" ∧ owner ≠ expectedNodeId then pure none
  else
    match nodes.find? fun node => node.nodeId = owner with
    | none => pure none
    | some node => l.issue node tableId userId

def routeExistingTable (l : LobbyRouter) (tableId : Nat) (userId : UserId)
    (expectedNodeId : String) : LobbyScript (Option RouteAssignment) :=
  if tableId = 0 ∨ userId = 0 then pure none
  else do
    let owner ← ask (.roomOwner tableId)
    let nodes ← ask .healthyNodes
    match owner with
    | some owner => l.routeToOwner tableId userId expectedNodeId nodes owner
    | none =>
      if expectedNodeId = "" then pure none
      else if nodes.all fun node => node.nodeId ≠ expectedNodeId then pure none
      else
        let assigned ← ask (.assignRoom tableId expectedNodeId l.roomTtlSeconds)
        if assigned = false then pure none
        else l.routeToOwner tableId userId expectedNodeId nodes expectedNodeId

end LobbyRouter

/-! ## The lobby and its clients -/

/-- A call on the registry from elsewhere, or on the router. -/
inductive LobbyCall where
  | registry (op : RegistryOp)
  | assignNewTable (tableId : Nat) (creatorUserId : UserId)
  | routeExistingTable (tableId : Nat) (userId : UserId) (expectedNodeId : String)

abbrev LobbyCall.Res : LobbyCall → Type
  | .registry op => op.Ans
  | _ => Option RouteAssignment

def LobbyRouter.program (l : LobbyRouter) : (call : LobbyCall) → LobbyScript call.Res
  | .registry op => ask op
  | .assignNewTable tableId creatorUserId => l.assignNewTable tableId creatorUserId
  | .routeExistingTable tableId userId expectedNodeId =>
    l.routeExistingTable tableId userId expectedNodeId

/-- What the clock and the generator of tokens say. -/
structure LobbyEnv where
  now : Int := 0
  token : String := ""

/-- The registry and the last clock reading. -/
structure Lobby where
  registry : InMemoryNodeRegistry := {}
  clock : Int

namespace Lobby

/-- A call on the registry reads the clock, which does not go back. -/
def exec (env : LobbyEnv) (s : Lobby) : (op : LobbyOp) → Option (op.Ans × Lobby)
  | .registry op =>
    if env.now < s.clock then none
    else some ((s.registry.perform env.now op).1, ⟨(s.registry.perform env.now op).2, env.now⟩)
  | .generateSessionToken => some (env.token, s)

variable {env : LobbyEnv} {s s' : Lobby}

theorem exec_registry {op : RegistryOp} {ans : op.Ans}
    (h : exec env s (.registry op) = some (ans, s')) :
    s.clock ≤ env.now ∧ ans = (s.registry.perform env.now op).1 ∧
      s' = ⟨(s.registry.perform env.now op).2, env.now⟩ := by
  obtain ⟨hnow, hsome⟩ := Option.ite_none_left_eq_some.mp h
  obtain ⟨rfl, rfl⟩ := Prod.mk.inj (Option.some.inj hsome)
  exact ⟨not_lt.mp hnow, rfl, rfl⟩

end Lobby

/-! ## What the router returns -/

namespace LobbyRouter

open Script

variable {l : LobbyRouter} {made : List ((op : LobbyOp) × op.Ans)} {r : RouteAssignment}
  {tableId : Nat} {userId : UserId}

/-- A healthy list that the router read names the route's node. -/
def Listed (made : List ((op : LobbyOp) × op.Ans)) (node : NodeInfo) : Prop :=
  ∃ nodes : List NodeInfo, ⟨.registry .healthyNodes, nodes⟩ ∈ made ∧ node ∈ nodes

theorem issue_returns {node : NodeInfo}
    (h : (l.issue node tableId userId).Returns made (some r)) : r.node = node := by
  obtain ⟨rawTicket, rest, rfl, hrest⟩ := returns_perform_bind.mp h
  obtain ⟨stored, rest', rfl, hlast⟩ := returns_perform_bind.mp hrest
  cases stored with
  | false => exact absurd hlast.2 (by simp)
  | true => rw [← Option.some.inj hlast.2]

theorem assignNewTable_returns (h : (l.assignNewTable tableId userId).Returns made (some r)) :
    Listed made r.node := by
  obtain ⟨nodes, rest, rfl, hrest⟩ := returns_perform_bind.mp h
  cases nodes with
  | nil => exact absurd hrest.2 (by simp)
  | cons node others =>
    refine ⟨node :: others, List.mem_cons_self, ?_⟩
    simp only at hrest
    split at hrest
    · exact absurd hrest.2 (by simp)
    obtain ⟨assigned, rest', rfl, hissue⟩ := returns_perform_bind.mp hrest
    cases assigned with
    | false => exact absurd hissue.2 (by simp)
    | true =>
      rw [issue_returns hissue]
      exact List.mem_cons_self

theorem routeToOwner_returns {expected : String} {nodes : List NodeInfo} {owner : String}
    (h : (l.routeToOwner tableId userId expected nodes owner).Returns made (some r)) :
    r.node ∈ nodes ∧ (expected ≠ "" → r.node.nodeId = expected) := by
  unfold routeToOwner at h
  split at h
  · exact absurd h.2 (by simp)
  rename_i howner
  split at h
  · exact absurd h.2 (by simp)
  · rename_i node hnode
    rw [issue_returns h]
    refine ⟨List.mem_of_find?_eq_some hnode, fun hexpected => ?_⟩
    have hid : node.nodeId = owner := by simpa using List.find?_some hnode
    rw [hid]
    exact not_not.mp fun hne => howner ⟨hexpected, hne⟩

theorem routeExistingTable_returns {expected : String}
    (h : (l.routeExistingTable tableId userId expected).Returns made (some r)) :
    Listed made r.node ∧ (expected ≠ "" → r.node.nodeId = expected) := by
  unfold routeExistingTable at h
  split at h
  · exact absurd h.2 (by simp)
  obtain ⟨owner, rest, rfl, hnodes⟩ := returns_perform_bind.mp h
  obtain ⟨nodes, rest', rfl, hrest⟩ := returns_perform_bind.mp hnodes
  have hlisted : ∀ node ∈ nodes, Listed (⟨.registry (.roomOwner tableId), owner⟩ ::
      ⟨.registry .healthyNodes, nodes⟩ :: rest') node := fun node hnode => ⟨nodes, by simp, hnode⟩
  cases owner with
  | some owner =>
    obtain ⟨hmem, hid⟩ := routeToOwner_returns hrest
    exact ⟨hlisted _ hmem, hid⟩
  | none =>
    simp only at hrest
    split at hrest
    · exact absurd hrest.2 (by simp)
    split at hrest
    · exact absurd hrest.2 (by simp)
    obtain ⟨assigned, rest'', rfl, hroute⟩ := returns_perform_bind.mp hrest
    cases assigned with
    | false => exact absurd hroute.2 (by simp)
    | true =>
      obtain ⟨hmem, hid⟩ := routeToOwner_returns hroute
      exact ⟨hlisted _ hmem, hid⟩

end LobbyRouter

end PokerServer
