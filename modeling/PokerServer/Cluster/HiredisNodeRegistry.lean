import PokerServer.Cluster.NodeRegistry
import PokerServer.Lib.Text

/-!
# The values a node registry keeps in Redis

Model of the encodings of `src/poker/infrastructure/hiredis_node_registry.cpp`: what `heartbeat`
and `storeJoinTicket` write under a key, and how `parseNode` and `consumeJoinTicket` take it apart.

* A `Char` of a string stands for one byte of it.
* `command` answers the commands of one call. What Redis does with them is not modelled; a value
  that is read is a reply of the type `string`.
* A constructor of `RedisCommand` holds the arguments of a command, in their order.

An endpoint may hold the separator (an IPv6 zone, a query), as `parseNode` looks for the last two.
`redis_values_round_trip` says that what is written is what is read.
-/

namespace PokerServer

namespace HiredisNodeRegistry

open Text

/-- `redisReply`, by its type; `lost` is a null pointer. -/
inductive RedisReply where
  | lost
  | nil
  | status
  | error
  | array
  | integer (value : Int)
  | string (value : Text)
  deriving DecidableEq

inductive RedisCommand where
  /-- `SET key value EX seconds` -/
  | set (key value : Text) (seconds : Nat)
  /-- `SET key value EX seconds NX` -/
  | setNew (key value : Text) (seconds : Nat)
  /-- `ZADD poker:nodes:load score member` -/
  | addLoad (score : Nat) (member : Text)
  /-- `GETDEL key` -/
  | getDel (key : Text)
  deriving DecidableEq

def nodeKey (nodeId : String) : Text := "poker:node:".toList ++ nodeId.toList

def ticketKey (tokenHash : String) : Text := "poker:ticket:".toList ++ tokenHash.toList

/-- What `heartbeat` writes of a node. -/
def nodeValue (node : NodeInfo) : Text :=
  node.endpoint.toList ++ '|' :: Nat.toDigits 10 node.activeTables ++
    '|' :: Nat.toDigits 10 node.connections

/-- What `storeJoinTicket` writes of a ticket. -/
def ticketValue (ticket : JoinTicket) : Text :=
  Nat.toDigits 10 ticket.userId ++ ':' :: Nat.toDigits 10 ticket.tableId

/-- The result of `heartbeat`, and the commands it sends. -/
def heartbeat (command : RedisCommand → RedisReply) (node : NodeInfo) (ttlSeconds : Nat) :
    Bool × List RedisCommand :=
  if node.nodeId = "" ∨ node.endpoint = "" ∨ ttlSeconds = 0 then (false, [])
  else
    let set := .set (nodeKey node.nodeId) (nodeValue node) ttlSeconds
    let score := (node.activeTables * 1000000 + node.connections) % 2 ^ 64
    let addLoad := .addLoad score node.nodeId.toList
    let indexed := match command addLoad with
      | .integer _ => true
      | .status => true
      | _ => false
    (command set == .status && indexed, [set, addLoad])

/-- `parseNode`; the exceptions of `substr` and `stoull` are caught. -/
def parseNode (nodeId : String) (value : Text) : Option NodeInfo := do
  let first ← rfind '|' value none
  let second ← rfind '|' value (minusOne first)
  let endpoint ← substr value 0 (some second)
  let activeTables ← stoull (← substr value (second + 1) (minusOne (first - second)))
  let connections ← stoull (← substr value (first + 1) none)
  return { nodeId, endpoint := String.ofList endpoint, activeTables, connections }

/-- The result of `storeJoinTicket`, and the commands it sends. -/
def storeJoinTicket (command : RedisCommand → RedisReply) (tokenHash : String)
    (ticket : JoinTicket) (ttlSeconds : Nat) : Bool × List RedisCommand :=
  if tokenHash = "" ∨ ticket.userId = 0 ∨ ticket.tableId = 0 ∨ ttlSeconds = 0 then (false, [])
  else
    let set := .setNew (ticketKey tokenHash) (ticketValue ticket) ttlSeconds
    (command set == .status, [set])

def parseJoinTicket (value : Text) : Option JoinTicket := do
  let separator ← find ':' value
  let userId ← stoull (← substr value 0 (some separator))
  let tableId ← stoull (← substr value (separator + 1) none)
  return { userId, tableId }

def consumeJoinTicket (command : RedisCommand → RedisReply) (tokenHash : String) :
    Option JoinTicket :=
  match command (.getDel (ticketKey tokenHash)) with
  | .string value => parseJoinTicket value
  | _ => none

/-! ## Taking a value apart -/

section Parsing

variable (endpoint : Text) {tables connections userId tableId : Text}

theorem first_bar (hconnections : '|' ∉ connections) :
    rfind '|' (endpoint ++ '|' :: tables ++ '|' :: connections) none =
      some (endpoint.length + tables.length + 1) := by
  rw [rfind_npos _ hconnections, List.length_append, List.length_cons, Nat.add_assoc]

/-- The search for the second separator starts in front of the first. -/
theorem second_bar (htables : '|' ∉ tables) :
    rfind '|' (endpoint ++ '|' :: tables ++ '|' :: connections)
      (minusOne (endpoint.length + tables.length + 1)) = some endpoint.length :=
  rfind_before endpoint htables _

theorem endpoint_substr :
    substr (endpoint ++ '|' :: tables ++ '|' :: connections) 0 (some endpoint.length) =
      some endpoint := by
  rw [List.append_assoc]
  exact substr_count [] endpoint _

theorem tables_substr :
    substr (endpoint ++ '|' :: tables ++ '|' :: connections) (endpoint.length + 1)
      (minusOne (endpoint.length + tables.length + 1 - endpoint.length)) = some tables := by
  have hcount : minusOne (endpoint.length + tables.length + 1 - endpoint.length) =
      some tables.length := by
    rw [Nat.add_assoc, Nat.add_sub_cancel_left]
    rfl
  have h := substr_count (endpoint ++ ['|']) tables ('|' :: connections)
  rw [List.length_append, List.append_assoc] at h
  rw [hcount, List.append_assoc]
  exact h

theorem connections_substr :
    substr (endpoint ++ '|' :: tables ++ '|' :: connections)
      (endpoint.length + tables.length + 1 + 1) none = some connections := by
  have h := substr_npos (endpoint ++ '|' :: tables ++ ['|']) connections
  simp only [List.length_append, List.length_cons, List.length_nil, List.append_assoc] at h
  rw [List.append_assoc]
  exact h

/-- **The endpoint ends at the last separator but one.** -/
theorem parseNode_eq (nodeId : String) (htables : '|' ∉ tables)
    (hconnections : '|' ∉ connections) :
    parseNode nodeId (endpoint ++ '|' :: tables ++ '|' :: connections) = do
      let activeTables ← stoull tables
      let connections ← stoull connections
      return { nodeId, endpoint := String.ofList endpoint, activeTables, connections } := by
  rw [parseNode, first_bar endpoint hconnections]
  dsimp only [Option.bind_eq_bind, Option.bind_some]
  rw [second_bar endpoint htables]
  dsimp only [Option.bind_some]
  rw [endpoint_substr, tables_substr, connections_substr]
  rfl

/-- **The user ends at the first separator.** -/
theorem parseJoinTicket_eq (huser : ':' ∉ userId) :
    parseJoinTicket (userId ++ ':' :: tableId) = do
      let userId ← stoull userId
      let tableId ← stoull tableId
      return { userId, tableId } := by
  have hfirst : substr (userId ++ ':' :: tableId) 0 (some userId.length) = some userId :=
    substr_count [] userId _
  have hrest : substr (userId ++ ':' :: tableId) (userId.length + 1) none = some tableId := by
    have h := substr_npos (userId ++ [':']) tableId
    rw [List.length_append, List.append_assoc] at h
    exact h
  rw [parseJoinTicket, find_append huser]
  dsimp only [Option.bind_eq_bind, Option.bind_some]
  rw [hfirst, hrest]
  rfl

end Parsing

/-! ## What is written is what is read -/

theorem parseNode_nodeValue (node : NodeInfo) (htables : node.activeTables < 2 ^ 64)
    (hconnections : node.connections < 2 ^ 64) :
    parseNode node.nodeId (nodeValue node) = some node := by
  have hbar : ('|').isDigit = false := by decide
  rw [nodeValue, parseNode_eq _ _ (not_mem_toDigits hbar _) (not_mem_toDigits hbar _),
    stoull_toDigits htables, stoull_toDigits hconnections, String.ofList_toList]
  rfl

theorem parseJoinTicket_ticketValue (ticket : JoinTicket) (huser : ticket.userId < 2 ^ 64)
    (htable : ticket.tableId < 2 ^ 64) :
    parseJoinTicket (ticketValue ticket) = some ticket := by
  have hcolon : (':').isDigit = false := by decide
  rw [ticketValue, parseJoinTicket_eq (not_mem_toDigits hcolon _), stoull_toDigits huser,
    stoull_toDigits htable]
  rfl

variable (command : RedisCommand → RedisReply) {node : NodeInfo} {ticket : JoinTicket}
  {tokenHash : String} {ttlSeconds : Nat}

/-- An accepted heartbeat writes the node under its key. -/
theorem set_mem_heartbeat (hid : node.nodeId ≠ "") (hendpoint : node.endpoint ≠ "")
    (httl : ttlSeconds ≠ 0) :
    .set (nodeKey node.nodeId) (nodeValue node) ttlSeconds ∈
      (heartbeat command node ttlSeconds).2 := by
  rw [heartbeat, if_neg (by simp [hid, hendpoint, httl])]
  exact List.mem_cons_self

theorem setNew_mem_storeJoinTicket (htoken : tokenHash ≠ "") (huser : ticket.userId ≠ 0)
    (htable : ticket.tableId ≠ 0) (httl : ttlSeconds ≠ 0) :
    .setNew (ticketKey tokenHash) (ticketValue ticket) ttlSeconds ∈
      (storeJoinTicket command tokenHash ticket ttlSeconds).2 := by
  rw [storeJoinTicket, if_neg (by simp [htoken, huser, htable, httl])]
  exact List.mem_cons_self

/-- **Values survive Redis.** The value an accepted heartbeat writes is parsed as the node, whatever
bytes the endpoint has and whatever 64-bit numbers the counters are. The value of a ticket is parsed
as the ticket, so that a reply with the bytes that were stored redeems it. -/
theorem redis_values_round_trip :
    (∀ (node : NodeInfo) (ttlSeconds : Nat), node.nodeId ≠ "" → node.endpoint ≠ "" →
      ttlSeconds ≠ 0 → node.activeTables < 2 ^ 64 → node.connections < 2 ^ 64 →
        .set (nodeKey node.nodeId) (nodeValue node) ttlSeconds ∈
            (heartbeat command node ttlSeconds).2 ∧
          parseNode node.nodeId (nodeValue node) = some node) ∧
    ∀ ticket : JoinTicket, ticket.userId ≠ 0 → ticket.tableId ≠ 0 → ticket.userId < 2 ^ 64 →
      ticket.tableId < 2 ^ 64 →
        parseJoinTicket (ticketValue ticket) = some ticket ∧
          ∀ (tokenHash : String) (ttlSeconds : Nat), tokenHash ≠ "" → ttlSeconds ≠ 0 →
            .setNew (ticketKey tokenHash) (ticketValue ticket) ttlSeconds ∈
                (storeJoinTicket command tokenHash ticket ttlSeconds).2 ∧
              (command (.getDel (ticketKey tokenHash)) = .string (ticketValue ticket) →
                consumeJoinTicket command tokenHash = some ticket) := by
  constructor
  · intro node ttlSeconds hid hendpoint httl htables hconnections
    exact ⟨set_mem_heartbeat command hid hendpoint httl,
      parseNode_nodeValue node htables hconnections⟩
  · intro ticket huser htable huserFits htableFits
    have hparse := parseJoinTicket_ticketValue ticket huserFits htableFits
    refine ⟨hparse, fun tokenHash ttlSeconds htoken httl => ?_⟩
    refine ⟨setNew_mem_storeJoinTicket command htoken huser htable httl, fun hreply => ?_⟩
    rw [consumeJoinTicket, hreply]
    exact hparse

/-- An endpoint that holds the separator, and the largest counter. -/
theorem redis_values_round_trip_bars :
    parseNode "n1" (nodeValue ⟨"n1", "10.0.0.1|7|", 2 ^ 64 - 1, 0⟩) =
        some ⟨"n1", "10.0.0.1|7|", 2 ^ 64 - 1, 0⟩ ∧
      consumeJoinTicket (fun _ => .string (ticketValue ⟨1, 2 ^ 64 - 1⟩)) "a" =
        some ⟨1, 2 ^ 64 - 1⟩ := by
  have h := redis_values_round_trip fun _ => .string (ticketValue ⟨1, 2 ^ 64 - 1⟩)
  have hnode := h.1 ⟨"n1", "10.0.0.1|7|", 2 ^ 64 - 1, 0⟩ 30 (by decide) (by decide) (by decide)
    (by decide) (by decide)
  have hticket := h.2 ⟨1, 2 ^ 64 - 1⟩ (by decide) (by decide) (by decide) (by decide)
  exact ⟨hnode.2, (hticket.2 "a" 30 (by decide) (by decide)).2 rfl⟩

end HiredisNodeRegistry

end PokerServer
