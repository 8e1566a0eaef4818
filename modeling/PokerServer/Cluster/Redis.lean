import PokerServer.Cluster.HiredisNodeRegistry
import PokerServer.Cluster.LobbyRouter
import PokerServer.Lib.Expiry

/-!
# The node registry over Redis

Model of the calls of `src/poker/infrastructure/hiredis_node_registry.cpp`: each is a script of
Redis commands, and any number of processes (lobbies, game nodes) make calls at once. The router
runs over it as it runs over the registry in memory.

The server is no part of the repository. It is a parameter, `RedisService`, and `Documented` says
of each command what the registry relies on.

* `Delivery`: a command is answered, answered with an error, not sent for want of a connection, or
  executed while its reply is lost. A lost reply is a null pointer, and the next command connects
  again.
* The score of a node only decides the order in which `ZRANGE` lists the nodes, of which nothing is
  assumed.
* A `Char` of a string stands for one byte of it.
-/

namespace PokerServer

open HiredisNodeRegistry

def HiredisNodeRegistry.roomKey (tableId : Nat) : Text :=
  "poker:room:".toList ++ Nat.toDigits 10 tableId

def HiredisNodeRegistry.tableIdsKey : Text := "poker:ids:table".toList

def HiredisNodeRegistry.loadKey : Text := "poker:nodes:load".toList

inductive RedisOp where
  | ping
  /-- One of the commands that carry a value. -/
  | command (command : RedisCommand)
  /-- `GET key` -/
  | get (key : Text)
  /-- `INCR key` -/
  | incr (key : Text)
  /-- `ZRANGE poker:nodes:load 0 -1` -/
  | range
  /-- `ZREM poker:nodes:load member` -/
  | rem (member : Text)
  /-- `EVAL`, the script of `assignRoom` -/
  | eval (key nodeId : Text) (seconds : Nat)

/-- `redisReply`; the elements of an array reply, or none for any other. -/
abbrev RedisOp.Ans : RedisOp → Type
  | .range => Option (List Text)
  | _ => RedisReply

/-- The same reply, whatever the command is. -/
def RedisOp.fails (reply : RedisReply) : (op : RedisOp) → op.Ans
  | .range => none
  | .ping | .command _ | .get _ | .incr _ | .rem _ | .eval .. => reply

/-- The keys that a command may write. -/
def RedisOp.writes : RedisOp → List Text
  | .ping | .get _ | .range => []
  | .command (.set key _ _) | .command (.setNew key _ _) | .command (.getDel key) => [key]
  | .command (.addLoad _ _) | .rem _ => [loadKey]
  | .incr key => [key]
  | .eval key _ _ => [key, loadKey]

/-- How a command fares. -/
inductive Delivery where
  | answered
  | refused
  | unsent
  | unanswered
  deriving DecidableEq

/-- The command reaches the server and is executed. -/
def Delivery.executed : Delivery → Bool
  | .answered | .unanswered => true
  | .refused | .unsent => false

/-- When a command is executed, how it fares, and what `generateSessionToken` returns. -/
structure RedisEnv where
  now : Int := 0
  delivery : Delivery := .answered
  token : String := ""

/-! ## The server -/

/-- A Redis server that is in a state of `S`, and what there is to see in a state. -/
structure RedisService (S : Type) where
  /-- The reply to a command, and the state that it leaves. -/
  command : RedisEnv → S → (op : RedisOp) → Option (op.Ans × S)
  clock : S → Int
  /-- The string under a key, with the last moment at which it is there. -/
  string : S → Text → Cell Text
  /-- The number under a key, zero if there is none. -/
  number : S → Text → Int
  /-- The members of the sorted set `poker:nodes:load`. -/
  load : S → Set Text

namespace RedisService

variable {S : Type}

/-- The last moment of a value that is set with `EX seconds`. -/
def expiry (now : Int) (seconds : Nat) : Int := now + seconds * 1000

/-- The key is for strings. -/
def StringKey (key : Text) : Prop := key ≠ tableIdsKey ∧ key ≠ loadKey

/-- The reply that holds a string, or nil. -/
def reply : Option Text → RedisReply
  | some value => .string value
  | none => .nil

/-- **What the registry relies on**, command by command. A string is read while its last moment is
not past. -/
structure Documented (redis : RedisService S) : Prop where
  /-- Commands are executed one at a time, and the clock does not go back. -/
  clock : ∀ {env s op ans s'}, redis.command env s op = some (ans, s') →
    redis.clock s ≤ env.now ∧ redis.clock s' = env.now
  unexecuted : ∀ {env s op ans s'}, redis.command env s op = some (ans, s') →
    env.delivery.executed = false → (∀ key, redis.string s' key = redis.string s key) ∧
      (∀ key, redis.number s' key = redis.number s key) ∧ redis.load s' = redis.load s ∧
      (ans = op.fails .error ∨ ans = op.fails .lost)
  unanswered : ∀ {env s op ans s'}, redis.command env s op = some (ans, s') →
    env.delivery = .unanswered → ans = op.fails .lost
  /-- A command leaves the keys alone that it does not name. -/
  others : ∀ {env s op ans s' key}, redis.command env s op = some (ans, s') → key ∉ op.writes →
    redis.string s' key = redis.string s key ∧ redis.number s' key = redis.number s key
  otherLoad : ∀ {env s op ans s'}, redis.command env s op = some (ans, s') →
    loadKey ∉ op.writes → redis.load s' = redis.load s
  set : ∀ {env s key value seconds ans s'},
    redis.command env s (.command (.set key value seconds)) = some (ans, s') → StringKey key →
      0 < seconds → env.delivery.executed = true →
        redis.string s' key = some (value, expiry env.now seconds)
  /-- `SET … NX` writes where nothing is. -/
  setNew : ∀ {env s key value seconds ans s'},
    redis.command env s (.command (.setNew key value seconds)) = some (ans, s') → StringKey key →
      0 < seconds → env.delivery.executed = true →
        if (redis.string s key).seen env.now = none then
          redis.string s' key = some (value, expiry env.now seconds) ∧
            (env.delivery = .answered → ans = .status)
        else redis.string s' key = redis.string s key ∧ (env.delivery = .answered → ans = .nil)
  get : ∀ {env s key ans s'}, redis.command env s (.get key) = some (ans, s') → StringKey key →
    env.delivery = .answered → ans = reply ((redis.string s key).seen env.now)
  getDel : ∀ {env s key ans s'},
    redis.command env s (.command (.getDel key)) = some (ans, s') → StringKey key →
      env.delivery.executed = true → redis.string s' key = none ∧
        (env.delivery = .answered → ans = reply ((redis.string s key).seen env.now))
  /-- `INCR` adds one and replies with the sum, or replies with an error. -/
  incr : ∀ {env s key ans s'}, redis.command env s (.incr key) = some (ans, s') →
    env.delivery.executed = true →
      redis.number s' key = redis.number s key + 1 ∧
          (env.delivery = .answered → ans = .integer (redis.number s key + 1)) ∨
        redis.number s' key = redis.number s key ∧ (env.delivery = .answered → ans = .error)
  zadd : ∀ {env s score member ans s'},
    redis.command env s (.command (.addLoad score member)) = some (ans, s') →
      env.delivery.executed = true → redis.load s' = insert member (redis.load s)
  zrem : ∀ {env s member ans s'}, redis.command env s (.rem member) = some (ans, s') →
    env.delivery.executed = true → redis.load s' = redis.load s \ {member}
  zrange : ∀ {env s ans s'}, redis.command env s .range = some (ans, s') →
    env.delivery = .answered → ∃ members : List Text, ans = some members ∧ members.Nodup ∧
      ∀ member, member ∈ members ↔ member ∈ redis.load s
  /-- The script of `assignRoom`: `GET`, and then `SET … EX` and `ZINCRBY` where nothing is, or
  `SET … EX` where the node is. -/
  eval : ∀ {env s key nodeId seconds ans s'},
    redis.command env s (.eval key nodeId seconds) = some (ans, s') → StringKey key →
      0 < seconds → env.delivery.executed = true →
        match (redis.string s key).seen env.now with
        | none => redis.string s' key = some (nodeId, expiry env.now seconds) ∧
            redis.load s' = insert nodeId (redis.load s) ∧
            (env.delivery = .answered → ans = .integer 1)
        | some current =>
          if current = nodeId then redis.string s' key = some (nodeId, expiry env.now seconds) ∧
            redis.load s' = redis.load s ∧ (env.delivery = .answered → ans = .integer 1)
          else redis.string s' key = redis.string s key ∧ redis.load s' = redis.load s ∧
            (env.delivery = .answered → ans = .integer 0)

/-- No string is kept yet. -/
def Fresh (redis : RedisService S) (s : S) : Prop :=
  ∀ key, StringKey key → redis.string s key = none

end RedisService

inductive RedisCall where
  | redis (op : RedisOp)
  | generateSessionToken

abbrev RedisCall.Ans : RedisCall → Type
  | .redis op => op.Ans
  | .generateSessionToken => String

abbrev RedisScript := Script RedisCall RedisCall.Ans

def RedisService.exec {S : Type} (redis : RedisService S) (env : RedisEnv) (s : S) :
    (call : RedisCall) → Option (call.Ans × S)
  | .redis op => redis.command env s op
  | .generateSessionToken => some (env.token, s)

/-! ## The calls of the registry -/

namespace RedisRegistry

/-- `commandLocked`. -/
def command (op : RedisOp) : RedisScript op.Ans := Script.perform (RedisCall.redis op)

def ping : RedisScript Bool := do
  let reply ← command .ping
  return reply == .status

def heartbeat (node : NodeInfo) (ttlSeconds : Nat) : RedisScript Bool :=
  if node.nodeId = "" ∨ node.endpoint = "" ∨ ttlSeconds = 0 then pure false
  else do
    let stored ← command (.command (.set (nodeKey node.nodeId) (nodeValue node) ttlSeconds))
    let score := (node.activeTables * 1000000 + node.connections) % 2 ^ 64
    let indexed ← command (.command (.addLoad score node.nodeId.toList))
    return stored == .status && match indexed with
      | .integer _ => true
      | .status => true
      | _ => false

/-- The loop of `healthyNodes`. -/
def readNodes : List Text → RedisScript (List NodeInfo)
  | [] => pure []
  | nodeId :: nodeIds => do
    let value ← command (.get (nodeKey (String.ofList nodeId)))
    match value with
    | .lost | .nil => do
      let _ ← command (.rem nodeId)
      readNodes nodeIds
    | .string value => do
      let nodes ← readNodes nodeIds
      return (parseNode (String.ofList nodeId) value).toList ++ nodes
    | _ => readNodes nodeIds

def healthyNodes : RedisScript (List NodeInfo) := do
  let ids ← command .range
  match ids with
  | none => pure []
  | some nodeIds => readNodes nodeIds

def allocateTableId : RedisScript (Option Nat) := do
  let reply ← command (.incr tableIdsKey)
  match reply with
  | .integer value => return if value ≤ 0 ∨ 2 ^ 32 - 1 < value then none else some value.toNat
  | _ => return none

def assignRoom (tableId : Nat) (nodeId : String) (ttlSeconds : Nat) : RedisScript Bool :=
  if tableId = 0 ∨ nodeId = "" ∨ ttlSeconds = 0 then pure false
  else do
    let reply ← command (.eval (roomKey tableId) nodeId.toList ttlSeconds)
    return reply == .integer 1

def roomOwner (tableId : Nat) : RedisScript (Option String) := do
  let reply ← command (.get (roomKey tableId))
  match reply with
  | .string nodeId => return some (String.ofList nodeId)
  | _ => return none

def storeJoinTicket (tokenHash : String) (ticket : JoinTicket) (ttlSeconds : Nat) :
    RedisScript Bool :=
  if tokenHash = "" ∨ ticket.userId = 0 ∨ ticket.tableId = 0 ∨ ttlSeconds = 0 then pure false
  else do
    let reply ← command (.command (.setNew (ticketKey tokenHash) (ticketValue ticket) ttlSeconds))
    return reply == .status

def consumeJoinTicket (tokenHash : String) : RedisScript (Option JoinTicket) := do
  let reply ← command (.command (.getDel (ticketKey tokenHash)))
  match reply with
  | .string value => return parseJoinTicket value
  | _ => return none

def perform : (op : RegistryOp) → RedisScript op.Ans
  | .ping => ping
  | .heartbeat node ttlSeconds => heartbeat node ttlSeconds
  | .healthyNodes => healthyNodes
  | .allocateTableId => allocateTableId
  | .assignRoom tableId nodeId ttlSeconds => assignRoom tableId nodeId ttlSeconds
  | .roomOwner tableId => roomOwner tableId
  | .storeJoinTicket tokenHash ticket ttlSeconds => storeJoinTicket tokenHash ticket ttlSeconds
  | .consumeJoinTicket tokenHash => consumeJoinTicket tokenHash

def lobby : (op : LobbyOp) → RedisScript op.Ans
  | .registry op => perform op
  | .generateSessionToken => Script.perform RedisCall.generateSessionToken

/-- The calls of the registry and of a router, as commands. -/
def program (l : LobbyRouter) (call : LobbyCall) : RedisScript call.Res :=
  (l.program call).subst lobby

end RedisRegistry

end PokerServer
