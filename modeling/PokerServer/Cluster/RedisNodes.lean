import PokerServer.Cluster.RedisTickets

/-!
# Healthy nodes over Redis

`heartbeat` and `healthyNodes` over Redis, in any run of the processes and whatever replies
are lost.

A heartbeat writes a value that expires, and then a member of the index `poker:nodes:load`.
`healthyNodes` reads the index and then each of its nodes, and drops from the index the nodes whose
value is gone. Nothing makes these one step: a node that comes back after it has been read and
before it is dropped is left out of the index until its next heartbeat.

* `HealthyNodes.listed`: a list names the nodes of the index, in its order and each once, that were
  there when they were read, as their last heartbeats have them.
* `HealthyNodes.dropped`: a node that has been indexed is missing only after a call that found it
  gone, or whose reply about it was lost.
-/

namespace PokerServer

open HiredisNodeRegistry

/-- A node that is written is read as itself, or its numbers do not fit. -/
theorem HiredisNodeRegistry.parseNode_eq_some {nodeId : String} {node found : NodeInfo} :
    parseNode nodeId (nodeValue node) = some found ↔
      (node.activeTables < 2 ^ 64 ∧ node.connections < 2 ^ 64) ∧
        { node with nodeId } = found := by
  have hbar : ('|').isDigit = false := by decide
  rw [nodeValue, parseNode_eq _ _ (Text.not_mem_toDigits hbar _) (Text.not_mem_toDigits hbar _),
    String.ofList_toList]
  constructor
  · intro h
    obtain ⟨activeTables, htables, hrest⟩ := Option.bind_eq_some_iff.mp h
    obtain ⟨connections, hconnections, hfound⟩ := Option.bind_eq_some_iff.mp hrest
    obtain ⟨htablesFit, rfl⟩ := Text.stoull_toDigits_eq_some.mp htables
    obtain ⟨hconnectionsFit, rfl⟩ := Text.stoull_toDigits_eq_some.mp hconnections
    exact ⟨⟨htablesFit, hconnectionsFit⟩, Option.some.inj hfound⟩
  · rintro ⟨⟨htables, hconnections⟩, rfl⟩
    rw [Text.stoull_toDigits htables, Text.stoull_toDigits hconnections]
    rfl

namespace RedisRegistry

open Script

/-! ## What the calls return -/

section Returns

variable {made : List ((call : RedisCall) × call.Ans)} {nodeIds : List Text} {nodes : List NodeInfo}

/-- What a reply about a node adds to the list. -/
def listedNode (read : Text × RedisReply) : Option NodeInfo :=
  match read.2 with
  | .string value => parseNode (String.ofList read.1) value
  | _ => none

theorem nodeId_of_listedNode {read : Text × RedisReply} {node : NodeInfo}
    (h : listedNode read = some node) : node.nodeId.toList = read.1 := by
  unfold listedNode at h
  split at h
  · obtain ⟨first, -, h⟩ := Option.bind_eq_some_iff.mp h
    obtain ⟨second, -, h⟩ := Option.bind_eq_some_iff.mp h
    obtain ⟨endpoint, -, h⟩ := Option.bind_eq_some_iff.mp h
    obtain ⟨tables, -, h⟩ := Option.bind_eq_some_iff.mp h
    obtain ⟨activeTables, -, h⟩ := Option.bind_eq_some_iff.mp h
    obtain ⟨rest, -, h⟩ := Option.bind_eq_some_iff.mp h
    obtain ⟨connections, -, h⟩ := Option.bind_eq_some_iff.mp h
    rw [← Option.some.inj h, String.toList_ofList]
  · exact absurd h (by simp)

/-- The loop reads every node of the index, and lists what the replies say. -/
theorem readNodes_returns (h : (readNodes nodeIds).Returns made nodes) :
    ∃ reads : List (Text × RedisReply), reads.map Prod.fst = nodeIds ∧
      nodes = reads.filterMap listedNode ∧
      ∀ read ∈ reads, ⟨.redis (.get (nodeKey (String.ofList read.1))), read.2⟩ ∈ made := by
  induction nodeIds generalizing made nodes with
  | nil =>
    obtain ⟨rfl, rfl⟩ := h
    exact ⟨[], rfl, rfl, fun read hread => absurd hread (by simp)⟩
  | cons nodeId nodeIds ih =>
    obtain ⟨value, rest, rfl, hrest⟩ := returns_perform_bind.mp h
    have hskip : ∀ rest', (∀ m ∈ rest', m ∈ rest) → (readNodes nodeIds).Returns rest' nodes →
        listedNode (nodeId, value) = none → ∃ reads : List (Text × RedisReply),
          reads.map Prod.fst = nodeId :: nodeIds ∧ nodes = reads.filterMap listedNode ∧
          ∀ read ∈ reads, ⟨.redis (.get (nodeKey (String.ofList read.1))), read.2⟩ ∈
            (⟨.redis (.get (nodeKey (String.ofList nodeId))), value⟩ ::
              rest : List ((call : RedisCall) × call.Ans)) := by
      intro rest' hsub hreads hnone
      obtain ⟨reads, hids, rfl, hmade⟩ := ih hreads
      refine ⟨(nodeId, value) :: reads, ?_, ?_, fun read hread => ?_⟩
      · rw [List.map_cons, hids]
      · rw [List.filterMap_cons_none hnone]
      · rcases List.mem_cons.mp hread with rfl | hread
        · exact List.mem_cons_self
        · exact List.mem_cons_of_mem _ (hsub _ (hmade read hread))
    cases value with
    | string value =>
      obtain ⟨first, last, others, rfl, hothers, hlast, rfl⟩ := returns_bind.mp hrest
      obtain rfl := hlast
      obtain ⟨reads, hids, rfl, hmade⟩ := ih hothers
      refine ⟨(nodeId, .string value) :: reads, ?_, ?_, fun read hread => ?_⟩
      · rw [List.map_cons, hids]
      · rw [List.filterMap_cons]
        simp only [listedNode]
        cases parseNode (String.ofList nodeId) value <;> rfl
      · rcases List.mem_cons.mp hread with rfl | hread
        · exact List.mem_cons_self
        · exact List.mem_cons_of_mem _ (List.mem_append_left _ (hmade read hread))
    | lost =>
      obtain ⟨reply, rest', rfl, hreads⟩ := returns_perform_bind.mp hrest
      exact hskip rest' (fun m hm => List.mem_cons_of_mem _ hm) hreads rfl
    | nil =>
      obtain ⟨reply, rest', rfl, hreads⟩ := returns_perform_bind.mp hrest
      exact hskip rest' (fun m hm => List.mem_cons_of_mem _ hm) hreads rfl
    | _ => exact hskip rest (fun m hm => hm) hrest rfl

theorem healthyNodes_returns (h : healthyNodes.Returns made nodes) :
    ∃ (reply : Option (List Text)) (reads : List (Text × RedisReply)),
      ⟨.redis .range, reply⟩ ∈ made ∧ reads.map Prod.fst = reply.getD [] ∧
      nodes = reads.filterMap listedNode ∧
      ∀ read ∈ reads, ⟨.redis (.get (nodeKey (String.ofList read.1))), read.2⟩ ∈ made := by
  obtain ⟨reply, rest, rfl, hrest⟩ := returns_perform_bind.mp h
  cases reply with
  | none =>
    obtain ⟨rfl, rfl⟩ := hrest
    exact ⟨none, [], List.mem_cons_self, rfl, rfl, fun read hread => absurd hread (by simp)⟩
  | some nodeIds =>
    obtain ⟨reads, hids, hnodes, hmade⟩ := readNodes_returns hrest
    exact ⟨some nodeIds, reads, List.mem_cons_self, hids, hnodes,
      fun read hread => List.mem_cons_of_mem _ (hmade read hread)⟩

/-- The list follows the order of the index. -/
theorem listed_sublist (reads : List (Text × RedisReply)) :
    ((reads.filterMap listedNode).map fun node => node.nodeId.toList).Sublist
      (reads.map Prod.fst) := by
  induction reads with
  | nil => exact List.Sublist.refl _
  | cons read reads ih =>
    cases hlisted : listedNode read with
    | none =>
      rw [List.filterMap_cons_none hlisted]
      exact ih.cons _
    | some node =>
      rw [List.filterMap_cons_some hlisted, List.map_cons, List.map_cons,
        nodeId_of_listedNode hlisted]
      exact ih.cons_cons _

/-- Of the nodes with an id, the list names the one that the reply to its `GET` describes. -/
theorem mem_listed {reads : List (Text × RedisReply)} (hnodup : (reads.map Prod.fst).Nodup)
    {read : Text × RedisReply} (hread : read ∈ reads) {node : NodeInfo}
    (hid : node.nodeId.toList = read.1) :
    node ∈ reads.filterMap listedNode ↔ listedNode read = some node := by
  rw [List.mem_filterMap]
  constructor
  · rintro ⟨other, hother, hlisted⟩
    have hsame : other.1 = read.1 := (nodeId_of_listedNode hlisted).symm.trans hid
    rwa [List.inj_on_of_nodup_map hnodup hother hread hsame] at hlisted
  · exact fun hlisted => ⟨read, hread, hlisted⟩

/-! ## What the calls drop -/

/-- Every node that is dropped from the index has been found gone, or the reply about it was
lost. -/
def Guarded (made : List ((call : RedisCall) × call.Ans)) : Prop :=
  ∀ early ans late nodeId, made = early ++ ⟨.redis (.rem nodeId), ans⟩ :: late →
    ∃ reply, (reply = .nil ∨ reply = .lost) ∧
      ⟨.redis (.get (nodeKey (String.ofList nodeId))), reply⟩ ∈ early

theorem Guarded.append {first : List ((call : RedisCall) × call.Ans)} (h : Guarded first)
    (h' : Guarded made) : Guarded (first ++ made) := by
  intro early ans late nodeId hsplit
  rcases List.append_eq_append_iff.mp hsplit with ⟨mid, rfl, hmade⟩ | ⟨mid, hfirst, hmid⟩
  · obtain ⟨reply, hgone, hmem⟩ := h' mid ans late nodeId hmade
    exact ⟨reply, hgone, List.mem_append_right _ hmem⟩
  · cases mid with
    | nil =>
      obtain ⟨reply, hgone, hmem⟩ := h' [] ans late nodeId hmid.symm
      exact absurd hmem (by simp)
    | cons m mid =>
      obtain ⟨rfl, hlate⟩ := List.cons.inj hmid
      exact h early ans mid nodeId hfirst

theorem guarded_of_quiet (h : ∀ m ∈ made, ∀ nodeId, m.1 ≠ .redis (.rem nodeId)) : Guarded made := by
  rintro early ans late nodeId rfl
  exact absurd rfl (h ⟨.redis (.rem nodeId), ans⟩ (by simp) nodeId)

theorem Guarded.cons {m : (call : RedisCall) × call.Ans} (h : Guarded made)
    (hm : ∀ nodeId, m.1 ≠ .redis (.rem nodeId)) : Guarded (m :: made) := by
  have hfirst : Guarded [m] := guarded_of_quiet fun m' hm' => by
    obtain rfl := List.mem_singleton.mp hm'
    exact hm
  exact hfirst.append h

theorem readNodes_guarded (h : (readNodes nodeIds).Returns made nodes) : Guarded made := by
  induction nodeIds generalizing made nodes with
  | nil =>
    obtain ⟨rfl, -⟩ := h
    exact guarded_of_quiet fun m hm => absurd hm (by simp)
  | cons nodeId nodeIds ih =>
    obtain ⟨value, rest, rfl, hrest⟩ := returns_perform_bind.mp h
    have hread : ∀ {rest}, Guarded rest →
        Guarded (⟨.redis (.get (nodeKey (String.ofList nodeId))), value⟩ :: rest) := fun hguarded =>
      hguarded.cons fun _ => by simp
    have hdrop : value = .nil ∨ value = .lost →
        ∀ reply rest', (readNodes nodeIds).Returns rest' nodes →
        Guarded (⟨.redis (.get (nodeKey (String.ofList nodeId))), value⟩ ::
          ⟨.redis (.rem nodeId), reply⟩ :: rest') := by
      intro hgone reply rest' hreads
      have hpair : Guarded [⟨.redis (.get (nodeKey (String.ofList nodeId))), value⟩,
          ⟨.redis (.rem nodeId), reply⟩] := by
        intro early ans late nodeId' hsplit
        cases early with
        | nil => exact absurd (List.cons.inj hsplit).1 (by simp)
        | cons first early =>
          obtain ⟨rfl, htail⟩ := List.cons.inj hsplit
          cases early with
          | nil =>
            obtain ⟨hdropped, -⟩ := Sigma.mk.inj (List.cons.inj htail).1
            obtain rfl : nodeId = nodeId' := RedisOp.rem.inj (RedisCall.redis.inj hdropped)
            exact ⟨value, hgone, List.mem_cons_self⟩
          | cons second early => exact absurd (List.cons.inj htail).2 (by simp)
      exact hpair.append (ih hreads)
    cases value with
    | string value =>
      obtain ⟨first, last, others, rfl, hothers, hlast, -⟩ := returns_bind.mp hrest
      obtain rfl := hlast
      rw [List.append_nil]
      exact hread (ih hothers)
    | lost =>
      obtain ⟨reply, rest', rfl, hreads⟩ := returns_perform_bind.mp hrest
      exact hdrop (Or.inr rfl) reply rest' hreads
    | nil =>
      obtain ⟨reply, rest', rfl, hreads⟩ := returns_perform_bind.mp hrest
      exact hdrop (Or.inl rfl) reply rest' hreads
    | _ => exact hread (ih hrest)

/-- No other call drops nodes. -/
theorem lobby_quiet {op : LobbyOp} (hop : op ≠ .registry .healthyNodes) :
    (lobby op).Only fun call => ∀ nodeId, call ≠ .redis (.rem nodeId) := by
  cases op with
  | generateSessionToken => exact ⟨by simp, fun _ => trivial⟩
  | registry op =>
    cases op with
    | ping => exact ⟨by simp, fun _ => trivial⟩
    | heartbeat node ttlSeconds =>
      simp only [lobby, perform, heartbeat]
      split
      · trivial
      · exact ⟨by simp, fun _ => ⟨by simp, fun _ => trivial⟩⟩
    | healthyNodes => exact absurd rfl hop
    | allocateTableId =>
      refine ⟨by simp, fun reply => ?_⟩
      cases reply <;> trivial
    | assignRoom tableId nodeId ttlSeconds =>
      simp only [lobby, perform, assignRoom]
      split
      · trivial
      · exact ⟨by simp, fun _ => trivial⟩
    | roomOwner tableId =>
      refine ⟨by simp, fun reply => ?_⟩
      cases reply <;> trivial
    | storeJoinTicket tokenHash ticket ttlSeconds =>
      simp only [lobby, perform, storeJoinTicket]
      split
      · trivial
      · exact ⟨by simp, fun _ => trivial⟩
    | consumeJoinTicket tokenHash =>
      refine ⟨by simp, fun reply => ?_⟩
      cases reply <;> trivial

theorem lobby_guarded {op : LobbyOp} {ans : op.Ans} (h : (lobby op).Returns made ans) :
    Guarded made := by
  by_cases hop : op = .registry .healthyNodes
  · subst hop
    obtain ⟨reply, rest, rfl, hrest⟩ := returns_perform_bind.mp h
    refine Guarded.cons ?_ fun _ => by simp
    cases reply with
    | none =>
      obtain ⟨rfl, -⟩ := hrest
      exact guarded_of_quiet fun m hm => absurd hm (by simp)
    | some nodeIds => exact readNodes_guarded hrest
  · exact guarded_of_quiet ((lobby_quiet hop).returns h)

theorem expands_guarded {calls : List ((op : LobbyOp) × op.Ans)} (h : Expands lobby calls made) :
    Guarded made := by
  induction h with
  | nil => exact guarded_of_quiet fun m hm => absurd hm (by simp)
  | cons hfirst _ ih => exact (lobby_guarded hfirst).append ih

end Returns

/-! ## The index -/

open RedisService

variable {S : Type} {redis : RedisService S} {l : LobbyRouter} {s : S} {t : RedisThreads S}
  {entries : RedisTrace S} {j k id : Nat} {e : Step (RedisThreads S) RedisEvent} {env : RedisEnv}
  {nodeId : String} {nodes : List NodeInfo}

/-- The event drops the node from the index. -/
def DropsNode (nodeId : String) (event : RedisEvent) : Prop :=
  ∃ id env ans, event = .made id env (.redis (.rem nodeId.toList)) ans ∧
    env.delivery.executed = true

/-- The event adds the node to the index, as a heartbeat does. -/
def IndexesNode (nodeId : String) (event : RedisEvent) : Prop :=
  ∃ id env score ans, event = .made id env (.redis (.command (.addLoad score nodeId.toList))) ans ∧
    env.delivery.executed = true

/-- The commands of the registry take nodes out of the index by `ZREM` alone. -/
theorem mem_load_command (hd : redis.Documented) {s s' : S} {op : RedisOp} {ans : op.Ans}
    {member : Text} (hkeyed : Keyed (.redis op)) (h : redis.command env s op = some (ans, s'))
    (hexecuted : env.delivery.executed = true) (hmem : member ∈ redis.load s)
    (hop : op ≠ .rem member) : member ∈ redis.load s' := by
  by_cases hwrites : loadKey ∈ op.writes
  · cases op with
    | ping => exact absurd hwrites List.not_mem_nil
    | get other => exact absurd hwrites List.not_mem_nil
    | range => exact absurd hwrites List.not_mem_nil
    | incr other =>
      obtain rfl : other = tableIdsKey := hkeyed
      exact absurd (List.mem_singleton.mp hwrites) (by decide +kernel)
    | rem other =>
      rw [hd.zrem h hexecuted]
      refine ⟨hmem, fun heq => hop ?_⟩
      rw [Set.mem_singleton_iff.mp heq]
    | eval other node seconds =>
      obtain ⟨hseconds, tableId, _, rfl, -⟩ := hkeyed
      have heval := hd.eval h (roomKey_string tableId) hseconds hexecuted
      split at heval
      · rw [heval.2.1]
        exact Set.mem_insert_of_mem _ hmem
      · split at heval
        · rwa [heval.2.1]
        · rwa [heval.2.1]
    | command command =>
      cases command with
      | set other value seconds =>
        obtain ⟨-, node, rfl, -⟩ := hkeyed
        exact absurd (List.mem_singleton.mp hwrites).symm (nodeKey_string node.nodeId).2
      | setNew other value seconds =>
        obtain ⟨-, hash, ticket, rfl, -⟩ := hkeyed
        exact absurd (List.mem_singleton.mp hwrites).symm (ticketKey_string hash).2
      | addLoad score other =>
        rw [hd.zadd h hexecuted]
        exact Set.mem_insert_of_mem _ hmem
      | getDel other =>
        obtain ⟨hash, rfl⟩ := hkeyed
        exact absurd (List.mem_singleton.mp hwrites).symm (ticketKey_string hash).2
  · rwa [hd.otherLoad h hwrites]

theorem load_step (hd : redis.Documented) {t t' : RedisThreads S} {event : RedisEvent}
    (h : CallStep redis l t event t') (hkeyed : SendsKeyed ⟨t, event, t'⟩)
    (hmem : nodeId.toList ∈ redis.load t.shared) :
    nodeId.toList ∈ redis.load t'.shared ∨ DropsNode nodeId event := by
  rcases shared_cases h with ⟨id, env, op, ans, rfl, hcommand⟩ | ⟨hsame, -⟩
  · by_cases hexecuted : env.delivery.executed = true
    · by_cases hop : op = .rem nodeId.toList
      · subst hop
        exact Or.inr ⟨id, env, ans, rfl, hexecuted⟩
      · exact Or.inl (mem_load_command hd (hkeyed id env _ ans rfl) hcommand hexecuted hmem hop)
    · rw [(hd.unexecuted hcommand (Bool.not_eq_true _ ▸ hexecuted)).2.2.1]
      exact Or.inl hmem
  · rw [hsame]
    exact Or.inl hmem

theorem indexed_at (hr : RedisRun redis l s entries t) (he : entries[j]? = some e)
    (h : IndexesNode nodeId e.label) : nodeId.toList ∈ redis.load e.after.shared := by
  obtain ⟨id, env, score, ans, hlabel, hexecuted⟩ := h
  rw [hr.documented.zadd (command_at hr he hlabel) hexecuted]
  exact Set.mem_insert _ _

/-- `ZRANGE`, when its reply arrives, lists the index, each node once. -/
theorem range_at {nodeIds : List Text} (hr : RedisRun redis l s entries t)
    (he : entries[j]? = some e) (hlabel : e.label = .made id env (.redis .range) (some nodeIds)) :
    nodeIds.Nodup ∧ ∀ member, member ∈ nodeIds ↔ member ∈ redis.load e.before.shared := by
  have hanswered := answered_of_reply hr he hlabel (by simp [RedisOp.fails])
    (by simp [RedisOp.fails])
  obtain ⟨members, hans, hlists⟩ := hr.documented.zrange (command_at hr he hlabel) hanswered
  obtain rfl := Option.some.inj hans
  exact hlists

theorem range_nodup {reply : Option (List Text)} (hr : RedisRun redis l s entries t)
    (he : entries[j]? = some e) (hlabel : e.label = .made id env (.redis .range) reply) :
    (reply.getD []).Nodup := by
  cases reply with
  | none => exact List.nodup_nil
  | some nodeIds => exact (range_at hr he hlabel).1

/-! ## The list -/

/-- At entry `k` the last heartbeat of the node has it so, and lasts. -/
def Alive (redis : RedisService S) (node : NodeInfo) (entries : RedisTrace S) (k : Nat)
    (now : Int) : Prop :=
  ∃ i expires,
    Cell.Stands (history redis (nodeKey node.nodeId) entries) i k (nodeValue node, expires) ∧
      now ≤ expires

/-- The reply to the `GET` of a node lists it as its last heartbeat has it. -/
theorem listedNode_at {reply : RedisReply}
    (hr : FreshRun redis l s entries t) (he : entries[k]? = some e)
    (hlabel : e.label = .made id env (.redis (.get (nodeKey nodeId))) reply) {node : NodeInfo}
    (hid : node.nodeId = nodeId) :
    listedNode (nodeId.toList, reply) = some node ↔ env.delivery = .answered ∧
      (node.activeTables < 2 ^ 64 ∧ node.connections < 2 ^ 64) ∧
          Alive redis node entries k env.now := by
  constructor
  · intro hlisted
    have hreply : ∃ value, reply = .string value ∧ parseNode nodeId value = some node := by
      unfold listedNode at hlisted
      split at hlisted
      · rename_i value heq
        rw [String.ofList_toList] at hlisted
        exact ⟨value, heq, hlisted⟩
      · exact absurd hlisted (by simp)
    obtain ⟨value, rfl, hparse⟩ := hreply
    have hanswered := answered_of_reply hr.toRedisRun he hlabel (by simp [RedisOp.fails])
      (by simp [RedisOp.fails])
    have hfound := ((reply_of_get hr.toRedisRun (nodeKey_string nodeId) he hlabel hanswered).1
      value).mp rfl
    obtain ⟨i, expires, hstands, hlasts⟩ := (seen_at hr (nodeKey_string nodeId) he).mp hfound
    rcases writes_run hr.toRedisRun hstands.wrote with ⟨written, hkey, hvalue⟩ | ⟨_, _, hkey, -⟩ |
      ⟨_, _, hkey, -⟩
    · subst hvalue
      obtain ⟨hfits, hnode⟩ := parseNode_eq_some.mp hparse
      obtain rfl : written = node := by
        rw [nodeKey_injective hkey] at hnode
        exact hnode
      refine ⟨hanswered, hfits, i, expires, ?_, hlasts⟩
      rw [hid]
      exact hstands
    · exact absurd hkey nodeKey_ne_ticketKey
    · exact absurd hkey nodeKey_ne_roomKey
  · rintro ⟨hanswered, hfits, i, expires, hstands, hlasts⟩
    rw [hid] at hstands
    have hfound := (seen_at hr (nodeKey_string nodeId) he).mpr ⟨i, expires, hstands, hlasts⟩
    rw [((reply_of_get hr.toRedisRun (nodeKey_string nodeId) he hlabel hanswered).1 _).mpr hfound]
    simp only [listedNode]
    rw [String.ofList_toList]
    refine parseNode_eq_some.mpr ⟨hfits, ?_⟩
    rw [← hid]

/-- What a list that is returned says of the index and of each of its nodes. -/
def Lists (redis : RedisService S) (entries : RedisTrace S) (j id : Nat) (nodes : List NodeInfo) :
    Prop :=
  ∃ (k : Nat) (b : Step (RedisThreads S) RedisEvent) (env : RedisEnv) (reply : Option (List Text)),
    k < j ∧ entries[k]? = some b ∧ b.label = .made id env (.redis .range) reply ∧
    (reply.getD []).Nodup ∧ (nodes.map fun node => node.nodeId.toList).Sublist (reply.getD []) ∧
    ∀ nodeId : String, nodeId.toList ∈ reply.getD [] →
      ∃ (k' : Nat) (b' : Step (RedisThreads S) RedisEvent) (env' : RedisEnv) (reply' : RedisReply),
        k' < j ∧ entries[k']? = some b' ∧
        b'.label = .made id env' (.redis (.get (nodeKey nodeId))) reply' ∧
        ∀ node : NodeInfo, node.nodeId = nodeId → (node ∈ nodes ↔ env'.delivery = .answered ∧
          (node.activeTables < 2 ^ 64 ∧ node.connections < 2 ^ 64) ∧
              Alive redis node entries k' env'.now)

/-- Entry `r` drops the node from the index, for a call that found it gone or got no reply. -/
def Drops (redis : RedisService S) (nodeId : String) (entries : RedisTrace S) (r : Nat) : Prop :=
  ∃ (b : Step (RedisThreads S) RedisEvent) (id c : Nat) (b' : Step (RedisThreads S) RedisEvent)
    (env : RedisEnv) (reply : RedisReply), entries[r]? = some b ∧ DropsNode nodeId b.label ∧ c < r ∧
      entries[c]? = some b' ∧ b'.label = .made id env (.redis (.get (nodeKey nodeId))) reply ∧
      (reply = .lost ∨ env.delivery = .answered ∧ ∀ node : NodeInfo, node.nodeId = nodeId →
        ¬ Alive redis node entries c env.now)

/-- **A list names the nodes of the index that were there when they were read.** -/
theorem lists_at (hr : FreshRun redis l s entries t) (he : entries[j]? = some e)
    (hlabel : e.label = .returned id (.registry .healthyNodes) nodes) :
    Lists redis entries j id nodes := by
  obtain ⟨made, hreturns, hmade⟩ := registry_at hr.toRedisRun he hlabel
  obtain ⟨reply, reads, hrange, hids, rfl, hreads⟩ := healthyNodes_returns hreturns
  obtain ⟨k, b, env, hkj, hk, hb⟩ := hmade _ hrange
  have hnodup := range_nodup hr.toRedisRun hk hb
  refine ⟨k, b, env, reply, hkj, hk, hb, hnodup, hids ▸ listed_sublist reads, fun nodeId hmem => ?_⟩
  rw [← hids] at hmem hnodup
  obtain ⟨⟨_, reply'⟩, hread, rfl⟩ := List.mem_map.mp hmem
  have hget := hreads _ hread
  rw [String.ofList_toList] at hget
  obtain ⟨k', b', env', hkj', hk', hb'⟩ := hmade _ hget
  refine ⟨k', b', env', reply', hkj', hk', hb', fun node hid => ?_⟩
  rw [mem_listed hnodup hread (congrArg String.toList hid), listedNode_at hr hk' hb' hid]

/-- **A node is dropped** by a call that found it gone, or that got no reply about it. -/
theorem drops_at (hr : FreshRun redis l s entries t) (he : entries[j]? = some e)
    (h : DropsNode nodeId e.label) : Drops redis nodeId entries j := by
  obtain ⟨id, env, ans, hlabel, hexecuted⟩ := h
  obtain ⟨calls, made, more, hexpands, hmade⟩ := made_at hr.toRedisRun he hlabel
  obtain ⟨reply, hgone, hget⟩ := expands_guarded hexpands made ans more nodeId.toList rfl
  rw [String.ofList_toList] at hget
  obtain ⟨c, b, env', hcj, hc, hb⟩ := hmade _ hget
  refine ⟨e, id, c, b, env', reply, he, ⟨id, env, ans, hlabel, hexecuted⟩, hcj, hc, hb, ?_⟩
  rcases hgone with rfl | rfl
  · have hanswered := answered_of_reply hr.toRedisRun hc hb (by simp [RedisOp.fails])
      (by simp [RedisOp.fails])
    refine Or.inr ⟨hanswered, ?_⟩
    rintro node hid ⟨i, expires, hstands, hlasts⟩
    rw [hid] at hstands
    have hfound := (seen_at hr (nodeKey_string nodeId) hc).mpr ⟨i, expires, hstands, hlasts⟩
    rw [(reply_of_get hr.toRedisRun (nodeKey_string nodeId) hc hb hanswered).2.mp rfl] at hfound
    exact absurd hfound (by simp)
  · exact Or.inl rfl

/-- What holds of the lists of healthy nodes of a run. -/
structure HealthyNodes (redis : RedisService S) (entries : RedisTrace S) : Prop where
  listed : ∀ (j : Nat) e id nodes, entries[j]? = some e →
    e.label = .returned id (.registry .healthyNodes) nodes → Lists redis entries j id nodes
  /-- What a heartbeat has indexed is in the index, unless it was dropped since. -/
  dropped : ∀ (i k : Nat) e e' id env nodeId nodeIds, entries[i]? = some e →
    IndexesNode nodeId e.label → i < k → entries[k]? = some e' →
      e'.label = .made id env (.redis .range) (some nodeIds) →
        nodeId.toList ∈ nodeIds ∨ ∃ r, i < r ∧ r < k ∧ Drops redis nodeId entries r

/-- What a heartbeat has indexed is still there, or was dropped. -/
theorem dropped_at {i : Nat} {e' : Step (RedisThreads S) RedisEvent} {nodeIds : List Text}
    (hr : FreshRun redis l s entries t) (he : entries[i]? = some e)
    (hindexes : IndexesNode nodeId e.label) (hik : i < k) (he' : entries[k]? = some e')
    (hlabel : e'.label = .made id env (.redis .range) (some nodeIds)) :
    nodeId.toList ∈ nodeIds ∨ ∃ r, i < r ∧ r < k ∧ Drops redis nodeId entries r := by
  have hsince := (run_keyed (hr.run.entry_at he').1).since
    (P := fun t => nodeId.toList ∈ redis.load t.shared) (B := fun e => DropsNode nodeId e.label)
    (fun a event b hs hmem => load_step hr.documented hs.1 hs.2 hmem)
    (by rw [List.getElem?_take_of_lt hik, he]) (indexed_at hr.toRedisRun he hindexes)
  rcases hsince with hmem | ⟨r, b, hir, hr', hdrops⟩
  · exact Or.inl (((range_at hr.toRedisRun he' hlabel).2 _).mpr hmem)
  · have hrk : r < k := Nat.lt_of_lt_of_le (List.getElem?_eq_some_iff.mp hr').1
      (by rw [List.length_take]; exact Nat.min_le_left _ _)
    rw [List.getElem?_take_of_lt hrk] at hr'
    exact Or.inr ⟨r, hir, hrk, drops_at hr hr' hdrops⟩

/-- **Healthy nodes are listed** as their last heartbeats have them, whatever replies are lost. -/
theorem healthy_nodes_are_listed (hredis : redis.Documented) (hfresh : redis.Fresh s)
    (hrun : Run (CallStep redis l) { shared := s } entries t) : HealthyNodes redis entries :=
  have hr : FreshRun redis l s entries t := ⟨⟨hredis, hrun⟩, hfresh⟩
  { listed := fun _ _ _ _ he hlabel => lists_at hr he hlabel
    dropped := fun _ _ _ _ _ _ _ _ he hindexes hik he' hlabel =>
      dropped_at hr he hindexes hik he' hlabel }

/-- The event returns a list of so many nodes. -/
def listsNodes (count : Nat) : RedisEvent → Bool
  | .returned _ (.registry .healthyNodes) nodes => decide (nodes.length = count)
  | _ => false

/-- Two nodes are listed, and one when the other's heartbeat has expired. The node comes back
between `GET` and `ZREM`, and is not listed. -/
theorem healthy_nodes_are_listed_returning : ∃ entries t,
    Run (CallStep RedisServer.service ⟨fun token => token, 60, 10⟩) { shared := { clock := 0 } }
      entries t ∧
      entries.countP (fun e => listsNodes 2 e.label) = 1 ∧
      entries.countP (fun e => listsNodes 1 e.label) = 2 ∧
          HealthyNodes RedisServer.service entries := by
  have hcheck : (replay (Threads.play (program ⟨fun token => token, 60, 10⟩)
    RedisServer.service.exec)
      { shared := { clock := 0 } }
      [.begin (.registry (.heartbeat ⟨"a", "h:1", 0, 0⟩ 5)), .advance 0 { now := 1000 },
        .advance 0 { now := 1000 }, .advance 0 {},
        .begin (.registry (.heartbeat ⟨"b", "h:2", 1, 0⟩ 60)), .advance 0 { now := 1000 },
        .advance 0 { now := 1000 }, .advance 0 {}, .begin (.registry .healthyNodes),
        .advance 0 { now := 2000 }, .advance 0 { now := 2000 },
        .advance 0 { now := 2000 }, .advance 0 {}, .begin (.registry .healthyNodes),
        .advance 0 { now := 7000 }, .advance 0 { now := 7000 },
        .begin (.registry (.heartbeat ⟨"a", "h:1", 0, 0⟩ 5)), .advance 1 { now := 7000 },
        .advance 1 { now := 7000 }, .advance 1 {}, .advance 0 { now := 7000 },
        .advance 0 { now := 7000 }, .advance 0 {}, .begin (.registry .healthyNodes),
        .advance 0 { now := 8000 }, .advance 0 { now := 8000 },
        .advance 0 {}]).any (fun run : RedisTrace RedisServer × RedisThreads RedisServer =>
      decide (run.1.countP (fun e => listsNodes 2 e.label) = 1 ∧
        run.1.countP (fun e => listsNodes 1 e.label) = 2)) = true := by
    decide +kernel
  obtain ⟨⟨entries, t⟩, hrun, hfacts⟩ := (Option.any_eq_true _ _).mp hcheck
  obtain ⟨hboth, hone⟩ := of_decide_eq_true hfacts
  have hr := replay_run Threads.play_step hrun
  exact ⟨entries, t, hr, hboth, hone,
    healthy_nodes_are_listed RedisServer.documented (RedisServer.fresh 0) hr⟩

end RedisRegistry

end PokerServer
