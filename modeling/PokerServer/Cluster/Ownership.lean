import PokerServer.Cluster.LobbyRouter

/-!
# A table has one owner

The registry and the router under any number of threads, with a clock that does not go back. What
a run has promised is read off its trace: until when a node's last heartbeat lasts (`beats`), and
until when a room was last assigned to a node (`assigns`).

`table_has_one_owner` puts together what holds of the owner of a room and of the routes to a table.
-/

namespace PokerServer

abbrev LobbyThreads := Threads Lobby LobbyOp LobbyOp.Ans LobbyCall LobbyCall.Res
abbrev LobbyEvent := ThreadsEvent LobbyEnv LobbyOp LobbyOp.Ans LobbyCall LobbyCall.Res
abbrev LobbyTrace := ThreadsTrace Lobby LobbyEnv LobbyOp LobbyOp.Ans LobbyCall LobbyCall.Res

/-- One step of the lobby. -/
abbrev LobbyRouter.LobbyStep (l : LobbyRouter) : LobbyThreads → LobbyEvent → LobbyThreads → Prop :=
  ThreadsStep l.program Lobby.exec

namespace Lobby

/-- When the node expires, if the event is a heartbeat of it that was accepted. -/
def beats (nodeId : String) : LobbyEvent → Option Int
  | .made _ env (.registry op) ans => op.beats nodeId env.now ans
  | _ => none

/-- When the room expires, if the event assigned it to the node. -/
def assigns (tableId : Nat) (nodeId : String) : LobbyEvent → Option Int
  | .made _ env (.registry op) ans => op.assigns tableId nodeId env.now ans
  | _ => none

/-- What the last event of a trace said that says something. -/
def latest (f : LobbyEvent → Option Int) (trace : LobbyTrace) : Option Int :=
  (trace.filterMap fun e => f e.label).getLast?

/-- What was promised last has not expired. -/
def Lasts (expires : Option Int) (now : Int) : Prop := ∃ e, expires = some e ∧ now < e

/-- At each call on the registry in `since`, neither the node's heartbeat nor the room's assignment
to it has expired. -/
def Holds (tableId : Nat) (nodeId : String) (past since : LobbyTrace) : Prop :=
  ∀ early e late, since = early ++ e :: late → ∀ id env op ans,
    e.label = .made id env (.registry op) ans →
      Lasts (latest (beats nodeId) (past ++ early)) env.now ∧
      Lasts (latest (assigns tableId nodeId) (past ++ early)) env.now

variable {l : LobbyRouter} {s : Lobby} {t : LobbyThreads} {trace : LobbyTrace}
  {f : LobbyEvent → Option Int} {tableId : Nat} {nodeId : String}

theorem latest_snoc (trace : LobbyTrace) (e : Step LobbyThreads LobbyEvent) :
    latest f (trace ++ [e]) = (f e.label).or (latest f trace) := by
  unfold latest
  rw [List.filterMap_append, List.getLast?_append]
  cases h : f e.label with
  | none => simp [h]
  | some x => simp [h]

/-! ## Nodes -/

/-- **A node is kept until its last heartbeat expires.** -/
theorem node_run {clock : Int}
    (hr : Run l.LobbyStep { shared := { registry := {}, clock } } trace t) :
    ∀ nodeId expires, latest (beats nodeId) trace = some expires → t.shared.clock < expires →
      ∃ info, t.shared.registry.nodes.lookup nodeId = some ⟨info, expires⟩ := by
  induction hr with
  | nil => exact fun nodeId expires h => absurd h (by simp [latest])
  | @snoc trace t u event hr hs ih =>
    intro nodeId expires hlatest hclock
    rw [latest_snoc] at hlatest
    rcases Threads.shared_step hs with ⟨hsame, hquiet⟩ | ⟨id, env, op, ans, rfl, hexec⟩
    · have hnone : beats nodeId event = none := by
        cases event with
        | made id env op ans => exact absurd rfl (hquiet id env op ans)
        | _ => rfl
      rw [hnone, Option.none_or] at hlatest
      rw [hsame] at hclock ⊢
      exact ih nodeId expires hlatest hclock
    cases op with
    | generateSessionToken =>
      obtain ⟨-, hsame⟩ := Prod.mk.inj (Option.some.inj hexec)
      rw [← hsame] at hclock ⊢
      exact ih nodeId expires hlatest hclock
    | registry op =>
      obtain ⟨hnow, rfl, hshared⟩ := exec_registry hexec
      rw [hshared] at hclock ⊢
      rcases Option.or_eq_some_iff.mp hlatest with hbeat | ⟨hbeat, hlatest⟩
      · exact InMemoryNodeRegistry.node_of_beats hbeat
      · obtain ⟨info, hnode⟩ := ih nodeId expires hlatest (lt_of_le_of_lt hnow hclock)
        exact InMemoryNodeRegistry.node_kept hnode hclock hbeat

theorem healthy_run {clock : Int}
    (hr : Run l.LobbyStep { shared := { registry := {}, clock } } trace t) {now : Int}
    (hnow : t.shared.clock ≤ now) (hlasts : Lasts (latest (beats nodeId) trace) now) :
    t.shared.registry.nodeIsHealthy now nodeId = true := by
  obtain ⟨expires, hlatest, hexpires⟩ := hlasts
  obtain ⟨info, hnode⟩ := node_run hr nodeId expires hlatest (lt_of_le_of_lt hnow hexpires)
  exact InMemoryNodeRegistry.nodeIsHealthy_iff.mpr ⟨_, hnode, hexpires⟩

/-! ## Rooms -/

/-- **A room stays with its owner** until its assignment or the owner's heartbeat expires. -/
theorem room_run {clock : Int} {past since : LobbyTrace}
    {granted : Step LobbyThreads LobbyEvent} {first : Int}
    (hr : Run l.LobbyStep { shared := { registry := {}, clock } } (past ++ granted :: since) t)
    (hgranted : assigns tableId nodeId granted.label = some first)
    (hholds : Holds tableId nodeId (past ++ [granted]) since) :
    ∃ expires, latest (assigns tableId nodeId) (past ++ granted :: since) = some expires ∧
      t.shared.registry.rooms.lookup tableId = some ⟨nodeId, expires⟩ := by
  induction since using List.reverseRecOn generalizing t with
  | nil =>
    obtain ⟨hpast, hs, hafter⟩ := hr.split
    obtain rfl := hafter.eq_of_nil
    refine ⟨first, by rw [latest_snoc, hgranted, Option.some_or], ?_⟩
    rcases Threads.shared_step hs with ⟨-, hquiet⟩ | ⟨id, env, op, ans, hlabel, hexec⟩
    · cases hlabel : granted.label with
      | made id env op ans => exact absurd hlabel (hquiet id env op ans)
      | _ => rw [hlabel] at hgranted; exact absurd hgranted (by simp [assigns])
    rw [hlabel] at hgranted
    cases op with
    | generateSessionToken => exact absurd hgranted (by simp [assigns])
    | registry op =>
      obtain ⟨-, rfl, hshared⟩ := exec_registry hexec
      rw [hshared]
      exact InMemoryNodeRegistry.room_of_assigns hgranted
  | append_singleton since e ih =>
    have hsplit : past ++ granted :: (since ++ [e]) = (past ++ granted :: since) ++ [e] := by simp
    rw [hsplit] at hr ⊢
    obtain ⟨hbefore, hs, hafter⟩ := hr.split
    obtain rfl := hafter.eq_of_nil
    obtain ⟨expires, hlatest, hroom⟩ := ih hbefore fun early e' late hsince id env op ans hlabel =>
      hholds early e' (late ++ [e]) (by rw [hsince]; simp) id env op ans hlabel
    rw [latest_snoc]
    rcases Threads.shared_step hs with ⟨hsame, hquiet⟩ | ⟨id, env, op, ans, hlabel, hexec⟩
    · have hnone : assigns tableId nodeId e.label = none := by
        cases hlabel : e.label with
        | made id env op ans => exact absurd hlabel (hquiet id env op ans)
        | _ => rfl
      rw [hnone, Option.none_or, hsame]
      exact ⟨expires, hlatest, hroom⟩
    rw [hlabel]
    cases op with
    | generateSessionToken =>
      obtain ⟨-, hsame⟩ := Prod.mk.inj (Option.some.inj hexec)
      rw [← hsame]
      exact ⟨expires, hlatest, hroom⟩
    | registry op =>
      obtain ⟨hnow, rfl, hshared⟩ := exec_registry hexec
      obtain ⟨hbeat, hassign⟩ := hholds since e [] rfl id env op _ hlabel
      rw [List.append_assoc, List.singleton_append] at hbeat hassign
      have halive := healthy_run hbefore hnow hbeat
      obtain ⟨expires', hlatest', hexpires⟩ := hassign
      obtain rfl := Option.some.inj (hlatest.symm.trans hlatest')
      rw [hshared]
      cases hnew : assigns tableId nodeId
          (.made id env (.registry op) (e.before.shared.registry.perform env.now op).1) with
      | none =>
        rw [Option.none_or]
        exact ⟨expires, hlatest, InMemoryNodeRegistry.room_kept hroom hexpires halive hnew⟩
      | some expires' =>
        rw [Option.some_or]
        exact ⟨expires', rfl, InMemoryNodeRegistry.room_of_assigns hnew⟩

/-- What the registry answers about an owned room. -/
theorem owner_run {clock : Int} {past since after : LobbyTrace}
    {granted call : Step LobbyThreads LobbyEvent} {first : Int}
    (hr : Run l.LobbyStep { shared := { registry := {}, clock } }
      (past ++ granted :: (since ++ call :: after)) t)
    (hgranted : assigns tableId nodeId granted.label = some first)
    (hholds : Holds tableId nodeId (past ++ [granted]) (since ++ [call])) {id : Nat}
    {env : LobbyEnv} :
    (∀ other ttlSeconds ok, other ≠ nodeId →
      call.label = .made id env (.registry (.assignRoom tableId other ttlSeconds)) ok →
        ok = false) ∧
    ∀ owner, call.label = .made id env (.registry (.roomOwner tableId)) owner →
      owner = some nodeId := by
  have hsplit : past ++ granted :: (since ++ call :: after) =
      (past ++ granted :: since) ++ call :: after := by simp
  rw [hsplit] at hr
  obtain ⟨hbefore, hs, -⟩ := hr.split
  obtain ⟨expires, hlatest, hroom⟩ := room_run hbefore hgranted
    fun early e late hsince id env op ans hlabel =>
      hholds early e (late ++ [call]) (by rw [hsince]; simp) id env op ans hlabel
  have hstate : ∀ op ans, call.label = .made id env (.registry op) ans →
      ans = (call.before.shared.registry.perform env.now op).1 ∧ env.now < expires ∧
        call.before.shared.registry.nodeIsHealthy env.now nodeId = true := by
    intro op ans hlabel
    obtain ⟨hbeat, expires', hlatest', hexpires⟩ := hholds since call [] rfl id env op ans hlabel
    rw [List.append_assoc, List.singleton_append] at hbeat hlatest'
    obtain rfl := Option.some.inj (hlatest.symm.trans hlatest')
    rw [hlabel] at hs
    obtain ⟨hnow, hans, -⟩ := exec_registry (Threads.exec_step hs)
    exact ⟨hans, hexpires, healthy_run hbefore hnow hbeat⟩
  refine ⟨fun other ttlSeconds ok hother hlabel => ?_, fun owner hlabel => ?_⟩
  · obtain ⟨rfl, hexpires, -⟩ := hstate _ _ hlabel
    exact InMemoryNodeRegistry.assignRoom_refused hroom hexpires hother ttlSeconds
  · obtain ⟨rfl, hexpires, halive⟩ := hstate _ _ hlabel
    exact InMemoryNodeRegistry.roomOwner_owned hroom hexpires halive

/-! ## Routes -/

/-- The call assigns the table for the first time. -/
def assignsNew (tableId : Nat) : LobbyCall → Bool
  | .assignNewTable table _ => decide (table = tableId)
  | _ => false

/-- The event returns a route to the table. -/
def Routed (tableId : Nat) (event : LobbyEvent) (id : Nat) (route : RouteAssignment) : Prop :=
  (∃ userId, event = .returned id (.assignNewTable tableId userId) (some route)) ∨
    ∃ userId expected,
      event = .returned id (.routeExistingTable tableId userId expected) (some route)

/-- The node that `assignNewTable` returned for the table. -/
def assignedNode (tableId : Nat) : LobbyEvent → Option String
  | .returned _ (.assignNewTable table _) (some route) =>
    if table = tableId then some route.node.nodeId else none
  | _ => none

/-- The node that a caller of `routeExistingTable` expects. -/
def expectedNode (tableId : Nat) : LobbyEvent → Option String
  | .begin _ (.routeExistingTable table _ expected) =>
    if table = tableId then some expected else none
  | _ => none

/-- The callers' discipline: a table is assigned at most once, and later routes to it expect the
node that was returned then. -/
structure Disciplined (trace : LobbyTrace) (tableId : Nat) : Prop where
  once : trace.countP (fun e => Threads.begins (assignsNew tableId) e.label) ≤ 1
  expected : ∀ before e after, trace = before ++ e :: after → ∀ nodeId,
    expectedNode tableId e.label = some nodeId →
      ∃ e' ∈ before, assignedNode tableId e'.label = some nodeId

theorem eq_of_assignedNode {event : LobbyEvent} (h : assignedNode tableId event = some nodeId) :
    ∃ id creator route, event = .returned id (.assignNewTable tableId creator) (some route) ∧
      route.node.nodeId = nodeId := by
  unfold assignedNode at h
  split at h
  · rename_i id table creator route
    obtain ⟨rfl, hid⟩ := Option.ite_none_right_eq_some.mp h
    exact ⟨id, creator, route, rfl, Option.some.inj hid⟩
  · exact absurd h (by simp)

/-- Every node of a healthy list has an id. -/
theorem named_run {clock : Int}
    (hr : Run l.LobbyStep { shared := { registry := {}, clock } } trace t) :
    InMemoryNodeRegistry.Named t.shared.registry.nodes := by
  refine Threads.invariant_run (I := fun s => InMemoryNodeRegistry.Named s.registry.nodes) hr
    (fun key node h => absurd h (by simp)) fun env a op ans b ha hexec => ?_
  cases op with
  | generateSessionToken =>
    obtain ⟨-, rfl⟩ := Prod.mk.inj (Option.some.inj hexec)
    exact ha
  | registry op =>
    obtain ⟨-, -, rfl⟩ := exec_registry hexec
    exact ha.perform env.now op

theorem named_of_healthy {clock : Int}
    (hr : Run l.LobbyStep { shared := { registry := {}, clock } } trace t)
    {e : Step LobbyThreads LobbyEvent} (he : e ∈ trace) {id : Nat} {env : LobbyEnv}
    {nodes : List NodeInfo} (hlabel : e.label = .made id env (.registry .healthyNodes) nodes)
    {node : NodeInfo} (hnode : node ∈ nodes) : node.nodeId ≠ "" := by
  obtain ⟨⟨trace', hbefore⟩, hs⟩ := hr.entry he
  rw [hlabel] at hs
  obtain ⟨-, rfl, -⟩ := exec_registry (Threads.exec_step hs)
  obtain ⟨key, expires, hlookup, -⟩ := InMemoryNodeRegistry.mem_healthyNodes.mp hnode
  obtain ⟨hid, hkey⟩ := named_run hbefore key _ hlookup
  exact fun hempty => hkey (hid.symm.trans hempty)

/-- The healthy list that call `id` read names the node. -/
def ReadHealthy (trace : LobbyTrace) (id : Nat) (node : NodeInfo) : Prop :=
  ∃ e ∈ trace, ∃ env, ∃ nodes : List NodeInfo,
    e.label = .made id env (.registry .healthyNodes) nodes ∧ node ∈ nodes

theorem readHealthy_of_listed {id : Nat} {made : List ((op : LobbyOp) × op.Ans)} {node : NodeInfo}
    (hshows : Threads.Shows trace id made) (h : LobbyRouter.Listed made node) :
    ReadHealthy trace id node := by
  obtain ⟨nodes, hmem, hnode⟩ := h
  obtain ⟨e, he, env, hlabel⟩ := hshows _ hmem
  exact ⟨e, he, env, nodes, hlabel, hnode⟩

theorem id_of_readHealthy {clock : Int}
    (hr : Run l.LobbyStep { shared := { registry := {}, clock } } trace t) {id : Nat}
    {node : NodeInfo} (h : ReadHealthy trace id node) : node.nodeId ≠ "" := by
  obtain ⟨e, he, env, nodes, hlabel, hnode⟩ := h
  exact named_of_healthy hr he hlabel hnode

/-- A route was in the healthy list that its call read, and names the node that the caller expects,
if it expects one. -/
theorem routed_run {clock : Int} {before after : LobbyTrace} {e : Step LobbyThreads LobbyEvent}
    (hr : Run l.LobbyStep { shared := { registry := {}, clock } } (before ++ e :: after) t)
    {id : Nat} {route : RouteAssignment} (h : Routed tableId e.label id route) :
    ReadHealthy before id route.node ∧ ∀ userId expected, e.label =
      .returned id (.routeExistingTable tableId userId expected) (some route) → expected ≠ "" →
        route.node.nodeId = expected := by
  rcases h with ⟨userId, hlabel⟩ | ⟨userId, expected, hlabel⟩
  · obtain ⟨-, made, hshows, hreturns⟩ := Threads.returned_run hr hlabel
    refine ⟨readHealthy_of_listed hshows (LobbyRouter.assignNewTable_returns hreturns), ?_⟩
    intro userId' expected hlabel'
    exact absurd (hlabel.symm.trans hlabel') (by simp)
  · obtain ⟨-, made, hshows, hreturns⟩ := Threads.returned_run hr hlabel
    obtain ⟨hlisted, hid⟩ := LobbyRouter.routeExistingTable_returns hreturns
    refine ⟨readHealthy_of_listed hshows hlisted, fun userId' expected' hlabel' => ?_⟩
    cases hlabel.symm.trans hlabel'
    exact hid

/-- A route names the node that `assignNewTable` returned for the table. -/
theorem assigned_run {clock : Int}
    (hr : Run l.LobbyStep { shared := { registry := {}, clock } } trace t)
    (hdisciplined : Disciplined trace tableId) {before after : LobbyTrace}
    {e : Step LobbyThreads LobbyEvent} (hsplit : trace = before ++ e :: after) {id : Nat}
    {route : RouteAssignment} (h : Routed tableId e.label id route) :
    ∃ e' ∈ trace, ∃ id' creator first,
      e'.label = .returned id' (.assignNewTable tableId creator) (some first) ∧
        route.node.nodeId = first.node.nodeId := by
  subst hsplit
  rcases h with ⟨userId, hlabel⟩ | ⟨userId, expected, hlabel⟩
  · exact ⟨e, by simp, id, userId, route, hlabel, rfl⟩
  obtain ⟨⟨b, hb, hbegin⟩, -⟩ := Threads.returned_run hr hlabel
  obtain ⟨early, late, rfl⟩ := List.append_of_mem hb
  obtain ⟨e', he', hassigned⟩ := hdisciplined.expected early b (late ++ e :: after) (by simp)
    expected (by rw [hbegin]; exact if_pos rfl)
  obtain ⟨id', creator, first, hfirst, hexpected⟩ := eq_of_assignedNode hassigned
  have hmem : e' ∈ (early ++ b :: late) ++ e :: after := by simp [he']
  obtain ⟨pre, post, hpre⟩ := List.append_of_mem hmem
  refine ⟨e', hmem, id', creator, first, hfirst, ?_⟩
  have hread := (routed_run (hpre ▸ hr) (Or.inl ⟨creator, hfirst⟩)).1
  have hne : first.node.nodeId ≠ "" := id_of_readHealthy (hpre ▸ hr).split.1 hread
  rw [hexpected] at hne ⊢
  exact (routed_run hr (Or.inr ⟨userId, expected, hlabel⟩)).2 userId expected hlabel hne

/-- `assignNewTable` returns at most once for a table. -/
theorem first_unique {clock : Int}
    (hr : Run l.LobbyStep { shared := { registry := {}, clock } } trace t)
    (hdisciplined : Disciplined trace tableId) {e e' : Step LobbyThreads LobbyEvent}
    (he : e ∈ trace) (he' : e' ∈ trace) {id id' : Nat} {creator creator' : UserId}
    {route route' : RouteAssignment}
    (hlabel : e.label = .returned id (.assignNewTable tableId creator) (some route))
    (hlabel' : e'.label = .returned id' (.assignNewTable tableId creator') (some route')) :
    route = route' := by
  have hsame := Threads.eq_of_returned (assignsNew tableId) hr hdisciplined.once he he'
    (by rw [hlabel]; exact decide_eq_true rfl) (by rw [hlabel']; exact decide_eq_true rfl)
  rw [hsame, hlabel'] at hlabel
  cases hlabel
  rfl

/-- **A table has one owner.** -/
theorem table_has_one_owner {clock : Int}
    (hr : Run l.LobbyStep { shared := { registry := {}, clock } } trace t) :
    (∀ tableId nodeId past granted since call after,
      trace = past ++ granted :: (since ++ call :: after) →
      (∃ id env ttlSeconds,
        granted.label = .made id env (.registry (.assignRoom tableId nodeId ttlSeconds)) true) →
      Holds tableId nodeId (past ++ [granted]) (since ++ [call]) → ∀ id env,
        (∀ other ttlSeconds ok, other ≠ nodeId →
          call.label = .made id env (.registry (.assignRoom tableId other ttlSeconds)) ok →
            ok = false) ∧
        ∀ owner, call.label = .made id env (.registry (.roomOwner tableId)) owner →
          owner = some nodeId) ∧
    ∀ tableId, Disciplined trace tableId → ∃ nodeId, ∀ before e after,
      trace = before ++ e :: after → ∀ id route, Routed tableId e.label id route →
        route.node.nodeId = nodeId ∧ ReadHealthy before id route.node := by
  constructor
  · rintro tableId nodeId past granted since call after rfl ⟨id, env, ttlSeconds, hgranted⟩ hholds
      id' env'
    have hassigns : assigns tableId nodeId granted.label =
        some (InMemoryNodeRegistry.expiry env.now ttlSeconds) := by
      rw [hgranted]
      exact if_pos ⟨rfl, rfl⟩
    exact owner_run hr hassigns hholds
  · intro tableId hdisciplined
    by_cases hfirst : ∃ e ∈ trace, ∃ id creator route,
        e.label = .returned id (.assignNewTable tableId creator) (some route)
    · obtain ⟨e₀, he₀, id₀, creator₀, first, hlabel₀⟩ := hfirst
      refine ⟨first.node.nodeId, fun before e after hsplit id route hrouted => ?_⟩
      obtain ⟨e', he', id', creator, first', hlabel', hid⟩ :=
        assigned_run hr hdisciplined hsplit hrouted
      obtain rfl := first_unique hr hdisciplined he' he₀ hlabel' hlabel₀
      exact ⟨hid, (routed_run (hsplit ▸ hr) hrouted).1⟩
    · refine ⟨"", fun before e after hsplit id route hrouted => ?_⟩
      obtain ⟨e', he', id', creator, first', hlabel', -⟩ :=
        assigned_run hr hdisciplined hsplit hrouted
      exact absurd ⟨e', he', id', creator, first', hlabel'⟩ hfirst

/-- The event answers that the registry assigned the table to the node. -/
def grants (tableId : Nat) (nodeId : String) : LobbyEvent → Bool
  | .made _ _ (.registry (.assignRoom table node _)) ok =>
    ok && decide (table = tableId ∧ node = nodeId)
  | _ => false

theorem eq_of_grants {event : LobbyEvent} (h : grants tableId nodeId event = true) :
    ∃ id env ttlSeconds,
      event = .made id env (.registry (.assignRoom tableId nodeId ttlSeconds)) true := by
  unfold grants at h
  split at h
  · rename_i id env table node ttlSeconds ok
    obtain ⟨rfl, rfl, rfl⟩ : ok = true ∧ table = tableId ∧ node = nodeId := by simpa using h
    exact ⟨id, env, ttlSeconds, rfl⟩
  · exact absurd h (by simp)

/-- When somebody asks who owns the table. -/
def asksOwner (tableId : Nat) : LobbyEvent → Option Int
  | .made _ env (.registry (.roomOwner table)) _ => if table = tableId then some env.now else none
  | _ => none

theorem eq_of_asksOwner {event : LobbyEvent} {now : Int}
    (h : asksOwner tableId event = some now) :
    ∃ id env owner, event = .made id env (.registry (.roomOwner tableId)) owner ∧
        env.now = now := by
  unfold asksOwner at h
  split at h
  · rename_i id env table owner
    obtain ⟨rfl, hnow⟩ := Option.ite_none_right_eq_some.mp h
    exact ⟨id, env, owner, rfl, Option.some.inj hnow⟩
  · exact absurd h (by simp)

/-- Whoever expects a node at entry `k` expects the one that was assigned before. -/
def expectsAt (tableId : Nat) (trace : LobbyTrace) (k : Nat) : Bool :=
  ((trace.drop k).head?.bind fun e => expectedNode tableId e.label).all fun nodeId =>
    (trace.take k).any fun e => assignedNode tableId e.label = some nodeId

/-- Table 99 is assigned to a node, and then its owner is asked for; table 100 is assigned by the
router and a player is routed to it. -/
theorem table_has_one_owner_routed : ∃ (trace : LobbyTrace) (t : LobbyThreads),
    Run (LobbyRouter.LobbyStep ⟨id, 60, 10⟩) { shared := { clock := 0 } } trace t ∧
      (∃ e ∈ trace, ∃ id env,
        e.label = .made id env (.registry (.roomOwner 99)) (some "node-b") ∧ env.now = 2000) ∧
      Disciplined trace 100 ∧ ∃ nodeId, ∀ before e after, trace = before ++ e :: after →
        ∀ id route, Routed 100 e.label id route →
          route.node.nodeId = nodeId ∧ ReadHealthy before id route.node := by
  have hcheck : (replay (Threads.play (LobbyRouter.program ⟨id, 60, 10⟩) exec)
      { shared := { clock := 0 } }
      [.begin (.registry (.heartbeat { nodeId := "node-b", endpoint := "10.0.0.2:7000" } 5)),
        .advance 0 { now := 1000 }, .advance 0 {}, .begin (.registry (.assignRoom 99 "node-b" 60)),
        .begin (.registry (.roomOwner 99)), .advance 0 { now := 1000 }, .advance 1 { now := 2000 },
        .begin (.assignNewTable 100 7), .advance 2 { now := 3000 }, .advance 2 { now := 3000 },
        .advance 2 { token := "t1" }, .advance 2 { now := 3000 }, .advance 2 {},
        .begin (.routeExistingTable 100 8 "node-b"), .advance 2 { now := 4000 },
        .advance 2 { now := 4000 }, .advance 2 { token := "t2" }, .advance 2 { now := 4000 },
        .advance 2 {}]).any (fun run : LobbyTrace × LobbyThreads =>
      decide (run.1.length = 19) &&
      (run.1.map fun e => grants 99 "node-b" e.label)[5]? == some true &&
      (run.1.map fun e => asksOwner 99 e.label)[6]? == some (some 2000) &&
      latest (beats "node-b") (run.1.take 6) == some 6000 &&
      latest (assigns 99 "node-b") (run.1.take 6) == some 61000 &&
      decide (run.1.countP (fun e => Threads.begins (assignsNew 100) e.label) ≤ 1) &&
      (List.range 19).all (expectsAt 100 run.1)) = true := by
    decide +kernel
  obtain ⟨⟨run, t⟩, hrun, hfacts⟩ := (Option.any_eq_true _ _).mp hcheck
  simp only [Bool.and_eq_true, decide_eq_true_eq, beq_iff_eq, List.all_eq_true, List.mem_range]
    at hfacts
  obtain ⟨⟨⟨⟨⟨⟨hlength, hgrants⟩, howner⟩, hbeats⟩, hassigns⟩, honce⟩, hexpected⟩ := hfacts
  have hr := replay_run Threads.play_step hrun
  have hdisciplined : Disciplined run 100 := by
    refine ⟨honce, ?_⟩
    rintro before e after rfl nodeId hnode
    rw [List.length_append, List.length_cons] at hlength
    have hassigned := hexpected before.length (by omega)
    rw [expectsAt, List.drop_left, List.take_left, List.head?_cons, Option.bind_some, hnode,
      Option.all_some] at hassigned
    obtain ⟨e', he', heq⟩ := List.any_eq_true.mp hassigned
    exact ⟨e', he', of_decide_eq_true heq⟩
  obtain ⟨howned, hroutes⟩ := table_has_one_owner hr
  refine ⟨run, t, hr, ?_, hdisciplined, hroutes 100 hdisciplined⟩
  have h5 : 5 < run.length := by omega
  have h6 : 6 < run.length := by omega
  rw [List.getElem?_map, List.getElem?_eq_getElem h5, Option.map_some, Option.some.injEq] at hgrants
  rw [List.getElem?_map, List.getElem?_eq_getElem h6, Option.map_some, Option.some.injEq] at howner
  obtain ⟨id, env, owner, hlabel, hnow⟩ := eq_of_asksOwner howner
  have hpast : run.take 6 = run.take 5 ++ [run[5]] := List.take_succ_eq_append_getElem h5
  have hsplit : run = run.take 5 ++ run[5] :: ([] ++ run[6] :: run.drop 7) := by
    rw [List.nil_append, ← List.drop_eq_getElem_cons h6, ← List.drop_eq_getElem_cons h5,
      List.take_append_drop]
  have hholds : Holds 99 "node-b" (run.take 5 ++ [run[5]]) ([] ++ [run[6]]) := by
    intro early e late hsince id' env' op ans hlabel'
    obtain ⟨rfl, he⟩ : early = [] ∧ e = run[6] := by
      cases early with
      | nil => exact ⟨rfl, (List.cons.inj hsince).1.symm⟩
      | cons e' early => exact absurd (congrArg List.length hsince) (by simp)
    rw [he, hlabel] at hlabel'
    cases hlabel'
    rw [List.append_nil, ← hpast, hnow]
    exact ⟨⟨6000, hbeats, by decide⟩, ⟨61000, hassigns, by decide⟩⟩
  have hanswer := (howned 99 "node-b" _ _ [] _ _ hsplit (eq_of_grants hgrants) hholds id env).2
    owner hlabel
  exact ⟨_, List.getElem_mem h6, id, env, hanswer ▸ hlabel, hnow⟩

end Lobby

end PokerServer
