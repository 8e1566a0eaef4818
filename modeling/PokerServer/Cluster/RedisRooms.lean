import PokerServer.Cluster.RedisServer
import PokerServer.Cluster.JoinTickets
import PokerServer.Server.ActionLog

/-!
# Rooms and table ids over Redis

`assignRoom` and `roomOwner` over Redis, in any run of the processes and whatever replies are lost.
Redis is any server that does what is documented of it.

The owner of a room is written under its key by the script of `assignRoom` alone, which renews or
writes it where nobody stands. So the key is a lease: `Grants` says when it was given and
until when.

* `RoomLeases.handover`: a room passes to another node after a lease of the last owner has run out.
* `RoomLeases.owned`: the owner that is read is the one of the last grant, and the grant lasts.
* `RoomLeases.routed`: a route leads to a node that the room was granted to.

`UniqueIds` is about the ids of tables, which are counted by `INCR`, and of their hands.
-/

namespace PokerServer

open HiredisNodeRegistry

/-! ## What the calls return -/

namespace RedisRegistry

open Script

variable {made : List ((call : RedisCall) × call.Ans)}

theorem assignRoom_returns {tableId : Nat} {nodeId : String} {ttlSeconds : Nat}
    (h : (assignRoom tableId nodeId ttlSeconds).Returns made true) :
    ⟨.redis (.eval (roomKey tableId) nodeId.toList ttlSeconds), .integer 1⟩ ∈ made := by
  unfold assignRoom at h
  split at h
  · exact absurd h.2 (by simp)
  obtain ⟨reply, rest, rfl, -, hreply⟩ := returns_perform_bind.mp h
  obtain rfl : reply = .integer 1 := by simpa using hreply
  exact List.mem_cons_self

theorem roomOwner_returns {tableId : Nat} {nodeId : String}
    (h : (roomOwner tableId).Returns made (some nodeId)) :
    ⟨.redis (.get (roomKey tableId)), .string nodeId.toList⟩ ∈ made := by
  obtain ⟨reply, rest, rfl, hreply⟩ := returns_perform_bind.mp h
  cases reply with
  | string value =>
    rw [← Option.some.inj hreply.2, String.toList_ofList]
    exact List.mem_cons_self
  | _ => exact absurd hreply.2 (by simp)

theorem allocateTableId_returns {tableId : Nat} (h : allocateTableId.Returns made (some tableId)) :
    1 ≤ tableId ∧ tableId ≤ 2 ^ 32 - 1 ∧ ⟨.redis (.incr tableIdsKey), .integer tableId⟩ ∈ made := by
  obtain ⟨reply, rest, rfl, hreply⟩ := returns_perform_bind.mp h
  cases reply with
  | integer value =>
    obtain ⟨hrange, heq⟩ := Option.ite_none_left_eq_some.mp hreply.2
    obtain rfl := Option.some.inj heq
    rw [not_or, Int.not_le, Int.not_lt] at hrange
    have hvalue : ((value.toNat : Nat) : Int) = value := Int.toNat_of_nonneg (by omega)
    refine ⟨by omega, by omega, ?_⟩
    rw [hvalue]
    exact List.mem_cons_self
  | _ => exact absurd hreply.2 (by simp)

end RedisRegistry

namespace LobbyRouter

open Script

variable {l : LobbyRouter} {calls : List ((op : LobbyOp) × op.Ans)} {r : RouteAssignment}
  {tableId : Nat} {userId : UserId}

/-- The registry said that the node owns the room. -/
def Owned (calls : List ((op : LobbyOp) × op.Ans)) (tableId : Nat) (nodeId : String) : Prop :=
  (∃ ttlSeconds, ⟨.registry (.assignRoom tableId nodeId ttlSeconds), true⟩ ∈ calls) ∨
    ⟨.registry (.roomOwner tableId), some nodeId⟩ ∈ calls

theorem assignNewTable_owned (h : (l.assignNewTable tableId userId).Returns calls (some r)) :
    Owned calls tableId r.node.nodeId := by
  obtain ⟨nodes, rest, rfl, hrest⟩ := returns_perform_bind.mp h
  cases nodes with
  | nil => exact absurd hrest.2 (by simp)
  | cons node others =>
    simp only at hrest
    split at hrest
    · exact absurd hrest.2 (by simp)
    obtain ⟨assigned, rest', rfl, hissue⟩ := returns_perform_bind.mp hrest
    cases assigned with
    | false => exact absurd hissue.2 (by simp)
    | true =>
      rw [issue_returns hissue]
      exact Or.inl ⟨l.roomTtlSeconds, by simp⟩

/-- The route to an owner names the owner. -/
theorem routeToOwner_owner {expected : String} {nodes : List NodeInfo} {owner : String}
    (h : (l.routeToOwner tableId userId expected nodes owner).Returns calls (some r)) :
    r.node.nodeId = owner := by
  unfold routeToOwner at h
  split at h
  · exact absurd h.2 (by simp)
  split at h
  · exact absurd h.2 (by simp)
  · rename_i node hnode
    rw [issue_returns h]
    simpa using List.find?_some hnode

theorem routeExistingTable_owned {expected : String}
    (h : (l.routeExistingTable tableId userId expected).Returns calls (some r)) :
    Owned calls tableId r.node.nodeId := by
  unfold routeExistingTable at h
  split at h
  · exact absurd h.2 (by simp)
  obtain ⟨owner, rest, rfl, hnodes⟩ := returns_perform_bind.mp h
  obtain ⟨nodes, rest', rfl, hrest⟩ := returns_perform_bind.mp hnodes
  cases owner with
  | some owner =>
    rw [routeToOwner_owner hrest]
    exact Or.inr (by simp)
  | none =>
    simp only at hrest
    split at hrest
    · exact absurd hrest.2 (by simp)
    split at hrest
    · exact absurd hrest.2 (by simp)
    obtain ⟨assigned, rest'', rfl, hroute⟩ := returns_perform_bind.mp hrest
    cases assigned with
    | false => exact absurd hroute.2 (by simp)
    | true =>
      rw [routeToOwner_owner hroute]
      exact Or.inl ⟨l.roomTtlSeconds, by simp⟩

end LobbyRouter

/-! ## Runs -/

namespace RedisRegistry

open RedisService

variable {S : Type} {redis : RedisService S} {l : LobbyRouter} {s : S} {t : RedisThreads S}
  {entries : RedisTrace S} {key : Text} {i j : Nat} {e : Step (RedisThreads S) RedisEvent}
    {id : Nat}
  {env : RedisEnv} {tableId : Nat} {nodeId other : String}

/-! ## Leases -/

/-- Entry `i` grants the room to the node until a moment. -/
def Grants (redis : RedisService S) (tableId : Nat) (nodeId : String) (entries : RedisTrace S)
    (i : Nat) (expires : Int) : Prop :=
  Cell.writtenAt (history redis (roomKey tableId) entries) i = some (nodeId.toList, expires)

/-- At entry `j` the last grant is the node's, and lasts. -/
def Owner (redis : RedisService S) (tableId : Nat) (nodeId : String) (entries : RedisTrace S)
    (j : Nat) : Prop :=
  ∃ e i expires, entries[j]? = some e ∧
    Cell.Stands (history redis (roomKey tableId) entries) i j (nodeId.toList, expires) ∧
      redis.clock e.after.shared ≤ expires

/-- The owner at a command is who the command finds. -/
theorem owner_iff {op : RedisOp} {ans : op.Ans} (hr : FreshRun redis l s entries t)
    (he : entries[j]? = some e) (hlabel : e.label = .made id env (.redis op) ans) :
    Owner redis tableId nodeId entries j ↔
      (redis.string e.before.shared (roomKey tableId)).seen env.now = some nodeId.toList := by
  have hclock := clock_at hr.toRedisRun he hlabel
  rw [seen_at hr (roomKey_string tableId) he]
  constructor
  · rintro ⟨e', i, expires, he', hstands, hlasts⟩
    obtain rfl := Option.some.inj (he.symm.trans he')
    exact ⟨i, expires, hstands, hclock ▸ hlasts⟩
  · rintro ⟨i, expires, hstands, hlasts⟩
    exact ⟨e, i, expires, he, hstands, by rwa [hclock]⟩

theorem owner_unique (h : Owner redis tableId nodeId entries j)
    (h' : Owner redis tableId other entries j) : nodeId = other := by
  obtain ⟨e, i, expires, he, hstands, -⟩ := h
  obtain ⟨_, i', expires', -, hstands', -⟩ := h'
  have hlength : j ≤ (history redis (roomKey tableId) entries).length :=
    Nat.le_of_lt (List.getElem?_eq_some_iff.mp (history_at he)).1
  have hcell := Cell.cellAfter_eq_some.mpr ⟨i, (Cell.stands_take hlength).mpr hstands⟩
  have hcell' := Cell.cellAfter_eq_some.mpr ⟨i', (Cell.stands_take hlength).mpr hstands'⟩
  obtain ⟨heq, -⟩ := Prod.mk.inj (Option.some.inj (hcell.symm.trans hcell'))
  exact String.toList_inj.mp heq

/-- **The script of `assignRoom`**, when its reply arrives, grants the room iff nobody else owns
it. -/
theorem eval_at {ttlSeconds : Nat} {reply : RedisReply} (hr : FreshRun redis l s entries t)
    (he : entries[j]? = some e)
    (hlabel : e.label =
      .made id env (.redis (.eval (roomKey tableId) nodeId.toList ttlSeconds)) reply)
    (hanswered : env.delivery = .answered) :
    (reply = .integer 1 ↔ ∀ other, Owner redis tableId other entries j → other = nodeId) ∧
      (reply = .integer 1 → Grants redis tableId nodeId entries j
        (expiry (redis.clock e.after.shared) ttlSeconds)) := by
  have hcommand := command_at hr.toRedisRun he hlabel
  have hclock := clock_at hr.toRedisRun he hlabel
  have hexecuted : env.delivery.executed = true := by rw [hanswered]; rfl
  have hkeyed : Keyed (.redis (.eval (roomKey tableId) nodeId.toList ttlSeconds)) :=
    keyed_run hr.run (List.mem_of_getElem? he) hlabel
  have heval := hr.documented.eval hcommand (roomKey_string tableId) hkeyed.1 hexecuted
  have hgranted : reply = .integer 1 ↔
      (redis.string e.before.shared (roomKey tableId)).seen env.now = none ∨
        (redis.string e.before.shared (roomKey tableId)).seen env.now = some nodeId.toList := by
    cases hfound : (redis.string e.before.shared (roomKey tableId)).seen env.now with
    | none =>
      rw [hfound] at heval
      exact iff_of_true (heval.2.2 hanswered) (Or.inl rfl)
    | some current =>
      rw [hfound] at heval
      dsimp only at heval
      split at heval
      · rename_i hsame
        exact iff_of_true (heval.2.2 hanswered) (Or.inr (congrArg some hsame))
      · rename_i hother
        rw [heval.2.2 hanswered]
        simp [hother]
  constructor
  · rw [hgranted]
    constructor
    · rintro (hnone | hsame) other hother
      · rw [owner_iff hr he hlabel, hnone] at hother
        exact absurd hother (by simp)
      · exact owner_unique hother ((owner_iff hr he hlabel).mpr hsame)
    · intro hall
      cases hfound : (redis.string e.before.shared (roomKey tableId)).seen env.now with
      | none => exact Or.inl rfl
      | some current =>
        have howner : Owner redis tableId (String.ofList current) entries j := by
          rw [owner_iff hr he hlabel, hfound, String.toList_ofList]
        rw [← hall _ howner, String.toList_ofList]
        exact Or.inr rfl
  · intro hone
    have hfree := hgranted.mp hone
    rw [cell_at hr (roomKey_string tableId) he, ← hclock] at hfree
    rw [Grants, Cell.writtenAt, history_at he, Option.bind_some, hlabel]
    simp only [cellOp, hexecuted, if_true, RedisOp.onKey, Cell.written]
    rw [if_pos hfree, hclock]

/-- `GET` of a room, when its reply arrives, names the owner. -/
theorem get_at {reply : RedisReply} (hr : FreshRun redis l s entries t) (he : entries[j]? = some e)
    (hlabel : e.label = .made id env (.redis (.get (roomKey tableId))) reply)
    (hanswered : env.delivery = .answered) (nodeId : String) :
    reply = .string nodeId.toList ↔ Owner redis tableId nodeId entries j := by
  rw [owner_iff hr he hlabel,
    (reply_of_get hr.toRedisRun (roomKey_string tableId) he hlabel hanswered).1]

/-- A room is only renewed. -/
theorem room_renews (hr : RedisRun redis l s entries t) (k : Nat)
    (c : Int × CellOp Text) (hk : (history redis (roomKey tableId) entries)[k]? = some c) :
    c.2 = .keep ∨ ∃ value expires, c.2 = .renew value expires := by
  rw [history, List.getElem?_map] at hk
  obtain ⟨e, he, rfl⟩ := Option.map_eq_some_iff.mp hk
  have hmem := List.mem_of_getElem? he
  simp only [cellOp]
  split
  · rename_i id env op ans hlabel
    have hkeyed := keyed_run hr.run hmem hlabel
    split
    · cases op with
      | eval other nodeId seconds =>
        simp only [RedisOp.onKey]
        split
        · exact Or.inr ⟨nodeId, _, rfl⟩
        · exact Or.inl rfl
      | command command =>
        cases command with
        | set other value seconds =>
          obtain ⟨-, node, rfl, -⟩ := hkeyed
          rw [RedisOp.onKey, if_neg nodeKey_ne_roomKey]
          exact Or.inl rfl
        | setNew other value seconds =>
          obtain ⟨-, hash, ticket, rfl, -⟩ := hkeyed
          rw [RedisOp.onKey, if_neg ticketKey_ne_roomKey]
          exact Or.inl rfl
        | addLoad score member => exact Or.inl rfl
        | getDel other =>
          obtain ⟨hash, rfl⟩ := hkeyed
          rw [RedisOp.onKey, if_neg ticketKey_ne_roomKey]
          exact Or.inl rfl
      | _ => exact Or.inl rfl
    · exact Or.inl rfl
  · exact Or.inl rfl

/-- The script of `assignRoom` granted the room before entry `j`. -/
theorem granted_of_returns {ttlSeconds : Nat} {made : List ((call : RedisCall) × call.Ans)}
    (hr : FreshRun redis l s entries t)
    (hreturns : (assignRoom tableId nodeId ttlSeconds).Returns made true)
    (hmade : MadeBefore entries j id made) :
    ∃ i b, i < j ∧ entries[i]? = some b ∧ Grants redis tableId nodeId entries i
      (expiry (redis.clock b.after.shared) ttlSeconds) := by
  obtain ⟨i, b, env, hlt, hi, hlabel⟩ := hmade _ (assignRoom_returns hreturns)
  have hanswered := answered_of_reply hr.toRedisRun hi hlabel (by simp [RedisOp.fails])
    (by simp [RedisOp.fails])
  exact ⟨i, b, hlt, hi, (eval_at hr hi hlabel hanswered).2 rfl⟩

theorem owner_of_returns {made : List ((call : RedisCall) × call.Ans)}
    (hr : FreshRun redis l s entries t)
    (hreturns : (roomOwner tableId).Returns made (some nodeId))
    (hmade : MadeBefore entries j id made) :
    ∃ i < j, Owner redis tableId nodeId entries i := by
  obtain ⟨i, b, env, hlt, hi, hlabel⟩ := hmade _ (roomOwner_returns hreturns)
  have hanswered := answered_of_reply hr.toRedisRun hi hlabel (by simp [RedisOp.fails])
    (by simp [RedisOp.fails])
  exact ⟨i, hlt, (get_at hr hi hlabel hanswered nodeId).mp rfl⟩

/-- The event returns a route to the table. -/
def RoutedTo (tableId : Nat) (event : RedisEvent) (id : Nat) (route : RouteAssignment) : Prop :=
  (∃ userId, event = .returned id (.assignNewTable tableId userId) (some route)) ∨
    ∃ userId expected,
      event = .returned id (.routeExistingTable tableId userId expected) (some route)

/-- **A route leads to a node that owned the room**, or was granted it, during the call. -/
theorem routed_run {route : RouteAssignment}
    (hr : FreshRun redis l s entries t) (he : entries[j]? = some e)
    (h : RoutedTo tableId e.label id route) :
    (∃ i < j, ∃ expires, Grants redis tableId route.node.nodeId entries i expires) ∨
      ∃ i < j, Owner redis tableId route.node.nodeId entries i := by
  have howned : ∃ calls made, LobbyRouter.Owned calls tableId route.node.nodeId ∧
      Script.Expands lobby calls made ∧ MadeBefore entries j id made := by
    rcases h with ⟨userId, hlabel⟩ | ⟨userId, expected, hlabel⟩
    · obtain ⟨calls, made, hcalls, hexpands, hmade⟩ := returned_at hr.toRedisRun he hlabel
      exact ⟨calls, made, LobbyRouter.assignNewTable_owned hcalls, hexpands, hmade⟩
    · obtain ⟨calls, made, hcalls, hexpands, hmade⟩ := returned_at hr.toRedisRun he hlabel
      exact ⟨calls, made, LobbyRouter.routeExistingTable_owned hcalls, hexpands, hmade⟩
  obtain ⟨calls, made, ⟨ttlSeconds, hmem⟩ | hmem, hexpands, hmade⟩ := howned
  · obtain ⟨first, hreturns, hsub⟩ := hexpands.of_mem hmem
    obtain ⟨i, b, hlt, -, hgrants⟩ :=
      granted_of_returns hr hreturns fun m hm => hmade m (hsub m hm)
    exact Or.inl ⟨i, hlt, _, hgrants⟩
  · obtain ⟨first, hreturns, hsub⟩ := hexpands.of_mem hmem
    exact Or.inr (owner_of_returns hr hreturns fun m hm => hmade m (hsub m hm))

/-- What holds of the rooms of a run. -/
structure RoomLeases (redis : RedisService S) (entries : RedisTrace S) : Prop where
  /-- A node that was told that it owns a room was granted it for as long as it asked. -/
  granted : ∀ (j : Nat) e id tableId nodeId ttlSeconds, entries[j]? = some e →
    e.label = .returned id (.registry (.assignRoom tableId nodeId ttlSeconds)) true →
      ∃ i b, i < j ∧ entries[i]? = some b ∧ Grants redis tableId nodeId entries i
        (expiry (redis.clock b.after.shared) ttlSeconds)
  /-- A room passes to another node after the last lease of the one before has run out. -/
  handover : ∀ tableId a b x y i j e, Grants redis tableId a entries i x →
    Grants redis tableId b entries j y → i < j → a ≠ b → entries[j]? = some e →
      ∃ k x', i ≤ k ∧ k < j ∧ Grants redis tableId a entries k x' ∧ x' < redis.clock e.after.shared
  /-- There is one owner, and the script grants the room iff it is nobody else. -/
  decided : ∀ (j : Nat) e id env tableId nodeId ttlSeconds reply, entries[j]? = some e →
    e.label = .made id env (.redis (.eval (roomKey tableId) nodeId.toList ttlSeconds)) reply →
      env.delivery = .answered →
        (reply = .integer 1 ↔ ∀ other, Owner redis tableId other entries j → other = nodeId)
  /-- The owner that a caller was told owned the room when `GET` was executed. -/
  owned : ∀ (j : Nat) e id tableId nodeId, entries[j]? = some e →
    e.label = .returned id (.registry (.roomOwner tableId)) (some nodeId) →
      ∃ i < j, Owner redis tableId nodeId entries i ∧
        ∀ other, Owner redis tableId other entries i → other = nodeId
  routed : ∀ (j : Nat) e id tableId route, entries[j]? = some e →
    RoutedTo tableId e.label id route →
      (∃ i < j, ∃ expires, Grants redis tableId route.node.nodeId entries i expires) ∨
        ∃ i < j, Owner redis tableId route.node.nodeId entries i

/-- **Rooms are leased**, to one node at a time, whatever replies are lost. -/
theorem rooms_are_leased (hredis : redis.Documented) (hfresh : redis.Fresh s)
    (hrun : Run (CallStep redis l) { shared := s } entries t) : RoomLeases redis entries :=
  have hr : FreshRun redis l s entries t := ⟨⟨hredis, hrun⟩, hfresh⟩
  { granted := fun j e id tableId nodeId ttlSeconds he hlabel => by
      obtain ⟨made, hreturns, hmade⟩ := registry_at hr.toRedisRun he hlabel
      exact granted_of_returns hr hreturns hmade
    handover := fun tableId a b x y i j e hi hj hij hab he => by
      have hne : a.toList ≠ b.toList := fun h => hab (String.toList_inj.mp h)
      obtain ⟨k, x', now, op, hik, hkj, hwrote, hentry, hover⟩ :=
        Cell.handover (history_times hr.toRedisRun) (room_renews hr.toRedisRun) hi hj hij hne
      rw [history_at he, Option.some.injEq] at hentry
      obtain ⟨rfl, -⟩ := Prod.mk.inj hentry
      exact ⟨k, x', hik, hkj, hwrote, hover⟩
    decided := fun j e id env tableId nodeId ttlSeconds reply he hlabel hanswered =>
      (eval_at hr he hlabel hanswered).1
    owned := fun j e id tableId nodeId he hlabel => by
      obtain ⟨made, hreturns, hmade⟩ := registry_at hr.toRedisRun he hlabel
      obtain ⟨i, hi, howner⟩ := owner_of_returns hr hreturns hmade
      exact ⟨i, hi, howner, fun other hother => owner_unique hother howner⟩
    routed := fun j e id tableId route he h => routed_run hr he h }

/-- The event says that the node owns the room. -/
def told (tableId : Nat) (nodeId : String) : RedisEvent → Bool
  | .returned _ (.registry (.assignRoom table node _)) ok =>
    ok && decide (table = tableId ∧ node = nodeId)
  | _ => false

/-- Room 7 is leased to one node, whose renewal is executed while its reply is lost. Another node is
refused, and gets the room when the lease has run out. -/
theorem rooms_are_leased_twice : ∃ entries t,
    Run (CallStep RedisServer.service ⟨fun token => token, 60, 10⟩) { shared := { clock := 0 } }
      entries t ∧
      entries.countP (fun e => told 7 "node-a" e.label) = 1 ∧
      entries.countP (fun e => told 7 "node-b" e.label) = 1 ∧
          RoomLeases RedisServer.service entries := by
  have hcheck : (replay (Threads.play (program ⟨fun token => token, 60, 10⟩)
    RedisServer.service.exec)
      { shared := { clock := 0 } }
      [.begin (.registry (.assignRoom 7 "node-a" 10)), .advance 0 { now := 1000 }, .advance 0 {},
        .begin (.registry (.assignRoom 7 "node-a" 10)),
        .advance 0 { now := 5000, delivery := .unanswered }, .advance 0 {},
        .begin (.registry (.assignRoom 7 "node-b" 10)), .advance 0 { now := 12000 }, .advance 0 {},
        .begin (.registry (.assignRoom 7 "node-b" 10)), .advance 0 { now := 15001 },
        .advance 0 {}]).any (fun run : RedisTrace RedisServer × RedisThreads RedisServer =>
      decide (run.1.countP (fun e => told 7 "node-a" e.label) = 1 ∧
        run.1.countP (fun e => told 7 "node-b" e.label) = 1)) = true := by
    decide +kernel
  obtain ⟨⟨entries, t⟩, hrun, hfacts⟩ := (Option.any_eq_true _ _).mp hcheck
  obtain ⟨hfirst, hsecond⟩ := of_decide_eq_true hfacts
  have hr := replay_run Threads.play_step hrun
  exact ⟨entries, t, hr, hfirst, hsecond, rooms_are_leased RedisServer.documented
    (RedisServer.fresh 0) hr⟩

/-! ## Table ids -/

/-- The commands of the registry write the counter by `INCR` alone. -/
theorem writes_tableIds {op : RedisOp} (hkeyed : Keyed (.redis op))
    (h : tableIdsKey ∈ op.writes) : op = .incr tableIdsKey := by
  cases op with
  | ping => exact absurd h List.not_mem_nil
  | get other => exact absurd h List.not_mem_nil
  | range => exact absurd h List.not_mem_nil
  | incr other =>
    obtain rfl : other = tableIdsKey := hkeyed
    rfl
  | rem member => exact absurd (List.mem_singleton.mp h) (by decide +kernel)
  | eval other nodeId seconds =>
    obtain ⟨-, tableId, node, rfl, -⟩ := hkeyed
    rcases List.mem_cons.mp h with heq | hload
    · exact absurd heq.symm (roomKey_string tableId).1
    · exact absurd (List.mem_singleton.mp hload) (by decide +kernel)
  | command command =>
    cases command with
    | set other value seconds =>
      obtain ⟨-, node, rfl, -⟩ := hkeyed
      exact absurd (List.mem_singleton.mp h).symm (nodeKey_string node.nodeId).1
    | setNew other value seconds =>
      obtain ⟨-, hash, ticket, rfl, -⟩ := hkeyed
      exact absurd (List.mem_singleton.mp h).symm (ticketKey_string hash).1
    | addLoad score member => exact absurd (List.mem_singleton.mp h) (by decide +kernel)
    | getDel other =>
      obtain ⟨hash, rfl⟩ := hkeyed
      exact absurd (List.mem_singleton.mp h).symm (ticketKey_string hash).1

/-- The commands of the registry only count up. -/
theorem number_command (hd : redis.Documented) {s s' : S} {op : RedisOp} {ans : op.Ans}
    (hkeyed : Keyed (.redis op)) (h : redis.command env s op = some (ans, s')) :
    redis.number s tableIdsKey ≤ redis.number s' tableIdsKey := by
  by_cases hexecuted : env.delivery.executed = true
  · by_cases hwrites : tableIdsKey ∈ op.writes
    · obtain rfl := writes_tableIds hkeyed hwrites
      rcases hd.incr h hexecuted with ⟨hadds, -⟩ | ⟨hsame, -⟩ <;> omega
    · rw [(hd.others h hwrites).2]
  · rw [(hd.unexecuted h (Bool.not_eq_true _ ▸ hexecuted)).2.1]

/-- The last id that was given out does not fall from one entry to a later one. -/
theorem number_le {e' : Step (RedisThreads S) RedisEvent} (hr : RedisRun redis l s entries t)
    (hij : i < j) (he : entries[i]? = some e) (he' : entries[j]? = some e') :
    redis.number e.after.shared tableIdsKey ≤ redis.number e'.before.shared tableIdsKey := by
  refine (run_keyed hr.run).le_before (f := fun t => redis.number t.shared tableIdsKey) ?_ hij he
    he'
  rintro a event b ⟨hs, hkeyed⟩
  rcases shared_cases hs with ⟨id, env, op, ans, rfl, hcommand⟩ | ⟨hsame, -⟩
  · exact number_command hr.documented (hkeyed id env _ ans rfl) hcommand
  · rw [hsame]

/-- `INCR`, when its reply arrives, gives out the next id. -/
theorem incr_at {value : Int} (hr : RedisRun redis l s entries t) (he : entries[j]? = some e)
    (hlabel : e.label = .made id env (.redis (.incr tableIdsKey)) (.integer value)) :
    value = redis.number e.before.shared tableIdsKey + 1 ∧
      redis.number e.after.shared tableIdsKey = value := by
  have hanswered := answered_of_reply hr he hlabel (by simp [RedisOp.fails])
    (by simp [RedisOp.fails])
  have hexecuted : env.delivery.executed = true := by rw [hanswered]; rfl
  rcases hr.documented.incr (command_at hr he hlabel) hexecuted with ⟨hadds, hans⟩ | ⟨-, hans⟩
  · have hvalue := RedisReply.integer.inj (hans hanswered)
    exact ⟨hvalue, hadds.trans hvalue.symm⟩
  · exact absurd (hans hanswered) (by simp)

/-- Two commands do not give out the same id. -/
theorem incr_unique {value : Int} {id' : Nat} {env' : RedisEnv}
    {e' : Step (RedisThreads S) RedisEvent} (hr : RedisRun redis l s entries t)
    (he : entries[i]? = some e) (he' : entries[j]? = some e')
    (h : e.label = .made id env (.redis (.incr tableIdsKey)) (.integer value))
    (h' : e'.label = .made id' env' (.redis (.incr tableIdsKey)) (.integer value)) : i = j := by
  obtain ⟨hvalue, hlast⟩ := incr_at hr he h
  obtain ⟨hvalue', hlast'⟩ := incr_at hr he' h'
  rcases Nat.lt_trichotomy i j with hlt | heq | hlt
  · have := number_le hr hlt he he'
    omega
  · exact heq
  · have := number_le hr hlt he' he
    omega

/-- A call that returns an id has got it by a command of its own. -/
theorem allocated_at (hr : RedisRun redis l s entries t) (he : entries[j]? = some e)
    (hlabel : e.label = .returned id (.registry .allocateTableId) (some tableId)) :
    (1 ≤ tableId ∧ tableId ≤ 2 ^ 32 - 1) ∧ ∃ (i : Nat) (b : Step (RedisThreads S) RedisEvent)
      (env : RedisEnv), entries[i]? = some b ∧
        b.label = .made id env (.redis (.incr tableIdsKey)) (.integer tableId) := by
  obtain ⟨made, hreturns, hmade⟩ := registry_at hr he hlabel
  obtain ⟨hfirst, hlast, hmem⟩ := allocateTableId_returns hreturns
  obtain ⟨i, b, env, -, hi, hb⟩ := hmade _ hmem
  exact ⟨⟨hfirst, hlast⟩, i, b, env, hi, hb⟩

/-- What holds of the table ids of a run. -/
structure UniqueIds (entries : RedisTrace S) : Prop where
  range : ∀ (j : Nat) e id tableId, entries[j]? = some e →
    e.label = .returned id (.registry .allocateTableId) (some tableId) →
      1 ≤ tableId ∧ tableId < 2 ^ 32
  /-- No two calls return the same id, on whatever processes they are made. -/
  tables : ∀ (i j : Nat) e e' id id' tableId, entries[i]? = some e → entries[j]? = some e' →
    e.label = .returned id (.registry .allocateTableId) (some tableId) →
      e'.label = .returned id' (.registry .allocateTableId) (some tableId) → i = j
  /-- The hands of all tables have ids of their own. -/
  hands : ∀ (i j : Nat) e e' id id' tableId table m n, entries[i]? = some e →
    entries[j]? = some e' → e.label = .returned id (.registry .allocateTableId) (some tableId) →
      e'.label = .returned id' (.registry .allocateTableId) (some table) →
        persistentHandId tableId m ≠ 0 → persistentHandId tableId m = persistentHandId table n →
          i = j ∧ m = n

theorem table_id_returned_once {id' : Nat} {e' : Step (RedisThreads S) RedisEvent}
    (hr : RedisRun redis l s entries t) (he : entries[i]? = some e) (he' : entries[j]? = some e')
    (h : e.label = .returned id (.registry .allocateTableId) (some tableId))
    (h' : e'.label = .returned id' (.registry .allocateTableId) (some tableId)) : i = j := by
  obtain ⟨-, a, b, env, ha, hb⟩ := allocated_at hr he h
  obtain ⟨-, a', b', env', ha', hb'⟩ := allocated_at hr he' h'
  obtain rfl := incr_unique hr ha ha' hb hb'
  obtain rfl := Option.some.inj (ha.symm.trans ha')
  cases hb.symm.trans hb'
  exact Threads.returned_once hr.run he he' h h'

/-- **Table ids are unique**, on whatever processes they are asked for and whatever replies are
lost, and so are the ids of all hands. -/
theorem table_ids_are_unique (hredis : redis.Documented)
    (hrun : Run (CallStep redis l) { shared := s } entries t) : UniqueIds entries :=
  have hr : RedisRun redis l s entries t := ⟨hredis, hrun⟩
  { range := fun j e id tableId he h => by
      obtain ⟨⟨hfirst, hlast⟩, -⟩ := allocated_at hr he h
      exact ⟨hfirst, by omega⟩
    tables := fun i j e e' id id' tableId he he' h h' => table_id_returned_once hr he he' h h'
    hands := fun i j e e' id id' tableId table m n he he' h h' hne heq => by
      obtain ⟨hm, hfirst⟩ := persistentHandId_of_ne hne
      obtain ⟨hn, hsecond⟩ := persistentHandId_of_ne (heq ▸ hne)
      obtain rfl : tableId = table := by omega
      exact ⟨table_id_returned_once hr he he' h h', by omega⟩ }

/-- The event returns the table id. -/
def allocates (tableId : Nat) : RedisEvent → Bool
  | .returned _ (.registry .allocateTableId) (some table) => decide (table = tableId)
  | _ => false

/-- Two processes ask for ids, and the reply to one is lost. -/
theorem table_ids_are_unique_lost : ∃ entries t,
    Run (CallStep RedisServer.service ⟨fun token => token, 60, 10⟩) { shared := { clock := 0 } }
      entries t ∧
      entries.countP (fun e => allocates 2 e.label) = 0 ∧
      entries.countP (fun e => allocates 3 e.label) = 1 ∧ UniqueIds entries := by
  have hcheck : (replay (Threads.play (program ⟨fun token => token, 60, 10⟩)
    RedisServer.service.exec)
      { shared := { clock := 0 } }
      [.begin (.registry .allocateTableId), .begin (.registry .allocateTableId), .advance 1 {},
        .advance 0 { delivery := .unanswered }, .begin (.registry .allocateTableId), .advance 2 {},
        .advance 0 {}, .advance 0 {}, .advance 0 {}]).any
          (fun run : RedisTrace RedisServer × RedisThreads RedisServer =>
      decide (run.1.countP (fun e => allocates 2 e.label) = 0 ∧
        run.1.countP (fun e => allocates 3 e.label) = 1)) = true := by
    decide +kernel
  obtain ⟨⟨entries, t⟩, hrun, hfacts⟩ := (Option.any_eq_true _ _).mp hcheck
  obtain ⟨hlost, hthird⟩ := of_decide_eq_true hfacts
  have hr := replay_run Threads.play_step hrun
  exact ⟨entries, t, hr, hlost, hthird, table_ids_are_unique RedisServer.documented hr⟩

end RedisRegistry

end PokerServer
