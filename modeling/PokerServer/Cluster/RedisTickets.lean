import PokerServer.Cluster.RedisRooms

/-!
# Join tickets over Redis

`storeJoinTicket` and `consumeJoinTicket` over Redis, in any run of the processes and whatever
replies are lost.

A ticket is written under its key where none is left, and `GETDEL` reads and takes it in one
command. So of the calls that consume one store, one returns the ticket (`RedisTickets.once`): a
reply that is lost takes the ticket along, and a ticket that was stored by a call whose reply was
lost is known to nobody.
-/

namespace PokerServer

open HiredisNodeRegistry

/-- A ticket that is written is read as itself, or its numbers do not fit. -/
theorem HiredisNodeRegistry.parseJoinTicket_eq_some {ticket found : JoinTicket} :
    parseJoinTicket (ticketValue ticket) = some found ↔
      (ticket.userId < 2 ^ 64 ∧ ticket.tableId < 2 ^ 64) ∧ ticket = found := by
  have hcolon : (':').isDigit = false := by decide
  rw [ticketValue, parseJoinTicket_eq (Text.not_mem_toDigits hcolon _)]
  constructor
  · intro h
    obtain ⟨userId, huser, hrest⟩ := Option.bind_eq_some_iff.mp h
    obtain ⟨tableId, htable, hfound⟩ := Option.bind_eq_some_iff.mp hrest
    obtain ⟨huserFits, rfl⟩ := Text.stoull_toDigits_eq_some.mp huser
    obtain ⟨htableFits, rfl⟩ := Text.stoull_toDigits_eq_some.mp htable
    exact ⟨⟨huserFits, htableFits⟩, Option.some.inj hfound⟩
  · rintro ⟨⟨huser, htable⟩, rfl⟩
    rw [Text.stoull_toDigits huser, Text.stoull_toDigits htable]
    rfl

namespace RedisRegistry

open Script

section Returns

variable {made : List ((call : RedisCall) × call.Ans)}

theorem storeJoinTicket_returns {tokenHash : String} {ticket : JoinTicket} {ttlSeconds : Nat}
    (h : (storeJoinTicket tokenHash ticket ttlSeconds).Returns made true) :
    ⟨.redis (.command (.setNew (ticketKey tokenHash) (ticketValue ticket) ttlSeconds)), .status⟩ ∈
      made := by
  unfold storeJoinTicket at h
  split at h
  · exact absurd h.2 (by simp)
  obtain ⟨reply, rest, rfl, -, hreply⟩ := returns_perform_bind.mp h
  obtain rfl : reply = .status := by simpa using hreply
  exact List.mem_cons_self

/-- What a consume returns is what `GETDEL` replied. -/
theorem consumeJoinTicket_returns {tokenHash : String} {answer : Option JoinTicket}
    (h : (consumeJoinTicket tokenHash).Returns made answer) :
    ∃ reply, ⟨.redis (.command (.getDel (ticketKey tokenHash))), reply⟩ ∈ made ∧
      ∀ ticket, answer = some ticket ↔
        ∃ value, reply = .string value ∧ parseJoinTicket value = some ticket := by
  obtain ⟨reply, rest, rfl, hreply⟩ := returns_perform_bind.mp h
  refine ⟨reply, List.mem_cons_self, fun ticket => ?_⟩
  cases reply with
  | string value =>
    have hanswer : parseJoinTicket value = answer := hreply.2
    rw [← hanswer]
    constructor
    · exact fun h => ⟨value, rfl, h⟩
    · rintro ⟨value', heq, h⟩
      cases heq
      exact h
  | _ =>
    have hanswer : none = answer := hreply.2
    rw [← hanswer]
    simp

end Returns

open RedisService

variable {S : Type} {redis : RedisService S} {l : LobbyRouter} {s : S} {t : RedisThreads S}
  {entries : RedisTrace S} {i j k id : Nat} {e : Step (RedisThreads S) RedisEvent} {env : RedisEnv}
  {tokenHash : String} {ticket : JoinTicket}

/-- Entry `i` stores the ticket under the hash until a moment. -/
def Stores (redis : RedisService S) (tokenHash : String) (entries : RedisTrace S) (i : Nat)
    (ticket : JoinTicket) (expires : Int) : Prop :=
  Cell.writtenAt (history redis (ticketKey tokenHash) entries) i =
    some (ticketValue ticket, expires)

/-- What is written under the key of a ticket is a ticket. -/
theorem ticket_of_written {value : Text} {expires : Int}
    (hr : RedisRun redis l s entries t)
    (h : Cell.writtenAt (history redis (ticketKey tokenHash) entries) i = some (value, expires)) :
    ∃ ticket, value = ticketValue ticket := by
  rcases writes_run hr h with ⟨node, hkey, -⟩ | ⟨hash, ticket, -, hvalue⟩ | ⟨tableId, node, hkey, -⟩
  · exact absurd hkey.symm nodeKey_ne_ticketKey
  · exact ⟨ticket, hvalue⟩
  · exact absurd hkey ticketKey_ne_roomKey

/-- A store that is accepted writes the ticket. -/
theorem setNew_at {ttlSeconds : Nat} (hr : FreshRun redis l s entries t)
    (he : entries[i]? = some e) (hlabel : e.label = .made id env
      (.redis (.command (.setNew (ticketKey tokenHash) (ticketValue ticket) ttlSeconds))) .status) :
    Stores redis tokenHash entries i ticket (expiry (redis.clock e.after.shared) ttlSeconds) := by
  have hanswered := answered_of_reply hr.toRedisRun he hlabel (by simp [RedisOp.fails])
    (by simp [RedisOp.fails])
  have hexecuted : env.delivery.executed = true := by rw [hanswered]; rfl
  have hclock := clock_at hr.toRedisRun he hlabel
  have hkeyed : Keyed (.redis (.command
      (.setNew (ticketKey tokenHash) (ticketValue ticket) ttlSeconds))) :=
    keyed_run hr.run (List.mem_of_getElem? he) hlabel
  have hset := hr.documented.setNew (command_at hr.toRedisRun he hlabel)
    (ticketKey_string tokenHash) hkeyed.1 hexecuted
  have hfree : (redis.string e.before.shared (ticketKey tokenHash)).seen env.now = none := by
    by_contra htaken
    rw [if_neg htaken] at hset
    exact absurd (hset.2 hanswered) (by simp)
  rw [cell_at hr (ticketKey_string tokenHash) he, ← hclock] at hfree
  rw [Stores, Cell.writtenAt, history_at he, Option.bind_some, hlabel]
  simp only [cellOp, hexecuted, if_true, RedisOp.onKey, Cell.written]
  rw [hfree, if_pos Option.isNone_none, hclock]

/-- `GETDEL`, when its reply arrives, replies with what waits. -/
theorem getDel_at {reply : RedisReply} (hr : FreshRun redis l s entries t)
    (he : entries[k]? = some e)
    (hlabel : e.label = .made id env (.redis (.command (.getDel (ticketKey tokenHash)))) reply)
    (hanswered : env.delivery = .answered) (value : Text) :
    reply = .string value ↔ ∃ i expires,
      Cell.Stands (history redis (ticketKey tokenHash) entries) i k (value, expires) ∧
        env.now ≤ expires := by
  have hexecuted : env.delivery.executed = true := by rw [hanswered]; rfl
  have hreply := (hr.documented.getDel (command_at hr.toRedisRun he hlabel)
    (ticketKey_string tokenHash) hexecuted).2 hanswered
  rw [← seen_at hr (ticketKey_string tokenHash) he]
  exact (reply_cases hreply).1 value

/-- `GETDEL` takes what waits, whether its reply arrives or not. -/
theorem takes_at {reply : RedisReply} (he : entries[k]? = some e)
    (hlabel : e.label = .made id env (.redis (.command (.getDel (ticketKey tokenHash)))) reply)
    (hexecuted : env.delivery.executed = true) :
    Cell.takes (history redis (ticketKey tokenHash) entries) k := by
  refine ⟨redis.clock e.after.shared, ?_⟩
  rw [history_at he, hlabel]
  simp only [cellOp, hexecuted, if_true, RedisOp.onKey]

/-- By `GETDEL`, call `id` gets the ticket that entry `i` stored, at entry `k`. -/
def Gets (redis : RedisService S) (tokenHash : String) (entries : RedisTrace S) (id i k : Nat)
    (ticket : JoinTicket) : Prop :=
  ∃ (e : Step (RedisThreads S) RedisEvent) (env : RedisEnv) (expires : Int), entries[k]? = some e ∧
    e.label = .made id env (.redis (.command (.getDel (ticketKey tokenHash))))
      (.string (ticketValue ticket)) ∧
    Cell.Taken (history redis (ticketKey tokenHash) entries) i k (ticketValue ticket, expires) ∧
      env.now ≤ expires

/-- Entry `j` returns the ticket that entry `i` stored. -/
def Redeems (redis : RedisService S) (tokenHash : String) (entries : RedisTrace S) (i j : Nat)
    (ticket : JoinTicket) : Prop :=
  ∃ (e : Step (RedisThreads S) RedisEvent) (id k : Nat), entries[j]? = some e ∧
    e.label = .returned id (.registry (.consumeJoinTicket tokenHash)) (some ticket) ∧ k < j ∧
      Gets redis tokenHash entries id i k ticket

/-- **A call that returns a ticket** has taken it from where it was stored. -/
theorem redeems_at (hr : FreshRun redis l s entries t) (he : entries[j]? = some e)
    (hlabel : e.label = .returned id (.registry (.consumeJoinTicket tokenHash)) (some ticket)) :
    ∃ i, Redeems redis tokenHash entries i j ticket := by
  obtain ⟨made, hreturns, hmade⟩ := registry_at hr.toRedisRun he hlabel
  obtain ⟨reply, hmem, hanswer⟩ := consumeJoinTicket_returns hreturns
  obtain ⟨value, rfl, hparse⟩ := (hanswer ticket).mp rfl
  obtain ⟨k, b, env, hkj, hk, hb⟩ := hmade _ hmem
  have hanswered := answered_of_reply hr.toRedisRun hk hb (by simp [RedisOp.fails])
    (by simp [RedisOp.fails])
  obtain ⟨i, expires, hstands, hlasts⟩ := (getDel_at hr hk hb hanswered value).mp rfl
  obtain ⟨stored, rfl⟩ := ticket_of_written hr.toRedisRun hstands.wrote
  obtain ⟨-, rfl⟩ := parseJoinTicket_eq_some.mp hparse
  have htakes : Cell.takes (history redis (ticketKey tokenHash) entries) k :=
    takes_at hk hb (by rw [hanswered]; rfl)
  exact ⟨i, e, id, k, he, hlabel, hkj, b, env, expires, hk, hb, ⟨hstands, htakes⟩, hlasts⟩

/-- **A store is redeemed by one call.** -/
theorem Redeems.once {other : JoinTicket} {j' : Nat}
    (hr : Run (CallStep redis l) { shared := s } entries t)
    (h : Redeems redis tokenHash entries i j ticket)
    (h' : Redeems redis tokenHash entries i j' other) :
    j = j' := by
  obtain ⟨e, id, k, he, hlabel, -, b, env, expires, hk, hb, htaken, -⟩ := h
  obtain ⟨e', id', k', he', hlabel', -, b', env', expires', hk', hb', htaken', -⟩ := h'
  obtain rfl := (htaken.unique htaken').mp rfl
  obtain rfl := Option.some.inj (hk.symm.trans hk')
  obtain ⟨rfl, -⟩ := ThreadsEvent.made.inj (hb.symm.trans hb')
  exact Threads.returned_once hr he he' hlabel hlabel'

/-- The event returns a route to the table for the user. -/
def IssuedTo (tableId : Nat) (userId : UserId) (event : RedisEvent) (route : RouteAssignment) :
    Prop :=
  ∃ id, event = .returned id (.assignNewTable tableId userId) (some route) ∨
    ∃ expected, event = .returned id (.routeExistingTable tableId userId expected) (some route)

/-- A route comes with a ticket that Redis accepted before. -/
theorem issued_at {tableId : Nat} {userId : UserId} {route : RouteAssignment}
    (hr : FreshRun redis l s entries t) (he : entries[j]? = some e)
    (h : IssuedTo tableId userId e.label route) :
    ∃ i b, i < j ∧ entries[i]? = some b ∧
      Stores redis (l.hashSessionToken route.joinTicket) entries i ⟨userId, tableId⟩
        (expiry (redis.clock b.after.shared) l.ticketTtlSeconds) := by
  have hstores : ∃ id calls made, l.Stores calls tableId userId route ∧
      Script.Expands lobby calls made ∧ MadeBefore entries j id made := by
    obtain ⟨id, hlabel | ⟨expected, hlabel⟩⟩ := h
    · obtain ⟨calls, made, hcalls, hexpands, hmade⟩ := returned_at hr.toRedisRun he hlabel
      exact ⟨id, calls, made, LobbyRouter.assignNewTable_stores hcalls, hexpands, hmade⟩
    · obtain ⟨calls, made, hcalls, hexpands, hmade⟩ := returned_at hr.toRedisRun he hlabel
      exact ⟨id, calls, made, LobbyRouter.routeExistingTable_stores hcalls, hexpands, hmade⟩
  obtain ⟨id, calls, made, hmem, hexpands, hmade⟩ := hstores
  obtain ⟨first, hreturns, hsub⟩ := hexpands.of_mem hmem
  obtain ⟨i, b, env, hij, hi, hb⟩ := hmade _ (hsub _ (storeJoinTicket_returns hreturns))
  exact ⟨i, b, hij, hi, setNew_at hr hi hb⟩

/-- What holds of the tickets of a run. -/
structure RedisTickets (redis : RedisService S) (l : LobbyRouter) (entries : RedisTrace S) :
    Prop where
  consumed : ∀ (j : Nat) e id tokenHash ticket, entries[j]? = some e →
    e.label = .returned id (.registry (.consumeJoinTicket tokenHash)) (some ticket) →
      ∃ i, Redeems redis tokenHash entries i j ticket
  once : ∀ tokenHash i j j' ticket ticket', Redeems redis tokenHash entries i j ticket →
    Redeems redis tokenHash entries i j' ticket' → j = j'
  /-- If the reply to its `GETDEL` arrives, a call returns the ticket that waits. -/
  honoured : ∀ (j : Nat) e id tokenHash answer, entries[j]? = some e →
    e.label = .returned id (.registry (.consumeJoinTicket tokenHash)) answer →
      ∃ k b env reply, k < j ∧ entries[k]? = some b ∧
        b.label = .made id env (.redis (.command (.getDel (ticketKey tokenHash)))) reply ∧
        (env.delivery = .answered → ∀ ticket : JoinTicket,
          ticket.userId < 2 ^ 64 ∧ ticket.tableId < 2 ^ 64 → (answer = some ticket ↔
            ∃ i expires, Cell.Stands (history redis (ticketKey tokenHash) entries) i k
              (ticketValue ticket, expires) ∧ env.now ≤ expires))
  issued : ∀ (j : Nat) e tableId userId route, entries[j]? = some e →
    IssuedTo tableId userId e.label route → ∃ i b, i < j ∧ entries[i]? = some b ∧
      Stores redis (l.hashSessionToken route.joinTicket) entries i ⟨userId, tableId⟩
        (expiry (redis.clock b.after.shared) l.ticketTtlSeconds)

/-- **Join tickets are single use over Redis**, too, whatever replies are lost. -/
theorem redis_tickets_single_use (hredis : redis.Documented) (hfresh : redis.Fresh s)
    (hrun : Run (CallStep redis l) { shared := s } entries t) : RedisTickets redis l entries :=
  have hr : FreshRun redis l s entries t := ⟨⟨hredis, hrun⟩, hfresh⟩
  { consumed := fun j e id tokenHash ticket he hlabel => redeems_at hr he hlabel
    once := fun tokenHash i j j' ticket ticket' h h' => h.once hrun h'
    honoured := fun j e id tokenHash answer he hlabel => by
      obtain ⟨made, hreturns, hmade⟩ := registry_at hr.toRedisRun he hlabel
      obtain ⟨reply, hmem, hanswer⟩ := consumeJoinTicket_returns hreturns
      obtain ⟨k, b, env, hkj, hk, hb⟩ := hmade _ hmem
      refine ⟨k, b, env, reply, hkj, hk, hb, fun hanswered ticket hfits => ?_⟩
      rw [hanswer ticket, ← getDel_at hr hk hb hanswered]
      constructor
      · rintro ⟨value, rfl, hparse⟩
        obtain ⟨i, expires, hstands, -⟩ := (getDel_at hr hk hb hanswered value).mp rfl
        obtain ⟨stored, rfl⟩ := ticket_of_written hr.toRedisRun hstands.wrote
        obtain ⟨-, rfl⟩ := parseJoinTicket_eq_some.mp hparse
        rfl
      · intro hreply
        exact ⟨_, hreply, parseJoinTicket_eq_some.mpr ⟨hfits, rfl⟩⟩
    issued := fun j e tableId userId route he h => issued_at hr he h }

/-- The event returns a ticket for the hash. -/
def redeemed (tokenHash : String) : RedisEvent → Bool
  | .returned _ (.registry (.consumeJoinTicket hash)) answer =>
    decide (hash = tokenHash) && answer.isSome
  | _ => false

/-- A player is routed twice. One ticket is shown by two connections at once; of the other one the
reply is lost. -/
theorem redis_tickets_single_use_routed : ∃ entries t,
    Run (CallStep RedisServer.service ⟨fun token => token, 60, 10⟩) { shared := { clock := 0 } }
      entries t ∧
      entries.countP (fun e => redeemed "t1" e.label) = 1 ∧
      entries.countP (fun e => redeemed "t2" e.label) = 0 ∧
      RedisTickets RedisServer.service ⟨fun token => token, 60, 10⟩ entries := by
  have hcheck : (replay (Threads.play (program ⟨fun token => token, 60, 10⟩)
    RedisServer.service.exec)
      { shared := { clock := 0 } }
      [.begin (.registry (.storeJoinTicket "t1" ⟨7, 100⟩ 10)), .advance 0 { now := 1000 },
        .advance 0 {}, .begin (.registry (.storeJoinTicket "t2" ⟨7, 100⟩ 10)),
        .advance 0 { now := 1000 }, .advance 0 {},
        .begin (.registry (.consumeJoinTicket "t1")), .begin (.registry (.consumeJoinTicket "t1")),
        .advance 1 { now := 2000 }, .advance 0 { now := 2000 }, .advance 0 {}, .advance 0 {},
        .begin (.registry (.consumeJoinTicket "t2")),
        .advance 0 { now := 3000, delivery := .unanswered }, .advance 0 {},
        .begin (.registry (.consumeJoinTicket "t2")), .advance 0 { now := 3000 },
        .advance 0 {}]).any (fun run : RedisTrace RedisServer × RedisThreads RedisServer =>
      decide (run.1.countP (fun e => redeemed "t1" e.label) = 1 ∧
        run.1.countP (fun e => redeemed "t2" e.label) = 0)) = true := by
    decide +kernel
  obtain ⟨⟨entries, t⟩, hrun, hfacts⟩ := (Option.any_eq_true _ _).mp hcheck
  obtain ⟨hfirst, hsecond⟩ := of_decide_eq_true hfacts
  have hr := replay_run Threads.play_step hrun
  exact ⟨entries, t, hr, hfirst, hsecond,
    redis_tickets_single_use RedisServer.documented (RedisServer.fresh 0) hr⟩

end RedisRegistry

end PokerServer
