import PokerServer.Cluster.Ownership

/-!
# Join tickets are single use

`storeJoinTicket` and `consumeJoinTicket` of `src/poker/cluster/in_memory_node_registry.cpp`, with
`LobbyRouter::issue` on top, in any run of the lobby: any threads, a clock that does not go back.

A ticket that has expired stays in the map until its hash is stored again or consumed. What is in
the map under a hash is therefore what the trace says was stored last since the last attempt to
consume it (`waiting`, `tickets_run`), expired or not; a ticket that has not expired is refused
being overwritten, so at any time it is the only one to be redeemed (`Fresh.waits`).

`join_tickets_single_use` puts together when a consume succeeds, what it returns, and that no store
is redeemed twice.
-/

namespace PokerServer

/-- The ticket that the call stored under the hash, if it is one that the registry accepted. -/
def RegistryOp.storesTicket (tokenHash : String) (now : Int) :
    (op : RegistryOp) → op.Ans → Option (Expiring JoinTicket)
  | .storeJoinTicket hash ticket ttlSeconds, true =>
    if hash = tokenHash then some ⟨ticket, InMemoryNodeRegistry.expiry now ttlSeconds⟩ else none
  | _, _ => none

/-- The call tries to consume what is stored under the hash. -/
def RegistryOp.consumes (tokenHash : String) : RegistryOp → Bool
  | .consumeJoinTicket hash => decide (hash = tokenHash)
  | _ => false

namespace InMemoryNodeRegistry

variable {r : InMemoryNodeRegistry} {now : Int} {op : RegistryOp} {tokenHash : String}

/-- **What a call does to a ticket**: a store that is accepted sets it, a consume takes it. -/
theorem lookup_tickets_perform :
    (r.perform now op).2.tickets.lookup tokenHash =
      if op.consumes tokenHash then none
      else (op.storesTicket tokenHash now (r.perform now op).1).or
        (r.tickets.lookup tokenHash) := by
  cases op with
  | ping => rfl
  | heartbeat node ttlSeconds =>
    simp only [perform, heartbeat]
    split <;> rfl
  | healthyNodes => rfl
  | allocateTableId =>
    simp only [perform, allocateTableId]
    split <;> rfl
  | assignRoom table node ttlSeconds =>
    simp only [perform, assignRoom]
    split
    · rfl
    · split
      · split <;> rfl
      · rfl
  | roomOwner table =>
    simp only [perform, roomOwner]
    split
    · rfl
    · split <;> rfl
  | storeJoinTicket hash ticket ttlSeconds =>
    simp only [perform, storeJoinTicket, RegistryOp.consumes, Bool.false_eq_true, if_false]
    split
    · rfl
    split
    · rfl
    · by_cases hhash : hash = tokenHash
      · subst hhash
        simp [RegistryOp.storesTicket]
      · rw [AList.lookup_insert_ne (Ne.symm hhash)]
        simp [RegistryOp.storesTicket, hhash]
  | consumeJoinTicket hash =>
    simp only [perform, consumeJoinTicket, RegistryOp.consumes, decide_eq_true_eq]
    by_cases hhash : hash = tokenHash
    · subst hhash
      rw [if_pos rfl]
      cases hticket : r.tickets.lookup hash with
      | none => exact hticket
      | some ticket => exact AList.lookup_erase _ _
    · rw [if_neg hhash]
      cases r.tickets.lookup hash with
      | none => rfl
      | some ticket => exact AList.lookup_erase_ne (Ne.symm hhash)

/-- What is stored is not stored over while it lasts. -/
theorem expired_of_storesTicket {ticket old : Expiring JoinTicket}
    (h : op.storesTicket tokenHash now (r.perform now op).1 = some ticket)
    (hold : r.tickets.lookup tokenHash = some old) : old.expiresAtMs ≤ now := by
  cases op with
  | storeJoinTicket hash stored ttlSeconds =>
    simp only [perform, storeJoinTicket] at h
    split at h
    · exact absurd h (by simp [RegistryOp.storesTicket])
    split at h
    · exact absurd h (by simp [RegistryOp.storesTicket])
    · rename_i hlive
      obtain ⟨rfl, -⟩ := Option.ite_none_right_eq_some.mp h
      simpa [hold] using hlive
  | _ => exact absurd h (by simp [RegistryOp.storesTicket])

/-- A consume returns what is stored, while it lasts. -/
theorem consumeJoinTicket_eq_some {ticket : JoinTicket} :
    (r.consumeJoinTicket now tokenHash).1 = some ticket ↔
      ∃ expires, r.tickets.lookup tokenHash = some ⟨ticket, expires⟩ ∧ now < expires := by
  unfold consumeJoinTicket
  cases r.tickets.lookup tokenHash with
  | none => simp
  | some found =>
    obtain ⟨value, expires⟩ := found
    simp only [Option.ite_none_right_eq_some, Option.some.injEq, Expiring.mk.injEq]
    constructor
    · rintro ⟨hlive, rfl⟩
      exact ⟨expires, ⟨rfl, rfl⟩, hlive⟩
    · rintro ⟨_, ⟨rfl, rfl⟩, hlive⟩
      exact ⟨hlive, rfl⟩

end InMemoryNodeRegistry

/-! ## The ticket of a route -/

namespace LobbyRouter

open Script

variable {l : LobbyRouter} {made : List ((op : LobbyOp) × op.Ans)} {r : RouteAssignment}
  {tableId : Nat} {userId : UserId}

/-- The ticket of the route was stored for the user and the table. -/
def Stores (l : LobbyRouter) (made : List ((op : LobbyOp) × op.Ans)) (tableId : Nat)
    (userId : UserId) (r : RouteAssignment) : Prop :=
  ⟨.registry (.storeJoinTicket (l.hashSessionToken r.joinTicket) ⟨userId, tableId⟩
    l.ticketTtlSeconds), true⟩ ∈ made

theorem Stores.cons (h : l.Stores made tableId userId r) (m : (op : LobbyOp) × op.Ans) :
    l.Stores (m :: made) tableId userId r := List.mem_cons_of_mem m h

theorem issue_stores {node : NodeInfo} (h : (l.issue node tableId userId).Returns made (some r)) :
    l.Stores made tableId userId r := by
  obtain ⟨rawTicket, rest, rfl, hrest⟩ := returns_perform_bind.mp h
  obtain ⟨stored, rest', rfl, hlast⟩ := returns_perform_bind.mp hrest
  cases stored with
  | false => exact absurd hlast.2 (by simp)
  | true =>
    obtain rfl := Option.some.inj hlast.2
    exact List.mem_cons_of_mem _ List.mem_cons_self

theorem assignNewTable_stores (h : (l.assignNewTable tableId userId).Returns made (some r)) :
    l.Stores made tableId userId r := by
  obtain ⟨nodes, rest, rfl, hrest⟩ := returns_perform_bind.mp h
  cases nodes with
  | nil => exact absurd hrest.2 (by simp)
  | cons node others =>
    simp only at hrest
    split at hrest
    · exact absurd hrest.2 (by simp)
    obtain ⟨assigned, rest', rfl, hissue⟩ := returns_perform_bind.mp hrest
    cases assigned with
    | false => exact absurd hissue.2 (by simp)
    | true => exact ((issue_stores hissue).cons _).cons _

theorem routeToOwner_stores {expected : String} {nodes : List NodeInfo} {owner : String}
    (h : (l.routeToOwner tableId userId expected nodes owner).Returns made (some r)) :
    l.Stores made tableId userId r := by
  unfold routeToOwner at h
  split at h
  · exact absurd h.2 (by simp)
  split at h
  · exact absurd h.2 (by simp)
  · exact issue_stores h

theorem routeExistingTable_stores {expected : String}
    (h : (l.routeExistingTable tableId userId expected).Returns made (some r)) :
    l.Stores made tableId userId r := by
  unfold routeExistingTable at h
  split at h
  · exact absurd h.2 (by simp)
  obtain ⟨owner, rest, rfl, hnodes⟩ := returns_perform_bind.mp h
  obtain ⟨nodes, rest', rfl, hrest⟩ := returns_perform_bind.mp hnodes
  cases owner with
  | some owner => exact ((routeToOwner_stores hrest).cons _).cons _
  | none =>
    simp only at hrest
    split at hrest
    · exact absurd hrest.2 (by simp)
    split at hrest
    · exact absurd hrest.2 (by simp)
    obtain ⟨assigned, rest'', rfl, hroute⟩ := returns_perform_bind.mp hrest
    cases assigned with
    | false => exact absurd hroute.2 (by simp)
    | true => exact (((routeToOwner_stores hroute).cons _).cons _).cons _

end LobbyRouter

namespace Lobby

variable {l : LobbyRouter} {t : LobbyThreads} {past trace : LobbyTrace} {tokenHash : String}
  {clock now : Int}

/-! ## The ticket that waits -/

/-- The ticket that the event stored under the hash. -/
def stored (tokenHash : String) : LobbyEvent → Option (Expiring JoinTicket)
  | .made _ env (.registry op) ans => op.storesTicket tokenHash env.now ans
  | _ => none

/-- The event is an attempt to consume what is stored under the hash. -/
def attempts (tokenHash : String) : LobbyEvent → Bool
  | .made _ _ (.registry op) _ => op.consumes tokenHash
  | _ => false

/-- The last ticket stored under the hash since the last attempt to consume it. -/
def waiting (tokenHash : String) (trace : LobbyTrace) : Option (Expiring JoinTicket) :=
  trace.foldl (fun ticket e =>
    if attempts tokenHash e.label then none else (stored tokenHash e.label).or ticket) none

/-- A store is no attempt to consume. -/
theorem attempts_of_stored {event : LobbyEvent} {ticket : Expiring JoinTicket}
    (h : stored tokenHash event = some ticket) : attempts tokenHash event = false := by
  unfold stored at h
  split at h
  · rename_i id env op ans
    cases op with
    | storeJoinTicket => rfl
    | _ => exact absurd h (by simp [RegistryOp.storesTicket])
  · exact absurd h (by simp)

theorem waiting_snoc (trace : LobbyTrace) (e : Step LobbyThreads LobbyEvent) :
    waiting tokenHash (trace ++ [e]) =
      if attempts tokenHash e.label then none
      else (stored tokenHash e.label).or (waiting tokenHash trace) := by
  unfold waiting
  rw [List.foldl_append]
  rfl

/-- **The registry holds the ticket that waits.** -/
theorem tickets_run (hr : Run l.LobbyStep { shared := { registry := {}, clock } } trace t) :
    t.shared.registry.tickets.lookup tokenHash = waiting tokenHash trace := by
  induction hr with
  | nil => rfl
  | @snoc trace t u event hr hs ih =>
    rw [waiting_snoc]
    rcases Threads.shared_step hs with ⟨hsame, hquiet⟩ | ⟨id, env, op, ans, rfl, hexec⟩
    · rw [hsame, ih]
      cases event with
      | made id env op ans => exact absurd rfl (hquiet id env op ans)
      | _ => rfl
    cases op with
    | generateSessionToken =>
      obtain ⟨-, hsame⟩ := Prod.mk.inj (Option.some.inj hexec)
      rw [← hsame, ih]
      rfl
    | registry op =>
      obtain ⟨-, rfl, hshared⟩ := exec_registry hexec
      rw [hshared, ← ih]
      exact InMemoryNodeRegistry.lookup_tickets_perform

/-- The clock only goes forward. -/
theorem clock_step {t' : LobbyThreads} {event : LobbyEvent} (hs : l.LobbyStep t event t') :
    t.shared.clock ≤ t'.shared.clock := by
  rcases Threads.shared_step hs with ⟨hsame, -⟩ | ⟨id, env, op, ans, -, hexec⟩
  · rw [hsame]
  cases op with
  | generateSessionToken =>
    obtain ⟨-, hsame⟩ := Prod.mk.inj (Option.some.inj hexec)
    rw [← hsame]
  | registry op =>
    obtain ⟨hnow, -, hshared⟩ := exec_registry hexec
    rw [hshared]
    exact hnow

/-- A store overwrites expired tickets only. -/
theorem waiting_expired {t' : LobbyThreads} {event : LobbyEvent}
    {ticket old : Expiring JoinTicket}
    (hr : Run l.LobbyStep { shared := { registry := {}, clock } } trace t)
    (hs : l.LobbyStep t event t') (hstored : stored tokenHash event = some ticket)
    (hold : waiting tokenHash trace = some old) : old.expiresAtMs ≤ t'.shared.clock := by
  rcases Threads.shared_step hs with ⟨-, hquiet⟩ | ⟨id, env, op, ans, rfl, hexec⟩
  · cases event with
    | made id env op ans => exact absurd rfl (hquiet id env op ans)
    | _ => exact absurd hstored (by simp [stored])
  cases op with
  | generateSessionToken => exact absurd hstored (by simp [stored])
  | registry op =>
    obtain ⟨-, rfl, hshared⟩ := exec_registry hexec
    rw [hshared]
    exact InMemoryNodeRegistry.expired_of_storesTicket hstored ((tickets_run hr).trans hold)

/-! ## Stores and the consumes that redeem them -/

/-- Entry `i` stored the ticket under the hash, nobody has tried to consume it since, and it lasts
at `now`. -/
structure Fresh (tokenHash : String) (past : LobbyTrace) (now : Int) (i : Nat)
    (ticket : Expiring JoinTicket) : Prop where
  stored : (past[i]?.bind fun e => stored tokenHash e.label) = some ticket
  untried : ∀ k e, i < k → past[k]? = some e → attempts tokenHash e.label = false
  lasts : now < ticket.expiresAtMs

namespace Fresh

variable {i j : Nat} {ticket other : Expiring JoinTicket} {e : Step LobbyThreads LobbyEvent}

/-- What was stored before the last event and is still fresh was fresh before. -/
theorem of_snoc (h : Fresh tokenHash (past ++ [e]) now i ticket) (hi : i < past.length) :
    Fresh tokenHash past now i ticket ∧ attempts tokenHash e.label = false := by
  refine ⟨⟨?_, fun k e' hk he' => h.untried k e' hk ?_, h.lasts⟩,
    h.untried past.length e hi List.getElem?_concat_length⟩
  · rw [← List.getElem?_append_left hi]
    exact h.stored
  · rw [List.getElem?_append_left (List.getElem?_eq_some_iff.mp he').1]
    exact he'

theorem snoc (h : Fresh tokenHash past now i ticket) (he : attempts tokenHash e.label = false) :
    Fresh tokenHash (past ++ [e]) now i ticket := by
  obtain ⟨s, hs, hstored⟩ := Option.bind_eq_some_iff.mp h.stored
  have hi := (List.getElem?_eq_some_iff.mp hs).1
  refine ⟨by rw [List.getElem?_append_left hi]; exact h.stored, fun k e' hk he' => ?_, h.lasts⟩
  by_cases hlast : k < past.length
  · rw [List.getElem?_append_left hlast] at he'
    exact h.untried k e' hk he'
  · rw [List.getElem?_append_right (by omega)] at he'
    obtain rfl := List.mem_singleton.mp (List.mem_of_getElem? he')
    exact he

/-- The last event stored the ticket. -/
theorem last (hstored : Lobby.stored tokenHash e.label = some ticket)
    (hlasts : now < ticket.expiresAtMs) :
    Fresh tokenHash (past ++ [e]) now past.length ticket := by
  refine ⟨by rw [List.getElem?_concat_length]; exact hstored, fun k e' hk he' => ?_, hlasts⟩
  have hend := (List.getElem?_eq_some_iff.mp he').1
  rw [List.length_append, List.length_singleton] at hend
  omega

/-- **A fresh ticket is the one that waits**: nothing was stored over it. -/
theorem waits (hr : Run l.LobbyStep { shared := { registry := {}, clock } } past t)
    (hnow : t.shared.clock ≤ now) (h : Fresh tokenHash past now i ticket) :
    waiting tokenHash past = some ticket ∧ ∀ k e, i < k → past[k]? = some e →
      Lobby.stored tokenHash e.label = none := by
  induction hr with
  | nil => exact absurd h.stored (by simp)
  | @snoc past t u event hr hs ih =>
    obtain ⟨s, hs', hstored⟩ := Option.bind_eq_some_iff.mp h.stored
    have hi := (List.getElem?_eq_some_iff.mp hs').1
    rw [List.length_append, List.length_singleton] at hi
    by_cases hlast : i = past.length
    · subst hlast
      obtain rfl := Option.some.inj (List.getElem?_concat_length.symm.trans hs')
      refine ⟨?_, fun k e hk he => ?_⟩
      · rw [waiting_snoc, attempts_of_stored hstored, hstored]
        rfl
      · have hend := (List.getElem?_eq_some_iff.mp he).1
        rw [List.length_append, List.length_singleton] at hend
        omega
    · obtain ⟨hbefore, hquiet⟩ := h.of_snoc (by omega)
      obtain ⟨hwaiting, hlater⟩ := ih ((clock_step hs).trans hnow) hbefore
      have hnone : Lobby.stored tokenHash event = none := by
        cases hnew : Lobby.stored tokenHash event with
        | none => rfl
        | some new =>
          have hexpired := waiting_expired hr hs hnew hwaiting
          exact absurd h.lasts (not_lt.mpr (hexpired.trans hnow))
      refine ⟨?_, fun k e hk he => ?_⟩
      · rw [waiting_snoc, hquiet, hnone, hwaiting]
        rfl
      · by_cases hk' : k < past.length
        · rw [List.getElem?_append_left hk'] at he
          exact hlater k e hk he
        · rw [List.getElem?_append_right (by omega)] at he
          obtain rfl := List.mem_singleton.mp (List.mem_of_getElem? he)
          exact hnone

/-- **At most one ticket is fresh.** -/
theorem unique (hr : Run l.LobbyStep { shared := { registry := {}, clock } } past t)
    (hnow : t.shared.clock ≤ now) (h : Fresh tokenHash past now i ticket)
    (h' : Fresh tokenHash past now j other) : i = j ∧ ticket = other := by
  have hsame : ticket = other :=
    Option.some.inj ((h.waits hr hnow).1.symm.trans (h'.waits hr hnow).1)
  obtain ⟨e, he, hstored⟩ := Option.bind_eq_some_iff.mp h.stored
  obtain ⟨e', he', hstored'⟩ := Option.bind_eq_some_iff.mp h'.stored
  refine ⟨?_, hsame⟩
  rcases lt_trichotomy i j with hlt | heq | hlt
  · exact absurd (hstored'.symm.trans ((h.waits hr hnow).2 j e' hlt he')) (by simp)
  · exact heq
  · exact absurd (hstored.symm.trans ((h'.waits hr hnow).2 i e hlt he)) (by simp)

end Fresh

/-- What waits was stored by one of the entries. -/
theorem exists_fresh {ticket : Expiring JoinTicket} (hlasts : now < ticket.expiresAtMs)
    (h : waiting tokenHash past = some ticket) : ∃ i, Fresh tokenHash past now i ticket := by
  induction past using List.reverseRecOn with
  | nil => exact absurd h (by simp [waiting])
  | append_singleton past e ih =>
    rw [waiting_snoc] at h
    obtain ⟨hquiet, h⟩ := Option.ite_none_left_eq_some.mp h
    rcases Option.or_eq_some_iff.mp h with hstored | ⟨-, hwaiting⟩
    · exact ⟨past.length, Fresh.last hstored hlasts⟩
    · obtain ⟨i, hfresh⟩ := ih hwaiting
      exact ⟨i, hfresh.snoc (Bool.eq_false_iff.mpr hquiet)⟩

/-- A consume looks at the ticket that waits. -/
theorem consume_at {entries : LobbyTrace} {j id : Nat} {e : Step LobbyThreads LobbyEvent}
    {env : LobbyEnv} {answer : Option JoinTicket}
    (hr : Run l.LobbyStep { shared := { registry := {}, clock } } entries t)
    (he : entries[j]? = some e)
    (hlabel : e.label = .made id env (.registry (.consumeJoinTicket tokenHash)) answer) :
    Run l.LobbyStep { shared := { registry := {}, clock } } (entries.take j) e.before ∧
      e.before.shared.clock ≤ env.now ∧ ∀ ticket, answer = some ticket ↔
        ∃ expires, waiting tokenHash (entries.take j) = some ⟨ticket, expires⟩ ∧
          env.now < expires := by
  obtain ⟨hbefore, hs⟩ := hr.entry_at he
  rw [hlabel] at hs
  obtain ⟨hnow, hanswer, -⟩ := exec_registry (Threads.exec_step hs)
  refine ⟨hbefore, hnow, fun ticket => ?_⟩
  rw [hanswer, ← tickets_run hbefore]
  exact InMemoryNodeRegistry.consumeJoinTicket_eq_some

/-- **A consume succeeds iff there is a fresh ticket**, and returns it. -/
theorem consume_run {entries : LobbyTrace} {j id : Nat} {e : Step LobbyThreads LobbyEvent}
    {env : LobbyEnv} {answer : Option JoinTicket}
    (hr : Run l.LobbyStep { shared := { registry := {}, clock } } entries t)
    (he : entries[j]? = some e)
    (hlabel : e.label = .made id env (.registry (.consumeJoinTicket tokenHash)) answer)
    (ticket : JoinTicket) :
    answer = some ticket ↔
      ∃ i expires, Fresh tokenHash (entries.take j) env.now i ⟨ticket, expires⟩ := by
  obtain ⟨hbefore, hnow, hconsume⟩ := consume_at hr he hlabel
  rw [hconsume ticket]
  constructor
  · rintro ⟨expires, hwaiting, hlasts⟩
    obtain ⟨i, hfresh⟩ := exists_fresh hlasts hwaiting
    exact ⟨i, expires, hfresh⟩
  · rintro ⟨i, expires, hfresh⟩
    exact ⟨expires, (hfresh.waits hbefore hnow).1, hfresh.lasts⟩

/-- Entry `j` consumed the ticket that entry `i` stored. -/
def Redeems (tokenHash : String) (entries : LobbyTrace) (i j : Nat) (ticket : JoinTicket) : Prop :=
  ∃ e id env expires, entries[j]? = some e ∧
    e.label = .made id env (.registry (.consumeJoinTicket tokenHash)) (some ticket) ∧
    Fresh tokenHash (entries.take j) env.now i ⟨ticket, expires⟩

/-- A ticket that was redeemed has been tried. -/
theorem Redeems.not_lt {entries : LobbyTrace} {i j k : Nat} {ticket other : JoinTicket}
    (h : Redeems tokenHash entries i j ticket) (h' : Redeems tokenHash entries i k other) :
    ¬ j < k := by
  obtain ⟨e, id, env, expires, he, hlabel, hfresh⟩ := h
  obtain ⟨_, _, _, _, -, -, hfresh'⟩ := h'
  intro hlt
  obtain ⟨s, hs, -⟩ := Option.bind_eq_some_iff.mp hfresh.stored
  have hi := (List.getElem?_eq_some_iff.mp hs).1
  rw [List.length_take] at hi
  have htried := hfresh'.untried j e (by omega) (by rw [List.getElem?_take_of_lt hlt]; exact he)
  rw [hlabel] at htried
  exact absurd htried (by simp [attempts, RegistryOp.consumes])

/-- **A store is redeemed once.** -/
theorem Redeems.once {entries : LobbyTrace} {i j k : Nat} {ticket other : JoinTicket}
    (h : Redeems tokenHash entries i j ticket) (h' : Redeems tokenHash entries i k other) :
    j = k :=
  Nat.le_antisymm (Nat.le_of_not_lt (h'.not_lt h)) (Nat.le_of_not_lt (h.not_lt h'))

/-- The event consumed what was stored under the hash. -/
def redeemed (tokenHash : String) : LobbyEvent → Bool
  | .made _ _ (.registry (.consumeJoinTicket hash)) answer =>
    decide (hash = tokenHash) && answer.isSome
  | _ => false

/-- A successful consume takes the ticket that waits. -/
theorem waiting_of_redeemed {t' : LobbyThreads} {event : LobbyEvent}
    (hr : Run l.LobbyStep { shared := { registry := {}, clock } } trace t)
    (hs : l.LobbyStep t event t') (h : redeemed tokenHash event = true) :
    attempts tokenHash event = true ∧ (waiting tokenHash trace).isSome = true := by
  unfold redeemed at h
  split at h
  · rename_i id env hash answer
    obtain ⟨hhash, hanswer⟩ := Bool.and_eq_true_iff.mp h
    obtain rfl := of_decide_eq_true hhash
    obtain ⟨ticket, rfl⟩ := Option.isSome_iff_exists.mp hanswer
    obtain ⟨-, hticket, -⟩ := exec_registry (Threads.exec_step hs)
    obtain ⟨expires, hlookup, -⟩ :=
      InMemoryNodeRegistry.consumeJoinTicket_eq_some.mp hticket.symm
    rw [tickets_run hr] at hlookup
    exact ⟨decide_eq_true rfl, by rw [hlookup]; rfl⟩
  · exact absurd h (by simp)

/-- **No more tickets are redeemed than were stored**: the one that waits has not been redeemed. -/
theorem countP_redeemed (hr : Run l.LobbyStep { shared := { registry := {}, clock } } trace t) :
    trace.countP (fun e => redeemed tokenHash e.label) + (waiting tokenHash trace).isSome.toNat ≤
      trace.countP fun e => (stored tokenHash e.label).isSome := by
  induction hr with
  | nil => exact Nat.le_refl _
  | @snoc trace t u event hr hs ih =>
    rw [List.countP_append, List.countP_append, List.countP_singleton, List.countP_singleton,
      waiting_snoc]
    simp only
    cases hredeemed : redeemed tokenHash event with
    | true =>
      obtain ⟨hattempt, hwaiting⟩ := waiting_of_redeemed hr hs hredeemed
      rw [hwaiting] at ih
      simp only [hattempt, if_true, Option.isSome_none, Bool.toNat_true, Bool.toNat_false] at ih ⊢
      omega
    | false =>
      cases hattempt : attempts tokenHash event with
      | true =>
        simp only [if_true, Option.isSome_none, Bool.toNat_false, Bool.false_eq_true, if_false]
        omega
      | false =>
        cases hstored : stored tokenHash event with
        | none =>
          simp only [Option.none_or, Bool.false_eq_true, if_false, Option.isSome_none]
          omega
        | some ticket =>
          have hle := Bool.toNat_le (waiting tokenHash trace).isSome
          simp only [Option.some_or, Bool.false_eq_true, if_false, Option.isSome_some, if_true,
            Bool.toNat_true]
          omega

/-! ## Routes -/

/-- The event returns a route to the table for the user. -/
def Issued (tableId : Nat) (userId : UserId) (event : LobbyEvent) (route : RouteAssignment) :
    Prop :=
  ∃ id, event = .returned id (.assignNewTable tableId userId) (some route) ∨
    ∃ expected, event = .returned id (.routeExistingTable tableId userId expected) (some route)

/-- A route comes with a ticket that the registry accepted before. -/
theorem issued_run {before after : LobbyTrace} {e : Step LobbyThreads LobbyEvent} {tableId : Nat}
    {userId : UserId} {route : RouteAssignment}
    (hr : Run l.LobbyStep { shared := { registry := {}, clock } } (before ++ e :: after) t)
    (h : Issued tableId userId e.label route) :
    ∃ s ∈ before, ∃ expires, stored (l.hashSessionToken route.joinTicket) s.label =
      some ⟨⟨userId, tableId⟩, expires⟩ := by
  have hmade : ∃ id made, Threads.Shows before id made ∧ l.Stores made tableId userId route := by
    obtain ⟨id, hlabel | ⟨expected, hlabel⟩⟩ := h
    · obtain ⟨-, made, hshows, hreturns⟩ := Threads.returned_run hr hlabel
      exact ⟨id, made, hshows, LobbyRouter.assignNewTable_stores hreturns⟩
    · obtain ⟨-, made, hshows, hreturns⟩ := Threads.returned_run hr hlabel
      exact ⟨id, made, hshows, LobbyRouter.routeExistingTable_stores hreturns⟩
  obtain ⟨id, made, hshows, hstores⟩ := hmade
  obtain ⟨s, hs, env, hlabel⟩ := hshows _ hstores
  refine ⟨s, hs, InMemoryNodeRegistry.expiry env.now l.ticketTtlSeconds, ?_⟩
  rw [hlabel]
  exact if_pos rfl

/-- What holds of the tickets of a run. -/
structure SingleUse (l : LobbyRouter) (entries : LobbyTrace) : Prop where
  /-- A consume returns a ticket iff it is the fresh one. -/
  consume : ∀ j e id env tokenHash answer, entries[j]? = some e →
    e.label = .made id env (.registry (.consumeJoinTicket tokenHash)) answer →
    ∀ ticket, answer = some ticket ↔
      ∃ i expires, Fresh tokenHash (entries.take j) env.now i ⟨ticket, expires⟩
  /-- A consume redeems one store, and a store is redeemed by one consume. -/
  once : ∀ tokenHash i i' j j' ticket ticket', Redeems tokenHash entries i j ticket →
    Redeems tokenHash entries i' j' ticket' → (i = i' ↔ j = j')
  counted : ∀ tokenHash, entries.countP (fun e => redeemed tokenHash e.label) ≤
    entries.countP fun e => (stored tokenHash e.label).isSome
  issued : ∀ before e after tableId userId route, entries = before ++ e :: after →
    Issued tableId userId e.label route → ∃ s ∈ before, ∃ expires,
      stored (l.hashSessionToken route.joinTicket) s.label = some ⟨⟨userId, tableId⟩, expires⟩

/-- **Join tickets are single use.** -/
theorem join_tickets_single_use {entries : LobbyTrace}
    (hr : Run l.LobbyStep { shared := { registry := {}, clock } } entries t) :
    SingleUse l entries where
  consume _ _ _ _ _ _ he hlabel ticket := consume_run hr he hlabel ticket
  once tokenHash i i' j j' ticket ticket' h h' := by
    constructor
    · rintro rfl
      exact h.once h'
    · rintro rfl
      obtain ⟨e, id, env, expires, he, hlabel, hfresh⟩ := h
      obtain ⟨e', id', env', expires', he', hlabel', hfresh'⟩ := h'
      obtain rfl := Option.some.inj (he.symm.trans he')
      cases hlabel.symm.trans hlabel'
      obtain ⟨hbefore, hnow, -⟩ := consume_at hr he hlabel
      exact (hfresh.unique hbefore hnow hfresh').1
  counted tokenHash := Nat.le_trans (Nat.le_add_right _ _) (countP_redeemed hr)
  issued before e after tableId userId route hsplit h := issued_run (hsplit ▸ hr) h

/-- A player is routed to a new table and shows the ticket twice. -/
theorem join_tickets_single_use_routed : ∃ (entries : LobbyTrace) (t : LobbyThreads),
    Run (LobbyRouter.LobbyStep ⟨id, 60, 10⟩) { shared := { clock := 0 } } entries t ∧
      entries.countP (fun e => attempts "t1" e.label) = 2 ∧
      entries.countP (fun e => redeemed "t1" e.label) = 1 ∧ SingleUse ⟨id, 60, 10⟩ entries := by
  have hcheck : (replay (Threads.play (LobbyRouter.program ⟨id, 60, 10⟩) exec)
      { shared := { clock := 0 } }
      [.begin (.registry (.heartbeat { nodeId := "node-b", endpoint := "10.0.0.2:7000" } 5)),
        .advance 0 { now := 1000 }, .advance 0 {}, .begin (.assignNewTable 100 7),
        .advance 0 { now := 3000 }, .advance 0 { now := 3000 }, .advance 0 { token := "t1" },
        .advance 0 { now := 3000 }, .advance 0 {}, .begin (.registry (.consumeJoinTicket "t1")),
        .advance 0 { now := 4000 }, .begin (.registry (.consumeJoinTicket "t1")),
        .advance 1 { now := 4000 }]).any (fun run : LobbyTrace × LobbyThreads =>
      decide (run.1.countP (fun e => attempts "t1" e.label) = 2 ∧
        run.1.countP (fun e => redeemed "t1" e.label) = 1)) = true := by
    decide +kernel
  obtain ⟨⟨entries, t⟩, hrun, hfacts⟩ := (Option.any_eq_true _ _).mp hcheck
  obtain ⟨hattempts, hredeemed⟩ := of_decide_eq_true hfacts
  have hr := replay_run Threads.play_step hrun
  exact ⟨entries, t, hr, hattempts, hredeemed, join_tickets_single_use hr⟩

end Lobby

end PokerServer
