import PokerServer.Cluster.Redis

/-!
# Runs over Redis

Lobbies and game nodes make calls on the registry and on routers, command by command, in any order.

Each key for strings is a cell whose value expires (`RedisOp.onKey`), so what is under a key follows
from the commands of the trace that name it (`cell_run`). A key names a node, a room or a ticket,
and no command names two (`program_keyed`).
-/

namespace PokerServer

open HiredisNodeRegistry

abbrev RedisThreads (S : Type) := Threads S RedisCall RedisCall.Ans LobbyCall LobbyCall.Res
abbrev RedisEvent := ThreadsEvent RedisEnv RedisCall RedisCall.Ans LobbyCall LobbyCall.Res
abbrev RedisTrace (S : Type) :=
  ThreadsTrace S RedisEnv RedisCall RedisCall.Ans LobbyCall LobbyCall.Res

variable {S : Type} {redis : RedisService S}

/-- A step of any of the processes. -/
abbrev RedisRegistry.CallStep (redis : RedisService S) (l : LobbyRouter) :
    RedisThreads S → RedisEvent → RedisThreads S → Prop :=
  ThreadsStep (RedisRegistry.program l) redis.exec

/-! ## Keys -/

section Keys

variable {tableId : Nat} {nodeId other : String}

theorem nodeKey_injective (h : nodeKey nodeId = nodeKey other) : nodeId = other :=
  String.toList_inj.mp (List.append_cancel_left h)

/-- The kind of a key is in its seventh character. -/
theorem kind_append {c : Char} {front : Text} {n : Nat} (h : front[n]? = some c) (rest : Text) :
    (front ++ rest)[n]? = some c := by
  rw [List.getElem?_append_left (List.getElem?_eq_some_iff.mp h).1, h]

theorem nodeKey_kind (nodeId : String) : (nodeKey nodeId)[6]? = some 'n' :=
  kind_append (by decide +kernel) _

theorem roomKey_kind (tableId : Nat) : (roomKey tableId)[6]? = some 'r' :=
  kind_append (by decide +kernel) _

theorem ticketKey_kind (hash : String) : (ticketKey hash)[6]? = some 't' :=
  kind_append (by decide +kernel) _

theorem tableIdsKey_kind : tableIdsKey[6]? = some 'i' := by decide +kernel

theorem loadKey_kind : loadKey[6]? = some 'n' := by decide +kernel

/-- The index has an `s` where the key of a node has a colon. -/
theorem nodeKey_ne_loadKey : nodeKey nodeId ≠ loadKey := by
  intro h
  have hcolon : (nodeKey nodeId)[10]? = some ':' := kind_append (by decide +kernel) _
  rw [h] at hcolon
  exact absurd hcolon (by decide +kernel)

theorem nodeKey_string (nodeId : String) : RedisService.StringKey (nodeKey nodeId) :=
  ⟨fun h => absurd ((nodeKey_kind nodeId).symm.trans (h ▸ tableIdsKey_kind)) (by simp),
    nodeKey_ne_loadKey⟩

theorem roomKey_string (tableId : Nat) : RedisService.StringKey (roomKey tableId) :=
  ⟨fun h => absurd ((roomKey_kind tableId).symm.trans (h ▸ tableIdsKey_kind)) (by simp),
    fun h => absurd ((roomKey_kind tableId).symm.trans (h ▸ loadKey_kind)) (by simp)⟩

theorem ticketKey_string (hash : String) : RedisService.StringKey (ticketKey hash) :=
  ⟨fun h => absurd ((ticketKey_kind hash).symm.trans (h ▸ tableIdsKey_kind)) (by simp),
    fun h => absurd ((ticketKey_kind hash).symm.trans (h ▸ loadKey_kind)) (by simp)⟩

theorem nodeKey_ne_roomKey : nodeKey nodeId ≠ roomKey tableId := fun h =>
  absurd ((nodeKey_kind nodeId).symm.trans (h ▸ roomKey_kind tableId)) (by simp)

theorem nodeKey_ne_ticketKey : nodeKey nodeId ≠ ticketKey other := fun h =>
  absurd ((nodeKey_kind nodeId).symm.trans (h ▸ ticketKey_kind other)) (by simp)

theorem ticketKey_ne_roomKey : ticketKey other ≠ roomKey tableId := fun h =>
  absurd ((ticketKey_kind other).symm.trans (h ▸ roomKey_kind tableId)) (by simp)

end Keys

open RedisService

/-- What a command does under a key. -/
def RedisOp.onKey (now : Int) (key : Text) : RedisOp → CellOp Text
  | .command (.set other value seconds) =>
    if other = key then .put value (expiry now seconds) else .keep
  | .command (.setNew other value seconds) =>
    if other = key then .offer value (expiry now seconds) else .keep
  | .command (.getDel other) => if other = key then .take else .keep
  | .eval other nodeId seconds =>
    if other = key then .renew nodeId (expiry now seconds) else .keep
  | _ => .keep

/-- A command does nothing under a key that it does not write. -/
theorem RedisOp.onKey_keep {op : RedisOp} {key : Text} (h : key ∉ op.writes) (now : Int) :
    op.onKey now key = .keep := by
  have hne : ∀ {other}, other ∈ op.writes → other ≠ key := fun hmem heq => h (heq ▸ hmem)
  cases op with
  | eval other nodeId seconds => exact if_neg (hne List.mem_cons_self)
  | command command =>
    cases command with
    | set other value seconds => exact if_neg (hne List.mem_cons_self)
    | setNew other value seconds => exact if_neg (hne List.mem_cons_self)
    | getDel other => exact if_neg (hne List.mem_cons_self)
    | addLoad score member => rfl
  | _ => rfl

namespace RedisRegistry

variable {l : LobbyRouter} {s s' : S} {t t' : RedisThreads S} {event : RedisEvent}
  {trace : RedisTrace S} {key : Text}

/-! ## What the calls send -/

/-- The keys and values that the registry's commands carry. -/
def Keyed : RedisCall → Prop
  | .redis (.command (.set key value seconds)) =>
    0 < seconds ∧ ∃ node : NodeInfo, key = nodeKey node.nodeId ∧ value = nodeValue node
  | .redis (.command (.setNew key value seconds)) =>
    0 < seconds ∧ ∃ hash ticket, key = ticketKey hash ∧ value = ticketValue ticket
  | .redis (.command (.getDel key)) => ∃ hash, key = ticketKey hash
  | .redis (.eval key nodeId seconds) => 0 < seconds ∧ ∃ (tableId : Nat) (node : String),
    key = roomKey tableId ∧ nodeId = node.toList
  | .redis (.incr key) => key = tableIdsKey
  | _ => True

theorem readNodes_keyed (nodeIds : List Text) : (readNodes nodeIds).Only Keyed := by
  induction nodeIds with
  | nil => trivial
  | cons nodeId nodeIds ih =>
    refine ⟨trivial, fun value => ?_⟩
    have hrem : (command (.rem nodeId) >>= fun _ => readNodes nodeIds).Only Keyed :=
      ⟨trivial, fun _ => ih⟩
    cases value with
    | lost => exact hrem
    | nil => exact hrem
    | string value =>
      have hread : (readNodes nodeIds >>= fun nodes => (pure
          ((parseNode (String.ofList nodeId) value).toList ++ nodes) : RedisScript _)).Only Keyed :=
        Script.Only.bind ih fun nodes => trivial
      exact hread
    | status => exact ih
    | error => exact ih
    | array => exact ih
    | integer value => exact ih

theorem lobby_keyed (op : LobbyOp) : (lobby op).Only Keyed := by
  cases op with
  | generateSessionToken => exact ⟨trivial, fun _ => trivial⟩
  | registry op =>
    cases op with
    | ping => exact ⟨trivial, fun _ => trivial⟩
    | heartbeat node ttlSeconds =>
      simp only [lobby, perform, heartbeat]
      split
      · trivial
      · rename_i hgiven
        exact ⟨⟨by omega, node, rfl, rfl⟩, fun _ => ⟨trivial, fun _ => trivial⟩⟩
    | healthyNodes =>
      refine ⟨trivial, fun ids => ?_⟩
      cases ids with
      | none => trivial
      | some nodeIds => exact readNodes_keyed nodeIds
    | allocateTableId =>
      refine ⟨rfl, fun reply => ?_⟩
      cases reply <;> trivial
    | assignRoom tableId nodeId ttlSeconds =>
      simp only [lobby, perform, assignRoom]
      split
      · trivial
      · rename_i hgiven
        exact ⟨⟨by omega, tableId, nodeId, rfl, rfl⟩, fun _ => trivial⟩
    | roomOwner tableId =>
      refine ⟨trivial, fun reply => ?_⟩
      cases reply <;> trivial
    | storeJoinTicket tokenHash ticket ttlSeconds =>
      simp only [lobby, perform, storeJoinTicket]
      split
      · trivial
      · rename_i hgiven
        exact ⟨⟨by omega, tokenHash, ticket, rfl, rfl⟩, fun _ => trivial⟩
    | consumeJoinTicket tokenHash =>
      refine ⟨⟨tokenHash, rfl⟩, fun reply => ?_⟩
      cases reply <;> trivial

theorem only_true {α : Type} (script : LobbyScript α) : script.Only fun _ => True := by
  induction script with
  | done a => trivial
  | call op next ih => exact ⟨trivial, ih⟩

theorem program_keyed (l : LobbyRouter) (call : LobbyCall) : (program l call).Only Keyed :=
  (only_true (l.program call)).subst fun op _ => lobby_keyed op

/-- Every command of a run is one that the registry sends. -/
theorem keyed_run (hr : Run (CallStep redis l) { shared := s } trace t)
    {e : Step (RedisThreads S) RedisEvent} (he : e ∈ trace) {id : Nat} {env : RedisEnv}
    {call : RedisCall} {ans : call.Ans} (hlabel : e.label = .made id env call ans) : Keyed call :=
  (Threads.only_run hr fun _ _ _ call _ => program_keyed l call).2 e he id env call ans hlabel

/-- The command that the event makes is one that the registry sends. -/
def SendsKeyed (e : Step (RedisThreads S) RedisEvent) : Prop :=
  ∀ id env call ans, e.label = .made id env call ans → Keyed call

/-- A run is a run of such steps. -/
theorem run_keyed (hr : Run (CallStep redis l) { shared := s } trace t) :
    Run (fun a event b => CallStep redis l a event b ∧ SendsKeyed ⟨a, event, b⟩) { shared := s }
      trace t :=
  hr.restrict fun _ he _ _ _ _ hlabel => keyed_run hr he hlabel

/-! ## What is under a key -/

/-- **Under each key for strings Redis keeps a cell.** -/
theorem string_command (hd : redis.Documented) {env : RedisEnv} {op : RedisOp} {ans : op.Ans}
    (hkeyed : Keyed (.redis op)) (hkey : StringKey key)
    (h : redis.command env s op = some (ans, s')) :
    redis.string s' key = Cell.after env.now (redis.string s key)
      (if env.delivery.executed then op.onKey env.now key else .keep) := by
  by_cases hexecuted : env.delivery.executed = true
  · rw [if_pos hexecuted]
    by_cases hwrites : key ∈ op.writes
    · cases op with
      | ping => exact absurd hwrites List.not_mem_nil
      | get other => exact absurd hwrites List.not_mem_nil
      | range => exact absurd hwrites List.not_mem_nil
      | rem member => exact absurd (List.mem_singleton.mp hwrites) hkey.2
      | incr other =>
        obtain rfl : other = tableIdsKey := hkeyed
        exact absurd (List.mem_singleton.mp hwrites) hkey.1
      | eval other nodeId seconds =>
        obtain rfl : key = other := by
          rcases List.mem_cons.mp hwrites with heq | hload
          · exact heq
          · exact absurd (List.mem_singleton.mp hload) hkey.2
        have heval := hd.eval h hkey hkeyed.1 hexecuted
        rw [RedisOp.onKey, if_pos rfl, Cell.after_of_ne (by simp), Cell.written]
        cases hseen : (redis.string s key).seen env.now with
        | none =>
          rw [hseen] at heval
          rw [if_pos (Or.inl rfl), Option.some_or]
          exact heval.1
        | some current =>
          rw [hseen] at heval
          dsimp only at heval
          by_cases hsame : current = nodeId
          · rw [if_pos hsame] at heval
            rw [if_pos (Or.inr (congrArg some hsame)), Option.some_or]
            exact heval.1
          · rw [if_neg hsame] at heval
            rw [if_neg (by simp [hsame]), Option.none_or]
            exact heval.1
      | command command =>
        cases command with
        | addLoad score member => exact absurd (List.mem_singleton.mp hwrites) hkey.2
        | set other value seconds =>
          obtain rfl := List.mem_singleton.mp hwrites
          rw [RedisOp.onKey, if_pos rfl, Cell.after_of_ne (by simp), Cell.written, Option.some_or]
          exact hd.set h hkey hkeyed.1 hexecuted
        | getDel other =>
          obtain rfl := List.mem_singleton.mp hwrites
          rw [RedisOp.onKey, if_pos rfl, Cell.after_take]
          exact (hd.getDel h hkey hexecuted).1
        | setNew other value seconds =>
          obtain rfl := List.mem_singleton.mp hwrites
          have hset := hd.setNew h hkey hkeyed.1 hexecuted
          rw [RedisOp.onKey, if_pos rfl, Cell.after_of_ne (by simp), Cell.written]
          cases hseen : (redis.string s key).seen env.now with
          | none =>
            rw [if_pos hseen] at hset
            rw [if_pos (by rfl), Option.some_or]
            exact hset.1
          | some current =>
            rw [if_neg (by rw [hseen]; simp)] at hset
            rw [if_neg (by simp), Option.none_or]
            exact hset.1
    · rw [RedisOp.onKey_keep hwrites, Cell.after_keep]
      exact (hd.others h hwrites).1
  · rw [if_neg hexecuted, Cell.after_keep]
    exact (hd.unexecuted h (Bool.not_eq_true _ ▸ hexecuted)).1 key

/-- What an event does under a key. -/
def cellOp (key : Text) : RedisEvent → CellOp Text
  | .made _ env (.redis op) _ => if env.delivery.executed then op.onKey env.now key else .keep
  | _ => .keep

/-- The history of a key, with an entry for each entry of the trace. -/
def history (redis : RedisService S) (key : Text) (trace : RedisTrace S) : CellHistory Text :=
  trace.map fun e => (redis.clock e.after.shared, cellOp key e.label)

theorem history_take (key : Text) (trace : RedisTrace S) (j : Nat) :
    history redis key (trace.take j) = (history redis key trace).take j := List.map_take

/-- The event makes a command, or nothing happens to Redis. -/
theorem shared_cases (h : CallStep redis l t event t') :
    (∃ id env op ans, event = .made id env (.redis op) ans ∧
        redis.command env t.shared op = some (ans, t'.shared)) ∨
      t'.shared = t.shared ∧ ∀ id env op ans, event ≠ .made id env (.redis op) ans := by
  rcases Threads.shared_step h with ⟨hsame, hquiet⟩ | ⟨id, env, call, ans, rfl, hexec⟩
  · exact Or.inr ⟨hsame, fun id env op ans => hquiet id env (.redis op) ans⟩
  · cases call with
    | redis op => exact Or.inl ⟨id, env, op, ans, rfl, hexec⟩
    | generateSessionToken =>
      exact Or.inr ⟨(Prod.mk.inj (Option.some.inj hexec)).2.symm, fun id env op ans heq => by cases
        heq⟩

theorem cellOp_quiet (h : ∀ id env op ans, event ≠ .made id env (.redis op) ans) :
    cellOp key event = .keep := by
  unfold cellOp
  split
  · exact absurd rfl (h _ _ _ _)
  · rfl

theorem clock_step (hd : redis.Documented) (h : CallStep redis l t event t') :
    redis.clock t.shared ≤ redis.clock t'.shared := by
  rcases shared_cases h with ⟨id, env, op, ans, -, hcommand⟩ | ⟨hsame, -⟩
  · obtain ⟨hnow, hclock⟩ := hd.clock hcommand
    rw [hclock]
    exact hnow
  · rw [hsame]

/-- A run over a server as it is documented. -/
structure RedisRun (redis : RedisService S) (l : LobbyRouter) (s : S) (entries : RedisTrace S)
    (t : RedisThreads S) : Prop where
  documented : redis.Documented
  run : Run (CallStep redis l) { shared := s } entries t

/-- A run over such a server, which keeps no string at first. -/
structure FreshRun (redis : RedisService S) (l : LobbyRouter) (s : S) (entries : RedisTrace S)
    (t : RedisThreads S) : Prop extends RedisRun redis l s entries t where
  fresh : redis.Fresh s

/-- **What is under a key** follows from the commands that name it. -/
theorem cell_run (hd : redis.Documented) (hfresh : redis.Fresh s) (hkey : StringKey key)
    (hr : Run (CallStep redis l) { shared := s } trace t) :
    redis.string t.shared key = cellAfter (history redis key trace) := by
  induction hr with
  | nil => exact hfresh key hkey
  | @snoc trace t u event hr hs ih =>
    rw [history, List.map_append, List.map_singleton, ← history, cellAfter_snoc, ← ih]
    rcases shared_cases hs with ⟨id, env, op, ans, rfl, hcommand⟩ | ⟨hsame, hquiet⟩
    · have hkeyed : Keyed (.redis op) := keyed_run (hr.snoc hs)
        (List.mem_append_right _ (List.mem_singleton.mpr rfl)) rfl
      rw [string_command hd hkeyed hkey hcommand, (hd.clock hcommand).2, cellOp]
    · rw [hsame]
      simp only [cellOp_quiet hquiet, Cell.after_keep]

/-- The times of a history do not go back. -/
theorem history_times (hr : RedisRun redis l s trace t)
    (k k' : Nat) (e e' : Int × CellOp Text) (hk : k ≤ k')
    (he : (history redis key trace)[k]? = some e)
    (he' : (history redis key trace)[k']? = some e') : e.1 ≤ e'.1 := by
  rw [history, List.getElem?_map] at he he'
  obtain ⟨a, ha, rfl⟩ := Option.map_eq_some_iff.mp he
  obtain ⟨b, hb, rfl⟩ := Option.map_eq_some_iff.mp he'
  exact hr.run.mono (f := fun t => redis.clock t.shared)
    (fun _ _ _ hs => clock_step hr.documented hs) hk ha hb

/-- What the registry writes under a key. -/
def Writes (key value : Text) : Prop :=
  (∃ node : NodeInfo, key = nodeKey node.nodeId ∧ value = nodeValue node) ∨
    (∃ hash ticket, key = ticketKey hash ∧ value = ticketValue ticket) ∨
      ∃ (tableId : Nat) (node : String), key = roomKey tableId ∧ value = node.toList

/-- A command that writes under a key writes what belongs there. -/
theorem writes_onKey {now now' : Int} {cell : Cell Text} {op : RedisOp} {c : Text × Int}
    (hkeyed : Keyed (.redis op)) (h : cell.written now' (op.onKey now key) = some c) :
    Writes key c.1 := by
  have hkeep : op.onKey now key ≠ .keep := by
    intro hkeep
    rw [hkeep] at h
    exact absurd h (by simp [Cell.written])
  cases op with
  | eval other nodeId seconds =>
    obtain ⟨-, tableId, node, rfl, rfl⟩ := hkeyed
    rw [RedisOp.onKey] at h
    split at h
    · rename_i heq
      obtain ⟨-, hc⟩ := Option.ite_none_right_eq_some.mp h
      rw [← Option.some.inj hc, ← heq]
      exact Or.inr (Or.inr ⟨tableId, node, rfl, rfl⟩)
    · exact absurd h (by simp [Cell.written])
  | command command =>
    cases command with
    | set other value seconds =>
      obtain ⟨-, node, rfl, rfl⟩ := hkeyed
      rw [RedisOp.onKey] at h
      split at h
      · rename_i heq
        rw [← Option.some.inj h, ← heq]
        exact Or.inl ⟨node, rfl, rfl⟩
      · exact absurd h (by simp [Cell.written])
    | setNew other value seconds =>
      obtain ⟨-, hash, ticket, rfl, rfl⟩ := hkeyed
      rw [RedisOp.onKey] at h
      split at h
      · rename_i heq
        obtain ⟨-, hc⟩ := Option.ite_none_right_eq_some.mp h
        rw [← Option.some.inj hc, ← heq]
        exact Or.inr (Or.inl ⟨hash, ticket, rfl, rfl⟩)
      · exact absurd h (by simp [Cell.written])
    | addLoad score member => exact absurd rfl hkeep
    | getDel other =>
      rw [RedisOp.onKey] at h
      split at h
      · exact absurd h (by simp [Cell.written])
      · exact absurd h (by simp [Cell.written])
  | _ => exact absurd rfl hkeep

/-- **What is under a key belongs there.** -/
theorem writes_run {i : Nat} {value : Text} {expires : Int}
    (hr : RedisRun redis l s trace t)
    (h : Cell.writtenAt (history redis key trace) i = some (value, expires)) :
    Writes key value := by
  obtain ⟨⟨now, op⟩, hentry, hwritten⟩ := Option.bind_eq_some_iff.mp h
  rw [history, List.getElem?_map] at hentry
  obtain ⟨e, he, heq⟩ := Option.map_eq_some_iff.mp hentry
  obtain ⟨rfl, rfl⟩ := Prod.mk.inj heq
  revert hwritten
  simp only [cellOp]
  split
  · rename_i id env op ans hlabel
    split
    · exact writes_onKey (keyed_run hr.run (List.mem_of_getElem? he) hlabel)
    · exact fun hwritten => absurd hwritten (by simp [Cell.written])
  · exact fun hwritten => absurd hwritten (by simp [Cell.written])

/-! ## Entries of a run -/

section Entries

variable {entries : RedisTrace S} {j : Nat} {e : Step (RedisThreads S) RedisEvent} {id : Nat}
  {env : RedisEnv}

/-- A command of a run is executed after the entries before it. -/
theorem command_at {op : RedisOp} {ans : op.Ans} (hr : RedisRun redis l s entries t)
    (he : entries[j]? = some e) (hlabel : e.label = .made id env (.redis op) ans) :
    redis.command env e.before.shared op = some (ans, e.after.shared) := by
  obtain ⟨-, hs⟩ := hr.run.entry_at he
  rcases shared_cases hs with ⟨id', env', op', ans', heq, hcommand⟩ | ⟨-, hquiet⟩
  · cases hlabel.symm.trans heq
    exact hcommand
  · exact absurd hlabel (hquiet id env op ans)

theorem clock_at {op : RedisOp} {ans : op.Ans} (hr : RedisRun redis l s entries t)
    (he : entries[j]? = some e) (hlabel : e.label = .made id env (.redis op) ans) :
    redis.clock e.after.shared = env.now :=
  (hr.documented.clock (command_at hr he hlabel)).2

theorem history_at (he : entries[j]? = some e) :
    (history redis key entries)[j]? = some (redis.clock e.after.shared, cellOp key e.label) := by
  rw [history, List.getElem?_map, he]
  rfl

/-- What is under a key before an entry is what the entries before it leave. -/
theorem cell_at (hr : FreshRun redis l s entries t) (hkey : StringKey key)
    (he : entries[j]? = some e) :
    redis.string e.before.shared key = cellAfter ((history redis key entries).take j) := by
  rw [cell_run hr.documented hr.fresh hkey (hr.run.entry_at he).1, history_take]

/-- What `GET` finds before an entry stands there and lasts. -/
theorem seen_at {value : Text} {now : Int} (hr : FreshRun redis l s entries t)
    (hkey : StringKey key) (he : entries[j]? = some e) :
    (redis.string e.before.shared key).seen now = some value ↔
      ∃ i expires, Cell.Stands (history redis key entries) i j (value, expires) ∧
        now ≤ expires := by
  have hentry : (history redis key entries)[j]? = some _ := history_at he
  have hlength := Nat.le_of_lt (List.getElem?_eq_some_iff.mp hentry).1
  rw [cell_at hr hkey he, Cell.seen_eq_some]
  constructor
  · rintro ⟨expires, hcell, hlasts⟩
    obtain ⟨i, hstands⟩ := Cell.cellAfter_eq_some.mp hcell
    exact ⟨i, expires, (Cell.stands_take hlength).mp hstands, hlasts⟩
  · rintro ⟨i, expires, hstands, hlasts⟩
    exact ⟨expires, Cell.cellAfter_eq_some.mpr ⟨i, (Cell.stands_take hlength).mpr hstands⟩, hlasts⟩

/-- What a reply says other than that it was lost or refused comes from the server. -/
theorem answered_of_reply {op : RedisOp} {ans : op.Ans} (hr : RedisRun redis l s entries t)
    (he : entries[j]? = some e) (hlabel : e.label = .made id env (.redis op) ans)
    (hlost : ans ≠ op.fails .lost) (herror : ans ≠ op.fails .error) :
    env.delivery = .answered := by
  have hcommand := command_at hr he hlabel
  have hunexecuted : env.delivery.executed ≠ false := fun hnot => by
    obtain ⟨-, -, -, hans | hans⟩ := hr.documented.unexecuted hcommand hnot
    · exact herror hans
    · exact hlost hans
  cases hdelivery : env.delivery with
  | answered => rfl
  | unanswered => exact absurd (hr.documented.unanswered hcommand hdelivery) hlost
  | refused =>
    rw [hdelivery] at hunexecuted
    exact absurd rfl hunexecuted
  | unsent =>
    rw [hdelivery] at hunexecuted
    exact absurd rfl hunexecuted

/-- The reply of a read is a string iff it is the one under the key, and nil iff there is none. -/
theorem reply_cases {found : Option Text} {reply : RedisReply}
    (h : reply = RedisService.reply found) :
    (∀ value, reply = .string value ↔ found = some value) ∧ (reply = .nil ↔ found = none) := by
  subst h
  cases found with
  | none => simp [RedisService.reply]
  | some value => simp [RedisService.reply]

/-- `GET`, when its reply arrives, replies with what is under the key. -/
theorem reply_of_get {reply : RedisReply} (hr : RedisRun redis l s entries t)
    (hkey : StringKey key) (he : entries[j]? = some e)
    (hlabel : e.label = .made id env (.redis (.get key)) reply)
    (hanswered : env.delivery = .answered) :
    (∀ value, reply = .string value ↔
        (redis.string e.before.shared key).seen env.now = some value) ∧
      (reply = .nil ↔ (redis.string e.before.shared key).seen env.now = none) :=
  reply_cases (hr.documented.get (command_at hr he hlabel) hkey hanswered)

/-- The commands are those of a call, in front of entry `j`. -/
def MadeBefore (entries : RedisTrace S) (j id : Nat) (made : List ((call : RedisCall) × call.Ans)) :
    Prop :=
  ∀ m ∈ made, ∃ i b env, i < j ∧ entries[i]? = some b ∧ b.label = .made id env m.1 m.2

theorem madeBefore_of_shows {made : List ((call : RedisCall) × call.Ans)}
    (h : Threads.Shows (entries.take j) id made) : MadeBefore entries j id made := by
  intro m hm
  obtain ⟨b, hb, env, hmade⟩ := h m hm
  obtain ⟨i, hi⟩ := List.getElem?_of_mem hb
  have hlt : i < j := Nat.lt_of_lt_of_le (List.getElem?_eq_some_iff.mp hi).1
    (by rw [List.length_take]; exact Nat.min_le_left _ _)
  rw [List.getElem?_take_of_lt hlt] at hi
  exact ⟨i, b, env, hlt, hi, hmade⟩

theorem split_at (he : entries[j]? = some e) :
    entries = entries.take j ++ e :: entries.drop (j + 1) := by
  obtain ⟨hj, hentry⟩ := List.getElem?_eq_some_iff.mp he
  rw [← hentry, ← List.drop_eq_getElem_cons hj, List.take_append_drop]

/-- What a call came down to, when it has returned. -/
theorem returned_at {call : LobbyCall} {result : call.Res}
    (hr : RedisRun redis l s entries t) (he : entries[j]? = some e)
    (hlabel : e.label = .returned id call result) :
    ∃ calls made, (l.program call).Returns calls result ∧ Script.Expands lobby calls made ∧
      MadeBefore entries j id made := by
  obtain ⟨-, made, hshows, hreturns⟩ := Threads.returned_run (split_at he ▸ hr.run) hlabel
  obtain ⟨calls, hcalls, hexpands⟩ := Script.returns_subst hreturns
  exact ⟨calls, made, hcalls, hexpands, madeBefore_of_shows hshows⟩

/-- What a call has come down to, when it makes a command. -/
theorem made_at {call : RedisCall} {ans : call.Ans}
    (hr : RedisRun redis l s entries t) (he : entries[j]? = some e)
    (hlabel : e.label = .made id env call ans) :
    ∃ calls made more, Script.Expands lobby calls (made ++ ⟨call, ans⟩ :: more) ∧
      MadeBefore entries j id made := by
  have hans : ∀ call : RedisCall, Nonempty call.Ans := by
    intro call
    cases call with
    | redis op => exact ⟨op.fails .lost⟩
    | generateSessionToken => exact ⟨""⟩
  obtain ⟨_, made, more, _, hshows, hreturns⟩ :=
    Threads.made_run hans (split_at he ▸ hr.run) hlabel
  obtain ⟨calls, -, hexpands⟩ := Script.returns_subst hreturns
  exact ⟨calls, made, more, hexpands, madeBefore_of_shows hshows⟩

/-- What a call of the registry came down to. -/
theorem registry_at {op : RegistryOp} {result : op.Ans}
    (hr : RedisRun redis l s entries t) (he : entries[j]? = some e)
    (hlabel : e.label = .returned id (.registry op) result) :
    ∃ made, (perform op).Returns made result ∧ MadeBefore entries j id made := by
  obtain ⟨calls, made, ⟨ans, rest, rfl, rfl, rfl⟩, hexpands, hmade⟩ := returned_at hr he hlabel
  obtain ⟨first, hreturns, hsub⟩ := hexpands.of_mem (List.mem_singleton.mpr rfl)
  exact ⟨first, hreturns, fun m hm => hmade m (hsub m hm)⟩

end Entries

end RedisRegistry

end PokerServer
