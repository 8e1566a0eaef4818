import PokerServer.Cluster.NodeFailureReaper
import PokerServer.Storage.Escrow

/-!
# Refunds wait for the grace period

Two systems. In the first, sweeps come one after another and the registry and the store answer
anything (`SweepStep`; the label lists the calls of the sweep with their answers). In the second,
sweeps, node starts and retries run as threads over one store, together with every other call on it
(`RefundStep`).

`refunds_wait_and_happen_once` puts together what holds of both.
-/

namespace PokerServer

namespace NodeFailureReaper

/-! ## A history of sweeps -/

def SweepStep (reaper : NodeFailureReaper) (missing : MissingSince) (made : ReaperCalls)
    (missing' : MissingSince) : Prop :=
  ∃ result, (reaper.sweep missing).Returns made (result, missing')

abbrev Sweep := Step MissingSince ReaperCalls

/-- The sweep read the time and the list of tables, and a table of the node is on the list. -/
def Lists (sweep : Sweep) (time : Int) (table : TableRecord) : Prop :=
  ⟨.clock, time⟩ ∈ sweep.label ∧
    ∃ tables : List TableRecord, ⟨.listOpenTables 200, some tables⟩ ∈ sweep.label ∧ table ∈ tables

/-- The sweep saw the node healthy. -/
def Sees (sweep : Sweep) (nodeId : String) : Prop :=
  ∃ nodes : List NodeInfo, ⟨.healthyNodes, nodes⟩ ∈ sweep.label ∧ ¬ Unseen nodes nodeId

/-- A sweep at `time` found a table of the node on the list, and no sweep from then on has seen the
node. -/
def MissingFrom (sweeps : List Sweep) (nodeId : String) (time : Int) : Prop :=
  ∃ before first after table, sweeps = before ++ first :: after ∧ Lists first time table ∧
    table.nodeId = nodeId ∧ ∀ sweep ∈ first :: after, ¬ Sees sweep nodeId

variable {reaper : NodeFailureReaper} {sweeps : List Sweep} {missing missing' : MissingSince}
  {nodeId : String} {time : Int} {sweep : Sweep}

theorem MissingFrom.snoc (h : MissingFrom sweeps nodeId time) (hsees : ¬ Sees sweep nodeId) :
    MissingFrom (sweeps ++ [sweep]) nodeId time := by
  obtain ⟨before, first, after, table, rfl, hlists, hid, hunseen⟩ := h
  refine ⟨before, first, after ++ [sweep], table, by simp, hlists, hid, fun other hother => ?_⟩
  rw [← List.cons_append] at hother
  rcases List.mem_append.mp hother with hother | hother
  · exact hunseen other hother
  · rwa [List.mem_singleton.mp hother]

/-- The calls of a sweep that was not stopped by a failing ping. -/
def sweepCalls (now : Int) (nodes : List NodeInfo) (tables : Option (List TableRecord))
    (rest : ReaperCalls) : ReaperCalls :=
  ⟨.ping, true⟩ :: ⟨.clock, now⟩ :: ⟨.healthyNodes, nodes⟩ :: ⟨.listOpenTables 200, tables⟩ :: rest

section Sweep

variable {now : Int} {nodes : List NodeInfo} {tables : Option (List TableRecord)}
  {rest : ReaperCalls}

theorem not_sees (hvisited : Visited reaper now nodes (tables.getD []) missing rest missing')
    (hunseen : Unseen nodes nodeId) {before after : MissingSince} :
    ¬ Sees ⟨before, sweepCalls now nodes tables rest, after⟩ nodeId := by
  rintro ⟨nodes', hnodes, hseen⟩
  have hcall : ∀ call ∈ rest, call.1 ≠ .healthyNodes := by
    intro call hcall heq
    obtain ⟨table, -, since, hop, -⟩ := hvisited.overdue call hcall
    exact absurd (heq.symm.trans hop) (by simp)
  rcases List.mem_cons.mp hnodes with heq | hnodes
  · exact absurd (congrArg Sigma.fst heq) (by simp)
  rcases List.mem_cons.mp hnodes with heq | hnodes
  · exact absurd (congrArg Sigma.fst heq) (by simp)
  rcases List.mem_cons.mp hnodes with heq | hnodes
  · cases heq
    exact hseen hunseen
  rcases List.mem_cons.mp hnodes with heq | hnodes
  · exact absurd (congrArg Sigma.fst heq) (by simp)
  · exact hcall _ hnodes rfl

theorem lists_of_mem {table : TableRecord} (htable : table ∈ tables.getD [])
    {before after : MissingSince} :
    Lists ⟨before, sweepCalls now nodes tables rest, after⟩ now table := by
  cases tables with
  | none => exact absurd htable (by simp)
  | some tables => exact ⟨by simp [sweepCalls], tables, by simp [sweepCalls], htable⟩

end Sweep

/-- **What the reaper knows**: it dates a missing node from a sweep that listed a table of it, and
no sweep has seen the node since. -/
theorem missing_run (hr : Run (SweepStep reaper) ∅ sweeps missing) :
    ∀ nodeId time, missing.lookup nodeId = some time → MissingFrom sweeps nodeId time := by
  induction hr with
  | nil => exact fun nodeId time h => absurd h (by simp)
  | @snoc sweeps missing missing' made hr hs ih =>
    intro nodeId time hlookup
    obtain ⟨result, hreturns⟩ := hs
    rcases sweep_returns hreturns with ⟨rfl, -, rfl⟩ | ⟨now, nodes, tables, rest, rfl, hvisited⟩
    · refine (ih nodeId time hlookup).snoc ?_
      rintro ⟨nodes, hnodes, -⟩
      exact absurd hnodes (by simp)
    rcases hvisited.noted nodeId time hlookup with hold | ⟨rfl, hunseen, table, htable, hid⟩
    · obtain ⟨hold, hunseen⟩ := lookup_forget hold
      exact (ih nodeId time hold).snoc (not_sees hvisited hunseen)
    · refine ⟨sweeps, _, [], table, rfl, lists_of_mem htable, hid, fun sweep hsweep => ?_⟩
      rw [List.mem_singleton.mp hsweep]
      exact not_sees hvisited hunseen

/-- **A refund waits for the grace period.** -/
theorem refund_waits {before after : List Sweep}
    (hr : Run (SweepStep reaper) ∅ (before ++ sweep :: after) missing) {tableId : Nat}
    {answer : StoreAnswer}
    (hrefund : ⟨.store (.abortTableAndRefund tableId), answer⟩ ∈ sweep.label) :
    ∃ time table start, Lists sweep time table ∧ table.tableId = tableId ∧
      start ≤ time - reaper.gracePeriodMs ∧ MissingFrom before table.nodeId start ∧
      ¬ Sees sweep table.nodeId := by
  obtain ⟨hbefore, ⟨result, hreturns⟩, -⟩ := hr.split
  rcases sweep_returns hreturns with ⟨heq, -⟩ | ⟨now, nodes, tables, rest, heq, hvisited⟩
  · rw [heq] at hrefund
    exact absurd (congrArg Sigma.fst (List.mem_singleton.mp hrefund)) (by simp)
  have hmem : ⟨.store (.abortTableAndRefund tableId), answer⟩ ∈ rest := by
    rw [heq] at hrefund
    rcases List.mem_cons.mp hrefund with h | hrefund
    · exact absurd (congrArg Sigma.fst h) (by simp)
    rcases List.mem_cons.mp hrefund with h | hrefund
    · exact absurd (congrArg Sigma.fst h) (by simp)
    rcases List.mem_cons.mp hrefund with h | hrefund
    · exact absurd (congrArg Sigma.fst h) (by simp)
    rcases List.mem_cons.mp hrefund with h | hrefund
    · exact absurd (congrArg Sigma.fst h) (by simp)
    · exact hrefund
  obtain ⟨table, htable, since, hop, hlookup, hsince⟩ := hvisited.overdue _ hmem
  obtain ⟨hknown, hunseen⟩ := lookup_forget hlookup
  obtain ⟨before', label, after'⟩ := sweep
  obtain rfl : label = sweepCalls now nodes tables rest := heq
  refine ⟨now, table, since, lists_of_mem htable, ?_, hsince, missing_run hbefore _ _ hknown,
    not_sees hvisited hunseen⟩
  simpa using hop.symm

/-- A sweep whose ping fails makes no other call and changes nothing. -/
theorem ping_fails {made : ReaperCalls} {result : ReapResult}
    (h : (reaper.sweep missing).Returns made (result, missing')) (hping : ⟨.ping, false⟩ ∈ made) :
    made = [⟨.ping, false⟩] ∧ result = {} ∧ missing' = missing := by
  rcases sweep_returns h with hstopped | ⟨now, nodes, tables, rest, rfl, hvisited⟩
  · exact hstopped
  · have hrest : ⟨.ping, false⟩ ∈ rest := by simpa using hping
    obtain ⟨table, -, since, hop, -⟩ := hvisited.overdue _ hrest
    exact absurd hop (by simp)

end NodeFailureReaper

/-! ## Refunds of one table -/

namespace InMemoryGameStore

variable {store store' : InMemoryGameStore} {tableId : Nat} {table : StoredTable}
  {call : StoreOp} {answer : StoreAnswer}

/-- `InMemoryGameStore::listOpenTables`. -/
def listOpenTables (store : InMemoryGameStore) (limit : Nat) : StorageResult (List TableRecord) :=
  if limit = 0 then { error := .invalidData, message := "limit must be positive" }
  else
    let records := (store.tables.entries.filter fun e => !e.2.aborted).map fun e => e.2.record
    { error := .ok
      value := some ((records.mergeSort fun lhs rhs => decide (lhs.tableId ≤ rhs.tableId)).take
        limit) }

/-- What a refund leaves of a table. -/
def refunded (table : StoredTable) : StoredTable :=
  { table with seats := ∅, occupiedSeats := ∅, aborted := true, handInProgress := false }

/-- Every stack of the table has been credited to its wallet, and nothing else. -/
def Credited (table : StoredTable) (wallets wallets' : Dict UserId Int) : Prop :=
  (∀ user record, table.seats.lookup user = some record → ∃ balance,
    wallets.lookup user = some balance ∧ wallets'.lookup user = some (balance + record.stack)) ∧
  ∀ user, table.seats.lookup user = none → wallets'.lookup user = wallets.lookup user

theorem refundLoop_lookup : ∀ {records : List SeatRecord} {wallets wallets' : Dict UserId Int},
    (records.map SeatRecord.userId).Nodup → refundLoop wallets records = (true, wallets') →
    (∀ record ∈ records, ∃ balance, wallets.lookup record.userId = some balance ∧
      wallets'.lookup record.userId = some (balance + record.stack)) ∧
    ∀ user, user ∉ records.map SeatRecord.userId → wallets'.lookup user = wallets.lookup user
  | [], wallets, wallets', _, h => by
    obtain ⟨-, rfl⟩ := Prod.mk.inj h
    exact ⟨fun record hr => absurd hr (by simp), fun user _ => rfl⟩
  | record :: records, wallets, wallets', hnodup, h => by
    rw [List.map_cons, List.nodup_cons] at hnodup
    rw [refundLoop] at h
    split at h
    · exact absurd h (by simp)
    rename_i balance hbalance
    obtain ⟨hcredited, hother⟩ := refundLoop_lookup hnodup.2 h
    refine ⟨fun other hmem => ?_, fun user huser => ?_⟩
    · rcases List.mem_cons.mp hmem with rfl | hmem
      · refine ⟨balance, hbalance, ?_⟩
        rw [hother _ hnodup.1, AList.lookup_insert]
      · obtain ⟨old, hold, hnew⟩ := hcredited other hmem
        have hne : other.userId ≠ record.userId := fun heq =>
          hnodup.1 (heq ▸ List.mem_map_of_mem hmem)
        rw [AList.lookup_insert_ne hne] at hold
        exact ⟨old, hold, hnew⟩
    · rw [List.map_cons, List.mem_cons, not_or] at huser
      rw [hother user huser.2, AList.lookup_insert_ne huser.1]

theorem seatRecords_users (table : StoredTable) :
    (seatRecords table).map SeatRecord.userId = table.seats.keys := by
  unfold seatRecords AList.keys
  rw [List.map_map]
  rfl

theorem credited_of_refundLoop {wallets wallets' : Dict UserId Int}
    (h : refundLoop wallets (seatRecords table) = (true, wallets')) :
    Credited table wallets wallets' := by
  obtain ⟨hcredited, hother⟩ := refundLoop_lookup (by
    rw [seatRecords_users]
    exact table.seats.keys_nodup) h
  refine ⟨fun user record hrecord => ?_, fun user hnone => hother user ?_⟩
  · exact hcredited { record with userId := user }
      (List.mem_map.mpr ⟨⟨user, record⟩, AList.mem_lookup_iff.mp hrecord, rfl⟩)
  · rw [seatRecords_users, ← AList.mem_keys]
    exact AList.lookup_eq_none.mp hnone

/-- **A refund** of a sound store does nothing, or credits the stacks of an open table. -/
theorem abort_credits (hsound : store.Sound)
    (h : Performed store (.abortTableAndRefund tableId) answer store') :
    store' = store ∨ ∃ table, store.tables.lookup tableId = some table ∧ table.aborted = false ∧
      answer = .plain .ok ∧ Credited table store.wallets store'.wallets ∧
      store'.tables = store.tables.insert tableId (refunded table) := by
  cases h with
  | refused error => exact Or.inl rfl
  | repeated again => exact Or.inl rfl
  | refunded found opened complete =>
    exact Or.inr ⟨_, found, opened, rfl, credited_of_refundLoop complete, rfl⟩
  | halted found opened stopped =>
    obtain ⟨wallets, hloop, -⟩ := hsound.refundLoop found
    exact absurd (hloop.symm.trans stopped) (by simp)

/-- **A refunded table stays as it is**: it has no seats, and nobody can sit down. -/
theorem Performed.closed_kept (h : Performed store call answer store')
    (hfound : store.tables.lookup tableId = some table) (haborted : table.aborted = true)
    (hseats : table.seats = ∅) : store'.tables.lookup tableId = some table := by
  have hother {id : Nat} {old new : StoredTable} (hold : store.tables.lookup id = some old)
      (hwhy : old.aborted = false ∨ ∃ user record, old.seats.lookup user = some record) :
      (store.tables.insert id new).lookup tableId = some table := by
    have hne : tableId ≠ id := by
      rintro rfl
      obtain rfl := Option.some.inj (hfound.symm.trans hold)
      rcases hwhy with hopen | ⟨user, record, hrecord⟩
      · exact absurd (haborted.symm.trans hopen) (by simp)
      · rw [hseats] at hrecord
        exact absurd hrecord (by simp)
    exact (AList.lookup_insert_ne hne).trans hfound
  cases h with
  | refused error => exact hfound
  | repeated again => exact hfound
  | seeded real solvent new => exact hfound
  | @created record new =>
    have hne : tableId ≠ record.tableId := by
      rintro rfl
      exact absurd (hfound.symm.trans new) (by simp)
    exact (AList.lookup_insert_ne hne).trans hfound
  | boughtIn fresh found opened => exact hother found (Or.inl opened)
  | cashedOut fresh found idle purse seated => exact hother found (Or.inr ⟨_, _, seated⟩)
  | begun new unsettled found opened => exact hother found (Or.inl opened)
  | appended begun unsettled => exact hfound
  | settled valid begun unsettled found opened => exact hother found (Or.inl opened)
  | refunded found opened => exact hother found (Or.inl opened)
  | halted found opened stopped => exact hfound

end InMemoryGameStore

/-! ## Sweeps, node starts and retries over one store -/

/-- A sweep may start from any `missing_since_`. -/
inductive RefundCall where
  | sweep (missing : MissingSince)
  | startNode (nodeId : String)
  | retryRefund (tableId : Nat) (attempts : Nat)
  | store (call : StoreOp)

abbrev RefundCall.Res : RefundCall → Type
  | .sweep _ => ReapResult × MissingSince
  | .startNode _ => Bool
  | .retryRefund .. => Bool
  | .store _ => StoreAnswer

def NodeFailureReaper.program (reaper : NodeFailureReaper) :
    (call : RefundCall) → ReaperScript call.Res
  | .sweep missing => reaper.sweep missing
  | .startNode nodeId => startNode nodeId
  | .retryRefund tableId attempts => retryRefund tableId attempts
  | .store call => Script.perform (ReaperOp.store call)

/-- What the registry and the clock say. -/
structure ReaperEnv where
  alive : Bool := true
  now : Int := 0
  nodes : List NodeInfo := []

def ReaperOp.exec (env : ReaperEnv) (store : InMemoryGameStore) :
    (op : ReaperOp) → Option (op.Ans × InMemoryGameStore)
  | .ping => some (env.alive, store)
  | .clock => some (env.now, store)
  | .healthyNodes => some (env.nodes, store)
  | .listOpenTables limit => some ((store.listOpenTables limit).value, store)
  | .store call => some (store.perform call)

abbrev RefundThreads := Threads InMemoryGameStore ReaperOp ReaperOp.Ans RefundCall RefundCall.Res
abbrev RefundEvent := ThreadsEvent ReaperEnv ReaperOp ReaperOp.Ans RefundCall RefundCall.Res
abbrev RefundTrace :=
  ThreadsTrace InMemoryGameStore ReaperEnv ReaperOp ReaperOp.Ans RefundCall RefundCall.Res

abbrev NodeFailureReaper.RefundStep (reaper : NodeFailureReaper) :
    RefundThreads → RefundEvent → RefundThreads → Prop :=
  ThreadsStep reaper.program ReaperOp.exec

namespace NodeFailureReaper

open InMemoryGameStore

variable {reaper : NodeFailureReaper} {t : RefundThreads} {trace : RefundTrace} {tableId : Nat}

/-- A call leaves the store alone, or is a call of the store. -/
theorem exec_store {env : ReaperEnv} {store store' : InMemoryGameStore} {op : ReaperOp}
    {ans : op.Ans} (h : op.exec env store = some (ans, store')) :
    store' = store ∨ ∃ call answer, Does store (call, answer) store' := by
  cases op with
  | store call => exact Or.inr ⟨call, ans, Option.some.inj h⟩
  | _ =>
    obtain ⟨-, rfl⟩ := Prod.mk.inj (Option.some.inj h)
    exact Or.inl rfl

theorem reaches_run (hr : Run reaper.RefundStep { shared := {} } trace t) :
    Reaches Does {} t.shared := by
  refine Threads.invariant_run (I := Reaches Does {}) hr (Reaches.refl _)
    fun env a op ans b ha hexec => ?_
  rcases exec_store hexec with rfl | ⟨call, answer, hdoes⟩
  · exact ha
  · exact ha.tail hdoes

/-- A step leaves a refunded table as it is. -/
theorem closed_run {s : RefundThreads} (hr : Run reaper.RefundStep s trace t)
    {table : StoredTable} (hfound : s.shared.tables.lookup tableId = some (refunded table)) :
    t.shared.tables.lookup tableId = some (refunded table) := by
  refine Threads.invariant_run
    (I := fun store => store.tables.lookup tableId = some (refunded table)) hr hfound
    fun env a op ans b ha hexec => ?_
  rcases exec_store hexec with rfl | ⟨call, answer, hdoes⟩
  · exact ha
  · exact (perform_performed hdoes).closed_kept ha rfl rfl

/-- The event is a refund of the table, with its answer. -/
def Refunds (tableId : Nat) (answer : StoreAnswer) (event : RefundEvent) : Prop :=
  ∃ id env, event = .made id env (.store (.abortTableAndRefund tableId)) answer

theorem does_of_refunds {before after : RefundThreads} {event : RefundEvent} {answer : StoreAnswer}
    (hs : reaper.RefundStep before event after) (h : Refunds tableId answer event) :
    Does before.shared (.abortTableAndRefund tableId, answer) after.shared := by
  obtain ⟨id, env, rfl⟩ := h
  exact Option.some.inj (Threads.exec_step hs)

/-- **The stacks of a table are credited once**, whoever asks for a refund and how often. -/
theorem credited_once {before after : RefundTrace} {e : Step RefundThreads RefundEvent}
    (hr : Run reaper.RefundStep { shared := {} } (before ++ e :: after) t) {answer : StoreAnswer}
    (hrefunds : Refunds tableId answer e.label) :
    e.after.shared = e.before.shared ∨
      ∃ table, e.before.shared.tables.lookup tableId = some table ∧ table.aborted = false ∧
        answer = .plain .ok ∧ Credited table e.before.shared.wallets e.after.shared.wallets ∧
        ∀ e' ∈ after, e'.after.shared.tables.lookup tableId = some (refunded table) ∧
          ∀ answer', Refunds tableId answer' e'.label →
            answer' = .plain .ok ∧ e'.after.shared = e'.before.shared := by
  obtain ⟨hbefore, hs, hafter⟩ := hr.split
  have hdoes := does_of_refunds hs hrefunds
  rcases abort_credits (reaches_sound (reaches_run hbefore)) (perform_performed hdoes) with
    hsame | ⟨table, hfound, hopen, hanswer, hcredited, htables⟩
  · exact Or.inl hsame
  have hclosed : e.after.shared.tables.lookup tableId = some (refunded table) := by
    rw [htables]
    exact AList.lookup_insert _
  refine Or.inr ⟨table, hfound, hopen, hanswer, hcredited, fun e' he' => ?_⟩
  obtain ⟨early, late, rfl⟩ := List.append_of_mem he'
  obtain ⟨hearly, hs', -⟩ := hafter.split
  have hnow := closed_run hearly hclosed
  refine ⟨closed_run (Run.nil.snoc hs') hnow, fun answer' hrefunds' => ?_⟩
  have hdoes' := does_of_refunds hs' hrefunds'
  have hagain : e'.before.shared.abortTableAndRefund tableId = (.ok, e'.before.shared) := by
    rw [abortTableAndRefund, hnow]
    exact if_pos rfl
  have hperform : (StoreAnswer.plain .ok, e'.before.shared) = (answer', e'.after.shared) := by
    rw [← hdoes', perform, hagain]
    rfl
  obtain ⟨hok, hsame⟩ := Prod.mk.inj hperform
  exact ⟨hok.symm, hsame.symm⟩

/-- **Refunds wait for the grace period, and credit a table once.** -/
theorem refunds_wait_and_happen_once (reaper : NodeFailureReaper) :
    (∀ sweeps missing, Run (SweepStep reaper) ∅ sweeps missing →
      ∀ before sweep after, sweeps = before ++ sweep :: after → ∀ tableId answer,
        ⟨.store (.abortTableAndRefund tableId), answer⟩ ∈ sweep.label →
          ∃ time table start, Lists sweep time table ∧ table.tableId = tableId ∧
            start ≤ time - reaper.gracePeriodMs ∧ MissingFrom before table.nodeId start ∧
            ¬ Sees sweep table.nodeId) ∧
    (∀ missing missing' made result, (reaper.sweep missing).Returns made (result, missing') →
      ⟨.ping, false⟩ ∈ made → made = [⟨.ping, false⟩] ∧ result = {} ∧ missing' = missing) ∧
    ∀ trace t, Run reaper.RefundStep { shared := {} } trace t →
      ∀ before e after, trace = before ++ e :: after → ∀ tableId answer,
        Refunds tableId answer e.label →
          e.after.shared = e.before.shared ∨
            ∃ table, e.before.shared.tables.lookup tableId = some table ∧ table.aborted = false ∧
              answer = .plain .ok ∧
              Credited table e.before.shared.wallets e.after.shared.wallets ∧
              ∀ e' ∈ after, e'.after.shared.tables.lookup tableId = some (refunded table) ∧
                ∀ answer', Refunds tableId answer' e'.label →
                  answer' = .plain .ok ∧ e'.after.shared = e'.before.shared := by
  refine ⟨?_, ?_, ?_⟩
  · rintro sweeps missing hr before sweep after rfl tableId answer hrefund
    exact refund_waits hr hrefund
  · intro missing missing' made result h hping
    exact ping_fails h hping
  · rintro trace t hr before e after rfl tableId answer hrefunds
    exact credited_once hr hrefunds

/-- Table 50 of a node that has not been seen at 7000 nor at 22000 is refunded by the second
sweep. -/
theorem refunds_wait_and_happen_once_expired : ∃ (sweeps : List Sweep) (missing : MissingSince),
    Run (SweepStep ⟨15000, by decide⟩) ∅ sweeps missing ∧ sweeps.length = 2 ∧
      ∃ sweep ∈ sweeps, ⟨.store (.abortTableAndRefund 50), .plain .ok⟩ ∈ sweep.label ∧
        ∃ time table start, Lists sweep time table ∧ table.tableId = 50 ∧ start ≤ time - 15000 := by
  have hfirst : SweepStep ⟨15000, by decide⟩ ∅
      (sweepCalls 7000 [] (some [{ tableId := 50, nodeId := "game-a" }]) [])
      ((∅ : MissingSince).insert "game-a" 7000) :=
    ⟨{}, true, _, rfl, 7000, _, rfl, [], _, rfl, _, _, rfl, rfl, rfl⟩
  have hsecond : SweepStep ⟨15000, by decide⟩ ((∅ : MissingSince).insert "game-a" 7000)
      (sweepCalls 22000 [] (some [{ tableId := 50, nodeId := "game-a" }])
        [⟨.store (.abortTableAndRefund 50), .plain .ok⟩])
      ((∅ : MissingSince).insert "game-a" 7000) :=
    ⟨{ refundedTables := [50] }, true, _, rfl, 22000, _, rfl, [], _, rfl, _, _, rfl, .plain .ok, _,
      rfl, rfl, rfl⟩
  have hr := (Run.nil.snoc hfirst).snoc hsecond
  obtain ⟨hwaits, -, -⟩ := refunds_wait_and_happen_once ⟨15000, by decide⟩
  have hmem : (⟨.store (.abortTableAndRefund 50), .plain .ok⟩ : (op : ReaperOp) × op.Ans) ∈
      sweepCalls 22000 [] (some [{ tableId := 50, nodeId := "game-a" }])
        [⟨.store (.abortTableAndRefund 50), .plain .ok⟩] := by
    simp [sweepCalls]
  obtain ⟨time, table, start, hlists, hid, hstart, -⟩ := hwaits _ _ hr _ _ [] rfl 50 _ hmem
  exact ⟨_, _, hr, rfl, _, by simp, hmem, time, table, start, hlists, hid, hstart⟩

end NodeFailureReaper

end PokerServer
