import PokerServer.Cluster.NodeRegistry
import PokerServer.Lib.Threads
import PokerServer.Storage.Calls

/-!
# The node failure reaper

Model of `src/poker/cluster/node_failure_reaper.cpp`, and of the two other places that refund a
table: the start of a node (`apps/server/main.cpp`) and `ProtocolService::abortTableAndNotify` with
its retries. Each is a `Script` over the registry and the store.

A sweep holds the reaper's mutex throughout, so sweeps come one after another; `missing_since_` is
passed from one to the next.
-/

namespace PokerServer

inductive ReaperOp where
  | ping
  | clock
  | healthyNodes
  | listOpenTables (limit : Nat)
  | store (call : StoreOp)

abbrev ReaperOp.Ans : ReaperOp → Type
  | .ping => Bool
  | .clock => Int
  | .healthyNodes => List NodeInfo
  | .listOpenTables _ => Option (List TableRecord)
  | .store _ => StoreAnswer

abbrev ReaperScript := Script ReaperOp ReaperOp.Ans

abbrev ReaperCalls := List ((op : ReaperOp) × op.Ans)

structure ReapResult where
  refundedTables : List Nat := []
  failedTables : List Nat := []

/-- Since when each node has been missing. -/
abbrev MissingSince := Dict String Int

structure NodeFailureReaper where
  gracePeriodMs : Int
  positive : 0 < gracePeriodMs

namespace NodeFailureReaper

/-- The constructor. -/
def create (gracePeriodMs : Int) : Except String NodeFailureReaper :=
  if h : gracePeriodMs ≤ 0 then .error "node failure grace period must be positive"
  else .ok ⟨gracePeriodMs, not_le.mp h⟩

def abort (tableId : Nat) : ReaperScript StoreAnswer :=
  Script.perform (ReaperOp.store (.abortTableAndRefund tableId))

/-- The loop over the nodes: they are not missing. -/
def forget (missing : MissingSince) (nodes : List NodeInfo) : MissingSince :=
  nodes.foldl (fun missing node => missing.erase node.nodeId) missing

variable (reaper : NodeFailureReaper)

/-- The loop over the tables. -/
def visit (now : Int) (nodes : List NodeInfo) :
    List TableRecord → ReapResult → MissingSince → ReaperScript (ReapResult × MissingSince)
  | [], result, missing => pure (result, missing)
  | table :: tables, result, missing =>
    if nodes.any fun node => node.nodeId = table.nodeId then visit now nodes tables result missing
    else
      match missing.lookup table.nodeId with
      | none => visit now nodes tables result (missing.insert table.nodeId now)
      | some since =>
        if now - since < reaper.gracePeriodMs then visit now nodes tables result missing
        else do
          let refunded ← abort table.tableId
          if refunded.error = .ok then
            visit now nodes tables
              { result with refundedTables := result.refundedTables ++ [table.tableId] } missing
          else
            visit now nodes tables
              { result with failedTables := result.failedTables ++ [table.tableId] } missing

def sweep (missing : MissingSince) : ReaperScript (ReapResult × MissingSince) := do
  let alive ← Script.perform ReaperOp.ping
  if alive = false then pure ({}, missing)
  else
    let now ← Script.perform ReaperOp.clock
    let nodes ← Script.perform ReaperOp.healthyNodes
    let tables ← Script.perform (ReaperOp.listOpenTables 200)
    match tables with
    | none => pure ({}, forget missing nodes)
    | some tables => reaper.visit now nodes tables {} (forget missing nodes)

end NodeFailureReaper

/-! ## Other refunds -/

/-- The refunds at the start of a node, until one fails. -/
def refundStale (nodeId : String) : List TableRecord → ReaperScript Bool
  | [] => pure true
  | table :: tables =>
    if table.nodeId ≠ nodeId then refundStale nodeId tables
    else do
      let refunded ← NodeFailureReaper.abort table.tableId
      if refunded.error = .ok then refundStale nodeId tables else pure false

/-- The start of a node, as far as the store is concerned. -/
def startNode (nodeId : String) : ReaperScript Bool := do
  let tables ← Script.perform (ReaperOp.listOpenTables 10000)
  match tables with
  | none => pure false
  | some tables => refundStale nodeId tables

/-- `abortTableAndNotify` and the attempts of `retryRefund`. -/
def retryRefund (tableId : Nat) : Nat → ReaperScript Bool
  | 0 => pure false
  | attempts + 1 => do
    let refunded ← NodeFailureReaper.abort tableId
    if refunded.error = .ok then pure true else retryRefund tableId attempts

/-! ## What a sweep does -/

namespace NodeFailureReaper

open Script

variable {reaper : NodeFailureReaper} {missing missing' : MissingSince} {now : Int}
  {nodes : List NodeInfo} {tables : List TableRecord} {result result' : ReapResult}
  {made : ReaperCalls} {nodeId : String}

/-- The node is none of the healthy ones. -/
def Unseen (nodes : List NodeInfo) (nodeId : String) : Prop := ∀ node ∈ nodes, node.nodeId ≠ nodeId

theorem not_any_iff : ¬ (nodes.any fun node => node.nodeId = nodeId) = true ↔
    Unseen nodes nodeId := by
  simp [Unseen]

theorem lookup_forget {since : Int} (h : (forget missing nodes).lookup nodeId = some since) :
    missing.lookup nodeId = some since ∧ Unseen nodes nodeId := by
  induction nodes generalizing missing with
  | nil => exact ⟨h, fun node hnode => absurd hnode (by simp)⟩
  | cons node nodes ih =>
    obtain ⟨hlookup, hunseen⟩ := ih h
    have hne : nodeId ≠ node.nodeId := by
      rintro rfl
      rw [AList.lookup_erase] at hlookup
      exact absurd hlookup (by simp)
    rw [AList.lookup_erase_ne hne] at hlookup
    refine ⟨hlookup, fun other hother => ?_⟩
    rcases List.mem_cons.mp hother with rfl | hother
    · exact hne.symm
    · exact hunseen other hother

/-- What the loop over the tables may do: it refunds tables of nodes that have been missing for the
grace period, and notes other nodes as missing now. -/
structure Visited (reaper : NodeFailureReaper) (now : Int) (nodes : List NodeInfo)
    (tables : List TableRecord) (missing : MissingSince) (made : ReaperCalls)
    (missing' : MissingSince) : Prop where
  overdue : ∀ call ∈ made, ∃ table ∈ tables, ∃ since,
    call.1 = .store (.abortTableAndRefund table.tableId) ∧
      missing.lookup table.nodeId = some since ∧ since ≤ now - reaper.gracePeriodMs
  noted : ∀ nodeId since, missing'.lookup nodeId = some since →
    missing.lookup nodeId = some since ∨
      since = now ∧ Unseen nodes nodeId ∧ ∃ table ∈ tables, table.nodeId = nodeId

theorem Visited.skip {table : TableRecord}
    (h : Visited reaper now nodes tables missing made missing') :
    Visited reaper now nodes (table :: tables) missing made missing' := by
  refine ⟨fun call hcall => ?_, fun nodeId since hlookup => ?_⟩
  · obtain ⟨table', htable', since, hfacts⟩ := h.overdue call hcall
    exact ⟨table', List.mem_cons_of_mem _ htable', since, hfacts⟩
  · rcases h.noted nodeId since hlookup with hold | ⟨rfl, hunseen, table', htable', hid⟩
    · exact Or.inl hold
    · exact Or.inr ⟨rfl, hunseen, table', List.mem_cons_of_mem _ htable', hid⟩

/-- A node that is noted now is not overdue: the grace period is positive. -/
theorem Visited.note {table : TableRecord} (hunseen : Unseen nodes table.nodeId)
    (h : Visited reaper now nodes tables (missing.insert table.nodeId now) made missing') :
    Visited reaper now nodes (table :: tables) missing made missing' := by
  refine ⟨fun call hcall => ?_, fun nodeId since hlookup => ?_⟩
  · obtain ⟨table', htable', since, hop, hlookup, hsince⟩ := h.overdue call hcall
    refine ⟨table', List.mem_cons_of_mem _ htable', since, hop, ?_, hsince⟩
    by_cases hid : table'.nodeId = table.nodeId
    · rw [hid, AList.lookup_insert, Option.some.injEq] at hlookup
      have hpositive := reaper.positive
      omega
    · rwa [AList.lookup_insert_ne hid] at hlookup
  · rcases h.noted nodeId since hlookup with hold | ⟨rfl, hseen, table', htable', hid⟩
    · by_cases hid : nodeId = table.nodeId
      · subst hid
        rw [AList.lookup_insert, Option.some.injEq] at hold
        exact Or.inr ⟨hold.symm, hunseen, table, List.mem_cons_self, rfl⟩
      · rw [AList.lookup_insert_ne hid] at hold
        exact Or.inl hold
    · exact Or.inr ⟨rfl, hseen, table', List.mem_cons_of_mem _ htable', hid⟩

theorem Visited.refund {table : TableRecord} {since : Int} {answer : StoreAnswer}
    (hsince : missing.lookup table.nodeId = some since)
    (hlate : ¬ now - since < reaper.gracePeriodMs)
    (h : Visited reaper now nodes tables missing made missing') :
    Visited reaper now nodes (table :: tables) missing
      (⟨.store (.abortTableAndRefund table.tableId), answer⟩ :: made) missing' := by
  have hskip : Visited reaper now nodes (table :: tables) missing made missing' := h.skip
  refine ⟨fun call hcall => ?_, hskip.noted⟩
  rcases List.mem_cons.mp hcall with rfl | hcall
  · exact ⟨table, List.mem_cons_self, since, rfl, hsince, by omega⟩
  · exact hskip.overdue call hcall

theorem visit_returns (h : (reaper.visit now nodes tables result missing).Returns made
    (result', missing')) : Visited reaper now nodes tables missing made missing' := by
  induction tables generalizing result missing made with
  | nil =>
    obtain ⟨rfl, heq⟩ := h
    obtain ⟨-, rfl⟩ := Prod.mk.inj heq
    exact ⟨fun call hcall => absurd hcall (by simp), fun nodeId since hlookup => Or.inl hlookup⟩
  | cons table tables ih =>
    rw [visit] at h
    split at h
    · exact (ih h).skip
    rename_i hseen
    split at h
    · exact (ih h).note (not_any_iff.mp hseen)
    · rename_i since hsince
      split at h
      · exact (ih h).skip
      · rename_i hlate
        obtain ⟨answer, rest, rfl, hrest⟩ := returns_perform_bind.mp h
        split at hrest
        · exact (ih hrest).refund hsince hlate
        · exact (ih hrest).refund hsince hlate

/-- **A sweep** is stopped by a failing ping, by a failing list of tables, or visits the tables. -/
theorem sweep_returns (h : (reaper.sweep missing).Returns made (result, missing')) :
    (made = [⟨.ping, false⟩] ∧ result = {} ∧ missing' = missing) ∨
    ∃ (now : Int) (nodes : List NodeInfo) (tables : Option (List TableRecord)) (rest : ReaperCalls),
      made = ⟨.ping, true⟩ :: ⟨.clock, now⟩ :: ⟨.healthyNodes, nodes⟩ ::
        ⟨.listOpenTables 200, tables⟩ :: rest ∧
      Visited reaper now nodes (tables.getD []) (forget missing nodes) rest missing' := by
  obtain ⟨alive, rest, rfl, hrest⟩ := returns_perform_bind.mp h
  cases alive with
  | false =>
    obtain ⟨rfl, heq⟩ := hrest
    obtain ⟨rfl, rfl⟩ := Prod.mk.inj heq
    exact Or.inl ⟨rfl, rfl, rfl⟩
  | true =>
    obtain ⟨now, rest', rfl, hnow⟩ := returns_perform_bind.mp hrest
    obtain ⟨nodes, rest'', rfl, hnodes⟩ := returns_perform_bind.mp hnow
    obtain ⟨tables, rest''', rfl, htables⟩ := returns_perform_bind.mp hnodes
    refine Or.inr ⟨now, nodes, tables, rest''', rfl, ?_⟩
    cases tables with
    | none =>
      obtain ⟨rfl, heq⟩ := htables
      obtain ⟨-, rfl⟩ := Prod.mk.inj heq
      exact ⟨fun call hcall => absurd hcall (by simp), fun nodeId since hlookup => Or.inl hlookup⟩
    | some tables => exact visit_returns htables

end NodeFailureReaper

end PokerServer
