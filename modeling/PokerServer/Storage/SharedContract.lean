import PokerServer.Lib.Runs
import PokerServer.Storage.AlikeAbort
import PokerServer.Storage.AlikeBegin
import PokerServer.Storage.AlikeHands

/-!
# The contract of the two stores

A run makes the same calls on a database and on an in-memory store that begin empty, with the same
users and wallets. `Alike` collects the conditions of the seven calls, on the arguments and the
state before: while every call meets its condition, every call returns the same error, and the
wallets and stacks stay the same (`errors_and_money_agree`).

The two part where a call does not, for instance when a settlement is sent again: the in-memory
store knows it, the database has no hand left to settle (`settlement_sent_again`).
-/

namespace PokerServer

variable {db : MySqlGameStore} {store : InMemoryGameStore} {call : GameStoreCall}

/-- **When the two stores treat a call alike.** Arguments that both refuse at once always are. -/
def Alike (db : MySqlGameStore) (store : InMemoryGameStore) : GameStoreCall → Prop
  | .createTable table => AlikeTable db store table
  | .reserveBuyIn tableId userId seat amount key =>
    ¬ (tableId = 0 ∨ userId = 0 ∨ amount ≤ 0 ∨ key = "" ∨ 96 < key.utf8ByteSize) →
      AlikeBuyIn db store tableId userId seat amount key
  | .cashOut tableId userId key =>
    ¬ (tableId = 0 ∨ userId = 0 ∨ key = "" ∨ 96 < key.utf8ByteSize) →
      AlikeCashOut db store tableId userId key
  | .beginHand hand =>
    ¬ (hand.handId = 0 ∨ hand.tableId = 0 ∨ hand.handNumber = 0 ∨ hand.players.length < 2) →
      AlikeBegin store hand
  | .appendAction action => AlikeAppend db store action
  | .settleHand value => validHandSettlement value = true → AlikeSettle store value
  | .abortTableAndRefund tableId => AlikeAbort db store tableId

/-- **One call.** -/
theorem Corresponds.perform (h : Corresponds db store) (hrange : call.InRange)
    (halike : Alike db store call) :
    (db.perform call).1.error = (store.perform call.op).1.error ∧
      Corresponds (db.perform call).2 (store.perform call.op).2 := by
  cases call with
  | createTable table => exact h.createTable hrange halike
  | reserveBuyIn tableId userId seat amount key => exact h.reserveBuyIn hrange halike
  | cashOut tableId userId key => exact h.cashOut halike
  | beginHand hand => exact h.beginHand hrange halike
  | appendAction action => exact h.appendAction hrange halike
  | settleHand value => exact h.settleHand halike
  | abortTableAndRefund tableId => exact h.abortTableAndRefund halike

/-! ## Runs on both stores -/

structure BothStores where
  db : MySqlGameStore := {}
  store : InMemoryGameStore := {}

/-- A call with its two answers. -/
structure BothAnswers where
  call : GameStoreCall
  mysql : StoreAnswer
  inMemory : StoreAnswer

/-- The transition relation: a call on both stores. -/
def BothStores.Do (both : BothStores) (label : BothAnswers) (both' : BothStores) : Prop :=
  both.db.perform label.call = (label.mysql, both'.db) ∧
    both.store.perform label.call.op = (label.inMemory, both'.store)

/-- Empty stores with these users and wallets. -/
def BothStores.empty (collate : String → String) (users : List UserId) (wallets : Dict UserId Int) :
    BothStores :=
  { db := { collate := collate, users := users, wallets := wallets },
    store := { wallets := wallets } }

/-- The call is in the ranges of the schema and treated alike. -/
def CallsAlike (step : Step BothStores BothAnswers) : Prop :=
  step.label.call.InRange ∧ Alike step.before.db step.before.store step.label.call

variable {collate : String → String} {users : List UserId} {wallets : Dict UserId Int}
  {both both' : BothStores} {label : BothAnswers} {trace : List (Step BothStores BothAnswers)}

/-- **A step keeps the stores corresponding** and returns the same error twice. -/
theorem BothStores.Do.corresponds (h : Corresponds both.db both.store) (hdo : both.Do label both')
    (halike : CallsAlike ⟨both, label, both'⟩) :
    label.mysql.error = label.inMemory.error ∧ Corresponds both'.db both'.store := by
  obtain ⟨hmysql, hmemory⟩ := hdo
  have hstep := h.perform halike.1 halike.2
  rw [hmysql, hmemory] at hstep
  exact hstep

/-! ## Routine calls -/

/-- A new table, a new buy-in that the wallet covers, a new cash-out, a new hand of seated players,
a new action, the settlement of the hand that is being played, or an abort. -/
def routine (db : MySqlGameStore) (store : InMemoryGameStore) : GameStoreCall → Bool
  | .createTable table =>
    table.tableId ≠ 0 ∧ table.createdBy ≠ 0 ∧ table.name ≠ "" ∧ table.nodeId ≠ ""
      ∧ table.config.validateConfig = .ok ∧ table.createdBy ∈ db.users
  | .reserveBuyIn tableId userId _ amount key =>
    (store.ledger.lookup (InMemoryGameStore.ledgerKey userId key)).isNone
      && (db.walletLedger.lookup (userId, db.collate key)).isNone
      && (store.tables.lookup tableId).any (fun table => !table.aborted)
      && (store.wallets.lookup userId).any (fun balance => amount ≤ balance)
  | .cashOut tableId userId key =>
    (db.walletLedger.lookup (userId, db.collate key)).isNone
      && (store.tables.lookup tableId).all (fun table => !table.aborted)
      && (store.wallets.lookup userId).any fun balance =>
        (store.seatStack tableId userId).all fun stack => balance + stack ≤ int64Max
  | .beginHand hand =>
    (store.handStarts.lookup hand.handId).isNone
      && store.handStarts.entries.all (fun entry =>
        !(entry.2.tableId = hand.tableId ∧ entry.2.handNumber = hand.handNumber))
      && decide (hand.players.map (·.userId)).Nodup
      && (store.tables.lookup hand.tableId).all fun table =>
        !table.aborted && hand.players.all fun player =>
          InMemoryGameStore.seatMatches table player.userId player.seat player.startStack
            && player.holeCards.length == 2
  | .appendAction action =>
    !(action.handId = 0 ∨ action.sequence = 0 ∨ action.requestId = 0 ∨ action.userId = 0)
      && (store.handStarts.lookup action.handId).any (fun start =>
        (store.tables.lookup start.tableId).all fun table => !table.aborted)
      && decide (action.userId ∈ db.users)
  | .settleHand value =>
    (store.settlements.lookup value.handId).isNone
      && (store.handStarts.lookup value.handId).any fun start =>
        start.tableId = value.tableId && (store.tables.lookup value.tableId).all fun table =>
          !table.aborted && table.handInProgress && value.players.all fun player =>
            InMemoryGameStore.seatMatches table player.userId player.seat player.startStack
              && start.stackOf player.userId = some player.startStack
  | .abortTableAndRefund tableId =>
    (store.tables.lookup tableId).all fun table => table.seats.entries.all fun entry =>
      (store.wallets.lookup entry.1).all (fun balance => balance + entry.2.stack ≤ int64Max)
        && (db.walletLedger.lookup
          (entry.1, db.collate (MySqlGameStore.crashKey tableId entry.1))).isNone

theorem routine_createTable {table : TableRecord}
    (h : routine db store (.createTable table) = true) : AlikeTable db store table := by
  obtain ⟨htableId, hcreator, hname, hnodeId, hconfig, huser⟩ := of_decide_eq_true h
  exact ⟨htableId, hcreator, hname, hnodeId, hconfig, fun _ => huser⟩

theorem routine_reserveBuyIn {tableId seat : Nat} {userId : UserId} {amount : Int} {key : String}
    (h : routine db store (.reserveBuyIn tableId userId seat amount key) = true) :
    AlikeBuyIn db store tableId userId seat amount key := by
  simp only [routine, Bool.and_eq_true, decide_eq_true_eq, Option.isNone_iff_eq_none,
    Option.any_eq_true, Bool.not_eq_true'] at h
  obtain ⟨⟨⟨hnew, hunused⟩, hopen⟩, balance, hwallet, hcovered⟩ := h
  refine ⟨fun entry hentry => ?_, fun _ => hunused, fun _ => hopen, fun _ _ hnone => ?_,
    fun _ balance' _ hbalance hpoor => ?_⟩
  · rw [hnew] at hentry
    exact absurd hentry (by simp)
  · rw [hwallet] at hnone
    exact absurd hnone (by simp)
  · rw [hwallet, Option.some.injEq] at hbalance
    omega

theorem routine_cashOut {tableId : Nat} {userId : UserId} {key : String}
    (h : routine db store (.cashOut tableId userId key) = true) :
    AlikeCashOut db store tableId userId key := by
  simp only [routine, Bool.and_eq_true, decide_eq_true_eq, Option.isNone_iff_eq_none,
    Option.any_eq_true, Option.all_eq_true, Bool.not_eq_true'] at h
  obtain ⟨⟨hunused, hopen⟩, balance, hwallet, hfits⟩ := h
  refine ⟨fun _ => hunused, fun _ => hopen, fun _ hnone => ?_,
    fun _ table record balance' htable _ hrecord hbalance => ?_⟩
  · rw [hwallet] at hnone
    exact absurd hnone (by simp)
  · rw [hwallet, Option.some.injEq] at hbalance
    rw [← hbalance]
    refine hfits record.stack ?_
    rw [InMemoryGameStore.seatStack, htable, Option.bind_some, hrecord, Option.map_some]

theorem routine_beginHand {hand : HandStartRecord} (h : routine db store (.beginHand hand) = true) :
    AlikeBegin store hand := by
  simp only [routine, Bool.and_eq_true, decide_eq_true_eq, Option.isNone_iff_eq_none,
    Option.all_eq_true, Bool.not_eq_true', List.all_eq_true, decide_eq_false_iff_not] at h
  obtain ⟨⟨⟨hnew, hnumber⟩, hnodup⟩, hseated⟩ := h
  refine ⟨fun hknown => ?_, fun _ table htable => (hseated table htable).1,
    fun _ _ _ _ handId start hstart => hnumber ⟨handId, start⟩ (AList.mem_lookup_iff.mp hstart),
    fun table _ htable _ => ⟨fun _ => hnodup, fun hrefused => absurd ?_ hrefused⟩⟩
  · rw [hnew] at hknown
    exact absurd hknown (by simp)
  · intro player hplayer
    obtain ⟨hmatches, hcards⟩ := (hseated table htable).2 player hplayer
    exact ⟨hmatches, beq_iff_eq.mp hcards⟩

theorem routine_appendAction {action : HandActionRecord}
    (h : routine db store (.appendAction action) = true) : AlikeAppend db store action := by
  simp only [routine, Bool.and_eq_true, decide_eq_true_eq, Option.any_eq_true, Option.all_eq_true,
    Bool.not_eq_true', decide_eq_false_iff_not] at h
  obtain ⟨⟨hids, start, hstart, hopen⟩, huser⟩ := h
  refine ⟨hids, by rw [hstart]; rfl, fun start' table _ hstart' htable haborted => ?_,
    fun _ _ => huser⟩
  rw [hstart, Option.some.injEq] at hstart'
  subst hstart'
  rw [hopen table htable] at haborted
  exact absurd haborted (by simp)

theorem routine_settleHand {value : HandSettlementRecord}
    (h : routine db store (.settleHand value) = true) : AlikeSettle store value := by
  simp only [routine, Bool.and_eq_true, decide_eq_true_eq, Option.isNone_iff_eq_none,
    Option.any_eq_true, Option.all_eq_true, Bool.not_eq_true', List.all_eq_true] at h
  obtain ⟨hunsettled, start, hstart, hthere, hlines⟩ := h
  refine ⟨fun existing hknown => ?_, fun _ hnone => ?_, fun start' table _ _ htable => ?_,
    fun start' table _ hstart' htable => ?_⟩
  · rw [hunsettled] at hknown
    exact absurd hknown (by simp)
  · rw [hstart] at hnone
    exact absurd hnone (by simp)
  · exact (hlines table htable).1
  · rw [hstart, Option.some.injEq] at hstart'
    subst hstart'
    have hall := (hlines table htable).2
    refine iff_of_true (fun player hplayer => (hall player hplayer).1)
      ⟨hthere, fun player hplayer => ⟨(hall player hplayer).2, ?_⟩⟩
    obtain ⟨record, hrecord, -, hstack⟩ :=
      InMemoryGameStore.seatMatches_iff.mp (hall player hplayer).1
    exact ⟨record, hrecord, hstack⟩

theorem routine_abortTableAndRefund {tableId : Nat}
    (h : routine db store (.abortTableAndRefund tableId) = true) : AlikeAbort db store tableId := by
  simp only [routine, Bool.and_eq_true, decide_eq_true_eq, Option.isNone_iff_eq_none,
    Option.all_eq_true, List.all_eq_true] at h
  intro table htable _ user record hrecord
  exact h table htable ⟨user, record⟩ (AList.mem_lookup_iff.mp hrecord)

/-- **Routine calls are treated alike.** -/
theorem alike_of_routine (h : routine db store call = true) : Alike db store call := by
  cases call with
  | createTable table => exact routine_createTable h
  | reserveBuyIn tableId userId seat amount key => exact fun _ => routine_reserveBuyIn h
  | cashOut tableId userId key => exact fun _ => routine_cashOut h
  | beginHand hand => exact fun _ => routine_beginHand h
  | appendAction action => exact routine_appendAction h
  | settleHand value => exact fun _ => routine_settleHand h
  | abortTableAndRefund tableId => exact routine_abortTableAndRefund h

/-! ## Concrete runs -/

/-- `Do`, with the answers that the stores give. -/
def BothStores.performs (both : BothStores) (call : GameStoreCall) :
    Option (BothAnswers × BothStores) :=
  some ({ call := call, mysql := (both.db.perform call).1
          inMemory := (both.store.perform call.op).1 },
    { db := (both.db.perform call).2, store := (both.store.perform call.op).2 })

theorem BothStores.run_of_calls {calls : List GameStoreCall}
    (h : replay BothStores.performs both calls = some (trace, both')) :
    Run BothStores.Do both trace both' := by
  refine replay_run (fun s call label t hperforms => ?_) h
  obtain ⟨rfl, rfl⟩ := Prod.mk.inj (Option.some.inj hperforms)
  exact ⟨rfl, rfl⟩

/-- The call, if both stores have it. -/
def StoreOp.shared : StoreOp → Option GameStoreCall
  | .seedWallet .. => none
  | .createTable table => some (.createTable table)
  | .reserveBuyIn tableId userId seat amount key =>
    some (.reserveBuyIn tableId userId seat amount key)
  | .cashOut tableId userId key => some (.cashOut tableId userId key)
  | .beginHand hand => some (.beginHand hand)
  | .appendAction action => some (.appendAction action)
  | .settleHand value => some (.settleHand value)
  | .abortTableAndRefund tableId => some (.abortTableAndRefund tableId)

/-- Empty stores with two users. -/
def twoUsers : BothStores :=
  .empty id [1, 2] (((∅ : Dict UserId Int).insert 1 1000).insert 2 1000)

/-- The calls of the played hand. -/
def playedCalls : List GameStoreCall := InMemoryGameStore.playedHand.filterMap StoreOp.shared

/-! ## The contract -/

/-- **The stores share one contract on calls that they treat alike.** -/
theorem errors_and_money_agree
    (hwallets : ∀ user balance, wallets.lookup user = some balance →
      user ∈ users ∧ 0 ≤ balance ∧ balance ≤ int64Max)
    (hrun : Run BothStores.Do (BothStores.empty collate users wallets) trace both)
    (halike : ∀ step ∈ trace, CallsAlike step) :
    (∀ step ∈ trace, step.label.mysql.error = step.label.inMemory.error) ∧
      (∀ user, both.db.wallets.lookup user = both.store.wallets.lookup user) ∧
      ∀ tableId user, both.db.seatStack tableId user = both.store.seatStack tableId user := by
  have hempty : Corresponds (BothStores.empty collate users wallets).db
      (BothStores.empty collate users wallets).store := corresponds_empty hwallets
  have hstep : ∀ a l b, Corresponds a.db a.store → BothStores.Do a l b → CallsAlike ⟨a, l, b⟩ →
      Corresponds b.db b.store := fun a l b ha hdo hl => (hdo.corresponds ha hl).2
  have hend : Corresponds both.db both.store := hrun.guarded hempty hstep halike
  refine ⟨fun step hmem => ?_, hend.wallets, hend.seatStack⟩
  obtain ⟨hbefore, hdo⟩ := hrun.guarded_entry hempty hstep halike hmem
  exact (hdo.corresponds hbefore (halike step hmem)).1

theorem twoUsers_wallets (user : UserId) (balance : Int)
    (h : twoUsers.db.wallets.lookup user = some balance) :
    user ∈ twoUsers.db.users ∧ 0 ≤ balance ∧ balance ≤ int64Max := by
  have hall : ∀ entry ∈ twoUsers.db.wallets.entries,
      entry.1 ∈ twoUsers.db.users ∧ 0 ≤ entry.2 ∧ entry.2 ≤ int64Max := by decide
  exact hall ⟨user, balance⟩ (AList.mem_lookup_iff.mp h)

theorem errors_and_money_agree_playedCalls :
    ∃ trace both, Run BothStores.Do twoUsers trace both ∧ (∀ step ∈ trace, CallsAlike step) ∧
      trace.length = 8 ∧ both.db.wallets.lookup 1 = some 1300 ∧
      (∀ step ∈ trace, step.label.mysql.error = step.label.inMemory.error) ∧
      (∀ user, both.db.wallets.lookup user = both.store.wallets.lookup user) ∧
      ∀ tableId user, both.db.seatStack tableId user = both.store.seatStack tableId user := by
  have hcheck : (replay BothStores.performs twoUsers (playedCalls ++
      [.cashOut 7 1 "cash:1", .abortTableAndRefund 7])).any (fun r =>
        decide (r.1.length = 8 ∧ r.2.db.wallets.lookup 1 = some 1300) && r.1.all fun step =>
          decide step.label.call.InRange &&
            routine step.before.db step.before.store step.label.call) = true := by
    decide +kernel
  obtain ⟨⟨trace, both⟩, hreplay, hfacts⟩ := (Option.any_eq_true _ _).mp hcheck
  obtain ⟨hends, hcalls⟩ := Bool.and_eq_true_iff.mp hfacts
  obtain ⟨hlength, hbalance⟩ := of_decide_eq_true hends
  have halike : ∀ step ∈ trace, CallsAlike step := by
    intro step hstep
    obtain ⟨hrange, hroutine⟩ := Bool.and_eq_true_iff.mp (List.all_eq_true.mp hcalls step hstep)
    exact ⟨of_decide_eq_true hrange, alike_of_routine hroutine⟩
  have hrun : Run BothStores.Do twoUsers trace both := BothStores.run_of_calls hreplay
  exact ⟨trace, both, hrun, halike, hlength, hbalance,
    errors_and_money_agree twoUsers_wallets hrun halike⟩

/-- **A settlement that is sent again** is known to the in-memory store and a conflict to the
database, which finds the table waiting already. -/
theorem settlement_sent_again :
    ∃ trace both step, Run BothStores.Do twoUsers trace both ∧
      (∀ step ∈ trace, step.label.call.InRange) ∧ step ∈ trace ∧
      step.label.mysql.error = .conflict ∧ step.label.inMemory.error = .duplicate := by
  have hcheck : (replay BothStores.performs twoUsers (playedCalls ++
      playedCalls.drop 5)).any (fun r =>
        (r.1.all fun step => decide step.label.call.InRange) && r.1.any fun step =>
          decide (step.label.mysql.error = .conflict ∧
            step.label.inMemory.error = .duplicate)) = true := by
    decide +kernel
  obtain ⟨⟨trace, both⟩, hreplay, hfacts⟩ := (Option.any_eq_true _ _).mp hcheck
  obtain ⟨hranges, hparts⟩ := Bool.and_eq_true_iff.mp hfacts
  obtain ⟨step, hstep, herrors⟩ := List.any_eq_true.mp hparts
  obtain ⟨hmysql, hmemory⟩ := of_decide_eq_true herrors
  exact ⟨trace, both, step, BothStores.run_of_calls hreplay,
    fun step hmem => of_decide_eq_true (List.all_eq_true.mp hranges step hmem), hstep, hmysql,
    hmemory⟩

end PokerServer
