import PokerServer.Storage.AlikeMoney

/-!
# Aborts in both stores

`abortTableAndRefund` returns every stack of a table to its wallet: one wallet after the other in
the in-memory store, in one joined update in the database, which also notes each refund in the
ledger and aborts the hand that is being played.
-/

namespace PokerServer

open InMemoryGameStore (ledgerKey refusal refundLoop seatRecords)

variable {db db' : MySqlGameStore} {store store' : InMemoryGameStore} {tableId : Nat}
  {table : StoredTable} {user : UserId} {wallets wallets' : Dict UserId Int}

/-! ## The refund of the in-memory store -/

/-- **What a complete refund does to each wallet**: the first part is about the users with a seat,
the second about all others. -/
theorem refundLoop_lookup : ∀ {records : List SeatRecord} {wallets : Dict UserId Int},
    (records.map (·.userId)).Nodup → refundLoop wallets records = (true, wallets') →
    (∀ record ∈ records, wallets'.lookup record.userId =
      (wallets.lookup record.userId).map fun balance => balance + record.stack) ∧
    ∀ user, user ∉ records.map (·.userId) → wallets'.lookup user = wallets.lookup user
  | [], wallets, _, h => by
    obtain rfl := (Prod.mk.inj h).2
    exact ⟨fun _ hr => absurd hr (by simp), fun _ _ => rfl⟩
  | record :: records, wallets, hnodup, h => by
    rw [List.map_cons, List.nodup_cons] at hnodup
    rw [refundLoop] at h
    cases hwallet : wallets.lookup record.userId with
    | none =>
      rw [hwallet] at h
      exact absurd (congrArg Prod.fst h) (by simp)
    | some balance =>
      rw [hwallet] at h
      obtain ⟨hseated, hothers⟩ := refundLoop_lookup hnodup.2 h
      constructor
      · intro other hother
        rcases List.mem_cons.mp hother with rfl | hother
        · rw [hothers _ hnodup.1, AList.lookup_insert, hwallet, Option.map_some]
        · have hne : other.userId ≠ record.userId := by
            intro heq
            rw [← heq] at hnodup
            exact hnodup.1 (List.mem_map_of_mem hother)
          rw [hseated other hother, AList.lookup_insert_ne hne]
      · intro user huser
        rw [List.map_cons, List.mem_cons, not_or] at huser
        rw [hothers user huser.2, AList.lookup_insert_ne huser.1]

/-- The records that the refund walks name each seated user once. -/
theorem seatRecords_users (table : StoredTable) :
    (seatRecords table).map (·.userId) = table.seats.keys := by
  rw [seatRecords, List.map_map]
  rfl

/-- The refund adds to each wallet the stack of its user. -/
theorem refund_lookup (h : refundLoop wallets (seatRecords table) = (true, wallets'))
    (user : UserId) :
    wallets'.lookup user = (wallets.lookup user).map fun balance =>
      ((table.seats.lookup user).map fun record => balance + record.stack).getD balance := by
  have hnodup : ((seatRecords table).map (·.userId)).Nodup := by
    rw [seatRecords_users]
    exact table.seats.keys_nodup
  obtain ⟨hseated, hothers⟩ := refundLoop_lookup hnodup h
  cases hseat : table.seats.lookup user with
  | none =>
    rw [hothers user]
    · simp
    · rw [seatRecords_users]
      exact AList.lookup_eq_none.mp hseat
  | some record =>
    have hmem : { record with userId := user } ∈ seatRecords table :=
      List.mem_map.mpr ⟨⟨user, record⟩, AList.mem_lookup_iff.mp hseat, rfl⟩
    rw [hseated _ hmem]
    rfl

/-! ## The refund of the database -/

/-- The rows noted for a table: one for each seat whose user has a wallet. -/
theorem mem_crashRefunds {id : UserId × String} {row : WalletLedgerRow} :
    (id, row) ∈ db.crashRefunds tableId ↔
      ∃ user seat balance, db.tableSeats.lookup (tableId, user) = some seat ∧
        db.wallets.lookup user = some balance ∧
        id = (user, db.collate (MySqlGameStore.crashKey tableId user)) ∧
        row = { deltaAmount := seat.stack, balanceAfter := balance, reason := .crashRefund
                referenceId := toString tableId } := by
  unfold MySqlGameStore.crashRefunds
  rw [List.mem_filterMap]
  constructor
  · rintro ⟨⟨⟨other, user⟩, seat⟩, hentry, hrow⟩
    dsimp only at hrow
    split at hrow
    · rename_i heq
      subst heq
      obtain ⟨balance, hbalance, hsame⟩ := Option.map_eq_some_iff.mp hrow
      obtain ⟨rfl, rfl⟩ := Prod.mk.inj hsame
      exact ⟨user, seat, balance, AList.mem_lookup_iff.mpr hentry, hbalance, rfl, rfl⟩
    · exact absurd hrow (by simp)
  · rintro ⟨user, seat, balance, hseat, hbalance, rfl, rfl⟩
    refine ⟨⟨(tableId, user), seat⟩, AList.mem_lookup_iff.mp hseat, ?_⟩
    dsimp only
    rw [if_pos rfl, hbalance, Option.map_some]

/-- No two of them have the same user. -/
theorem nodup_crashRefunds (db : MySqlGameStore) (tableId : Nat) :
    ((db.crashRefunds tableId).map Prod.fst).Nodup := by
  unfold List.Nodup MySqlGameStore.crashRefunds
  rw [List.pairwise_map]
  refine (List.nodupKeys_iff_pairwise.mp db.tableSeats.nodupKeys).filterMap _
    fun entry entry' hne row hrow row' hrow' heq => hne ?_
  split at hrow
  · rename_i htable
    split at hrow'
    · rename_i htable'
      obtain ⟨balance, -, rfl⟩ := Option.map_eq_some_iff.mp hrow
      obtain ⟨balance', -, rfl⟩ := Option.map_eq_some_iff.mp hrow'
      exact Prod.ext (htable.trans htable'.symm) (congrArg Prod.fst heq)
    · exact absurd hrow' (by simp)
  · exact absurd hrow (by simp)

/-- **When an abort is treated alike.** Every seated user's wallet has room for the stack, and no
key of the user is the one under which the refund is noted. -/
def AlikeAbort (db : MySqlGameStore) (store : InMemoryGameStore) (tableId : Nat) : Prop :=
  ∀ table, store.tables.lookup tableId = some table → table.aborted = false →
    ∀ user record, table.seats.lookup user = some record →
      (∀ balance, store.wallets.lookup user = some balance → balance + record.stack ≤ int64Max) ∧
        db.walletLedger.lookup (user, db.collate (MySqlGameStore.crashKey tableId user)) = none

/-- **The refunds of the two stores leave the same wallets.** -/
theorem MoneyCorresponds.refund (h : MoneyCorresponds db store)
    (htable : store.tables.lookup tableId = some table)
    (hloop : refundLoop store.wallets (seatRecords table) = (true, wallets)) (user : UserId) :
    (updateRows (db.refund tableId) db.wallets).lookup user = wallets.lookup user := by
  rw [lookup_updateRows, h.wallets, refund_lookup hloop]
  unfold MySqlGameStore.refund
  rw [h.seats, InMemoryGameStore.holding_of_lookup htable]
  congr 1
  funext balance
  rw [Option.map_map, Option.map_map]
  rfl

/-- The joined update passes its checks. -/
theorem MoneyCorresponds.updateWallets_refund (h : MoneyCorresponds db store)
    (htable : store.tables.lookup tableId = some table) (hopen : table.aborted = false)
    (halike : AlikeAbort db store tableId) :
    db.updateWallets (db.refund tableId) =
      some (affectedRows (db.refund tableId) db.wallets,
        { db with wallets := updateRows (db.refund tableId) db.wallets }) := by
  refine if_pos (writesPass_iff.mpr fun user balance new hbalance hnew => ?_)
  unfold MySqlGameStore.refund at hnew
  rw [h.seats, InMemoryGameStore.holding_of_lookup htable, Option.map_map, Option.map_map] at hnew
  obtain ⟨record, hrecord, rfl⟩ := Option.map_eq_some_iff.mp hnew
  rw [h.wallets] at hbalance
  have hnonneg := h.sound.wallet user balance hbalance
  have hstack := (h.sound.table tableId table htable).stack user record hrecord
  exact decide_eq_true ⟨add_nonneg hnonneg hstack,
    (halike table htable hopen user record hrecord).1 balance hbalance⟩

/-- The refunds can be noted. -/
theorem MoneyCorresponds.insertLedger_refunds (h : MoneyCorresponds db store)
    (htable : store.tables.lookup tableId = some table) (hopen : table.aborted = false)
    (hloop : refundLoop store.wallets (seatRecords table) = (true, wallets))
    (halike : AlikeAbort db store tableId) :
    let refunded := { db with wallets := updateRows (db.refund tableId) db.wallets }
    ∃ ledger, refunded.insertLedger (refunded.crashRefunds tableId) =
        .ok { refunded with walletLedger := ledger } ∧
      ∀ id row, db.walletLedger.lookup id = some row → ledger.lookup id = some row := by
  intro refunded
  -- what a refund that is noted is about
  have hrefund : ∀ id row, (id, row) ∈ refunded.crashRefunds tableId →
      ∃ user record balance, table.seats.lookup user = some record ∧
        store.wallets.lookup user = some balance ∧
        id = (user, db.collate (MySqlGameStore.crashKey tableId user)) ∧
        row.balanceAfter = balance + record.stack := by
    intro id row hmem
    obtain ⟨user, seat, after, hseat, hafter, hid, hrow⟩ := mem_crashRefunds.mp hmem
    have hheld : db.tableSeats.lookup (tableId, user) = some seat := hseat
    rw [h.seats, InMemoryGameStore.holding_of_lookup htable, Option.map_map] at hheld
    obtain ⟨record, hrecord, -⟩ := Option.map_eq_some_iff.mp hheld
    have hpaid : wallets.lookup user = some after := (h.refund htable hloop user).symm.trans hafter
    rw [refund_lookup hloop, hrecord] at hpaid
    obtain ⟨balance, hbalance, hsum⟩ := Option.map_eq_some_iff.mp hpaid
    refine ⟨user, record, balance, hrecord, hbalance, hid, ?_⟩
    rw [hrow, ← hsum]
    rfl
  have hfree : ∀ entry ∈ refunded.crashRefunds tableId,
      refunded.walletLedger.lookup entry.1 = none := by
    rintro ⟨id, row⟩ hmem
    obtain ⟨user, record, balance, hrecord, -, rfl, -⟩ := hrefund id row hmem
    exact (halike table htable hopen user record hrecord).2
  obtain ⟨ledger, hinsert, hlookup⟩ := insertRows_new (nodup_crashRefunds refunded tableId) hfree
  refine ⟨ledger, ?_, fun id row hrow => (hlookup id row).mpr (Or.inr hrow)⟩
  unfold MySqlGameStore.insertLedger
  rw [if_neg ?_, hinsert]
  · refine if_neg ?_
    rw [Bool.not_eq_true, List.any_eq_false]
    rintro ⟨id, row⟩ hmem
    obtain ⟨user, record, balance, -, hbalance, rfl, -⟩ := hrefund id row hmem
    simpa using (h.purse user balance hbalance).1
  · rw [Bool.not_eq_true, List.any_eq_false]
    rintro ⟨id, row⟩ hmem
    obtain ⟨user, record, balance, hrecord, hbalance, -, hafter⟩ := hrefund id row hmem
    have hnonneg := h.sound.wallet user balance hbalance
    have hstack := (h.sound.table tableId table htable).stack user record hrecord
    have hfits := (halike table htable hopen user record hrecord).1 balance hbalance
    simp only [decide_eq_true_eq, not_or, not_lt]
    omega

/-! ## The abort -/

/-- The abort of a table aborts the hand that is played there. -/
theorem HandsCorrespond.abort (h : HandsCorrespond db store)
    (htable : store.tables.lookup tableId = some table) (hopen : table.aborted = false)
    (hsame : InMemoryGameStore.SameHands store store') {new : StoredTable}
    (htables : store'.tables = store.tables.insert tableId new) (haborted : new.aborted = true)
    (hhands : db'.hands = updateRows (MySqlGameStore.abortHands tableId) db.hands)
    (hplayers : db'.handPlayers = db.handPlayers) (hactions : db'.handActions = db.handActions) :
    HandsCorrespond db' store' := by
  refine h.of_sameActions hactions hsame.actions (fun handId => ?_) ?_ ?_
  · rw [hhands, lookup_updateRows, hsame.handStarts]
    cases hstart : store.handStarts.lookup handId with
    | none =>
      have hnone := h.hands handId
      rw [hstart, Option.map_none] at hnone
      rw [Option.map_eq_none_iff.mp hnone]
      rfl
    | some start =>
      have hrow := h.hands handId
      rw [hstart, Option.map_some] at hrow
      obtain ⟨row, hlookup, hstate⟩ := Option.map_eq_some_iff.mp hrow
      obtain ⟨hid, hnumber, hstatus⟩ := HandState.mk.inj hstate
      rw [hlookup, Option.map_some, Option.map_some, Option.map_some, Option.some.injEq]
      unfold InMemoryGameStore.handState HandRow.state MySqlGameStore.abortHands
      rw [hsame.settlements, htables]
      by_cases heq : start.tableId = tableId
      · rw [heq, htable, Option.any_some, hopen] at hstatus
        rw [heq, AList.lookup_insert, Option.any_some, haborted]
        cases hsettled : (store.settlements.lookup handId).isSome with
        | true =>
          rw [hsettled, if_pos rfl] at hstatus
          rw [if_neg (by simp [hstatus]), Option.getD_none, if_pos rfl, hid, heq, hnumber, hstatus]
        | false =>
          rw [hsettled, if_neg (by simp), if_neg (by simp)] at hstatus
          rw [if_pos ⟨hid.trans heq, hstatus⟩, Option.getD_some, if_neg (by simp), if_pos rfl, hid,
            heq, hnumber]
      · rw [AList.lookup_insert_ne heq, if_neg (by rw [hid]; exact fun hc => heq hc.1),
          Option.getD_none]
        exact hstate
  · rw [hsame.handStarts, hsame.settlements]
    exact h.settled
  · rw [hplayers, hsame.handStarts]
    exact h.players

/-- **An abort that is treated alike** returns the same error. -/
theorem Corresponds.abortTableAndRefund (h : Corresponds db store)
    (halike : AlikeAbort db store tableId) :
    (db.abortTableAndRefund tableId).1 = (store.abortTableAndRefund tableId).1 ∧
      Corresponds (db.abortTableAndRefund tableId).2 (store.abortTableAndRefund tableId).2 := by
  have hsound : (store.abortTableAndRefund tableId).2.Sound :=
    sound_perform h.sound (.abortTableAndRefund tableId)
  revert hsound
  unfold InMemoryGameStore.abortTableAndRefund
  cases htable : store.tables.lookup tableId with
  | none =>
    intro _
    unfold MySqlGameStore.abortTableAndRefund
    rw [h.no_row htable]
    exact ⟨rfl, h⟩
  | some table =>
    obtain ⟨row, hrow, hrules⟩ := h.row htable
    obtain ⟨hstatus, -⟩ := rules_inj hrules
    dsimp only
    by_cases haborted : table.aborted = true
    · rw [if_pos haborted]
      rw [status_aborted haborted] at hstatus
      intro _
      unfold MySqlGameStore.abortTableAndRefund
      rw [hrow]
      dsimp only
      rw [if_pos hstatus]
      exact ⟨rfl, h⟩
    rw [if_neg haborted]
    rw [Bool.not_eq_true] at haborted
    obtain ⟨wallets, hloop, -, hkeeps, -⟩ := h.sound.refundLoop htable
    change refundLoop store.wallets (table.seats.entries.map _) = _ at hloop
    rw [hloop]
    dsimp only
    rw [if_pos rfl]
    intro hsound
    obtain ⟨ledger, hnote, hledger⟩ := h.insertLedger_refunds htable haborted hloop halike
    have hpay := h.updateWallets_refund htable haborted halike
    have hopen : row.status = .waiting ∨ row.status = .playing ∨ row.status = .closing := by
      cases hplaying : table.handInProgress with
      | true => exact Or.inr (Or.inl (hstatus.trans (status_playing haborted hplaying)))
      | false => exact Or.inl (hstatus.trans (status_waiting haborted hplaying))
    unfold MySqlGameStore.abortTableAndRefund
    rw [hrow]
    dsimp only
    rw [if_neg (by rcases hopen with hs | hs | hs <;> simp [hs])]
    rw [hpay]
    dsimp only
    rw [hnote]
    dsimp only
    rw [MySqlGameStore.closeTable, affectedRows_atKey, hrow, Option.bind_some, if_pos hopen,
      if_neg (by simp)]
    refine ⟨rfl, ⟨hsound, h.refund htable hloop, fun user balance hbalance => ?_, ?_, ?_, ?_,
      ?_⟩, ?_⟩
    · change wallets.lookup user = some balance at hbalance
      rw [refund_lookup hloop] at hbalance
      obtain ⟨old, hold, hsum⟩ := Option.map_eq_some_iff.mp hbalance
      obtain ⟨huser, hfits⟩ := h.purse user old hold
      refine ⟨huser, ?_⟩
      cases hseat : table.seats.lookup user with
      | none =>
        rw [hseat] at hsum
        exact hsum ▸ hfits
      | some record =>
        rw [hseat] at hsum
        exact hsum ▸ (halike table htable haborted user record hseat).1 old hold
    · refine h.status_write hrow hrules ?_ rfl rfl rfl
      rw [if_pos hopen]
      rfl
    · refine h.seats_write rfl (fun user => ?_) fun other user hne => ?_
      · exact lookup_deleteRows_gone (fun _ => by simp) _
      · exact lookup_deleteRows_kept (fun _ => by simp [hne]) _
    · exact h.real_write rfl rfl
    · intro user key entry hentry
      obtain ⟨hold, hsigned⟩ := h.ledger user key entry hentry
      exact ⟨hledger _ _ hold, hsigned⟩
    · exact h.abort htable haborted ⟨rfl, rfl, rfl⟩ rfl rfl rfl rfl rfl

end PokerServer
