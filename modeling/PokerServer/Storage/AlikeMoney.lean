import PokerServer.Storage.Correspondence

/-!
# Tables and money in both stores

For each call that opens a table or moves money: when the two stores treat it alike (`AlikeTable`,
`AlikeBuyIn`, `AlikeCashOut`, `AlikeAbort`, each a condition on the arguments and the state before),
and that they then return the same error and still correspond.
-/

namespace PokerServer

open InMemoryGameStore (ledgerKey refusal)

variable {db db' : MySqlGameStore} {store store' : InMemoryGameStore} {tableId : Nat}
  {table : StoredTable} {userId : UserId} {key : String}

/-! ## One table is written -/

/-- A write of one table that leaves its `aborted` flag leaves the states of all hands. -/
theorem InMemoryGameStore.handState_write
    (htables : store'.tables = store.tables.insert tableId table)
    (haborted : table.aborted = (store.tables.lookup tableId).any (·.aborted)) {handId : Nat}
    (hsettled : (store'.settlements.lookup handId).isSome =
      (store.settlements.lookup handId).isSome) :
    store'.handState handId = store.handState handId := by
  funext start
  have hflag : (store'.tables.lookup start.tableId).any (·.aborted) =
      (store.tables.lookup start.tableId).any (·.aborted) := by
    rw [htables]
    by_cases heq : start.tableId = tableId
    · rw [heq, AList.lookup_insert, Option.any_some, haborted]
    · rw [AList.lookup_insert_ne heq]
  rw [handState, handState, hsettled, hflag]

/-- A call that leaves the actions alone. -/
theorem HandsCorrespond.of_sameActions (h : HandsCorrespond db store)
    (hactions : db'.handActions = db.handActions) (hsame : store'.actions = store.actions)
    (hhands : ∀ handId, (db'.hands.lookup handId).map HandRow.state =
      (store'.handStarts.lookup handId).map (store'.handState handId))
    (hsettled : ∀ handId, store'.handStarts.lookup handId = none →
      store'.settlements.lookup handId = none)
    (hplayers : ∀ handId user, (db'.handPlayers.lookup (handId, user)).map (·.startStack) =
      (store'.handStarts.lookup handId).bind (·.stackOf user)) : HandsCorrespond db' store' := by
  refine ⟨hhands, hsettled, hplayers, ?_, ?_, ?_⟩
  · rw [hactions, hsame]
    exact h.actions
  · rw [hsame]
    exact h.numbered
  · rw [hsame]
    exact h.requests

/-- Such a write leaves the hands alone. -/
theorem HandsCorrespond.write (h : HandsCorrespond db store)
    (hsame : InMemoryGameStore.SameHands store store')
    (htables : store'.tables = store.tables.insert tableId table)
    (haborted : table.aborted = (store.tables.lookup tableId).any (·.aborted))
    (hhands : db'.hands = db.hands) (hplayers : db'.handPlayers = db.handPlayers)
    (hactions : db'.handActions = db.handActions) : HandsCorrespond db' store' := by
  refine h.of_sameActions hactions hsame.actions (fun handId => ?_) ?_ ?_
  · rw [hhands, hsame.handStarts,
      InMemoryGameStore.handState_write htables haborted (by rw [hsame.settlements])]
    exact h.hands handId
  · rw [hsame.handStarts, hsame.settlements]
    exact h.settled
  · rw [hplayers, hsame.handStarts]
    exact h.players

/-- The row that is written has the rules of the table that is written. -/
theorem MoneyCorresponds.tables_write (h : MoneyCorresponds db store)
    (htables : store'.tables = store.tables.insert tableId table)
    (hrow : (db'.pokerTables.lookup tableId).map PokerTableRow.rules = some table.rules)
    (hrows : ∀ other, other ≠ tableId →
      db'.pokerTables.lookup other = db.pokerTables.lookup other) (other : Nat) :
    (db'.pokerTables.lookup other).map PokerTableRow.rules =
      (store'.tables.lookup other).map StoredTable.rules := by
  rw [htables]
  by_cases heq : other = tableId
  · rw [heq, AList.lookup_insert, hrow, Option.map_some]
  · rw [AList.lookup_insert_ne heq, hrows other heq]
    exact h.tables other

theorem rules_inj {row : PokerTableRow} (h : row.rules = table.rules) :
    row.status = table.rules.status ∧ row.maxPlayers = table.record.config.maxPlayers ∧
      row.minBuyIn = table.record.config.minBuyIn ∧ row.maxBuyIn = table.record.config.maxBuyIn :=
  TableRules.mk.inj h

/-- The status of an open table without a hand. -/
theorem status_waiting (hopen : table.aborted = false) (hidle : table.handInProgress = false) :
    table.rules.status = .waiting := by
  simp [StoredTable.rules, hopen, hidle]

theorem status_playing (hopen : table.aborted = false) (hplaying : table.handInProgress = true) :
    table.rules.status = .playing := by
  simp [StoredTable.rules, hopen, hplaying]

theorem status_aborted (haborted : table.aborted = true) : table.rules.status = .aborted := by
  simp [StoredTable.rules, haborted]

/-- The row of a table and the table get another status. -/
theorem MoneyCorresponds.status_write (h : MoneyCorresponds db store) {new : StoredTable}
    {row : PokerTableRow} {set : PokerTableRow → Option PokerTableRow}
    (hrow : db.pokerTables.lookup tableId = some row) (hrules : row.rules = table.rules)
    (hset : set row = some { row with status := new.rules.status })
    (htables : store'.tables = store.tables.insert tableId new)
    (hrecord : new.record = table.record)
    (hrows : db'.pokerTables = updateRows (atKey tableId set) db.pokerTables) (other : Nat) :
    (db'.pokerTables.lookup other).map PokerTableRow.rules =
      (store'.tables.lookup other).map StoredTable.rules := by
  obtain ⟨-, hmax, hlow, hhigh⟩ := rules_inj hrules
  refine h.tables_write htables ?_ (fun other hne => ?_) other
  · rw [hrows, lookup_atKey set hrow hset, AList.lookup_insert, Option.map_some,
      PokerTableRow.rules, hmax, hlow, hhigh, ← hrecord]
    rfl
  · rw [hrows, lookup_atKey_ne hne]

/-- The seats of the table that is written have their rows. -/
theorem MoneyCorresponds.seats_write (h : MoneyCorresponds db store)
    (htables : store'.tables = store.tables.insert tableId table)
    (hown : ∀ user, db'.tableSeats.lookup (tableId, user) =
      ((table.seats.lookup user).map fun record => (record.seat, record.stack)).map TableSeatRow.of)
    (hothers : ∀ other user, other ≠ tableId →
      db'.tableSeats.lookup (other, user) = db.tableSeats.lookup (other, user))
    (other : Nat) (user : UserId) :
    db'.tableSeats.lookup (other, user) = (store'.holding other user).map TableSeatRow.of := by
  rw [InMemoryGameStore.holding_insert htables]
  split
  · rename_i heq
    rw [heq]
    exact hown user
  · rename_i hne
    rw [hothers other user hne]
    exact h.seats other user

/-- User 0 is not seated by the write. -/
theorem MoneyCorresponds.real_write (h : MoneyCorresponds db store)
    (htables : store'.tables = store.tables.insert tableId table)
    (hown : table.seats.lookup 0 = none) (other : Nat) : store'.holding other 0 = none := by
  rw [InMemoryGameStore.holding_insert htables]
  split
  · rw [hown, Option.map_none]
  · exact h.real other

theorem MoneyCorresponds.seat_zero (h : MoneyCorresponds db store)
    (htable : store.tables.lookup tableId = some table) : table.seats.lookup 0 = none :=
  (InMemoryGameStore.holding_eq_none htable 0).mp (h.real tableId)

/-- A key that is new to both ledgers gets its entry and its row. -/
theorem MoneyCorresponds.ledger_write (h : MoneyCorresponds db store) {new : LedgerResult}
    (hunused : db.walletLedger.lookup (userId, db.collate key) = none) (hsigned : new.Signed)
    (user : UserId) (other : String) (entry : LedgerResult)
    (hentry : (store.ledger.insert (ledgerKey userId key) new).lookup (ledgerKey user other) =
      some entry) :
    (db.walletLedger.insert (userId, db.collate key) (WalletLedgerRow.of new)).lookup
        (user, db.collate other) = some (WalletLedgerRow.of entry) ∧ entry.Signed := by
  by_cases heq : ledgerKey user other = ledgerKey userId key
  · rw [heq, AList.lookup_insert, Option.some.injEq] at hentry
    obtain ⟨rfl, rfl⟩ := InMemoryGameStore.ledgerKey_injective heq
    subst hentry
    exact ⟨AList.lookup_insert _, hsigned⟩
  · rw [AList.lookup_insert_ne heq] at hentry
    obtain ⟨hrow, hold⟩ := h.ledger user other entry hentry
    refine ⟨?_, hold⟩
    rw [AList.lookup_insert_ne fun hsame => ?_]
    · exact hrow
    · rw [hsame, hunused] at hrow
      exact absurd hrow (by simp)

/-- The wallet that is written stays within its column. -/
theorem MoneyCorresponds.purse_write (h : MoneyCorresponds db store) {balance new : Int}
    (hwallet : store.wallets.lookup userId = some balance) (hfits : new ≤ int64Max)
    (user : UserId) (after : Int)
    (hafter : (store.wallets.insert userId new).lookup user = some after) :
    user ∈ db.users ∧ after ≤ int64Max := by
  by_cases heq : user = userId
  · rw [heq, AList.lookup_insert, Option.some.injEq] at hafter
    exact ⟨heq ▸ (h.purse userId balance hwallet).1, hafter ▸ hfits⟩
  · rw [AList.lookup_insert_ne heq] at hafter
    exact h.purse user after hafter

theorem sound_perform (h : store.Sound) (call : GameStoreCall) : (store.perform call.op).2.Sound :=
  (InMemoryGameStore.perform_performed rfl).sound h

/-! ## Tables -/

/-- **The in-memory store accepts the record, and the creator is a user**, unless the id is
taken. -/
structure AlikeTable (db : MySqlGameStore) (store : InMemoryGameStore) (table : TableRecord) :
    Prop where
  tableId : table.tableId ≠ 0
  creator : table.createdBy ≠ 0
  name : table.name ≠ ""
  nodeId : table.nodeId ≠ ""
  config : table.config.validateConfig = .ok
  user : store.tables.lookup table.tableId = none → table.createdBy ∈ db.users

theorem Corresponds.createTable (h : Corresponds db store) {table : TableRecord}
    (hrange : (GameStoreCall.createTable table).InRange) (halike : AlikeTable db store table) :
    (db.createTable table).1 = (store.createTable table).1 ∧
      Corresponds (db.createTable table).2 (store.createTable table).2 := by
  obtain ⟨htableId, hcreator, hname, hnodeId, hconfig, huser⟩ := halike
  obtain ⟨hlength, hlength', -⟩ := hrange
  have hchecks : ¬ (table.config.minPlayers < 2 ∨ table.config.maxPlayers < table.config.minPlayers
      ∨ 6 < table.config.maxPlayers ∨ table.config.smallBlind ≤ 0
      ∨ table.config.bigBlind < table.config.smallBlind * 2 ∨ table.config.minBuyIn ≤ 0
      ∨ table.config.maxBuyIn < table.config.minBuyIn) := by
    intro hbad
    rw [TableConfig.validateConfig, if_pos hbad] at hconfig
    exact absurd hconfig (by simp)
  have hsound : (store.createTable table).2.Sound := sound_perform h.sound (.createTable table)
  unfold MySqlGameStore.createTable MySqlGameStore.insertTable
  rw [if_neg (by omega)]
  revert hsound
  unfold InMemoryGameStore.createTable
  rw [if_neg (by simp [htableId, hcreator, hname, hnodeId, hconfig])]
  cases htable : store.tables.lookup table.tableId with
  | some found =>
    intro _
    obtain ⟨row, hrow, -⟩ := h.row htable
    rw [hrow]
    exact ⟨rfl, h⟩
  | none =>
    rw [h.no_row htable, if_neg (by simp), if_neg (by simp), if_neg (not_not.mpr (huser htable))]
    dsimp only
    intro hsound
    refine ⟨rfl,
      { h.toMoneyCorresponds with sound := hsound, tables := ?_, seats := ?_, real := ?_ },
      h.write ⟨rfl, rfl, rfl⟩ rfl (by rw [htable]; rfl) rfl rfl rfl⟩
    · refine h.tables_write rfl ?_ fun other hne => AList.lookup_insert_ne hne
      rw [AList.lookup_insert]
      rfl
    · refine h.seats_write rfl (fun user => ?_) fun _ _ _ => rfl
      rw [h.seats, InMemoryGameStore.holding, htable]
      rfl
    · exact h.real_write rfl rfl

/-! ## Buy-ins -/

theorem toString_injective {a b : Nat} (h : toString a = toString b) : a = b := by
  have hkeys : ledgerKey a "" = ledgerKey b "" := by rw [ledgerKey, ledgerKey, h]
  exact (InMemoryGameStore.ledgerKey_injective hkeys).1

/-- The row of a buy-in at the table answers a repetition with the same amount. -/
theorem replayBuyIn_of {entry : LedgerResult} {amount : Int} (hsigned : entry.Signed)
    (hkind : entry.kind = .buyIn) (htable : entry.tableId = tableId)
    (hchips : entry.chips = amount) :
    MySqlGameStore.replayBuyIn (some (WalletLedgerRow.of entry)) tableId amount =
      { error := .ok
        value := some { walletBalance := entry.walletBalance, tableStack := entry.chips } } := by
  have hpositive := hsigned.2 hkind
  simp only [MySqlGameStore.replayBuyIn, WalletLedgerRow.of, hkind, htable, ne_eq, not_true,
    false_or, neg_neg]
  rw [if_neg (by omega)]

/-- Any other row refuses it. -/
theorem replayBuyIn_reused {entry : LedgerResult} {amount : Int}
    (h : ¬ (entry.kind = .buyIn ∧ entry.tableId = tableId ∧ entry.chips = amount)) :
    MySqlGameStore.replayBuyIn (some (WalletLedgerRow.of entry)) tableId amount =
      refusal .conflict "idempotency key was reused" := by
  unfold MySqlGameStore.replayBuyIn
  refine if_pos ?_
  cases hkind : entry.kind with
  | cashOut => exact Or.inl (by simp [WalletLedgerRow.of, hkind])
  | buyIn =>
    by_cases htable : entry.tableId = tableId
    · refine Or.inr (Or.inr (Or.inr ?_))
      simp only [WalletLedgerRow.of, hkind, neg_neg]
      exact fun hchips => h ⟨hkind, htable, hchips⟩
    · refine Or.inr (Or.inl ?_)
      simp only [WalletLedgerRow.of, hkind]
      exact fun heq => htable (toString_injective heq)

/-- The in-memory store answers a repetition while the seat still is as it was bought. -/
theorem InMemoryGameStore.replayBuyIn_ok {seat : Nat} {amount : Int} {entry : LedgerResult} :
    (store.replayBuyIn tableId userId seat amount entry).error = .ok ↔
      entry.IsBuyIn tableId seat amount ∧ store.holding tableId userId = some (seat, amount) := by
  constructor
  · intro hok
    rcases store.replayBuyIn_cases tableId userId seat amount entry with ⟨hconflict, -⟩ |
      ⟨hsame, heq⟩
    · exact absurd (hok.symm.trans hconflict) (by simp)
    · exact replayBuyIn_holding (congrArg StorageResult.value heq)
  · rintro ⟨⟨hkind, htable, hchips, hseat⟩, hheld⟩
    unfold replayBuyIn
    rw [if_neg (by simp [hkind, htable, hchips, hseat])]
    cases hlookup : store.tables.lookup tableId with
    | none =>
      rw [holding, hlookup] at hheld
      exact absurd hheld (by simp)
    | some table =>
      rw [holding_of_lookup hlookup] at hheld
      obtain ⟨record, hrecord, heq⟩ := Option.map_eq_some_iff.mp hheld
      obtain ⟨hnumber, hstack⟩ := Prod.mk.inj heq
      dsimp only
      rw [hrecord, if_pos (by simp [hnumber, hstack])]

theorem InMemoryGameStore.replayBuyIn_conflict {seat : Nat} {amount : Int} {entry : LedgerResult}
    (h : ¬ (entry.IsBuyIn tableId seat amount ∧
      store.holding tableId userId = some (seat, amount))) :
    (store.replayBuyIn tableId userId seat amount entry).error = .conflict := by
  rcases store.replayBuyIn_cases tableId userId seat amount entry with ⟨hconflict, -⟩ | ⟨-, heq⟩
  · exact hconflict
  · exact absurd (replayBuyIn_ok.mp (congrArg StorageResult.error heq)) h

/-- **When a buy-in is treated alike.** A repetition with the amount of the first one, by a user
who is in the seat it names, finds the seat as it was bought (`replay`). A new key is new to the
database too (`unused`), and the table is open (`opened`): the in-memory store looks for the wallet
before the state of the table (`walletless`), and at the seat before the balance (`poor`). -/
structure AlikeBuyIn (db : MySqlGameStore) (store : InMemoryGameStore) (tableId : Nat)
    (userId : UserId) (seat : Nat) (amount : Int) (key : String) : Prop where
  replay : ∀ entry, store.ledger.lookup (ledgerKey userId key) = some entry →
    entry.kind = .buyIn → entry.tableId = tableId → entry.chips = amount →
    ∀ stack, store.holding tableId userId = some (seat, stack) → entry.seat = seat ∧ stack = amount
  unused : store.ledger.lookup (ledgerKey userId key) = none →
    db.walletLedger.lookup (userId, db.collate key) = none
  opened : store.ledger.lookup (ledgerKey userId key) = none →
    ∃ table, store.tables.lookup tableId = some table ∧ table.aborted = false
  walletless : ∀ table, store.tables.lookup tableId = some table →
    store.wallets.lookup userId = none → store.ledger.lookup (ledgerKey userId key) = none →
    table.handInProgress = false ∧ seat < table.record.config.maxPlayers ∧
      table.record.config.minBuyIn ≤ amount ∧ amount ≤ table.record.config.maxBuyIn
  poor : ∀ table balance, store.tables.lookup tableId = some table →
    store.wallets.lookup userId = some balance → balance < amount →
    store.ledger.lookup (ledgerKey userId key) = none →
    table.handInProgress = false → seat < table.record.config.maxPlayers →
    table.record.config.minBuyIn ≤ amount → amount ≤ table.record.config.maxBuyIn →
    table.seats.lookup userId = none ∧ table.occupiedSeats.lookup seat = none

/-- A repeated buy-in is treated alike. -/
theorem MoneyCorresponds.replayBuyIn (h : MoneyCorresponds db store) {seat : Nat} {amount : Int}
    {entry : LedgerResult} (hentry : store.ledger.lookup (ledgerKey userId key) = some entry)
    (halike : AlikeBuyIn db store tableId userId seat amount key)
    (hargs : ¬ (tableId = 0 ∨ userId = 0 ∨ amount ≤ 0 ∨ key = "" ∨ 96 < key.utf8ByteSize)) :
    (db.reserveBuyIn tableId userId seat amount key).1.error =
        (store.replayBuyIn tableId userId seat amount entry).error ∧
      (db.reserveBuyIn tableId userId seat amount key).2 = db := by
  obtain ⟨hrow, hsigned⟩ := h.ledger userId key entry hentry
  unfold MySqlGameStore.reserveBuyIn MySqlGameStore.queryLedger
  rw [if_neg hargs, hrow]
  by_cases hsame : entry.kind = .buyIn ∧ entry.tableId = tableId ∧ entry.chips = amount
  · obtain ⟨hkind, htable, hchips⟩ := hsame
    rw [replayBuyIn_of hsigned hkind htable hchips]
    dsimp only
    rw [if_pos (by simp), h.seats]
    cases hheld : store.holding tableId userId with
    | none =>
      rw [InMemoryGameStore.replayBuyIn_conflict fun hok => by simp [hheld] at hok]
      exact ⟨rfl, rfl⟩
    | some held =>
      obtain ⟨number, stack⟩ := held
      by_cases hnumber : number = seat
      · subst hnumber
        obtain ⟨hseat, rfl⟩ := halike.replay entry hentry hkind htable hchips stack hheld
        rw [InMemoryGameStore.replayBuyIn_ok.mpr ⟨⟨hkind, htable, hchips, hseat⟩, hheld⟩,
          if_neg (by simp [TableSeatRow.of])]
        exact ⟨rfl, rfl⟩
      · rw [InMemoryGameStore.replayBuyIn_conflict fun hok => hnumber
            (congrArg Prod.fst (Option.some.inj (hheld.symm.trans hok.2))),
          if_pos (by simp [TableSeatRow.of, hnumber])]
        exact ⟨rfl, rfl⟩
  · rw [replayBuyIn_reused hsame, InMemoryGameStore.replayBuyIn_conflict fun hok =>
      hsame ⟨hok.1.1, hok.1.2.1, hok.1.2.2.1⟩]
    exact ⟨rfl, rfl⟩

/-- The two unique keys of `table_seats` against the two maps of a table. -/
theorem MoneyCorresponds.taken_iff (h : MoneyCorresponds db store)
    (htable : store.tables.lookup tableId = some table) (userId : UserId) (seat : Nat) :
    ((db.tableSeats.lookup (tableId, userId)).isSome = true ∨
        anyRow (fun key other => key.1 = tableId ∧ other.seatNo = seat) db.tableSeats = true) ↔
      ((table.seats.lookup userId).isSome = true ∨
        (table.occupiedSeats.lookup seat).isSome = true) := by
  have hseated : (db.tableSeats.lookup (tableId, userId)).isSome = true ↔
      (table.seats.lookup userId).isSome = true := by
    rw [h.seats, InMemoryGameStore.holding_of_lookup htable, Option.isSome_map, Option.isSome_map]
  have hnumber : anyRow (fun key other => key.1 = tableId ∧ other.seatNo = seat) db.tableSeats =
      true ↔ (table.occupiedSeats.lookup seat).isSome = true := by
    rw [InMemoryGameStore.occupied_iff h.sound htable, anyRow_iff]
    constructor
    · rintro ⟨⟨other, user⟩, row, hrow, hcond⟩
      obtain ⟨rfl, hseat⟩ := of_decide_eq_true hcond
      rw [h.seats] at hrow
      obtain ⟨⟨number, stack⟩, hheld, rfl⟩ := Option.map_eq_some_iff.mp hrow
      obtain rfl : number = seat := hseat
      exact ⟨user, stack, hheld⟩
    · rintro ⟨user, stack, hheld⟩
      refine ⟨(tableId, user), TableSeatRow.of (seat, stack), ?_, by simp [TableSeatRow.of]⟩
      rw [h.seats, hheld, Option.map_some]
  rw [hseated, hnumber]

/-- The wallet of a user is written, within its bounds. -/
theorem updateWallets_atKey (db : MySqlGameStore) (set : Int → Option Int) {balance new : Int}
    (hbalance : db.wallets.lookup userId = some balance) (hset : set balance = some new)
    (hnonneg : 0 ≤ new) (hfits : new ≤ int64Max) :
    db.updateWallets (atKey userId set) =
      some (1, { db with wallets := updateRows (atKey userId set) db.wallets }) := by
  unfold MySqlGameStore.updateWallets
  rw [writesPass_atKey, affectedRows_atKey, hbalance, Option.bind_some, hset]
  exact if_pos (by simp [hnonneg, hfits])

/-- One row is noted in the ledger. -/
theorem insertLedger_one (db : MySqlGameStore) (row : WalletLedgerRow) {id : String}
    (hunused : db.walletLedger.lookup (userId, id) = none) (huser : userId ∈ db.users)
    (hnonneg : 0 ≤ row.balanceAfter) (hfits : row.balanceAfter ≤ int64Max) :
    db.insertLedger [((userId, id), row)] =
      .ok { db with walletLedger := db.walletLedger.insert (userId, id) row } := by
  unfold MySqlGameStore.insertLedger
  rw [if_neg (by simp [hnonneg, hfits]), insertRows_singleton hunused]
  exact if_neg (by simp [huser])

/-- The transaction of a buy-in that passes every check. -/
theorem buyIn_ok {seat : Nat} {amount balance : Int} {row : PokerTableRow}
    (hrow : db.pokerTables.lookup tableId = some row) (hstatus : row.status = .waiting)
    (hrules : ¬ (row.maxPlayers ≤ seat ∨ amount < row.minBuyIn ∨ row.maxBuyIn < amount))
    (hbalance : db.wallets.lookup userId = some balance) (hpositive : 0 < amount)
    (hcovered : amount ≤ balance) (hfits : balance ≤ int64Max) (hseat : seat ≤ 255)
    (hfree : ¬ ((db.tableSeats.lookup (tableId, userId)).isSome = true ∨
      anyRow (fun key other => key.1 = tableId ∧ other.seatNo = seat) db.tableSeats = true))
    (huser : userId ∈ db.users)
    (hunused : db.walletLedger.lookup (userId, db.collate key) = none) :
    db.buyIn tableId userId seat amount key =
      ({ error := .ok
         value := some { walletBalance := balance - amount, tableStack := amount } },
       { db with
         tableSeats := db.tableSeats.insert (tableId, userId) (TableSeatRow.of (seat, amount))
         wallets := updateRows (atKey userId fun balance =>
           if amount ≤ balance then some (balance - amount) else none) db.wallets
         walletLedger := db.walletLedger.insert (userId, db.collate key)
           { deltaAmount := -amount, balanceAfter := balance - amount, reason := .tableBuyIn
             referenceId := toString tableId } }) := by
  have hnonneg : 0 ≤ balance - amount := by omega
  have hbound : balance - amount ≤ int64Max := by omega
  have hinsert : db.insertSeat tableId userId
      { seatNo := seat, stack := amount, handStartStack := amount } = .ok { db with
      tableSeats := db.tableSeats.insert (tableId, userId) (TableSeatRow.of (seat, amount)) } := by
    unfold MySqlGameStore.insertSeat TableSeatRow.of
    rw [hrow, if_neg (by simp; omega), if_neg hfree, if_neg (not_not.mpr huser)]
  have hpay := updateWallets_atKey { db with
      tableSeats := db.tableSeats.insert (tableId, userId) (TableSeatRow.of (seat, amount)) }
    (fun balance => if amount ≤ balance then some (balance - amount) else none)
    hbalance (if_pos hcovered) hnonneg hbound
  have hnote := insertLedger_one { db with
      tableSeats := db.tableSeats.insert (tableId, userId) (TableSeatRow.of (seat, amount))
      wallets := updateRows (atKey userId fun balance =>
        if amount ≤ balance then some (balance - amount) else none) db.wallets }
    { deltaAmount := -amount, balanceAfter := balance - amount, reason := .tableBuyIn
      referenceId := toString tableId } hunused huser hnonneg hbound
  unfold MySqlGameStore.buyIn
  rw [hrow, Option.filter_some, if_pos (by simp [hstatus])]
  dsimp only
  rw [if_neg hrules, hbalance]
  dsimp only
  rw [if_neg (by omega)]
  rw [hinsert]
  dsimp only
  rw [hpay]
  dsimp only
  rw [if_neg (by simp), hnote]

/-- The transaction of a buy-in whose seat or user is taken. -/
theorem buyIn_taken {seat : Nat} {amount balance : Int} {row : PokerTableRow}
    (hrow : db.pokerTables.lookup tableId = some row) (hstatus : row.status = .waiting)
    (hrules : ¬ (row.maxPlayers ≤ seat ∨ amount < row.minBuyIn ∨ row.maxBuyIn < amount))
    (hbalance : db.wallets.lookup userId = some balance) (hpositive : 0 < amount)
    (hcovered : amount ≤ balance) (hseat : seat ≤ 255)
    (htaken : (db.tableSeats.lookup (tableId, userId)).isSome = true ∨
      anyRow (fun key other => key.1 = tableId ∧ other.seatNo = seat) db.tableSeats = true)
    (hunused : db.walletLedger.lookup (userId, db.collate key) = none) :
    db.buyIn tableId userId seat amount key =
      (refusal .conflict "seat could not be reserved", db) := by
  have hinsert : db.insertSeat tableId userId
      { seatNo := seat, stack := amount, handStartStack := amount } = .error .duplicateEntry := by
    unfold MySqlGameStore.insertSeat
    rw [hrow, if_neg (by simp; omega), if_pos htaken]
  unfold MySqlGameStore.buyIn
  rw [hrow, Option.filter_some, if_pos (by simp [hstatus])]
  dsimp only
  rw [if_neg hrules, hbalance]
  dsimp only
  rw [if_neg (by omega)]
  rw [hinsert]
  dsimp only
  rw [MySqlGameStore.queryLedger, hunused]
  rfl

/-- **A buy-in that is treated alike** returns the same error. -/
theorem Corresponds.reserveBuyIn (h : Corresponds db store) {seat : Nat} {amount : Int}
    (hrange : seat ≤ 255)
    (halike : ¬ (tableId = 0 ∨ userId = 0 ∨ amount ≤ 0 ∨ key = "" ∨ 96 < key.utf8ByteSize) →
      AlikeBuyIn db store tableId userId seat amount key) :
    (db.reserveBuyIn tableId userId seat amount key).1.error =
        (store.reserveBuyIn tableId userId seat amount key).1.error ∧
      Corresponds (db.reserveBuyIn tableId userId seat amount key).2
        (store.reserveBuyIn tableId userId seat amount key).2 := by
  have hsound : (store.reserveBuyIn tableId userId seat amount key).2.Sound :=
    sound_perform h.sound (.reserveBuyIn tableId userId seat amount key)
  by_cases hargs : tableId = 0 ∨ userId = 0 ∨ amount ≤ 0 ∨ key = "" ∨ 96 < key.utf8ByteSize
  · unfold MySqlGameStore.reserveBuyIn InMemoryGameStore.reserveBuyIn
    rw [if_pos hargs, if_pos hargs]
    exact ⟨rfl, h⟩
  specialize halike hargs
  cases hentry : store.ledger.lookup (ledgerKey userId key) with
  | some entry =>
    obtain ⟨herror, hstay⟩ := h.replayBuyIn hentry halike hargs
    rw [herror, hstay]
    unfold InMemoryGameStore.reserveBuyIn
    dsimp only
    rw [if_neg hargs, hentry]
    exact ⟨rfl, h⟩
  | none =>
    have hunused := halike.unused hentry
    have hfresh : db.reserveBuyIn tableId userId seat amount key =
        db.buyIn tableId userId seat amount key := by
      unfold MySqlGameStore.reserveBuyIn MySqlGameStore.queryLedger
      rw [if_neg hargs, hunused]
      rfl
    obtain ⟨table, htable, hopen⟩ := halike.opened hentry
    obtain ⟨row, hrow, hrules⟩ := h.row htable
    rw [hfresh]
    revert hsound
    unfold InMemoryGameStore.reserveBuyIn
    dsimp only
    rw [if_neg hargs, hentry, htable]
    obtain ⟨hstatus, hmax, hlow, hhigh⟩ := rules_inj hrules
    cases hwallet : store.wallets.lookup userId with
    | none =>
      obtain ⟨hidle, hinside, hatLeast, hatMost⟩ := halike.walletless table htable hwallet hentry
      rw [status_waiting hopen hidle] at hstatus
      intro _
      unfold MySqlGameStore.buyIn
      rw [hrow, Option.filter_some, if_pos (by simp [hstatus])]
      dsimp only
      rw [if_neg (by omega), h.wallets, hwallet]
      exact ⟨rfl, h⟩
    | some balance =>
      have hbalance : db.wallets.lookup userId = some balance := (h.wallets userId).trans hwallet
      obtain ⟨huser, hfits⟩ := h.purse userId balance hwallet
      dsimp only
      rw [if_neg (by simp [hopen])]
      by_cases hplaying : table.handInProgress = true
      · rw [if_pos hplaying]
        rw [status_playing hopen hplaying] at hstatus
        intro _
        unfold MySqlGameStore.buyIn
        rw [hrow, Option.filter_some, if_neg (by simp [hstatus])]
        exact ⟨rfl, h⟩
      rw [if_neg hplaying]
      rw [Bool.not_eq_true] at hplaying
      rw [status_waiting hopen hplaying] at hstatus
      by_cases houtside : table.record.config.maxPlayers ≤ seat
          ∨ amount < table.record.config.minBuyIn ∨ table.record.config.maxBuyIn < amount
      · rw [if_pos houtside]
        intro _
        unfold MySqlGameStore.buyIn
        rw [hrow, Option.filter_some, if_pos (by simp [hstatus])]
        dsimp only
        rw [if_pos (by omega)]
        exact ⟨rfl, h⟩
      rw [if_neg houtside]
      have hinside : ¬ (row.maxPlayers ≤ seat ∨ amount < row.minBuyIn ∨ row.maxBuyIn < amount) := by
        omega
      have htaken := h.taken_iff htable userId seat
      by_cases hseat : (table.seats.lookup userId).isSome ∨ (table.occupiedSeats.lookup seat).isSome
      · rw [if_pos hseat]
        have hcovered : amount ≤ balance := by
          by_contra hpoor
          obtain ⟨hnone, hfree⟩ := halike.poor table balance htable hwallet (by omega) hentry
            hplaying
            (by omega) (by omega) (by omega)
          rw [hnone, hfree] at hseat
          exact absurd hseat (by simp)
        intro _
        rw [buyIn_taken hrow hstatus hinside hbalance (by omega) hcovered hrange (htaken.mpr hseat)
          hunused]
        exact ⟨rfl, h⟩
      rw [if_neg hseat]
      by_cases hpoor : balance < amount
      · rw [if_pos hpoor]
        intro _
        unfold MySqlGameStore.buyIn
        rw [hrow, Option.filter_some, if_pos (by simp [hstatus])]
        dsimp only
        rw [if_neg hinside, hbalance]
        dsimp only
        rw [if_pos hpoor]
        exact ⟨rfl, h⟩
      rw [if_neg hpoor]
      intro hsound
      rw [buyIn_ok hrow hstatus hinside hbalance (by omega) (by omega) hfits hrange
        (fun h => hseat (htaken.mp h)) huser hunused]
      refine ⟨rfl, ⟨hsound, fun user => ?_, ?_, ?_, ?_, ?_, ?_⟩, ?_⟩
      · dsimp only
        rw [lookup_atKey _ hbalance (if_pos (by omega))]
        exact lookup_insert_congr h.wallets _ _ _
      · exact h.purse_write hwallet (by omega)
      · refine h.tables_write rfl ?_ fun _ _ => rfl
        rw [hrow, Option.map_some, hrules]
        rfl
      · refine h.seats_write rfl (fun user => ?_) fun other user hne => ?_
        · dsimp only
          by_cases heq : user = userId
          · rw [heq, AList.lookup_insert, AList.lookup_insert]
            rfl
          · rw [AList.lookup_insert_ne heq, AList.lookup_insert_ne (by simp [heq]), h.seats,
              InMemoryGameStore.holding_of_lookup htable]
        · exact AList.lookup_insert_ne (by simp [hne])
      · refine h.real_write rfl ?_
        rw [AList.lookup_insert_ne fun heq => hargs (Or.inr (Or.inl heq.symm))]
        exact h.seat_zero htable
      · exact h.ledger_write hunused ⟨by dsimp only; omega, fun _ => by dsimp only; omega⟩
      · exact h.write ⟨rfl, rfl, rfl⟩ rfl (by rw [htable]; rfl) rfl rfl rfl

/-! ## Cash-outs -/

/-- The row of a cash-out at the table answers a repetition. -/
theorem replayCashOut_of {entry : LedgerResult} (hsigned : entry.Signed)
    (hkind : entry.kind = .cashOut) (htable : entry.tableId = tableId) :
    MySqlGameStore.replayCashOut (some (WalletLedgerRow.of entry)) tableId =
      { error := .ok
        value := some { walletBalance := entry.walletBalance, returnedStack := entry.chips } } := by
  have hnonneg := hsigned.1
  simp only [MySqlGameStore.replayCashOut, WalletLedgerRow.of, hkind, htable, ne_eq, not_true,
    false_or]
  rw [if_neg (by omega)]

/-- Any other row refuses it. -/
theorem replayCashOut_reused {entry : LedgerResult}
    (h : entry.kind ≠ .cashOut ∨ entry.tableId ≠ tableId) :
    MySqlGameStore.replayCashOut (some (WalletLedgerRow.of entry)) tableId =
      refusal .conflict "idempotency key was reused" := by
  unfold MySqlGameStore.replayCashOut
  refine if_pos ?_
  cases hkind : entry.kind with
  | buyIn => exact Or.inl (by simp [WalletLedgerRow.of, hkind])
  | cashOut =>
    refine Or.inr (Or.inl ?_)
    simp only [WalletLedgerRow.of, hkind]
    exact fun heq => (h.resolve_left (not_not.mpr hkind)) (toString_injective heq)

/-- **When a cash-out is treated alike.** A new key is new to the database too (`unused`), the table
is not aborted (`opened`), nobody without a wallet asks during a hand (`walletless`), and the wallet
has room for the stack (`fits`). -/
structure AlikeCashOut (db : MySqlGameStore) (store : InMemoryGameStore) (tableId : Nat)
    (userId : UserId) (key : String) : Prop where
  unused : store.ledger.lookup (ledgerKey userId key) = none →
    db.walletLedger.lookup (userId, db.collate key) = none
  opened : store.ledger.lookup (ledgerKey userId key) = none →
    ∀ table, store.tables.lookup tableId = some table → table.aborted = false
  walletless : store.ledger.lookup (ledgerKey userId key) = none →
    store.wallets.lookup userId = none →
    ∀ table, store.tables.lookup tableId = some table → table.handInProgress = false
  fits : store.ledger.lookup (ledgerKey userId key) = none →
    ∀ table record balance, store.tables.lookup tableId = some table →
      table.handInProgress = false → table.seats.lookup userId = some record →
      store.wallets.lookup userId = some balance → balance + record.stack ≤ int64Max

/-- The transaction of a cash-out that finds a seat and a wallet. -/
theorem cashOut_ok {row : PokerTableRow} {seat : TableSeatRow} {balance : Int}
    (hargs : ¬ (tableId = 0 ∨ userId = 0 ∨ key = "" ∨ 96 < key.utf8ByteSize))
    (hrow : db.pokerTables.lookup tableId = some row) (hstatus : row.status = .waiting)
    (hseat : db.tableSeats.lookup (tableId, userId) = some seat)
    (hbalance : db.wallets.lookup userId = some balance) (hnonneg : 0 ≤ balance + seat.stack)
    (hfits : balance + seat.stack ≤ int64Max) (huser : userId ∈ db.users)
    (hunused : db.walletLedger.lookup (userId, db.collate key) = none) :
    db.cashOut tableId userId key =
      ({ error := .ok
         value := some { walletBalance := balance + seat.stack, returnedStack := seat.stack } },
       { db with
         tableSeats := deleteRows (fun key _ => key = (tableId, userId)) db.tableSeats
         wallets := updateRows (atKey userId fun balance => some (balance + seat.stack)) db.wallets
         walletLedger := db.walletLedger.insert (userId, db.collate key)
           { deltaAmount := seat.stack, balanceAfter := balance + seat.stack
             reason := .tableCashOut, referenceId := toString tableId } }) := by
  have hpay := updateWallets_atKey db (fun balance => some (balance + seat.stack)) hbalance rfl
    hnonneg hfits
  have hnote := insertLedger_one { db with
      tableSeats := deleteRows (fun key _ => key = (tableId, userId)) db.tableSeats
      wallets := updateRows (atKey userId fun balance => some (balance + seat.stack)) db.wallets }
    { deltaAmount := seat.stack, balanceAfter := balance + seat.stack, reason := .tableCashOut
      referenceId := toString tableId } hunused huser hnonneg hfits
  unfold MySqlGameStore.cashOut MySqlGameStore.queryLedger
  rw [if_neg hargs, hunused]
  dsimp only
  rw [if_neg (by simp [MySqlGameStore.replayCashOut, refusal]), hrow]
  dsimp only
  rw [if_neg (not_not.mpr hstatus), hseat, hbalance]
  dsimp only
  rw [hpay]
  dsimp only
  rw [hnote]

/-- A cash-out that misses the seat or the wallet. -/
theorem cashOut_missing {row : PokerTableRow}
    (hargs : ¬ (tableId = 0 ∨ userId = 0 ∨ key = "" ∨ 96 < key.utf8ByteSize))
    (hrow : db.pokerTables.lookup tableId = some row) (hstatus : row.status = .waiting)
    (hmissing : db.tableSeats.lookup (tableId, userId) = none ∨ db.wallets.lookup userId = none)
    (hunused : db.walletLedger.lookup (userId, db.collate key) = none) :
    db.cashOut tableId userId key = (refusal .notFound "seat or wallet not found", db) := by
  unfold MySqlGameStore.cashOut MySqlGameStore.queryLedger
  rw [if_neg hargs, hunused]
  dsimp only
  rw [if_neg (by simp [MySqlGameStore.replayCashOut, refusal]), hrow]
  dsimp only
  rw [if_neg (not_not.mpr hstatus)]
  rcases hmissing with hnone | hnone
  · rw [hnone]
    rfl
  · rw [hnone]
    cases db.tableSeats.lookup (tableId, userId) <;> rfl

/-- **A cash-out that is treated alike** returns the same error. -/
theorem Corresponds.cashOut (h : Corresponds db store)
    (halike : ¬ (tableId = 0 ∨ userId = 0 ∨ key = "" ∨ 96 < key.utf8ByteSize) →
      AlikeCashOut db store tableId userId key) :
    (db.cashOut tableId userId key).1.error = (store.cashOut tableId userId key).1.error ∧
      Corresponds (db.cashOut tableId userId key).2 (store.cashOut tableId userId key).2 := by
  have hsound : (store.cashOut tableId userId key).2.Sound :=
    sound_perform h.sound (.cashOut tableId userId key)
  by_cases hargs : tableId = 0 ∨ userId = 0 ∨ key = "" ∨ 96 < key.utf8ByteSize
  · unfold MySqlGameStore.cashOut InMemoryGameStore.cashOut
    rw [if_pos hargs, if_pos hargs]
    exact ⟨rfl, h⟩
  specialize halike hargs
  cases hentry : store.ledger.lookup (ledgerKey userId key) with
  | some entry =>
    obtain ⟨hrow, hsigned⟩ := h.ledger userId key entry hentry
    unfold MySqlGameStore.cashOut MySqlGameStore.queryLedger InMemoryGameStore.cashOut
    dsimp only
    rw [if_neg hargs, if_neg hargs, hrow, hentry]
    dsimp only
    by_cases hreused : entry.kind ≠ .cashOut ∨ entry.tableId ≠ tableId
    · rw [if_pos hreused, replayCashOut_reused hreused]
      exact ⟨rfl, h⟩
    · rw [if_neg hreused]
      rw [not_or, not_not, not_not] at hreused
      rw [replayCashOut_of hsigned hreused.1 hreused.2]
      exact ⟨rfl, h⟩
  | none =>
    have hunused := halike.unused hentry
    -- what the database does up to the seat and the wallet
    have hreplay : (MySqlGameStore.replayCashOut none tableId).error = .notFound := rfl
    revert hsound
    unfold InMemoryGameStore.cashOut
    dsimp only
    rw [if_neg hargs, hentry]
    dsimp only
    cases htable : store.tables.lookup tableId with
    | none =>
      intro _
      unfold MySqlGameStore.cashOut MySqlGameStore.queryLedger
      dsimp only
      rw [if_neg hargs, hunused, if_neg (not_not.mpr hreplay), h.no_row htable]
      exact ⟨rfl, h⟩
    | some table =>
      have hopen := halike.opened hentry table htable
      obtain ⟨row, hrow, hrules⟩ := h.row htable
      obtain ⟨hstatus, -⟩ := rules_inj hrules
      cases hwallet : store.wallets.lookup userId with
      | none =>
        have hidle := halike.walletless hentry hwallet table htable
        rw [status_waiting hopen hidle] at hstatus
        intro _
        rw [cashOut_missing hargs hrow hstatus (Or.inr ((h.wallets userId).trans hwallet)) hunused]
        exact ⟨rfl, h⟩
      | some balance =>
        have hbalance : db.wallets.lookup userId = some balance :=
          (h.wallets userId).trans hwallet
        obtain ⟨huser, -⟩ := h.purse userId balance hwallet
        dsimp only
        by_cases hplaying : table.handInProgress = true
        · rw [if_pos hplaying]
          rw [status_playing hopen hplaying] at hstatus
          intro _
          unfold MySqlGameStore.cashOut MySqlGameStore.queryLedger
          dsimp only
          rw [if_neg hargs, hunused, if_neg (not_not.mpr hreplay), hrow]
          dsimp only
          rw [if_pos (by simp [hstatus])]
          exact ⟨rfl, h⟩
        rw [if_neg hplaying]
        rw [Bool.not_eq_true] at hplaying
        rw [status_waiting hopen hplaying] at hstatus
        have hheld := h.seats tableId userId
        rw [InMemoryGameStore.holding_of_lookup htable] at hheld
        cases hseat : table.seats.lookup userId with
        | none =>
          intro _
          rw [hseat] at hheld
          rw [cashOut_missing hargs hrow hstatus (Or.inl hheld) hunused]
          exact ⟨rfl, h⟩
        | some record =>
          rw [hseat, Option.map_some, Option.map_some] at hheld
          have hfits := halike.fits hentry table record balance htable hplaying hseat hwallet
          have hstack := (h.sound.table tableId table htable).stack userId record hseat
          have hnonneg := h.sound.wallet userId balance hwallet
          intro hsound
          rw [cashOut_ok hargs hrow hstatus hheld hbalance (add_nonneg hnonneg hstack) hfits huser
            hunused]
          refine ⟨rfl, ⟨hsound, fun user => ?_, ?_, ?_, ?_, ?_, ?_⟩, ?_⟩
          · have hpaid := lookup_atKey (fun balance => some (balance + record.stack)) hbalance rfl
              user
            exact hpaid.trans (lookup_insert_congr h.wallets _ _ _)
          · exact h.purse_write hwallet hfits
          · refine h.tables_write rfl ?_ fun _ _ => rfl
            rw [hrow, Option.map_some, hrules]
            rfl
          · refine h.seats_write rfl (fun user => ?_) fun other user hne => ?_
            · dsimp only
              by_cases heq : user = userId
              · rw [heq, AList.lookup_erase]
                exact lookup_deleteRows_gone (fun _ => by simp) _
              · rw [AList.lookup_erase_ne heq, ← InMemoryGameStore.holding_of_lookup htable,
                  ← h.seats]
                exact lookup_deleteRows_kept (fun _ => by simp [heq]) _
            · exact lookup_deleteRows_kept (fun _ => by simp [hne]) _
          · refine h.real_write rfl ?_
            rw [AList.lookup_erase_ne fun heq => hargs (Or.inr (Or.inl heq.symm))]
            exact h.seat_zero htable
          · exact h.ledger_write hunused ⟨hstack, fun hkind => absurd hkind (by simp)⟩
          · exact h.write ⟨rfl, rfl, rfl⟩ rfl (by rw [htable]; rfl) rfl rfl rfl

end PokerServer
