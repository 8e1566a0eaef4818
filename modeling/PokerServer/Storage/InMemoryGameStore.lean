import Mathlib.Data.List.AList
import PokerServer.Storage.Records

/-!
# The game store

Model of `src/poker/storage/in_memory_game_store.cpp`, the transactional model that the MySQL store
shares its contract with. A map is a list of entries with distinct keys (`Dict`); each call takes
the store and returns its answer with the store it leaves. Balances are unbounded integers.

Both stores answer a failed check with an error and no change. `abortTableAndRefund` is the
exception: it credits wallets one by one and stops at the first that is missing.
-/

namespace PokerServer

/-- `std::unordered_map` and `std::map`, up to the order of the entries. -/
abbrev Dict (K V : Type) := AList fun _ : K => V

inductive StorageError where
  | ok
  | duplicate
  | notFound
  | insufficientFunds
  | conflict
  | unavailable
  | invalidData
  deriving DecidableEq, Repr

structure StorageResult (α : Type) where
  error : StorageError := .ok
  value : Option α := none
  message : String := ""

structure TableRecord where
  tableId : Nat := 0
  name : String := ""
  nodeId : String := ""
  config : TableConfig := {}
  createdBy : UserId := 0

structure BuyInReceipt where
  walletBalance : Int := 0
  tableStack : Int := 0

structure CashOutReceipt where
  walletBalance : Int := 0
  returnedStack : Int := 0

structure HandActionRecord where
  handId : Nat := 0
  sequence : Nat := 0
  requestId : Nat := 0
  userId : UserId := 0
  street : Street := .preflop
  action : ActionType := .fold
  targetAmount : Int := 0
  deriving DecidableEq, Repr

structure SeatRecord where
  userId : UserId := 0
  seat : Nat := 0
  stack : Int := 0
  deriving DecidableEq, Repr

structure StoredTable where
  record : TableRecord := {}
  aborted : Bool := false
  handInProgress : Bool := false
  seats : Dict UserId SeatRecord := ∅
  occupiedSeats : Dict Nat UserId := ∅

inductive LedgerKind where
  | buyIn
  | cashOut
  deriving DecidableEq, Repr

structure LedgerResult where
  kind : LedgerKind := .buyIn
  tableId : Nat := 0
  walletBalance : Int := 0
  chips : Int := 0
  seat : Nat := 0

/-- The entry is that of a cash-out at the table. -/
def LedgerResult.IsCashOut (entry : LedgerResult) (tableId : Nat) : Prop :=
  entry.kind = .cashOut ∧ entry.tableId = tableId

/-- The entry is that of a buy-in at the table, of the same seat and amount. -/
def LedgerResult.IsBuyIn (entry : LedgerResult) (tableId seat : Nat) (amount : Int) : Prop :=
  entry.kind = .buyIn ∧ entry.tableId = tableId ∧ entry.chips = amount ∧ entry.seat = seat

structure InMemoryGameStore where
  wallets : Dict UserId Int := ∅
  tables : Dict Nat StoredTable := ∅
  ledger : Dict String LedgerResult := ∅
  actions : Dict (Nat × Nat) HandActionRecord := ∅
  handStarts : Dict Nat HandStartRecord := ∅
  settlements : Dict Nat HandSettlementRecord := ∅

/-- `equivalentHandSettlement`: all fields agree. -/
def equivalentHandSettlement (lhs rhs : HandSettlementRecord) : Bool := decide (lhs = rhs)

namespace InMemoryGameStore

/-- An answer without a value. -/
def refusal {α : Type} (error : StorageError) (message : String) : StorageResult α :=
  { error := error, message := message }

/-- `ledgerKey`. -/
def ledgerKey (userId : UserId) (idempotencyKey : String) : String :=
  toString userId ++ ":" ++ idempotencyKey

def setTable (store : InMemoryGameStore) (tableId : Nat) (table : StoredTable) :
    InMemoryGameStore :=
  { store with tables := store.tables.insert tableId table }

/-- `InMemoryGameStore::seedWallet`. -/
def seedWallet (store : InMemoryGameStore) (userId : UserId) (balance : Int) :
    StorageError × InMemoryGameStore :=
  if userId = 0 ∨ balance < 0 then (.invalidData, store)
  else if (store.wallets.lookup userId).isSome then (.duplicate, store)
  else (.ok, { store with wallets := store.wallets.insert userId balance })

/-- `InMemoryGameStore::findTable`. -/
def findTable (store : InMemoryGameStore) (tableId : Nat) : StorageResult TableRecord :=
  match store.tables.lookup tableId with
  | none => refusal .notFound "table not found"
  | some table =>
    if table.aborted then refusal .notFound "table not found"
    else { error := .ok, value := some table.record }

/-- `InMemoryGameStore::createTable`. Its checks on the configuration are those of
`Table::validateConfig`. -/
def createTable (store : InMemoryGameStore) (table : TableRecord) :
    StorageError × InMemoryGameStore :=
  if table.tableId = 0 ∨ table.createdBy = 0 ∨ table.name = "" ∨ table.nodeId = ""
      ∨ table.config.validateConfig ≠ .ok then (.invalidData, store)
  else if (store.tables.lookup table.tableId).isSome then (.duplicate, store)
  else (.ok, store.setTable table.tableId { record := table })

/-- The replay branch of `reserveBuyIn`: the ledger knows the key. -/
def replayBuyIn (store : InMemoryGameStore) (tableId : Nat) (userId : UserId) (seat : Nat)
    (amount : Int) (replay : LedgerResult) : StorageResult BuyInReceipt :=
  if replay.kind ≠ .buyIn ∨ replay.tableId ≠ tableId ∨ replay.chips ≠ amount
      ∨ replay.seat ≠ seat then refusal .conflict "idempotency key was reused"
  else match store.tables.lookup tableId with
    | none => refusal .conflict "idempotent buy-in does not match an active table"
    | some table =>
      if (table.seats.lookup userId).any fun record =>
          record.seat = seat ∧ record.stack = amount then
        { error := .ok
          value := some { walletBalance := replay.walletBalance, tableStack := replay.chips } }
      else refusal .conflict "idempotent buy-in does not match the active seat"

/-- `InMemoryGameStore::reserveBuyIn`. -/
def reserveBuyIn (store : InMemoryGameStore) (tableId : Nat) (userId : UserId) (seat : Nat)
    (amount : Int) (idempotencyKey : String) : StorageResult BuyInReceipt × InMemoryGameStore :=
  if tableId = 0 ∨ userId = 0 ∨ amount ≤ 0 ∨ idempotencyKey = ""
      ∨ 96 < idempotencyKey.utf8ByteSize then (refusal .invalidData "invalid buy-in", store)
  else
    let key := ledgerKey userId idempotencyKey
    match store.ledger.lookup key with
    | some replay => (store.replayBuyIn tableId userId seat amount replay, store)
    | none =>
      match store.tables.lookup tableId, store.wallets.lookup userId with
      | some table, some wallet =>
        if table.aborted then (refusal .notFound "table or wallet not found", store)
        else if table.handInProgress then
          (refusal .conflict "buy-in is not allowed during a hand", store)
        else if table.record.config.maxPlayers ≤ seat ∨ amount < table.record.config.minBuyIn
            ∨ table.record.config.maxBuyIn < amount then
          (refusal .invalidData "invalid seat or buy-in amount", store)
        else if (table.seats.lookup userId).isSome ∨ (table.occupiedSeats.lookup seat).isSome then
          (refusal .conflict "player or seat is already reserved", store)
        else if wallet < amount then
          (refusal .insufficientFunds "insufficient wallet balance", store)
        else
          ({ error := .ok
             value := some { walletBalance := wallet - amount, tableStack := amount } },
           { store.setTable tableId
               { table with
                 seats := table.seats.insert userId
                   { userId := userId, seat := seat, stack := amount }
                 occupiedSeats := table.occupiedSeats.insert seat userId } with
             wallets := store.wallets.insert userId (wallet - amount)
             ledger := store.ledger.insert key
               { kind := .buyIn, tableId := tableId, walletBalance := wallet - amount,
                 chips := amount, seat := seat } })
      | _, _ => (refusal .notFound "table or wallet not found", store)

/-- `InMemoryGameStore::cashOut`. -/
def cashOut (store : InMemoryGameStore) (tableId : Nat) (userId : UserId)
    (idempotencyKey : String) : StorageResult CashOutReceipt × InMemoryGameStore :=
  if tableId = 0 ∨ userId = 0 ∨ idempotencyKey = "" ∨ 96 < idempotencyKey.utf8ByteSize then
    (refusal .invalidData "invalid cash-out", store)
  else
    let key := ledgerKey userId idempotencyKey
    match store.ledger.lookup key with
    | some replay =>
      if replay.kind ≠ .cashOut ∨ replay.tableId ≠ tableId then
        (refusal .conflict "idempotency key was reused", store)
      else
        ({ error := .ok
           value := some { walletBalance := replay.walletBalance, returnedStack := replay.chips } },
         store)
    | none =>
      match store.tables.lookup tableId, store.wallets.lookup userId with
      | some table, some wallet =>
        if table.handInProgress then
          (refusal .conflict "cash-out is not allowed during a hand", store)
        else match table.seats.lookup userId with
          | none => (refusal .notFound "seat not found", store)
          | some record =>
            ({ error := .ok
               value := some { walletBalance := wallet + record.stack,
                               returnedStack := record.stack } },
             { store.setTable tableId
                 { table with
                   seats := table.seats.erase userId
                   occupiedSeats := table.occupiedSeats.erase record.seat } with
               wallets := store.wallets.insert userId (wallet + record.stack)
               ledger := store.ledger.insert key
                 { kind := .cashOut, tableId := tableId, walletBalance := wallet + record.stack,
                   chips := record.stack, seat := record.seat } })
      | _, _ => (refusal .notFound "table or wallet not found", store)

/-- The test `beginHand` and `settleHand` make of a player against its seat. -/
def seatMatches (table : StoredTable) (userId : UserId) (seat : Nat) (stack : Int) : Bool :=
  (table.seats.lookup userId).any fun record => record.seat = seat ∧ record.stack = stack

/-- `InMemoryGameStore::beginHand`. -/
def beginHand (store : InMemoryGameStore) (hand : HandStartRecord) :
    StorageError × InMemoryGameStore :=
  if hand.handId = 0 ∨ hand.tableId = 0 ∨ hand.handNumber = 0 ∨ hand.players.length < 2 then
    (.invalidData, store)
  else if (store.handStarts.lookup hand.handId).isSome
      ∨ (store.settlements.lookup hand.handId).isSome then (.duplicate, store)
  else match store.tables.lookup hand.tableId with
    | none => (.notFound, store)
    | some table =>
      if table.aborted then (.notFound, store)
      else if table.handInProgress then (.conflict, store)
      else if hand.players.all fun player =>
          seatMatches table player.userId player.seat player.startStack
            && player.holeCards.length == 2 then
        (.ok, { store.setTable hand.tableId { table with handInProgress := true } with
          handStarts := store.handStarts.insert hand.handId hand })
      else (.conflict, store)

/-- `InMemoryGameStore::appendAction`. -/
def appendAction (store : InMemoryGameStore) (action : HandActionRecord) :
    StorageError × InMemoryGameStore :=
  if action.handId = 0 ∨ action.sequence = 0 ∨ action.requestId = 0 ∨ action.userId = 0 then
    (.invalidData, store)
  else if (store.handStarts.lookup action.handId).isNone then (.notFound, store)
  else if (store.settlements.lookup action.handId).isSome then (.conflict, store)
  else match store.actions.lookup (action.handId, action.sequence) with
    | some existing => (if existing = action then .duplicate else .conflict, store)
    | none =>
      match store.actions.entries.find? fun entry =>
          entry.2.handId = action.handId ∧ entry.2.userId = action.userId
            ∧ entry.2.requestId = action.requestId with
      | some existing => (if existing.2 = action then .duplicate else .conflict, store)
      | none =>
        (.ok, { store with
          actions := store.actions.insert (action.handId, action.sequence) action })

/-- The second loop of `settleHand`: the stacks become the end stacks. -/
def writeStacks (table : StoredTable) (players : List HandPlayerSettlement) : StoredTable :=
  players.foldl (fun table player =>
    match table.seats.lookup player.userId with
    | none => table
    | some record =>
      { table with
        seats := table.seats.insert player.userId { record with stack := player.endStack } }) table

/-- `InMemoryGameStore::settleHand`. -/
def settleHand (store : InMemoryGameStore) (value : HandSettlementRecord) :
    StorageError × InMemoryGameStore :=
  if !validHandSettlement value then (.invalidData, store)
  else match store.settlements.lookup value.handId with
    | some existing =>
      (if equivalentHandSettlement existing value then .duplicate else .conflict, store)
    | none =>
      if (store.handStarts.lookup value.handId).isNone then (.notFound, store)
      else match store.tables.lookup value.tableId with
        | none => (.notFound, store)
        | some table =>
          if table.aborted then (.notFound, store)
          else if !table.handInProgress then (.duplicate, store)
          else if value.players.all fun player =>
              seatMatches table player.userId player.seat player.startStack
                && decide (0 ≤ player.committed ∧ 0 ≤ player.winnings ∧ 0 ≤ player.endStack
                  ∧ player.endStack = player.startStack - player.committed + player.winnings) then
            (.ok, { store.setTable value.tableId
                { writeStacks table value.players with handInProgress := false } with
              settlements := store.settlements.insert value.handId value })
          else (.conflict, store)

/-- The loop of `abortTableAndRefund`: every stack goes back to its wallet, up to the first wallet
that is missing. -/
def refundLoop : Dict UserId Int → List SeatRecord → Bool × Dict UserId Int
  | wallets, [] => (true, wallets)
  | wallets, record :: records =>
    match wallets.lookup record.userId with
    | none => (false, wallets)
    | some wallet => refundLoop (wallets.insert record.userId (wallet + record.stack)) records

/-- `InMemoryGameStore::abortTableAndRefund`. -/
def abortTableAndRefund (store : InMemoryGameStore) (tableId : Nat) :
    StorageError × InMemoryGameStore :=
  match store.tables.lookup tableId with
  | none => (.notFound, store)
  | some table =>
    if table.aborted then (.ok, store)
    else
      let (complete, wallets) := refundLoop store.wallets
        (table.seats.entries.map fun entry => { entry.2 with userId := entry.1 })
      if complete then
        (.ok, { store.setTable tableId
            { table with
              seats := ∅, occupiedSeats := ∅, aborted := true, handInProgress := false } with
          wallets := wallets })
      else (.conflict, { store with wallets := wallets })

/-! ## What each call does -/

variable {store store' : InMemoryGameStore}

/-- A cash-out is refused, is known already, or pays out a seat. -/
theorem cashOut_cases {tableId : Nat} {userId : UserId} {key : String}
    {result : StorageResult CashOutReceipt}
    (h : store.cashOut tableId userId key = (result, store')) :
    (result.error ≠ .ok ∧ store' = store ∧
      (store.ledger.lookup (ledgerKey userId key) = none ∨
        result.error = .conflict ∨ result.error = .invalidData)) ∨
    (∃ entry, store.ledger.lookup (ledgerKey userId key) = some entry ∧
      entry.IsCashOut tableId ∧ store' = store ∧
      result = { error := .ok
                 value := some { walletBalance := entry.walletBalance
                                 returnedStack := entry.chips } }) ∨
    (∃ table wallet record, store.ledger.lookup (ledgerKey userId key) = none ∧
      store.tables.lookup tableId = some table ∧ table.handInProgress = false ∧
      store.wallets.lookup userId = some wallet ∧ table.seats.lookup userId = some record ∧
      result = { error := .ok
                 value := some { walletBalance := wallet + record.stack
                                 returnedStack := record.stack } } ∧
      store' = { store.setTable tableId
          { table with
            seats := table.seats.erase userId
            occupiedSeats := table.occupiedSeats.erase record.seat } with
        wallets := store.wallets.insert userId (wallet + record.stack)
        ledger := store.ledger.insert (ledgerKey userId key)
          { kind := .cashOut, tableId := tableId, walletBalance := wallet + record.stack,
            chips := record.stack, seat := record.seat } }) := by
  unfold cashOut at h
  dsimp only at h
  split_ifs at h with hinvalid
  · obtain ⟨rfl, rfl⟩ := Prod.mk.inj h
    exact Or.inl ⟨by simp [refusal], rfl, Or.inr (Or.inr rfl)⟩
  cases hledger : store.ledger.lookup (ledgerKey userId key) with
  | some entry =>
    rw [hledger] at h
    dsimp only at h
    split_ifs at h with hreused <;> obtain ⟨rfl, rfl⟩ := Prod.mk.inj h
    · exact Or.inl ⟨by simp [refusal], rfl, Or.inr (Or.inl rfl)⟩
    · rw [not_or, not_not, not_not] at hreused
      exact Or.inr (Or.inl ⟨entry, rfl, hreused, rfl, rfl⟩)
  | none =>
    rw [hledger] at h
    dsimp only at h
    cases htable : store.tables.lookup tableId with
    | none =>
      rw [htable] at h
      obtain ⟨rfl, rfl⟩ := Prod.mk.inj h
      exact Or.inl ⟨by simp [refusal], rfl, Or.inl rfl⟩
    | some table =>
      cases hwallet : store.wallets.lookup userId with
      | none =>
        rw [htable, hwallet] at h
        obtain ⟨rfl, rfl⟩ := Prod.mk.inj h
        exact Or.inl ⟨by simp [refusal], rfl, Or.inl rfl⟩
      | some wallet =>
        rw [htable, hwallet] at h
        dsimp only at h
        split_ifs at h with hhand
        · obtain ⟨rfl, rfl⟩ := Prod.mk.inj h
          exact Or.inl ⟨by simp [refusal], rfl, Or.inl rfl⟩
        · cases hseat : table.seats.lookup userId with
          | none =>
            rw [hseat] at h
            obtain ⟨rfl, rfl⟩ := Prod.mk.inj h
            exact Or.inl ⟨by simp [refusal], rfl, Or.inl rfl⟩
          | some record =>
            rw [hseat] at h
            obtain ⟨rfl, rfl⟩ := Prod.mk.inj h
            exact Or.inr (Or.inr ⟨table, wallet, record, rfl, rfl, by simpa using hhand, rfl,
              hseat, rfl, rfl⟩)

theorem cashOut_refused {tableId : Nat} {userId : UserId} {key : String}
    {result : StorageResult CashOutReceipt}
    (h : store.cashOut tableId userId key = (result, store'))
    (hrefused : result.error ≠ .ok) : store' = store := by
  rcases cashOut_cases h with ⟨-, hsame, -⟩ | ⟨_, -, -, hsame, -⟩ | ⟨_, _, _, -, -, -, -, -, hok, -⟩
  · exact hsame
  · exact hsame
  · exact absurd (congrArg StorageResult.error hok) hrefused

/-- A known buy-in is refused, unless it is asked for again while the seat still holds it. -/
theorem replayBuyIn_cases (store : InMemoryGameStore) (tableId : Nat) (userId : UserId) (seat : Nat)
    (amount : Int) (entry : LedgerResult) :
    ((store.replayBuyIn tableId userId seat amount entry).error = .conflict ∧
      (store.replayBuyIn tableId userId seat amount entry).value = none) ∨
    (entry.IsBuyIn tableId seat amount ∧
      store.replayBuyIn tableId userId seat amount entry =
        { error := .ok
          value := some { walletBalance := entry.walletBalance, tableStack := entry.chips } }) := by
  unfold replayBuyIn
  split
  · exact Or.inl ⟨rfl, rfl⟩
  · rename_i hreused
    simp only [not_or, not_not] at hreused
    split
    · exact Or.inl ⟨rfl, rfl⟩
    · split
      · exact Or.inr ⟨hreused, rfl⟩
      · exact Or.inl ⟨rfl, rfl⟩

/-- A buy-in is refused, is known already, or takes a free seat. -/
theorem reserveBuyIn_cases {tableId : Nat} {userId : UserId} {seat : Nat} {amount : Int}
    {key : String} {result : StorageResult BuyInReceipt}
    (h : store.reserveBuyIn tableId userId seat amount key = (result, store')) :
    (result.error ≠ .ok ∧ result.value = none ∧ store' = store ∧
      (store.ledger.lookup (ledgerKey userId key) = none ∨
        result.error = .conflict ∨ result.error = .invalidData)) ∨
    (∃ entry, store.ledger.lookup (ledgerKey userId key) = some entry ∧
      entry.IsBuyIn tableId seat amount ∧ store' = store ∧
      result = { error := .ok
                 value := some { walletBalance := entry.walletBalance
                                 tableStack := entry.chips } }) ∨
    (∃ table wallet, store.ledger.lookup (ledgerKey userId key) = none ∧
      store.tables.lookup tableId = some table ∧ table.aborted = false ∧
      table.handInProgress = false ∧ seat < table.record.config.maxPlayers ∧
      table.record.config.minBuyIn ≤ amount ∧ amount ≤ table.record.config.maxBuyIn ∧
      userId ≠ 0 ∧ 0 < amount ∧ amount ≤ wallet ∧
      store.wallets.lookup userId = some wallet ∧ table.seats.lookup userId = none ∧
      table.occupiedSeats.lookup seat = none ∧
      result = { error := .ok
                 value := some { walletBalance := wallet - amount, tableStack := amount } } ∧
      store' = { store.setTable tableId
          { table with
            seats := table.seats.insert userId { userId := userId, seat := seat, stack := amount }
            occupiedSeats := table.occupiedSeats.insert seat userId } with
        wallets := store.wallets.insert userId (wallet - amount)
        ledger := store.ledger.insert (ledgerKey userId key)
          { kind := .buyIn, tableId := tableId, walletBalance := wallet - amount,
            chips := amount, seat := seat } }) := by
  unfold reserveBuyIn at h
  dsimp only at h
  split_ifs at h with hinvalid
  · obtain ⟨rfl, rfl⟩ := Prod.mk.inj h
    exact Or.inl ⟨by simp [refusal], rfl, rfl, Or.inr (Or.inr rfl)⟩
  simp only [not_or] at hinvalid
  cases hledger : store.ledger.lookup (ledgerKey userId key) with
  | some entry =>
    rw [hledger] at h
    obtain ⟨rfl, rfl⟩ := Prod.mk.inj h
    rcases store.replayBuyIn_cases tableId userId seat amount entry with
      ⟨hconflict, hnone⟩ | ⟨hsame, hreceipt⟩
    · exact Or.inl ⟨by rw [hconflict]; simp, hnone, rfl, Or.inr (Or.inl hconflict)⟩
    · exact Or.inr (Or.inl ⟨entry, rfl, hsame, rfl, hreceipt⟩)
  | none =>
    rw [hledger] at h
    dsimp only at h
    cases htable : store.tables.lookup tableId with
    | none =>
      rw [htable] at h
      obtain ⟨rfl, rfl⟩ := Prod.mk.inj h
      exact Or.inl ⟨by simp [refusal], rfl, rfl, Or.inl rfl⟩
    | some table =>
      cases hwallet : store.wallets.lookup userId with
      | none =>
        rw [htable, hwallet] at h
        obtain ⟨rfl, rfl⟩ := Prod.mk.inj h
        exact Or.inl ⟨by simp [refusal], rfl, rfl, Or.inl rfl⟩
      | some wallet =>
        rw [htable, hwallet] at h
        dsimp only at h
        split_ifs at h with haborted hhand hrange htaken hpoor
        all_goals obtain ⟨rfl, rfl⟩ := Prod.mk.inj h
        · exact Or.inl ⟨by simp [refusal], rfl, rfl, Or.inl rfl⟩
        · exact Or.inl ⟨by simp [refusal], rfl, rfl, Or.inl rfl⟩
        · exact Or.inl ⟨by simp [refusal], rfl, rfl, Or.inl rfl⟩
        · exact Or.inl ⟨by simp [refusal], rfl, rfl, Or.inl rfl⟩
        · exact Or.inl ⟨by simp [refusal], rfl, rfl, Or.inl rfl⟩
        · simp only [not_or, Option.not_isSome_iff_eq_none] at htaken
          refine Or.inr (Or.inr ⟨table, wallet, rfl, rfl, by simpa using haborted,
            by simpa using hhand, by omega, by omega, by omega, hinvalid.2.1, by omega, by omega,
            rfl, htaken.1, htaken.2, rfl, rfl⟩)

/-- A hand start is refused, or its players have the stored stacks and the hand is in progress. -/
theorem beginHand_cases {hand : HandStartRecord} {e : StorageError}
    (h : store.beginHand hand = (e, store')) :
    (e ≠ .ok ∧ store' = store) ∨
    (∃ table, e = .ok ∧ hand.handId ≠ 0 ∧ store.handStarts.lookup hand.handId = none ∧
      store.settlements.lookup hand.handId = none ∧ store.tables.lookup hand.tableId = some table ∧
      table.aborted = false ∧ table.handInProgress = false ∧
      (∀ player ∈ hand.players,
        seatMatches table player.userId player.seat player.startStack = true) ∧
      store' = { store.setTable hand.tableId { table with handInProgress := true } with
        handStarts := store.handStarts.insert hand.handId hand }) := by
  unfold beginHand at h
  split_ifs at h with hinvalid hknown
  · obtain ⟨rfl, rfl⟩ := Prod.mk.inj h
    exact Or.inl ⟨by simp, rfl⟩
  · obtain ⟨rfl, rfl⟩ := Prod.mk.inj h
    exact Or.inl ⟨by simp, rfl⟩
  simp only [not_or, Option.not_isSome_iff_eq_none] at hinvalid hknown
  cases htable : store.tables.lookup hand.tableId with
  | none =>
    rw [htable] at h
    obtain ⟨rfl, rfl⟩ := Prod.mk.inj h
    exact Or.inl ⟨by simp, rfl⟩
  | some table =>
    rw [htable] at h
    dsimp only at h
    split_ifs at h with haborted hhand hmatches
    all_goals obtain ⟨rfl, rfl⟩ := Prod.mk.inj h
    · exact Or.inl ⟨by simp, rfl⟩
    · exact Or.inl ⟨by simp, rfl⟩
    · refine Or.inr ⟨table, rfl, hinvalid.1, hknown.1, hknown.2, rfl, by simpa using haborted,
        by simpa using hhand, fun player hp => ?_, rfl⟩
      exact (Bool.and_eq_true_iff.mp (List.all_eq_true.mp hmatches player hp)).1
    · exact Or.inl ⟨by simp, rfl⟩

/-- An action is refused, or it is the first under its sequence and under its request. -/
theorem appendAction_cases {action : HandActionRecord} {e : StorageError}
    (h : store.appendAction action = (e, store')) :
    (e ≠ .ok ∧ store' = store) ∨
    (e = .ok ∧ action.handId ≠ 0 ∧ (store.handStarts.lookup action.handId).isSome = true ∧
      store.settlements.lookup action.handId = none ∧
      store.actions.lookup (action.handId, action.sequence) = none ∧
      store' = { store with
        actions := store.actions.insert (action.handId, action.sequence) action }) := by
  unfold appendAction at h
  split_ifs at h with hinvalid hstart hsettled
  · obtain ⟨rfl, rfl⟩ := Prod.mk.inj h
    exact Or.inl ⟨by simp, rfl⟩
  · obtain ⟨rfl, rfl⟩ := Prod.mk.inj h
    exact Or.inl ⟨by simp, rfl⟩
  · obtain ⟨rfl, rfl⟩ := Prod.mk.inj h
    exact Or.inl ⟨by simp, rfl⟩
  split at h
  · obtain ⟨rfl, rfl⟩ := Prod.mk.inj h
    exact Or.inl ⟨by split_ifs <;> simp, rfl⟩
  · rename_i hsequence
    split at h
    · obtain ⟨rfl, rfl⟩ := Prod.mk.inj h
      exact Or.inl ⟨by split_ifs <;> simp, rfl⟩
    · obtain ⟨rfl, rfl⟩ := Prod.mk.inj h
      refine Or.inr ⟨rfl, (not_or.mp hinvalid).1, ?_, by simpa using hsettled, hsequence, rfl⟩
      rw [Option.isSome_iff_ne_none]
      simpa using hstart

/-- Appending an action touches the actions only. -/
theorem appendAction_frame {action : HandActionRecord} {e : StorageError}
    (h : store.appendAction action = (e, store')) :
    store' = { store with actions := store'.actions } := by
  rcases appendAction_cases h with ⟨-, rfl⟩ | ⟨-, -, -, -, -, rfl⟩ <;> rfl

/-- An action is known already only if it is in the store as it is. -/
theorem appendAction_duplicate {action : HandActionRecord}
    (h : store.appendAction action = (.duplicate, store')) :
    ∃ entry ∈ store.actions.entries, entry.2 = action := by
  unfold appendAction at h
  split_ifs at h
  · exact absurd h (by simp)
  · exact absurd h (by simp)
  · exact absurd h (by simp)
  split at h
  · rename_i existing hlookup
    split_ifs at h with hsame
    · exact ⟨_, AList.mem_lookup_iff.mp hlookup, hsame⟩
    · exact absurd h (by simp)
  · split at h
    · rename_i existing hfind
      split_ifs at h with hsame
      · exact ⟨existing, List.mem_of_find?_eq_some hfind, hsame⟩
      · exact absurd h (by simp)
    · exact absurd h (by simp)

/-- A settlement is refused, or it writes the end stacks of a hand in progress. -/
theorem settleHand_cases {value : HandSettlementRecord} {e : StorageError}
    (h : store.settleHand value = (e, store')) :
    (e ≠ .ok ∧ store' = store) ∨
    (∃ table, e = .ok ∧ value.handId ≠ 0 ∧ store.settlements.lookup value.handId = none ∧
      store.tables.lookup value.tableId = some table ∧ table.aborted = false ∧
      table.handInProgress = true ∧ validHandSettlement value = true ∧
      (∃ start, store.handStarts.lookup value.handId = some start) ∧
      (∀ player ∈ value.players,
        seatMatches table player.userId player.seat player.startStack = true) ∧
      store' = { store.setTable value.tableId
          { writeStacks table value.players with handInProgress := false } with
        settlements := store.settlements.insert value.handId value }) := by
  unfold settleHand at h
  by_cases hinvalid : (!validHandSettlement value) = true
  · rw [if_pos hinvalid] at h
    obtain ⟨rfl, rfl⟩ := Prod.mk.inj h
    exact Or.inl ⟨by simp, rfl⟩
  rw [if_neg hinvalid] at h
  cases hknown : store.settlements.lookup value.handId with
  | some existing =>
    rw [hknown] at h
    obtain ⟨rfl, rfl⟩ := Prod.mk.inj h
    exact Or.inl ⟨by split_ifs <;> simp, rfl⟩
  | none =>
    rw [hknown] at h
    dsimp only at h
    by_cases hstart : (store.handStarts.lookup value.handId).isNone = true
    · rw [if_pos hstart] at h
      obtain ⟨rfl, rfl⟩ := Prod.mk.inj h
      exact Or.inl ⟨by simp, rfl⟩
    rw [if_neg hstart] at h
    cases htable : store.tables.lookup value.tableId with
    | none =>
      rw [htable] at h
      obtain ⟨rfl, rfl⟩ := Prod.mk.inj h
      exact Or.inl ⟨by simp, rfl⟩
    | some table =>
      rw [htable] at h
      dsimp only at h
      split_ifs at h with haborted hhand hmatches
      all_goals obtain ⟨rfl, rfl⟩ := Prod.mk.inj h
      · exact Or.inl ⟨by simp, rfl⟩
      · exact Or.inl ⟨by simp, rfl⟩
      · refine Or.inr ⟨table, rfl, fun h0 => hinvalid ?_, rfl, rfl, by simpa using haborted,
          by simpa using hhand, by simpa using hinvalid, ?_, fun player hp => ?_, rfl⟩
        · simp [validHandSettlement, h0]
        · rw [Option.isNone_iff_eq_none] at hstart
          exact Option.ne_none_iff_exists'.mp hstart
        · exact (Bool.and_eq_true_iff.mp (List.all_eq_true.mp hmatches player hp)).1
      · exact Or.inl ⟨by simp, rfl⟩

/-! ## What money moves leave alone -/

/-- The records of hands are the same. -/
structure SameHands (store store' : InMemoryGameStore) : Prop where
  actions : store'.actions = store.actions
  handStarts : store'.handStarts = store.handStarts
  settlements : store'.settlements = store.settlements

theorem SameHands.refl (store : InMemoryGameStore) : SameHands store store := ⟨rfl, rfl, rfl⟩

theorem cashOut_sameHands {tableId : Nat} {userId : UserId} {key : String}
    {result : StorageResult CashOutReceipt}
    (h : store.cashOut tableId userId key = (result, store')) : SameHands store store' := by
  rcases cashOut_cases h with ⟨-, rfl, -⟩ | ⟨_, -, -, rfl, -⟩ | ⟨_, _, _, -, -, -, -, -, -, rfl⟩
  · exact SameHands.refl _
  · exact SameHands.refl _
  · exact ⟨rfl, rfl, rfl⟩

theorem reserveBuyIn_sameHands {tableId : Nat} {userId : UserId} {seat : Nat} {amount : Int}
    {key : String} {result : StorageResult BuyInReceipt}
    (h : store.reserveBuyIn tableId userId seat amount key = (result, store')) :
    SameHands store store' := by
  rcases reserveBuyIn_cases h with ⟨-, -, rfl, -⟩ | ⟨_, -, -, rfl, -⟩ |
    ⟨_, _, -, -, -, -, -, -, -, -, -, -, -, -, -, -, rfl⟩
  · exact SameHands.refl _
  · exact SameHands.refl _
  · exact ⟨rfl, rfl, rfl⟩

theorem abortTableAndRefund_sameHands (store : InMemoryGameStore) (tableId : Nat) :
    SameHands store (store.abortTableAndRefund tableId).2 := by
  unfold abortTableAndRefund
  split
  · exact SameHands.refl _
  · split_ifs
    · exact SameHands.refl _
    · dsimp only
      split_ifs <;> exact ⟨rfl, rfl, rfl⟩

end InMemoryGameStore

end PokerServer
