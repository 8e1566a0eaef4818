import PokerServer.Lib.Rows
import PokerServer.Storage.InMemoryGameStore

/-!
# The MySQL game store

Model of `src/poker/infrastructure/mysql_game_store.cpp` over the tables of
`deploy/mysql/init/001_schema.sql`. Each table is a finite map from its primary key to its other
columns; the auto-increment id of `wallet_ledger` is left out, its rows are found by the unique key
over user and idempotency key. The `version` counters and the timestamps, which no statement reads,
are left out too.

A statement is refused (`SqlError`) by a unique key (errno 1062) or by any other constraint: the
range of a column, a `CHECK` or a foreign key. Checks and ranges come before unique keys, and unique
keys before the foreign keys that have an index of their own, as InnoDB does it. The 64-bit columns
have the range of the arguments they are bound to, so only sums are checked against it. `collate` is
the collation of the database, by which a unique key compares two strings.

A method is one transaction: it returns the database it commits, or the one it began with.
-/

namespace PokerServer

inductive TableStatus where
  | waiting
  | playing
  | closing
  | closed
  | aborted
  deriving DecidableEq, Repr

/-- A row of `poker_tables`. -/
structure PokerTableRow where
  name : String := ""
  gameNodeId : String := ""
  status : TableStatus := .waiting
  maxPlayers : Nat := 0
  smallBlind : Int := 0
  bigBlind : Int := 0
  minBuyIn : Int := 0
  maxBuyIn : Int := 0
  createdBy : UserId := 0

/-- A row of `table_seats`. -/
structure TableSeatRow where
  seatNo : Nat := 0
  stack : Int := 0
  handStartStack : Int := 0
  deriving DecidableEq

inductive HandStatus where
  | playing
  | settled
  | aborted
  deriving DecidableEq, Repr

/-- A row of `hands`. -/
structure HandRow where
  tableId : Nat := 0
  handNumber : Nat := 0
  status : HandStatus := .playing
  dealerSeat : Nat := 0
  boardCards : Option (List UInt8) := none
  totalPot : Int := 0

/-- A row of `hand_players`. -/
structure HandPlayerRow where
  seatNo : Nat := 0
  startStack : Int := 0
  committed : Int := 0
  winnings : Int := 0
  endStack : Option Int := none
  holeCards : List UInt8 := []
  folded : Bool := false

/-- A row of `hand_actions`. -/
structure HandActionRow where
  requestId : Nat := 0
  userId : UserId := 0
  street : String := ""
  actionType : String := ""
  targetAmount : Int := 0
  deriving DecidableEq

inductive LedgerReason where
  | initialGrant
  | tableBuyIn
  | tableCashOut
  | crashRefund
  | admin
  deriving DecidableEq, Repr

/-- A row of `wallet_ledger`. -/
structure WalletLedgerRow where
  deltaAmount : Int := 0
  balanceAfter : Int := 0
  reason : LedgerReason := .initialGrant
  referenceId : String := ""
  deriving DecidableEq

structure MySqlGameStore where
  collate : String → String := id
  users : List UserId := []
  wallets : Dict UserId Int := ∅
  pokerTables : Dict Nat PokerTableRow := ∅
  tableSeats : Dict (Nat × UserId) TableSeatRow := ∅
  hands : Dict Nat HandRow := ∅
  handPlayers : Dict (Nat × UserId) HandPlayerRow := ∅
  handActions : Dict (Nat × Nat) HandActionRow := ∅
  walletLedger : Dict (UserId × String) WalletLedgerRow := ∅

/-- Why a statement fails. -/
inductive SqlError where
  | duplicateEntry
  | refused
  deriving DecidableEq, Repr

/-- `encodeCards`. -/
def encodeCards (cards : List Card) : List UInt8 := cards.map cardIndex

/-- `streetName`. -/
def streetName : Street → String
  | .preflop => "preflop"
  | .flop => "flop"
  | .turn => "turn"
  | .river => "river"
  | _ => "preflop"

/-- `actionName`. -/
def actionName : ActionType → String
  | .fold => "fold"
  | .check => "check"
  | .call => "call"
  | .bet => "bet"
  | .raise => "raise"
  | .allIn => "all_in"

namespace MySqlGameStore

open InMemoryGameStore (refusal)

/-! ## Statements -/

/-- `INSERT INTO poker_tables`. -/
def insertTable (db : MySqlGameStore) (table : TableRecord) : Except SqlError MySqlGameStore :=
  if 64 < table.name.length ∨ 64 < table.nodeId.length
      ∨ ¬ (2 ≤ table.config.maxPlayers ∧ table.config.maxPlayers ≤ 6)
      ∨ ¬ (0 < table.config.smallBlind ∧ table.config.smallBlind * 2 ≤ table.config.bigBlind)
      ∨ ¬ (0 < table.config.minBuyIn ∧ table.config.minBuyIn ≤ table.config.maxBuyIn) then
    .error .refused
  else if (db.pokerTables.lookup table.tableId).isSome then .error .duplicateEntry
  else if table.createdBy ∉ db.users then .error .refused
  else .ok { db with
    pokerTables := db.pokerTables.insert table.tableId
      { name := table.name, gameNodeId := table.nodeId, status := .waiting
        maxPlayers := table.config.maxPlayers, smallBlind := table.config.smallBlind
        bigBlind := table.config.bigBlind, minBuyIn := table.config.minBuyIn
        maxBuyIn := table.config.maxBuyIn, createdBy := table.createdBy } }

/-- `INSERT INTO table_seats`. -/
def insertSeat (db : MySqlGameStore) (tableId : Nat) (userId : UserId) (row : TableSeatRow) :
    Except SqlError MySqlGameStore :=
  if 255 < row.seatNo ∨ row.stack < 0 ∨ row.handStartStack < 0
      ∨ (db.pokerTables.lookup tableId).isNone then .error .refused
  else if (db.tableSeats.lookup (tableId, userId)).isSome
      ∨ anyRow (fun key other => key.1 = tableId ∧ other.seatNo = row.seatNo) db.tableSeats then
    .error .duplicateEntry
  else if userId ∉ db.users then .error .refused
  else .ok { db with tableSeats := db.tableSeats.insert (tableId, userId) row }

/-- `INSERT INTO wallet_ledger` of several rows. -/
def insertLedger (db : MySqlGameStore) (rows : List ((UserId × String) × WalletLedgerRow)) :
    Except SqlError MySqlGameStore :=
  if rows.any fun row => row.2.balanceAfter < 0 ∨ int64Max < row.2.balanceAfter then .error .refused
  else match insertRows rows db.walletLedger with
    | none => .error .duplicateEntry
    | some walletLedger =>
      if rows.any fun row => row.1.1 ∉ db.users then .error .refused
      else .ok { db with walletLedger := walletLedger }

/-- `INSERT INTO hands`. -/
def insertHand (db : MySqlGameStore) (hand : HandStartRecord) : Except SqlError MySqlGameStore :=
  if 255 < hand.dealerSeat then .error .refused
  else if (db.hands.lookup hand.handId).isSome
      ∨ anyRow (fun _ row => row.tableId = hand.tableId ∧ row.handNumber = hand.handNumber)
          db.hands then .error .duplicateEntry
  else if (db.pokerTables.lookup hand.tableId).isNone then .error .refused
  else .ok { db with
    hands := db.hands.insert hand.handId
      { tableId := hand.tableId, handNumber := hand.handNumber, status := .playing
        dealerSeat := hand.dealerSeat } }

/-- `INSERT INTO hand_players`. -/
def insertHandPlayer (db : MySqlGameStore) (handId : Nat) (player : HandStartPlayer) :
    Except SqlError MySqlGameStore :=
  if 255 < player.seat ∨ (db.hands.lookup handId).isNone then .error .refused
  else if (db.handPlayers.lookup (handId, player.userId)).isSome then .error .duplicateEntry
  else if player.userId ∉ db.users then .error .refused
  else .ok { db with
    handPlayers := db.handPlayers.insert (handId, player.userId)
      { seatNo := player.seat, startStack := player.startStack
        holeCards := encodeCards player.holeCards } }

/-- `INSERT INTO hand_actions ... SELECT ... FROM hands WHERE id=? AND status='playing'`, with the
number of rows inserted. -/
def insertAction (db : MySqlGameStore) (action : HandActionRecord) :
    Except SqlError (Nat × MySqlGameStore) :=
  if (db.hands.lookup action.handId).any fun row => row.status = .playing then
    if (db.handActions.lookup (action.handId, action.sequence)).isSome
        ∨ anyRow (fun key row => key.1 = action.handId ∧ row.userId = action.userId
            ∧ row.requestId = action.requestId) db.handActions then .error .duplicateEntry
    else if action.userId ∉ db.users then .error .refused
    else .ok (1, { db with
      handActions := db.handActions.insert (action.handId, action.sequence)
        { requestId := action.requestId, userId := action.userId
          street := streetName action.street, actionType := actionName action.action
          targetAmount := action.targetAmount } })
  else .ok (0, db)

/-- `UPDATE wallets`, under `chk_wallet_nonnegative` and the range of the column, with the number
of rows affected. -/
def updateWallets (db : MySqlGameStore) (set : UserId → Int → Option Int) :
    Option (Nat × MySqlGameStore) :=
  if writesPass (fun balance => 0 ≤ balance ∧ balance ≤ int64Max) set db.wallets then
    some (affectedRows set db.wallets, { db with wallets := updateRows set db.wallets })
  else none

/-- `UPDATE table_seats`, under `chk_seat_stack`, with the number of rows affected. -/
def updateSeats (db : MySqlGameStore) (set : Nat × UserId → TableSeatRow → Option TableSeatRow) :
    Option (Nat × MySqlGameStore) :=
  if writesPass (fun row => 0 ≤ row.stack ∧ 0 ≤ row.handStartStack) set db.tableSeats then
    some (affectedRows set db.tableSeats, { db with tableSeats := updateRows set db.tableSeats })
  else none

/-! ## Tables and money -/

/-- `MySqlGameStore::createTable`. -/
def createTable (db : MySqlGameStore) (table : TableRecord) : StorageError × MySqlGameStore :=
  match db.insertTable table with
  | .ok db' => (.ok, db')
  | .error .duplicateEntry => (.duplicate, db)
  | .error .refused => (.unavailable, db)

/-- `queryLedger`. -/
def queryLedger (db : MySqlGameStore) (userId : UserId) (idempotencyKey : String) :
    Option WalletLedgerRow :=
  db.walletLedger.lookup (userId, db.collate idempotencyKey)

/-- `replayBuyIn`. -/
def replayBuyIn (replay : Option WalletLedgerRow) (tableId : Nat) (expectedAmount : Int) :
    StorageResult BuyInReceipt :=
  match replay with
  | none => refusal .notFound ""
  | some row =>
    if row.reason ≠ .tableBuyIn ∨ row.referenceId ≠ toString tableId ∨ 0 ≤ row.deltaAmount
        ∨ -row.deltaAmount ≠ expectedAmount then refusal .conflict "idempotency key was reused"
    else { error := .ok
           value := some { walletBalance := row.balanceAfter, tableStack := -row.deltaAmount } }

/-- `replayCashOut`. -/
def replayCashOut (replay : Option WalletLedgerRow) (tableId : Nat) :
    StorageResult CashOutReceipt :=
  match replay with
  | none => refusal .notFound ""
  | some row =>
    if row.reason ≠ .tableCashOut ∨ row.referenceId ≠ toString tableId ∨ row.deltaAmount < 0 then
      refusal .conflict "idempotency key was reused"
    else { error := .ok
           value := some { walletBalance := row.balanceAfter, returnedStack := row.deltaAmount } }

/-- The transaction of `reserveBuyIn`. -/
def buyIn (db : MySqlGameStore) (tableId : Nat) (userId : UserId) (seat : Nat) (amount : Int)
    (idempotencyKey : String) : StorageResult BuyInReceipt × MySqlGameStore :=
  match (db.pokerTables.lookup tableId).filter fun row => row.status = .waiting with
  | none => (refusal .conflict "table is missing or a hand is in progress", db)
  | some rules =>
    if rules.maxPlayers ≤ seat ∨ amount < rules.minBuyIn ∨ rules.maxBuyIn < amount then
      (refusal .invalidData "seat or buy-in is outside table rules", db)
    else match db.wallets.lookup userId with
      | none => (refusal .notFound "wallet not found", db)
      | some balance =>
        if balance < amount then
          (refusal .insufficientFunds "insufficient wallet balance", db)
        else match db.insertSeat tableId userId
            { seatNo := seat, stack := amount, handStartStack := amount } with
          | .error error =>
            let replay := replayBuyIn (db.queryLedger userId idempotencyKey) tableId amount
            if replay.error ≠ .notFound then (replay, db)
            else (refusal (if error = .duplicateEntry then .conflict else .unavailable)
              "seat could not be reserved", db)
          | .ok seated =>
            match seated.updateWallets (atKey userId fun balance =>
                if amount ≤ balance then some (balance - amount) else none) with
            | none => (refusal .conflict "wallet changed concurrently", db)
            | some (affected, paid) =>
              if affected ≠ 1 then (refusal .conflict "wallet changed concurrently", db)
              else match paid.insertLedger [((userId, db.collate idempotencyKey),
                  { deltaAmount := -amount, balanceAfter := balance - amount
                    reason := .tableBuyIn, referenceId := toString tableId })] with
              | .error _ => (refusal .unavailable "buy-in ledger commit failed", db)
              | .ok noted =>
                ({ error := .ok
                   value := some { walletBalance := balance - amount, tableStack := amount } },
                 noted)

/-- `MySqlGameStore::reserveBuyIn`. -/
def reserveBuyIn (db : MySqlGameStore) (tableId : Nat) (userId : UserId) (seat : Nat)
    (amount : Int) (idempotencyKey : String) : StorageResult BuyInReceipt × MySqlGameStore :=
  if tableId = 0 ∨ userId = 0 ∨ amount ≤ 0 ∨ idempotencyKey = ""
      ∨ 96 < idempotencyKey.utf8ByteSize then (refusal .invalidData "invalid buy-in", db)
  else
    let existing := replayBuyIn (db.queryLedger userId idempotencyKey) tableId amount
    if existing.error ≠ .notFound then
      if existing.error = .ok ∧
          ¬ (db.tableSeats.lookup (tableId, userId)).any fun row => row.seatNo = seat then
        (refusal .conflict "idempotent buy-in does not match the active seat", db)
      else (existing, db)
    else db.buyIn tableId userId seat amount idempotencyKey

/-- `MySqlGameStore::cashOut`. -/
def cashOut (db : MySqlGameStore) (tableId : Nat) (userId : UserId)
    (idempotencyKey : String) : StorageResult CashOutReceipt × MySqlGameStore :=
  if tableId = 0 ∨ userId = 0 ∨ idempotencyKey = "" ∨ 96 < idempotencyKey.utf8ByteSize then
    (refusal .invalidData "invalid cash-out", db)
  else
    let existing := replayCashOut (db.queryLedger userId idempotencyKey) tableId
    if existing.error ≠ .notFound then (existing, db)
    else match db.pokerTables.lookup tableId with
      | none => (refusal .notFound "table not found", db)
      | some table =>
        if table.status ≠ .waiting then
          (refusal .conflict "cash-out is not allowed during a hand", db)
        else match db.tableSeats.lookup (tableId, userId), db.wallets.lookup userId with
          | some seat, some balance =>
            match db.updateWallets (atKey userId fun balance => some (balance + seat.stack)) with
            | none => (refusal .unavailable "cash-out update failed", db)
            | some (_, paid) =>
              let left := { paid with
                tableSeats := deleteRows (fun key _ => key = (tableId, userId)) paid.tableSeats }
              match left.insertLedger [((userId, db.collate idempotencyKey),
                  { deltaAmount := seat.stack, balanceAfter := balance + seat.stack
                    reason := .tableCashOut, referenceId := toString tableId })] with
              | .error _ => (refusal .unavailable "cash-out ledger commit failed", db)
              | .ok noted =>
                ({ error := .ok
                   value := some { walletBalance := balance + seat.stack
                                   returnedStack := seat.stack } }, noted)
          | _, _ =>
            let replay := replayCashOut (db.queryLedger userId idempotencyKey) tableId
            if replay.error ≠ .notFound then (replay, db)
            else (refusal .notFound "seat or wallet not found", db)

/-- `CONCAT('crash:',?,':',s.user_id)`. -/
def crashKey (tableId : Nat) (userId : UserId) : String :=
  "crash:" ++ toString tableId ++ ":" ++ toString userId

/-- The rows that `abortTableAndRefund` inserts into the ledger: the seats of the table, each joined
with the wallet of its user. -/
def crashRefunds (db : MySqlGameStore) (tableId : Nat) :
    List ((UserId × String) × WalletLedgerRow) :=
  db.tableSeats.entries.filterMap fun entry =>
    if entry.1.1 = tableId then
      (db.wallets.lookup entry.1.2).map fun balance =>
        ((entry.1.2, db.collate (crashKey tableId entry.1.2)),
          { deltaAmount := entry.2.stack, balanceAfter := balance, reason := .crashRefund
            referenceId := toString tableId })
    else none

/-- `UPDATE wallets w JOIN table_seats s ... SET w.balance=w.balance+s.stack`. -/
def refund (db : MySqlGameStore) (tableId : Nat) : UserId → Int → Option Int :=
  fun userId balance =>
    (db.tableSeats.lookup (tableId, userId)).map fun seat => balance + seat.stack

/-- `UPDATE hands SET status='aborted' WHERE table_id=? AND status='playing'`. -/
def abortHands (tableId : Nat) : Nat → HandRow → Option HandRow :=
  fun _ row =>
    if row.tableId = tableId ∧ row.status = .playing then some { row with status := .aborted }
    else none

/-- `UPDATE poker_tables SET status='aborted' WHERE id=? AND status IN (...)`. -/
def closeTable (tableId : Nat) : Nat → PokerTableRow → Option PokerTableRow :=
  atKey tableId fun row =>
    if row.status = .waiting ∨ row.status = .playing ∨ row.status = .closing then
      some { row with status := .aborted }
    else none

/-- `MySqlGameStore::abortTableAndRefund`. -/
def abortTableAndRefund (db : MySqlGameStore) (tableId : Nat) : StorageError × MySqlGameStore :=
  match db.pokerTables.lookup tableId with
  | none => (.notFound, db)
  | some table =>
    if table.status = .aborted then (.ok, db)
    else match db.updateWallets (db.refund tableId) with
      | none => (.unavailable, db)
      | some (_, refunded) =>
        match refunded.insertLedger (refunded.crashRefunds tableId) with
        | .error _ => (.unavailable, db)
        | .ok noted =>
          if affectedRows (closeTable tableId) noted.pokerTables ≠ 1 then (.unavailable, db)
          else (.ok, { noted with
            tableSeats := deleteRows (fun key _ => key.1 = tableId) noted.tableSeats
            hands := updateRows (abortHands tableId) noted.hands
            pokerTables := updateRows (closeTable tableId) noted.pokerTables })

/-! ## Hands -/

/-- `UPDATE table_seats SET hand_start_stack=? WHERE table_id=? AND user_id=? AND stack=?`. -/
def startSeat (tableId : Nat) (player : HandStartPlayer) :
    Nat × UserId → TableSeatRow → Option TableSeatRow :=
  atKey (tableId, player.userId) fun row =>
    if row.stack = player.startStack then some { row with handStartStack := player.startStack }
    else none

/-- One round of the loop of `beginHand`. -/
def startPlayer (hand : HandStartRecord) (db : MySqlGameStore) (player : HandStartPlayer) :
    Except StorageError MySqlGameStore :=
  if player.userId = 0 ∨ player.holeCards.length ≠ 2 ∨ player.startStack < 0 then
    .error .invalidData
  else match db.insertHandPlayer hand.handId player with
    | .error _ => .error .conflict
    | .ok inserted =>
      match inserted.updateSeats (startSeat hand.tableId player) with
      | none => .error .conflict
      | some (affected, started) => if affected ≠ 1 then .error .conflict else .ok started

/-- `UPDATE poker_tables SET status='playing' WHERE id=? AND status='waiting'`. -/
def playTable (tableId : Nat) : Nat → PokerTableRow → Option PokerTableRow :=
  atKey tableId fun row =>
    if row.status = .waiting then some { row with status := .playing } else none

/-- `MySqlGameStore::beginHand`. -/
def beginHand (db : MySqlGameStore) (hand : HandStartRecord) : StorageError × MySqlGameStore :=
  if hand.handId = 0 ∨ hand.tableId = 0 ∨ hand.handNumber = 0 ∨ hand.players.length < 2 then
    (.invalidData, db)
  else match db.pokerTables.lookup hand.tableId with
    | none => (.notFound, db)
    | some table =>
      if table.status ≠ .waiting then (.conflict, db)
      else match db.insertHand hand with
        | .error error =>
          (if error = .duplicateEntry then .duplicate else .unavailable, db)
        | .ok inserted =>
          match hand.players.foldlM (startPlayer hand) inserted with
          | .error error => (error, db)
          | .ok started =>
            if affectedRows (playTable hand.tableId) started.pokerTables ≠ 1 then (.conflict, db)
            else (.ok, { started with
              pokerTables := updateRows (playTable hand.tableId) started.pokerTables })

/-- `isExactActionDuplicate`. -/
def isExactActionDuplicate (db : MySqlGameStore) (action : HandActionRecord) : Bool :=
  (db.handActions.entries.find? fun entry =>
      entry.1.1 = action.handId ∧ (entry.1.2 = action.sequence ∨
        entry.2.userId = action.userId ∧ entry.2.requestId = action.requestId)).any fun entry =>
    entry.1.2 = action.sequence ∧ entry.2.requestId = action.requestId
      ∧ entry.2.userId = action.userId ∧ entry.2.targetAmount = action.targetAmount
      ∧ entry.2.street = streetName action.street ∧ entry.2.actionType = actionName action.action

/-- `MySqlGameStore::appendAction`. -/
def appendAction (db : MySqlGameStore) (action : HandActionRecord) :
    StorageError × MySqlGameStore :=
  match db.insertAction action with
  | .ok (affected, db') => if affected = 1 then (.ok, db') else (.conflict, db)
  | .error .duplicateEntry =>
    (if db.isExactActionDuplicate action then .duplicate else .conflict, db)
  | .error .refused => (.unavailable, db)

/-- `UPDATE hand_players SET committed=?,... WHERE hand_id=? AND user_id=? AND start_stack=?`. -/
def closePlayer (handId : Nat) (player : HandPlayerSettlement) :
    Nat × UserId → HandPlayerRow → Option HandPlayerRow :=
  atKey (handId, player.userId) fun row =>
    if row.startStack = player.startStack then
      some { row with
        committed := player.committed, winnings := player.winnings
        endStack := some player.endStack, holeCards := encodeCards player.holeCards
        folded := player.folded }
    else none

/-- `UPDATE table_seats SET stack=?,hand_start_stack=? WHERE ... AND hand_start_stack=?`. -/
def paySeat (tableId : Nat) (player : HandPlayerSettlement) :
    Nat × UserId → TableSeatRow → Option TableSeatRow :=
  atKey (tableId, player.userId) fun row =>
    if row.handStartStack = player.startStack then
      some { row with stack := player.endStack, handStartStack := player.endStack }
    else none

/-- One round of the loop of `settleHand`. -/
def settlePlayer (value : HandSettlementRecord) (db : MySqlGameStore)
    (player : HandPlayerSettlement) : Except StorageError MySqlGameStore :=
  if affectedRows (closePlayer value.handId player) db.handPlayers ≠ 1 then .error .conflict
  else
    let closed := { db with
      handPlayers := updateRows (closePlayer value.handId player) db.handPlayers }
    match closed.updateSeats (paySeat value.tableId player) with
    | none => .error .conflict
    | some (affected, paid) => if affected ≠ 1 then .error .conflict else .ok paid

/-- `UPDATE hands SET status='settled',... WHERE id=? AND table_id=? AND status='playing'`. -/
def settleRow (value : HandSettlementRecord) : Nat → HandRow → Option HandRow :=
  atKey value.handId fun row =>
    if row.tableId = value.tableId ∧ row.status = .playing then
      some { row with
        status := .settled, boardCards := some (encodeCards value.board)
        totalPot := value.totalPot }
    else none

/-- `UPDATE poker_tables SET status='waiting' WHERE id=?`. -/
def reopenTable (tableId : Nat) : Nat → PokerTableRow → Option PokerTableRow :=
  atKey tableId fun row => some { row with status := .waiting }

/-- `MySqlGameStore::settleHand`. -/
def settleHand (db : MySqlGameStore) (value : HandSettlementRecord) :
    StorageError × MySqlGameStore :=
  if !validHandSettlement value then (.invalidData, db)
  else match db.pokerTables.lookup value.tableId with
    | none => (.notFound, db)
    | some table =>
      if table.status ≠ .playing then (.conflict, db)
      else if affectedRows (settleRow value) db.hands ≠ 1 then (.conflict, db)
      else match value.players.foldlM (settlePlayer value)
          { db with hands := updateRows (settleRow value) db.hands } with
        | .error error => (error, db)
        | .ok settled =>
          (.ok, { settled with
            pokerTables := updateRows (reopenTable value.tableId) settled.pokerTables })

end MySqlGameStore

end PokerServer
