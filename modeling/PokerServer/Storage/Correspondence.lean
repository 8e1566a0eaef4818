import PokerServer.Storage.Ledger
import PokerServer.Storage.MySqlGameStore
import PokerServer.Storage.Seats

/-!
# What the two stores have in common

`Corresponds db store` relates a database to a state of the in-memory store: the columns that the
methods read against the fields that the in-memory store keeps for them. The database keeps each
stack twice (`hand_start_stack`), a status instead of two flags, one row for each player of a hand,
and the ledger by the collation of the key.

What the in-memory store does not keep has no counterpart: the ledger rows of refunds, the creator
and the users. That is where the two part (`Alike`).
-/

namespace PokerServer

/-- The calls of `GameStore` that change a store. -/
inductive GameStoreCall where
  | createTable (table : TableRecord)
  | reserveBuyIn (tableId : Nat) (userId : UserId) (seat : Nat) (amount : Int)
      (idempotencyKey : String)
  | cashOut (tableId : Nat) (userId : UserId) (idempotencyKey : String)
  | beginHand (hand : HandStartRecord)
  | appendAction (action : HandActionRecord)
  | settleHand (value : HandSettlementRecord)
  | abortTableAndRefund (tableId : Nat)

/-- The call, as one of the in-memory store. -/
def GameStoreCall.op : GameStoreCall → StoreOp
  | createTable table => .createTable table
  | reserveBuyIn tableId userId seat amount key => .reserveBuyIn tableId userId seat amount key
  | cashOut tableId userId key => .cashOut tableId userId key
  | beginHand hand => .beginHand hand
  | appendAction action => .appendAction action
  | settleHand value => .settleHand value
  | abortTableAndRefund tableId => .abortTableAndRefund tableId

namespace MySqlGameStore

def perform (db : MySqlGameStore) : GameStoreCall → StoreAnswer × MySqlGameStore
  | .createTable table => (db.createTable table).map .plain id
  | .reserveBuyIn tableId userId seat amount key =>
    (db.reserveBuyIn tableId userId seat amount key).map .buyIn id
  | .cashOut tableId userId key => (db.cashOut tableId userId key).map .cashOut id
  | .beginHand hand => (db.beginHand hand).map .plain id
  | .appendAction action => (db.appendAction action).map .plain id
  | .settleHand value => (db.settleHand value).map .plain id
  | .abortTableAndRefund tableId => (db.abortTableAndRefund tableId).map .plain id

/-- The stack of a user at a table. -/
def seatStack (db : MySqlGameStore) (tableId : Nat) (userId : UserId) : Option Int :=
  (db.tableSeats.lookup (tableId, userId)).map (·.stack)

end MySqlGameStore

/-- `InMemoryGameStore::seatStack`. -/
def InMemoryGameStore.seatStack (store : InMemoryGameStore) (tableId : Nat) (userId : UserId) :
    Option Int :=
  ((store.tables.lookup tableId).bind fun table => table.seats.lookup userId).map (·.stack)

/-! ## Rows and records -/

/-- What the methods read of a table. -/
structure TableRules where
  status : TableStatus
  maxPlayers : Nat
  minBuyIn : Int
  maxBuyIn : Int

def PokerTableRow.rules (row : PokerTableRow) : TableRules :=
  { status := row.status, maxPlayers := row.maxPlayers, minBuyIn := row.minBuyIn
    maxBuyIn := row.maxBuyIn }

def StoredTable.rules (table : StoredTable) : TableRules :=
  { status := if table.aborted then .aborted
      else if table.handInProgress then .playing else .waiting
    maxPlayers := table.record.config.maxPlayers, minBuyIn := table.record.config.minBuyIn
    maxBuyIn := table.record.config.maxBuyIn }

/-- The row of a seat with this number and stack. -/
def TableSeatRow.of (held : Nat × Int) : TableSeatRow :=
  { seatNo := held.1, stack := held.2, handStartStack := held.2 }

/-- What the methods read of a hand. -/
structure HandState where
  tableId : Nat
  handNumber : Nat
  status : HandStatus

def HandRow.state (row : HandRow) : HandState :=
  { tableId := row.tableId, handNumber := row.handNumber, status := row.status }

/-- A hand is settled, or its table was aborted, or it is being played. -/
def InMemoryGameStore.handState (store : InMemoryGameStore) (handId : Nat)
    (start : HandStartRecord) : HandState :=
  { tableId := start.tableId, handNumber := start.handNumber
    status :=
      if (store.settlements.lookup handId).isSome then .settled
      else if (store.tables.lookup start.tableId).any (·.aborted) then .aborted
      else .playing }

/-- The start stack of a user, if the hand was started with this user. -/
def HandStartRecord.stackOf (start : HandStartRecord) (user : UserId) : Option Int :=
  (start.players.find? fun player => player.userId = user).map (·.startStack)

/-- The row of an action. -/
def HandActionRow.of (action : HandActionRecord) : HandActionRow :=
  { requestId := action.requestId, userId := action.userId, street := streetName action.street
    actionType := actionName action.action, targetAmount := action.targetAmount }

/-- The row of a ledger entry. -/
def WalletLedgerRow.of (entry : LedgerResult) : WalletLedgerRow :=
  match entry.kind with
  | .buyIn =>
    { deltaAmount := -entry.chips, balanceAfter := entry.walletBalance, reason := .tableBuyIn
      referenceId := toString entry.tableId }
  | .cashOut =>
    { deltaAmount := entry.chips, balanceAfter := entry.walletBalance, reason := .tableCashOut
      referenceId := toString entry.tableId }

/-- A buy-in moves chips; a cash-out may pay out an empty stack. -/
def LedgerResult.Signed (entry : LedgerResult) : Prop :=
  0 ≤ entry.chips ∧ (entry.kind = .buyIn → 0 < entry.chips)

/-- A street of the `ENUM`. -/
def Street.Stored (street : Street) : Prop :=
  street = .preflop ∨ street = .flop ∨ street = .turn ∨ street = .river

/-- **The arguments are in the ranges of their columns.** The lengths of keys and of cards are
checked by the methods before they are stored. -/
def GameStoreCall.InRange : GameStoreCall → Prop
  | createTable table =>
    table.name.length ≤ 64 ∧ table.nodeId.length ≤ 64 ∧ table.config.maxPlayers ≤ 255
  | reserveBuyIn _ _ seat _ _ => seat ≤ 255
  | beginHand hand => hand.dealerSeat ≤ 255 ∧ ∀ player ∈ hand.players, player.seat ≤ 255
  | appendAction action => action.street.Stored
  | _ => True

instance (street : Street) : Decidable street.Stored :=
  inferInstanceAs (Decidable (_ ∨ _ ∨ _ ∨ _))

instance : DecidablePred GameStoreCall.InRange
  | .createTable _ => inferInstanceAs (Decidable (_ ∧ _ ∧ _))
  | .reserveBuyIn .. => inferInstanceAs (Decidable (_ ≤ _))
  | .beginHand hand =>
    inferInstanceAs (Decidable (_ ∧ ∀ player ∈ hand.players, player.seat ≤ 255))
  | .appendAction action => inferInstanceAs (Decidable action.street.Stored)
  | .cashOut .. => isTrue trivial
  | .settleHand _ => isTrue trivial
  | .abortTableAndRefund _ => isTrue trivial

/-! ## The relation -/

/-- The wallets, the tables with their seats, and the ledger. -/
structure MoneyCorresponds (db : MySqlGameStore) (store : InMemoryGameStore) : Prop where
  sound : store.Sound
  wallets : ∀ user, db.wallets.lookup user = store.wallets.lookup user
  purse : ∀ user balance, store.wallets.lookup user = some balance →
    user ∈ db.users ∧ balance ≤ int64Max
  tables : ∀ tableId, (db.pokerTables.lookup tableId).map PokerTableRow.rules =
    (store.tables.lookup tableId).map StoredTable.rules
  seats : ∀ tableId user, db.tableSeats.lookup (tableId, user) =
    (store.holding tableId user).map TableSeatRow.of
  real : ∀ tableId, store.holding tableId 0 = none
  ledger : ∀ user key entry,
    store.ledger.lookup (InMemoryGameStore.ledgerKey user key) = some entry →
    db.walletLedger.lookup (user, db.collate key) = some (WalletLedgerRow.of entry) ∧ entry.Signed

/-- The hands, their players and their actions. -/
structure HandsCorrespond (db : MySqlGameStore) (store : InMemoryGameStore) : Prop where
  hands : ∀ handId, (db.hands.lookup handId).map HandRow.state =
    (store.handStarts.lookup handId).map (store.handState handId)
  settled : ∀ handId, store.handStarts.lookup handId = none →
    store.settlements.lookup handId = none
  players : ∀ handId user, (db.handPlayers.lookup (handId, user)).map (·.startStack) =
    (store.handStarts.lookup handId).bind (·.stackOf user)
  actions : ∀ handId sequence, db.handActions.lookup (handId, sequence) =
    (store.actions.lookup (handId, sequence)).map HandActionRow.of
  numbered : ∀ handId sequence action, store.actions.lookup (handId, sequence) = some action →
    action.handId = handId ∧ action.sequence = sequence ∧ action.street.Stored
  requests : ∀ handId sequence sequence' action action',
    store.actions.lookup (handId, sequence) = some action →
    store.actions.lookup (handId, sequence') = some action' →
    action.userId = action'.userId → action.requestId = action'.requestId → sequence = sequence'

structure Corresponds (db : MySqlGameStore) (store : InMemoryGameStore) : Prop
    extends MoneyCorresponds db store, HandsCorrespond db store

/-- **Empty stores with the same users and wallets correspond.** -/
theorem corresponds_empty {collate : String → String} {users : List UserId}
    {wallets : Dict UserId Int}
    (hwallets : ∀ user balance, wallets.lookup user = some balance →
      user ∈ users ∧ 0 ≤ balance ∧ balance ≤ int64Max) :
    Corresponds { collate := collate, users := users, wallets := wallets }
      { wallets := wallets } where
  sound := ⟨fun user balance h => (hwallets user balance h).2.1, by simp⟩
  wallets _ := rfl
  purse user balance h := ⟨(hwallets user balance h).1, (hwallets user balance h).2.2⟩
  tables _ := rfl
  seats _ _ := rfl
  real _ := rfl
  hands _ := rfl
  settled _ _ := rfl
  players _ _ := rfl
  actions _ _ := rfl
  numbered _ _ _ h := absurd h (by simp)
  requests _ _ _ _ _ h := absurd h (by simp)
  ledger _ _ _ h := absurd h (by simp)

variable {db db' : MySqlGameStore} {store store' : InMemoryGameStore} {tableId : Nat}
  {table : StoredTable}

namespace Corresponds

/-- The row of a known table. -/
theorem row (h : Corresponds db store) (htable : store.tables.lookup tableId = some table) :
    ∃ row, db.pokerTables.lookup tableId = some row ∧ row.rules = table.rules := by
  have hrules := h.tables tableId
  rw [htable, Option.map_some] at hrules
  exact Option.map_eq_some_iff.mp hrules

theorem no_row (h : Corresponds db store) (htable : store.tables.lookup tableId = none) :
    db.pokerTables.lookup tableId = none := by
  have hrules := h.tables tableId
  rw [htable, Option.map_none] at hrules
  exact Option.map_eq_none_iff.mp hrules

/-- The row of a known hand. -/
theorem hand (h : Corresponds db store) {handId : Nat} {start : HandStartRecord}
    (hstart : store.handStarts.lookup handId = some start) :
    ∃ row, db.hands.lookup handId = some row ∧ row.state = store.handState handId start := by
  have hstate := h.hands handId
  rw [hstart, Option.map_some] at hstate
  exact Option.map_eq_some_iff.mp hstate

theorem no_hand (h : Corresponds db store) {handId : Nat}
    (hstart : store.handStarts.lookup handId = none) : db.hands.lookup handId = none := by
  have hstate := h.hands handId
  rw [hstart, Option.map_none] at hstate
  exact Option.map_eq_none_iff.mp hstate

/-- The wallets and the stacks agree. -/
theorem seatStack (h : Corresponds db store) (tableId : Nat) (user : UserId) :
    db.seatStack tableId user = store.seatStack tableId user := by
  unfold MySqlGameStore.seatStack InMemoryGameStore.seatStack
  rw [h.seats, InMemoryGameStore.holding, Option.map_map, Option.map_map]
  rfl

end Corresponds

/-! ## Seats after a write -/

namespace InMemoryGameStore

/-- One table is written. -/
theorem holding_insert (h : store'.tables = store.tables.insert tableId table) (other : Nat)
    (user : UserId) :
    store'.holding other user =
      if other = tableId then
        (table.seats.lookup user).map fun record => (record.seat, record.stack)
      else store.holding other user := by
  unfold holding
  rw [h]
  split
  · rename_i heq
    rw [heq, AList.lookup_insert, Option.bind_some]
  · rename_i hne
    rw [AList.lookup_insert_ne hne]

/-- A user is seated iff the user holds a seat. -/
theorem holding_eq_none (htable : store.tables.lookup tableId = some table) (user : UserId) :
    store.holding tableId user = none ↔ table.seats.lookup user = none := by
  rw [holding_of_lookup htable, Option.map_eq_none_iff]

/-- A seat number is occupied iff some user holds it. -/
theorem occupied_iff (hsound : store.Sound) (htable : store.tables.lookup tableId = some table)
    (seat : Nat) :
    (table.occupiedSeats.lookup seat).isSome = true ↔
      ∃ user stack, store.holding tableId user = some (seat, stack) := by
  have hseats := hsound.table tableId table htable
  rw [Option.isSome_iff_exists]
  constructor
  · rintro ⟨user, huser⟩
    obtain ⟨record, hrecord, hseat⟩ := hseats.occupant seat user huser
    refine ⟨user, record.stack, ?_⟩
    rw [holding_of_lookup htable, hrecord, Option.map_some, hseat]
  · rintro ⟨user, stack, hheld⟩
    rw [holding_of_lookup htable] at hheld
    obtain ⟨record, hrecord, heq⟩ := Option.map_eq_some_iff.mp hheld
    obtain ⟨rfl, -⟩ := Prod.mk.inj heq
    exact ⟨user, (hseats.seat user record hrecord).2⟩

end InMemoryGameStore

end PokerServer
