import PokerServer.Lib.Runs
import PokerServer.Storage.InMemoryGameStore

/-!
# The store as a transition system

A run of the store is any sequence of the calls that change it, with any arguments, from the empty
store on. `Performed` says once what a call can do: it is refused, it repeats an earlier one, or it
makes one of nine changes.
-/

namespace PokerServer

/-- The calls that change the store. -/
inductive StoreOp where
  | seedWallet (userId : UserId) (balance : Int)
  | createTable (table : TableRecord)
  | reserveBuyIn (tableId : Nat) (userId : UserId) (seat : Nat) (amount : Int)
      (idempotencyKey : String)
  | cashOut (tableId : Nat) (userId : UserId) (idempotencyKey : String)
  | beginHand (hand : HandStartRecord)
  | appendAction (action : HandActionRecord)
  | settleHand (value : HandSettlementRecord)
  | abortTableAndRefund (tableId : Nat)

/-- What a call returns. -/
inductive StoreAnswer where
  | plain (error : StorageError)
  | buyIn (result : StorageResult BuyInReceipt)
  | cashOut (result : StorageResult CashOutReceipt)

def StoreAnswer.error : StoreAnswer → StorageError
  | plain error => error
  | buyIn result => result.error
  | cashOut result => result.error

namespace InMemoryGameStore

variable {store store' : InMemoryGameStore} {call : StoreOp} {answer : StoreAnswer}

def perform (store : InMemoryGameStore) : StoreOp → StoreAnswer × InMemoryGameStore
  | .seedWallet userId balance => (store.seedWallet userId balance).map .plain id
  | .createTable table => (store.createTable table).map .plain id
  | .reserveBuyIn tableId userId seat amount key =>
    (store.reserveBuyIn tableId userId seat amount key).map .buyIn id
  | .cashOut tableId userId key => (store.cashOut tableId userId key).map .cashOut id
  | .beginHand hand => (store.beginHand hand).map .plain id
  | .appendAction action => (store.appendAction action).map .plain id
  | .settleHand value => (store.settleHand value).map .plain id
  | .abortTableAndRefund tableId => (store.abortTableAndRefund tableId).map .plain id

/-- The transition relation: a call with its answer. -/
def Does (store : InMemoryGameStore) (label : StoreOp × StoreAnswer)
    (store' : InMemoryGameStore) : Prop :=
  store.perform label.1 = (label.2, store')

abbrev StoreStep := Step InMemoryGameStore (StoreOp × StoreAnswer)

/-- The calls that may succeed without doing anything. -/
def Repeatable : StoreOp → Prop
  | .reserveBuyIn .. => True
  | .cashOut .. => True
  | .abortTableAndRefund _ => True
  | _ => False

/-- The seats of a table as the refund walks them. -/
def seatRecords (table : StoredTable) : List SeatRecord :=
  table.seats.entries.map fun entry => { entry.2 with userId := entry.1 }

/-- **What a call does.** -/
inductive Performed (store : InMemoryGameStore) :
    StoreOp → StoreAnswer → InMemoryGameStore → Prop
  | refused {call : StoreOp} {answer : StoreAnswer} (error : answer.error ≠ .ok) :
      Performed store call answer store
  | repeated {call : StoreOp} {answer : StoreAnswer} (again : Repeatable call) :
      Performed store call answer store
  | seeded {userId : UserId} {balance : Int} (real : userId ≠ 0) (solvent : 0 ≤ balance)
      (new : store.wallets.lookup userId = none) :
      Performed store (.seedWallet userId balance) (.plain .ok)
        { store with wallets := store.wallets.insert userId balance }
  | created {table : TableRecord} (new : store.tables.lookup table.tableId = none) :
      Performed store (.createTable table) (.plain .ok)
        (store.setTable table.tableId { record := table })
  | boughtIn {tableId : Nat} {userId : UserId} {seat : Nat} {amount wallet : Int} {key : String}
      {table : StoredTable} (fresh : store.ledger.lookup (ledgerKey userId key) = none)
      (found : store.tables.lookup tableId = some table) (opened : table.aborted = false)
      (idle : table.handInProgress = false) (inside : seat < table.record.config.maxPlayers)
      (positive : 0 < amount) (covered : amount ≤ wallet)
      (purse : store.wallets.lookup userId = some wallet)
      (absent : table.seats.lookup userId = none)
      (free : table.occupiedSeats.lookup seat = none) :
      Performed store (.reserveBuyIn tableId userId seat amount key)
        (.buyIn { error := .ok
                  value := some { walletBalance := wallet - amount, tableStack := amount } })
        { store.setTable tableId
            { table with
              seats := table.seats.insert userId { userId := userId, seat := seat, stack := amount }
              occupiedSeats := table.occupiedSeats.insert seat userId } with
          wallets := store.wallets.insert userId (wallet - amount)
          ledger := store.ledger.insert (ledgerKey userId key)
            { kind := .buyIn, tableId := tableId, walletBalance := wallet - amount,
              chips := amount, seat := seat } }
  | cashedOut {tableId : Nat} {userId : UserId} {wallet : Int} {key : String}
      {table : StoredTable} {record : SeatRecord}
      (fresh : store.ledger.lookup (ledgerKey userId key) = none)
      (found : store.tables.lookup tableId = some table) (idle : table.handInProgress = false)
      (purse : store.wallets.lookup userId = some wallet)
      (seated : table.seats.lookup userId = some record) :
      Performed store (.cashOut tableId userId key)
        (.cashOut { error := .ok
                    value := some { walletBalance := wallet + record.stack
                                    returnedStack := record.stack } })
        { store.setTable tableId
            { table with
              seats := table.seats.erase userId
              occupiedSeats := table.occupiedSeats.erase record.seat } with
          wallets := store.wallets.insert userId (wallet + record.stack)
          ledger := store.ledger.insert (ledgerKey userId key)
            { kind := .cashOut, tableId := tableId, walletBalance := wallet + record.stack,
              chips := record.stack, seat := record.seat } }
  | begun {hand : HandStartRecord} {table : StoredTable}
      (new : store.handStarts.lookup hand.handId = none)
      (unsettled : store.settlements.lookup hand.handId = none)
      (found : store.tables.lookup hand.tableId = some table) (opened : table.aborted = false)
      (idle : table.handInProgress = false) :
      Performed store (.beginHand hand) (.plain .ok)
        { store.setTable hand.tableId { table with handInProgress := true } with
          handStarts := store.handStarts.insert hand.handId hand }
  | appended {action : HandActionRecord} {start : HandStartRecord}
      (begun : store.handStarts.lookup action.handId = some start)
      (unsettled : store.settlements.lookup action.handId = none) :
      Performed store (.appendAction action) (.plain .ok)
        { store with actions := store.actions.insert (action.handId, action.sequence) action }
  | settled {value : HandSettlementRecord} {start : HandStartRecord} {table : StoredTable}
      (valid : validHandSettlement value = true)
      (begun : store.handStarts.lookup value.handId = some start)
      (unsettled : store.settlements.lookup value.handId = none)
      (found : store.tables.lookup value.tableId = some table) (opened : table.aborted = false)
      (playing : table.handInProgress = true)
      (lines : ∀ player ∈ value.players,
        seatMatches table player.userId player.seat player.startStack = true) :
      Performed store (.settleHand value) (.plain .ok)
        { store.setTable value.tableId
            { writeStacks table value.players with handInProgress := false } with
          settlements := store.settlements.insert value.handId value }
  | refunded {tableId : Nat} {table : StoredTable} {wallets : Dict UserId Int}
      (found : store.tables.lookup tableId = some table) (opened : table.aborted = false)
      (complete : refundLoop store.wallets (seatRecords table) = (true, wallets)) :
      Performed store (.abortTableAndRefund tableId) (.plain .ok)
        { store.setTable tableId
            { table with
              seats := ∅, occupiedSeats := ∅, aborted := true, handInProgress := false } with
          wallets := wallets }
  | halted {tableId : Nat} {table : StoredTable} {wallets : Dict UserId Int}
      (found : store.tables.lookup tableId = some table) (opened : table.aborted = false)
      (stopped : refundLoop store.wallets (seatRecords table) = (false, wallets)) :
      Performed store (.abortTableAndRefund tableId) (.plain .conflict)
        { store with wallets := wallets }

theorem seedWallet_performed (store : InMemoryGameStore) (userId : UserId) (balance : Int) :
    Performed store (.seedWallet userId balance) (.plain (store.seedWallet userId balance).1)
      (store.seedWallet userId balance).2 := by
  unfold seedWallet
  split
  · exact .refused (by simp [StoreAnswer.error])
  · rename_i hvalid
    rw [not_or, not_lt] at hvalid
    split
    · exact .refused (by simp [StoreAnswer.error])
    · rename_i hnew
      exact .seeded hvalid.1 hvalid.2 (Option.not_isSome_iff_eq_none.mp hnew)

theorem createTable_performed (store : InMemoryGameStore) (table : TableRecord) :
    Performed store (.createTable table) (.plain (store.createTable table).1)
      (store.createTable table).2 := by
  unfold createTable
  split
  · exact .refused (by simp [StoreAnswer.error])
  · split
    · exact .refused (by simp [StoreAnswer.error])
    · rename_i hnew
      exact .created (Option.not_isSome_iff_eq_none.mp hnew)

theorem abortTableAndRefund_performed (store : InMemoryGameStore) (tableId : Nat) :
    Performed store (.abortTableAndRefund tableId) (.plain (store.abortTableAndRefund tableId).1)
      (store.abortTableAndRefund tableId).2 := by
  unfold abortTableAndRefund
  split
  · exact .refused (by simp [StoreAnswer.error])
  · rename_i table hfound
    split
    · exact .repeated trivial
    · rename_i hopen
      rw [Bool.not_eq_true] at hopen
      dsimp only
      cases hloop : refundLoop store.wallets (seatRecords table) with
      | mk complete wallets =>
        change refundLoop store.wallets (table.seats.entries.map _) = _ at hloop
        rw [hloop]
        cases complete with
        | true => exact .refunded hfound hopen hloop
        | false => exact .halted hfound hopen hloop

/-- **Every call does one of these.** -/
theorem perform_performed (h : store.perform call = (answer, store')) :
    Performed store call answer store' := by
  cases call with
  | seedWallet userId balance =>
    obtain ⟨rfl, rfl⟩ := Prod.mk.inj h
    exact store.seedWallet_performed userId balance
  | createTable table =>
    obtain ⟨rfl, rfl⟩ := Prod.mk.inj h
    exact store.createTable_performed table
  | reserveBuyIn tableId userId seat amount key =>
    obtain ⟨⟨result, after⟩, hcall⟩ : ∃ r, store.reserveBuyIn tableId userId seat amount key = r :=
      ⟨_, rfl⟩
    rw [perform, hcall] at h
    obtain ⟨rfl, rfl⟩ := Prod.mk.inj h
    rcases reserveBuyIn_cases hcall with ⟨herror, -, rfl, -⟩ | ⟨_, -, -, rfl, -⟩ |
      ⟨table, wallet, fresh, found, opened, idle, inside, -, -, -, positive, covered, purse, absent,
        free, rfl, rfl⟩
    · exact .refused herror
    · exact .repeated trivial
    · exact .boughtIn fresh found opened idle inside positive covered purse absent free
  | cashOut tableId userId key =>
    obtain ⟨⟨result, after⟩, hcall⟩ : ∃ r, store.cashOut tableId userId key = r := ⟨_, rfl⟩
    rw [perform, hcall] at h
    obtain ⟨rfl, rfl⟩ := Prod.mk.inj h
    rcases cashOut_cases hcall with ⟨herror, rfl, -⟩ | ⟨_, -, -, rfl, -⟩ |
      ⟨table, wallet, record, fresh, found, idle, purse, seated, rfl, rfl⟩
    · exact .refused herror
    · exact .repeated trivial
    · exact .cashedOut fresh found idle purse seated
  | beginHand hand =>
    obtain ⟨⟨error, after⟩, hcall⟩ : ∃ r, store.beginHand hand = r := ⟨_, rfl⟩
    rw [perform, hcall] at h
    obtain ⟨rfl, rfl⟩ := Prod.mk.inj h
    rcases beginHand_cases hcall with ⟨herror, rfl⟩ |
      ⟨table, rfl, -, new, unsettled, found, opened, idle, -, rfl⟩
    · exact .refused herror
    · exact .begun new unsettled found opened idle
  | appendAction action =>
    obtain ⟨⟨error, after⟩, hcall⟩ : ∃ r, store.appendAction action = r := ⟨_, rfl⟩
    rw [perform, hcall] at h
    obtain ⟨rfl, rfl⟩ := Prod.mk.inj h
    rcases appendAction_cases hcall with ⟨herror, rfl⟩ | ⟨rfl, -, hbegun, unsettled, -, rfl⟩
    · exact .refused herror
    · obtain ⟨start, begun⟩ := Option.isSome_iff_exists.mp hbegun
      exact .appended begun unsettled
  | settleHand value =>
    obtain ⟨⟨error, after⟩, hcall⟩ : ∃ r, store.settleHand value = r := ⟨_, rfl⟩
    rw [perform, hcall] at h
    obtain ⟨rfl, rfl⟩ := Prod.mk.inj h
    rcases settleHand_cases hcall with ⟨herror, rfl⟩ |
      ⟨table, rfl, -, unsettled, found, opened, playing, valid, ⟨start, begun⟩, lines, rfl⟩
    · exact .refused herror
    · exact .settled valid begun unsettled found opened playing lines
  | abortTableAndRefund tableId =>
    obtain ⟨rfl, rfl⟩ := Prod.mk.inj h
    exact store.abortTableAndRefund_performed tableId

/-! ## Concrete runs -/

/-- `perform`, with the call in the label. -/
def performs (store : InMemoryGameStore) (call : StoreOp) :
    Option ((StoreOp × StoreAnswer) × InMemoryGameStore) :=
  some ((call, (store.perform call).1), (store.perform call).2)

theorem run_of_calls {calls : List StoreOp} {trace : List StoreStep}
    (h : replay performs store calls = some (trace, store')) : Run Does store trace store' := by
  refine replay_run (fun s call label t hperforms => ?_) h
  obtain ⟨rfl, rfl⟩ := Prod.mk.inj (Option.some.inj hperforms)
  rfl

/-- Two users buy in at table 7 and play one hand, which the first of them wins. -/
def playedHand : List StoreOp :=
  [.seedWallet 1 1000, .seedWallet 2 1000,
   .createTable { tableId := 7, name := "table", nodeId := "node", createdBy := 1,
                  config := { minBuyIn := 200, maxBuyIn := 2000 } },
   .reserveBuyIn 7 1 0 300 "buy:1", .reserveBuyIn 7 2 1 500 "buy:2",
   .beginHand { handId := 900, tableId := 7, handNumber := 1, players :=
     [{ userId := 1, seat := 0, startStack := 300, holeCards := [⟨14, 0⟩, ⟨14, 1⟩] },
      { userId := 2, seat := 1, startStack := 500, holeCards := [⟨13, 0⟩, ⟨13, 1⟩] }] },
   .appendAction { handId := 900, sequence := 1, requestId := 501, userId := 2 },
   .settleHand { handId := 900, tableId := 7, handNumber := 1, totalPot := 600, players :=
     [{ userId := 1, seat := 0, startStack := 300, committed := 300, winnings := 600,
        endStack := 600, holeCards := [⟨14, 0⟩, ⟨14, 1⟩] },
      { userId := 2, seat := 1, startStack := 500, committed := 300, winnings := 0,
        endStack := 200, holeCards := [⟨13, 0⟩, ⟨13, 1⟩] }] }]

end InMemoryGameStore

end PokerServer
