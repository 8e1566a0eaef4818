import PokerServer.Storage.Escrow

/-!
# What the store has for a table

`holding` is the seat the store has for a user at a table, with its stack, and `status` says whether
the table is aborted and whether a hand is in progress. One lemma a call says what it does to both.
-/

namespace PokerServer

namespace InMemoryGameStore

variable {store store' : InMemoryGameStore} {tableId : Nat} {user : UserId} {table : StoredTable}

/-- The seat of a user at a table and its stack. -/
def holding (store : InMemoryGameStore) (tableId : Nat) (user : UserId) : Option (Nat × Int) :=
  ((store.tables.lookup tableId).bind fun table => table.seats.lookup user).map fun record =>
    (record.seat, record.stack)

/-- Whether a table is aborted, and whether a hand is in progress. -/
def status (store : InMemoryGameStore) (tableId : Nat) : Option (Bool × Bool) :=
  (store.tables.lookup tableId).map fun table => (table.aborted, table.handInProgress)

theorem holding_of_lookup (h : store.tables.lookup tableId = some table) (user : UserId) :
    store.holding tableId user =
      (table.seats.lookup user).map fun record => (record.seat, record.stack) := by
  unfold holding
  rw [h, Option.bind_some]

theorem status_of_lookup (h : store.tables.lookup tableId = some table) :
    store.status tableId = some (table.aborted, table.handInProgress) := by
  unfold status
  rw [h, Option.map_some]

theorem holding_congr (h : store'.tables = store.tables) (user : UserId) :
    store'.holding tableId user = store.holding tableId user := by
  unfold holding
  rw [h]

theorem status_congr (h : store'.tables = store.tables) :
    store'.status tableId = store.status tableId := by
  unfold status
  rw [h]

/-! ## Calls as steps of the store -/

theorem does_reserveBuyIn {seat : Nat} {amount : Int} {key : String}
    {result : StorageResult BuyInReceipt}
    (h : store.reserveBuyIn tableId user seat amount key = (result, store')) :
    Does store (.reserveBuyIn tableId user seat amount key, .buyIn result) store' :=
  congrArg (Prod.map StoreAnswer.buyIn id) h

theorem does_cashOut {key : String} {result : StorageResult CashOutReceipt}
    (h : store.cashOut tableId user key = (result, store')) :
    Does store (.cashOut tableId user key, .cashOut result) store' :=
  congrArg (Prod.map StoreAnswer.cashOut id) h

theorem does_beginHand {hand : HandStartRecord} {e : StorageError}
    (h : store.beginHand hand = (e, store')) : Does store (.beginHand hand, .plain e) store' :=
  congrArg (Prod.map StoreAnswer.plain id) h

theorem does_appendAction {action : HandActionRecord} {e : StorageError}
    (h : store.appendAction action = (e, store')) :
    Does store (.appendAction action, .plain e) store' :=
  congrArg (Prod.map StoreAnswer.plain id) h

theorem does_settleHand {value : HandSettlementRecord} {e : StorageError}
    (h : store.settleHand value = (e, store')) : Does store (.settleHand value, .plain e) store' :=
  congrArg (Prod.map StoreAnswer.plain id) h

theorem does_abort (store : InMemoryGameStore) (tableId : Nat) :
    Does store (.abortTableAndRefund tableId, .plain (store.abortTableAndRefund tableId).1)
      (store.abortTableAndRefund tableId).2 := rfl

/-! ## Seats that are taken and left -/

/-- A buy-in that the ledger answers finds its seat as it was bought. -/
theorem replayBuyIn_holding {seat : Nat} {amount : Int} {entry : LedgerResult}
    {receipt : BuyInReceipt}
    (h : (store.replayBuyIn tableId user seat amount entry).value = some receipt) :
    entry.IsBuyIn tableId seat amount ∧ store.holding tableId user = some (seat, amount) := by
  unfold replayBuyIn at h
  split at h
  · exact absurd h (by simp [refusal])
  · rename_i hreused
    simp only [not_or, not_not] at hreused
    refine ⟨hreused, ?_⟩
    split at h
    · exact absurd h (by simp [refusal])
    · rename_i table htable
      split at h
      · rename_i hheld
        obtain ⟨record, hrecord, hsame⟩ := (Option.any_eq_true _ _).mp hheld
        obtain ⟨hseat, hstack⟩ := of_decide_eq_true hsame
        rw [holding_of_lookup htable, hrecord, Option.map_some, hseat, hstack]
      · exact absurd h (by simp [refusal])

/-- **A buy-in that is not a repetition takes the user's seat.** -/
theorem reserveBuyIn_holding {seat : Nat} {amount : Int} {key : String}
    {result : StorageResult BuyInReceipt} {receipt : BuyInReceipt}
    (h : store.reserveBuyIn tableId user seat amount key = (result, store'))
    (hvalue : result.value = some receipt)
    (hfresh : ∀ entry, store.ledger.lookup (ledgerKey user key) = some entry →
      entry.IsBuyIn tableId seat amount → store.holding tableId user ≠ some (seat, amount)) :
    receipt.tableStack = amount ∧ store.holding tableId user = none ∧
      store'.holding tableId user = some (seat, amount) ∧
      (∀ other, other ≠ user → store'.holding tableId other = store.holding tableId other) ∧
      store'.status tableId = store.status tableId := by
  rcases reserveBuyIn_cases h with ⟨-, hnone, -⟩ | ⟨entry, hentry, hsame, -⟩ |
    ⟨table, wallet, -, htable, -, -, -, -, -, -, -, -, -, habsent, -, hresult, hstore⟩
  · exact absurd hvalue (by simp [hnone])
  · -- the ledger answers: the seat is the user's already
    have hreplay : (store.replayBuyIn tableId user seat amount entry).value = some receipt := by
      unfold reserveBuyIn at h
      dsimp only at h
      rw [hentry] at h
      split_ifs at h
      · rw [← (Prod.mk.inj h).1] at hvalue
        exact absurd hvalue (by simp [refusal])
      · rw [(Prod.mk.inj h).1]
        exact hvalue
    exact absurd (replayBuyIn_holding hreplay).2 (hfresh entry hentry hsame)
  · have hlookup : store'.tables.lookup tableId = some { table with
        seats := table.seats.insert user { userId := user, seat := seat, stack := amount }
        occupiedSeats := table.occupiedSeats.insert seat user } := by
      rw [hstore]
      exact AList.lookup_insert _
    refine ⟨?_, ?_, ?_, fun other hne => ?_, ?_⟩
    · rw [hresult, Option.some.injEq] at hvalue
      rw [← hvalue]
    · rw [holding_of_lookup htable, habsent, Option.map_none]
    · rw [holding_of_lookup hlookup, AList.lookup_insert, Option.map_some]
    · rw [holding_of_lookup hlookup, holding_of_lookup htable, AList.lookup_insert_ne hne]
    · rw [status_of_lookup hlookup, status_of_lookup htable]

/-- **A cash-out that is not a repetition leaves the user's seat.** -/
theorem cashOut_holding {key : String} {result : StorageResult CashOutReceipt}
    (h : store.cashOut tableId user key = (result, store')) (hok : result.error = .ok)
    (hfresh : ∀ entry, store.ledger.lookup (ledgerKey user key) = some entry →
      ¬ entry.IsCashOut tableId) :
    store'.holding tableId user = none ∧
      (∀ other, other ≠ user → store'.holding tableId other = store.holding tableId other) ∧
      store'.status tableId = store.status tableId := by
  rcases cashOut_cases h with ⟨hne, -⟩ | ⟨entry, hentry, hsame, -⟩ |
    ⟨table, wallet, record, -, htable, -, -, -, -, hstore⟩
  · exact absurd hok hne
  · exact absurd hsame (hfresh entry hentry)
  · have hlookup : store'.tables.lookup tableId = some { table with
        seats := table.seats.erase user
        occupiedSeats := table.occupiedSeats.erase record.seat } := by
      rw [hstore]
      exact AList.lookup_insert _
    refine ⟨?_, fun other hne => ?_, ?_⟩
    · rw [holding_of_lookup hlookup, AList.lookup_erase, Option.map_none]
    · rw [holding_of_lookup hlookup, holding_of_lookup htable, AList.lookup_erase_ne hne]
    · rw [status_of_lookup hlookup, status_of_lookup htable]

/-! ## Hands -/

theorem beginHand_holding {hand : HandStartRecord} {e : StorageError}
    (h : store.beginHand hand = (e, store')) (user : UserId) :
    store'.holding hand.tableId user = store.holding hand.tableId user := by
  rcases beginHand_cases h with ⟨-, rfl⟩ | ⟨table, -, -, -, -, htable, -, -, -, hstore⟩
  · rfl
  · have hlookup : store'.tables.lookup hand.tableId =
        some { table with handInProgress := true } := by
      rw [hstore]
      exact AList.lookup_insert _
    rw [holding_of_lookup hlookup, holding_of_lookup htable]

/-- The second loop of `settleHand` leaves the users without a line alone. -/
theorem writeStacks_other : ∀ {players : List HandPlayerSettlement} {table : StoredTable},
    (∀ player ∈ players, player.userId ≠ user) →
    (writeStacks table players).seats.lookup user = table.seats.lookup user
  | [], _, _ => rfl
  | player :: players, table, h => by
    have hrest (table : StoredTable) :
        (writeStacks table players).seats.lookup user = table.seats.lookup user :=
      writeStacks_other fun other hother => h other (List.mem_cons_of_mem _ hother)
    cases hseat : table.seats.lookup player.userId with
    | none =>
      have hskip : writeStacks table (player :: players) = writeStacks table players := by
        unfold writeStacks
        rw [List.foldl_cons, hseat]
      rw [hskip, hrest]
    | some record =>
      rw [writeStacks_cons hseat, hrest, AList.lookup_insert_ne (h player List.mem_cons_self).symm]

/-- A user whose lines agree on the end stack gets it. -/
theorem writeStacks_own {stack : Int} :
    ∀ {players : List HandPlayerSettlement} {table : StoredTable} {record : SeatRecord},
    table.seats.lookup user = some record → (∃ player ∈ players, player.userId = user) →
    (∀ player ∈ players, player.userId = user → player.endStack = stack) →
    ∃ record', (writeStacks table players).seats.lookup user = some record' ∧
      record'.seat = record.seat ∧ record'.stack = stack
  | [], _, _, _, hsome, _ => absurd hsome (by simp)
  | player :: players, table, record, hseated, hsome, hends => by
    have hrest := fun other (hother : other ∈ players) =>
      hends other (List.mem_cons_of_mem _ hother)
    by_cases hlater : ∃ other ∈ players, other.userId = user
    · cases hseat : table.seats.lookup player.userId with
      | none =>
        have hskip : writeStacks table (player :: players) = writeStacks table players := by
          unfold writeStacks
          rw [List.foldl_cons, hseat]
        rw [hskip]
        exact writeStacks_own hseated hlater hrest
      | some old =>
        rw [writeStacks_cons hseat]
        by_cases hown : user = player.userId
        · obtain rfl : old = record := by
            rw [← hown] at hseat
            exact Option.some.inj (hseat.symm.trans hseated)
          have hinserted : ({ table with
              seats := table.seats.insert player.userId { old with stack := player.endStack } } :
                StoredTable).seats.lookup user = some { old with stack := player.endStack } := by
            rw [hown]
            exact AList.lookup_insert _
          obtain ⟨record', hafter, hsame, hstack⟩ := writeStacks_own hinserted hlater hrest
          exact ⟨record', hafter, hsame, hstack⟩
        · refine writeStacks_own ?_ hlater hrest
          rw [AList.lookup_insert_ne hown]
          exact hseated
    · -- this line is the user's last
      have hown : player.userId = user := by
        obtain ⟨other, hother, hid⟩ := hsome
        rcases List.mem_cons.mp hother with rfl | hother
        · exact hid
        · exact absurd ⟨other, hother, hid⟩ hlater
      subst hown
      refine ⟨{ record with stack := player.endStack }, ?_, rfl,
        hends player List.mem_cons_self rfl⟩
      rw [writeStacks_cons hseated, writeStacks_other fun other hother hid =>
        hlater ⟨other, hother, hid⟩]
      exact AList.lookup_insert _

/-- **A settlement that agrees with `held`** on the end stacks, and off its lines as the store is
before it, leaves the store as `held` says. -/
theorem settleHand_holding {value : HandSettlementRecord} {held : UserId → Option (Nat × Int)}
    (h : store.settleHand value = (.ok, store'))
    (hlines : ∀ player ∈ value.players, held player.userId = some (player.seat, player.endStack))
    (hothers : ∀ user, (∀ player ∈ value.players, player.userId ≠ user) →
      held user = store.holding value.tableId user) (user : UserId) :
    held user = store'.holding value.tableId user := by
  rcases settleHand_cases h with ⟨hne, -⟩ | ⟨table, -, -, -, htable, -, -, -, -, hmatches, hstore⟩
  · exact absurd rfl hne
  have hlookup : store'.tables.lookup value.tableId =
      some { writeStacks table value.players with handInProgress := false } := by
    rw [hstore]
    exact AList.lookup_insert _
  rw [holding_of_lookup hlookup]
  by_cases hline : ∃ player ∈ value.players, player.userId = user
  · obtain ⟨player, hplayer, rfl⟩ := hline
    obtain ⟨record, hrecord, hseat, -⟩ := seatMatches_iff.mp (hmatches player hplayer)
    have hheld := hlines player hplayer
    have hends : ∀ other ∈ value.players, other.userId = player.userId →
        other.endStack = player.endStack := by
      intro other hother hid
      have hother' := hlines other hother
      rw [hid, hheld, Option.some.injEq, Prod.mk.injEq] at hother'
      exact hother'.2.symm
    obtain ⟨record', hafter, hseat', hstack⟩ :=
      writeStacks_own hrecord ⟨player, hplayer, rfl⟩ hends
    rw [hheld, hafter, Option.map_some, hseat', hseat, hstack]
  · have hnone : ∀ player ∈ value.players, player.userId ≠ user :=
      fun player hplayer hid => hline ⟨player, hplayer, hid⟩
    rw [hothers user hnone, holding_of_lookup htable, writeStacks_other hnone]

/-- A settlement is known already only if the hand is settled, or no hand is in progress. -/
theorem settleHand_duplicate {value : HandSettlementRecord}
    (h : store.settleHand value = (.duplicate, store')) :
    (store.settlements.lookup value.handId).isSome = true ∨
      (store.handStarts.lookup value.handId).isSome = true ∧
        store.status value.tableId = some (false, false) := by
  unfold settleHand at h
  by_cases hinvalid : (!validHandSettlement value) = true
  · rw [if_pos hinvalid] at h
    exact absurd (congrArg Prod.fst h) (by simp)
  rw [if_neg hinvalid] at h
  cases hknown : store.settlements.lookup value.handId with
  | some existing => exact Or.inl rfl
  | none =>
    rw [hknown] at h
    dsimp only at h
    by_cases hstart : (store.handStarts.lookup value.handId).isNone = true
    · rw [if_pos hstart] at h
      exact absurd (congrArg Prod.fst h) (by simp)
    rw [if_neg hstart] at h
    cases htable : store.tables.lookup value.tableId with
    | none =>
      rw [htable] at h
      exact absurd (congrArg Prod.fst h) (by simp)
    | some table =>
      rw [htable] at h
      dsimp only at h
      split_ifs at h with haborted hhand hmatches
      · exact absurd (congrArg Prod.fst h) (by simp)
      · refine Or.inr ⟨?_, ?_⟩
        · rw [Option.isNone_iff_eq_none] at hstart
          exact Option.isSome_iff_ne_none.mpr hstart
        · rw [status_of_lookup htable]
          simp only [Bool.not_eq_true, Bool.not_eq_true'] at haborted hhand
          rw [haborted, hhand]
      · exact absurd (congrArg Prod.fst h) (by simp)
      · exact absurd (congrArg Prod.fst h) (by simp)

theorem settleHand_sameStarts {value : HandSettlementRecord} {e : StorageError}
    (h : store.settleHand value = (e, store')) : store'.handStarts = store.handStarts := by
  rcases settleHand_cases h with ⟨-, rfl⟩ | ⟨_, -, -, -, -, -, -, -, -, -, hstore⟩
  · rfl
  · rw [hstore]
    rfl

end InMemoryGameStore

end PokerServer
