import PokerServer.Lib.Totals
import PokerServer.Storage.Calls

/-!
# The money of the store

Chips are in a wallet or on a seat. `worth` adds them up over all wallets and all tables; it grows
by the seeded balances and stays otherwise, because a settlement that the store accepts pays out
what was committed (`validHandSettlement_balanced`) and a refund finds every wallet it needs
(`failed_calls_untouched`: so no call that fails has changed anything).
-/

namespace PokerServer

/-- The chips on the seats of a table. -/
def StoredTable.chips (table : StoredTable) : Int := total SeatRecord.stack table.seats

/-- What holds of a table in every reached store. -/
structure StoredTable.Sound (wallets : Dict UserId Int) (table : StoredTable) : Prop where
  stack : ∀ user record, table.seats.lookup user = some record → 0 ≤ record.stack
  wallet : ∀ user record, table.seats.lookup user = some record →
    ∃ balance, wallets.lookup user = some balance
  seat : ∀ user record, table.seats.lookup user = some record →
    record.seat < table.record.config.maxPlayers ∧
      table.occupiedSeats.lookup record.seat = some user
  occupant : ∀ seat user, table.occupiedSeats.lookup seat = some user →
    ∃ record, table.seats.lookup user = some record ∧ record.seat = seat
  closed : table.aborted = true → table.seats = ∅ ∧ table.occupiedSeats = ∅

namespace InMemoryGameStore

variable {store store' : InMemoryGameStore} {call : StoreOp} {answer : StoreAnswer}
  {table : StoredTable} {wallets wallets' : Dict UserId Int} {tableId : Nat}

/-- All the chips of the store. -/
def worth (store : InMemoryGameStore) : Int :=
  total id store.wallets + total StoredTable.chips store.tables

/-- **The seats agree with the wallets, and nobody is in debt.** -/
structure Sound (store : InMemoryGameStore) : Prop where
  wallet : ∀ user balance, store.wallets.lookup user = some balance → 0 ≤ balance
  table : ∀ tableId table, store.tables.lookup tableId = some table → table.Sound store.wallets

/-- What a call brings in from outside. -/
def income : StoreOp × StoreAnswer → Int
  | (.seedWallet _ balance, .plain .ok) => balance
  | _ => 0

/-! ## Wallets that only grow in number -/

/-- Every wallet of the first map is still there. -/
def Keeps (wallets wallets' : Dict UserId Int) : Prop :=
  ∀ user balance, wallets.lookup user = some balance →
    ∃ balance', wallets'.lookup user = some balance'

theorem keeps_insert (wallets : Dict UserId Int) (user : UserId) (balance : Int) :
    Keeps wallets (wallets.insert user balance) := by
  intro other old h
  by_cases heq : other = user
  · exact ⟨balance, by rw [heq]; exact AList.lookup_insert wallets⟩
  · exact ⟨old, by rw [AList.lookup_insert_ne heq]; exact h⟩

theorem Keeps.sound (h : Keeps wallets wallets') (ht : table.Sound wallets) :
    table.Sound wallets' :=
  { ht with
    wallet := fun user record hs => by
      obtain ⟨balance, hb⟩ := ht.wallet user record hs
      exact h user balance hb }

theorem lookup_insert_nonneg {user other : UserId} {balance old : Int}
    (hwallets : ∀ user balance, wallets.lookup user = some balance → 0 ≤ balance)
    (hbalance : 0 ≤ balance) (h : (wallets.insert user balance).lookup other = some old) :
    0 ≤ old := by
  by_cases heq : other = user
  · rw [heq, AList.lookup_insert, Option.some.injEq] at h
    omega
  · rw [AList.lookup_insert_ne heq] at h
    exact hwallets other old h

/-- A call that keeps the wallets and leaves sound the one table it writes. -/
theorem Sound.write (h : store.Sound) (hkeeps : Keeps store.wallets store'.wallets)
    (hwallets : ∀ user balance, store'.wallets.lookup user = some balance → 0 ≤ balance)
    (htables : store'.tables = store.tables.insert tableId table)
    (htable : table.Sound store'.wallets) : store'.Sound := by
  refine ⟨hwallets, fun id found hfound => ?_⟩
  rw [htables] at hfound
  by_cases heq : id = tableId
  · rw [heq, AList.lookup_insert, Option.some.injEq] at hfound
    exact hfound ▸ htable
  · rw [AList.lookup_insert_ne heq] at hfound
    exact hkeeps.sound (h.table id found hfound)

/-! ## Refunds -/

/-- The refund credits every stack, provided that every wallet is there. -/
theorem refundLoop_complete : ∀ {records : List SeatRecord} {wallets : Dict UserId Int},
    (∀ record ∈ records, ∃ balance, wallets.lookup record.userId = some balance) →
    (∀ record ∈ records, 0 ≤ record.stack) →
    (∀ user balance, wallets.lookup user = some balance → 0 ≤ balance) →
    ∃ wallets', refundLoop wallets records = (true, wallets') ∧
      total id wallets' = total id wallets + (records.map SeatRecord.stack).sum ∧
      Keeps wallets wallets' ∧
      ∀ user balance, wallets'.lookup user = some balance → 0 ≤ balance
  | [], wallets, _, _, hnn => ⟨wallets, rfl, by simp, fun _ balance h => ⟨balance, h⟩, hnn⟩
  | record :: records, wallets, hfound, hstacks, hnn => by
    obtain ⟨balance, hbalance⟩ := hfound record List.mem_cons_self
    have hkeeps := keeps_insert wallets record.userId (balance + record.stack)
    have hcredit : 0 ≤ balance + record.stack :=
      add_nonneg (hnn _ _ hbalance) (hstacks record List.mem_cons_self)
    obtain ⟨wallets', hloop, htotal, hrest, hnn'⟩ := refundLoop_complete
      (fun r hr => by
        obtain ⟨old, hold⟩ := hfound r (List.mem_cons_of_mem _ hr)
        exact hkeeps r.userId old hold)
      (fun r hr => hstacks r (List.mem_cons_of_mem _ hr))
      (fun user b hb => lookup_insert_nonneg hnn hcredit hb)
    refine ⟨wallets', ?_, ?_, fun user b hb => ?_, hnn'⟩
    · rw [refundLoop, hbalance]
      exact hloop
    · rw [htotal, total_insert hbalance, List.map_cons, List.sum_cons]
      simp only [id]
      omega
    · obtain ⟨b', hb'⟩ := hkeeps user b hb
      exact hrest user b' hb'

theorem sum_seatRecords (table : StoredTable) :
    ((seatRecords table).map SeatRecord.stack).sum = table.chips := by
  unfold seatRecords StoredTable.chips total
  rw [List.map_map]
  rfl

theorem mem_seatRecords {record : SeatRecord} (h : record ∈ seatRecords table) :
    ∃ seated, table.seats.lookup record.userId = some seated ∧ record.stack = seated.stack := by
  obtain ⟨entry, hentry, rfl⟩ := List.mem_map.mp h
  exact ⟨entry.2, AList.mem_lookup_iff.mpr hentry, rfl⟩

/-- Who sits at a table of a sound store has a wallet and is not in debt. -/
theorem Sound.seated (h : store.Sound) (hfound : store.tables.lookup tableId = some table) :
    (∀ record ∈ seatRecords table, ∃ balance,
      store.wallets.lookup record.userId = some balance) ∧
      ∀ record ∈ seatRecords table, 0 ≤ record.stack := by
  have htable := h.table tableId table hfound
  refine ⟨fun record hr => ?_, fun record hr => ?_⟩
  · obtain ⟨seated, hseated, -⟩ := mem_seatRecords hr
    exact htable.wallet _ _ hseated
  · obtain ⟨seated, hseated, hstack⟩ := mem_seatRecords hr
    rw [hstack]
    exact htable.stack _ _ hseated

/-- The refund of a table of a sound store is complete. -/
theorem Sound.refundLoop (h : store.Sound) (hfound : store.tables.lookup tableId = some table) :
    ∃ wallets, refundLoop store.wallets (seatRecords table) = (true, wallets) ∧
      total id wallets = total id store.wallets + table.chips ∧ Keeps store.wallets wallets ∧
      ∀ user balance, wallets.lookup user = some balance → 0 ≤ balance := by
  obtain ⟨hpurse, hstacks⟩ := h.seated hfound
  rw [← sum_seatRecords]
  exact refundLoop_complete hpurse hstacks h.wallet

/-! ## Settlements -/

theorem writeStacks_frame (table : StoredTable) (players : List HandPlayerSettlement) :
    writeStacks table players = { table with seats := (writeStacks table players).seats } := by
  induction players generalizing table with
  | nil => rfl
  | cons player players ih =>
    rw [writeStacks, List.foldl_cons]
    change writeStacks _ players = { table with seats := (writeStacks _ players).seats }
    rw [ih]
    split <;> rfl

/-- The seats are taken by the same users, with their old stacks or with stacks in `amounts`. -/
structure SameSeats (amounts : Set Int) (seats seats' : Dict UserId SeatRecord) : Prop where
  forth : ∀ user record, seats.lookup user = some record →
    ∃ record', seats'.lookup user = some record' ∧ record'.seat = record.seat
  back : ∀ user record', seats'.lookup user = some record' →
    ∃ record, seats.lookup user = some record ∧ record'.seat = record.seat ∧
      (record'.stack = record.stack ∨ record'.stack ∈ amounts)

theorem SameSeats.trans {amounts : Set Int} {a b c : Dict UserId SeatRecord}
    (hab : SameSeats amounts a b) (hbc : SameSeats amounts b c) : SameSeats amounts a c := by
  constructor
  · intro user record h
    obtain ⟨record', h', hseat'⟩ := hab.forth user record h
    obtain ⟨record'', h'', hseat''⟩ := hbc.forth user record' h'
    exact ⟨record'', h'', hseat''.trans hseat'⟩
  · intro user record'' h''
    obtain ⟨record', h', hseat', hstack'⟩ := hbc.back user record'' h''
    obtain ⟨record, h, hseat, hstack⟩ := hab.back user record' h'
    refine ⟨record, h, hseat'.trans hseat, ?_⟩
    rcases hstack' with hsame | hnew
    · rw [hsame]
      exact hstack
    · exact Or.inr hnew

theorem sameSeats_insert {amounts : Set Int} {seats : Dict UserId SeatRecord} {user : UserId}
    {record : SeatRecord} {amount : Int} (hseated : seats.lookup user = some record)
    (hamount : amount ∈ amounts) :
    SameSeats amounts seats (seats.insert user { record with stack := amount }) := by
  constructor
  · intro other old h
    by_cases heq : other = user
    · rw [heq, hseated, Option.some.injEq] at h
      exact ⟨_, by rw [heq]; exact AList.lookup_insert seats, by rw [h]⟩
    · exact ⟨old, by rw [AList.lookup_insert_ne heq]; exact h, rfl⟩
  · intro other new h
    by_cases heq : other = user
    · rw [heq, AList.lookup_insert, Option.some.injEq] at h
      exact ⟨record, by rw [heq]; exact hseated, by rw [← h], Or.inr (by rw [← h]; exact hamount)⟩
    · rw [AList.lookup_insert_ne heq] at h
      exact ⟨new, h, rfl, Or.inl rfl⟩

theorem seatMatches_iff {user : UserId} {seat : Nat} {stack : Int} :
    seatMatches table user seat stack = true ↔
      ∃ record, table.seats.lookup user = some record ∧ record.seat = seat ∧
        record.stack = stack := by
  unfold seatMatches
  rw [Option.any_eq_true]
  simp only [decide_eq_true_eq]

/-- One round of the second loop of `settleHand`. -/
theorem writeStacks_cons {player : HandPlayerSettlement} {players : List HandPlayerSettlement}
    {record : SeatRecord} (h : table.seats.lookup player.userId = some record) :
    writeStacks table (player :: players) =
      writeStacks
        { table with
          seats := table.seats.insert player.userId { record with stack := player.endStack } }
        players := by
  rw [writeStacks, List.foldl_cons, h]
  rfl

/-- **A settlement moves the chips of each of its users from the start to the end stack.** -/
theorem writeStacks_spec : ∀ {players : List HandPlayerSettlement} {table : StoredTable},
    (players.map (·.userId)).Nodup →
    (∀ player ∈ players, seatMatches table player.userId player.seat player.startStack = true) →
    (writeStacks table players).chips =
        table.chips + (players.map fun player => player.endStack - player.startStack).sum ∧
      SameSeats { amount | ∃ player ∈ players, player.endStack = amount } table.seats
        (writeStacks table players).seats
  | [], table, _, _ =>
    ⟨by simp [writeStacks], fun _ record h => ⟨record, h, rfl⟩,
      fun _ record h => ⟨record, h, rfl, Or.inl rfl⟩⟩
  | player :: players, table, hnodup, hmatches => by
    rw [List.map_cons, List.nodup_cons] at hnodup
    obtain ⟨record, hrecord, -, hstack⟩ :=
      seatMatches_iff.mp (hmatches player List.mem_cons_self)
    rw [writeStacks_cons hrecord]
    -- The other lines are of other users, whose seats this round leaves alone.
    have hrest : ∀ other ∈ players, seatMatches
        { table with
          seats := table.seats.insert player.userId { record with stack := player.endStack } }
        other.userId other.seat other.startStack = true := by
      intro other hother
      have hne : other.userId ≠ player.userId := fun heq =>
        hnodup.1 (heq ▸ List.mem_map_of_mem hother)
      rw [seatMatches_iff, AList.lookup_insert_ne hne]
      exact seatMatches_iff.mp (hmatches other (List.mem_cons_of_mem _ hother))
    obtain ⟨hchips, hsame⟩ := writeStacks_spec hnodup.2 hrest
    refine ⟨?_, ?_⟩
    · rw [hchips, StoredTable.chips, StoredTable.chips, total_insert hrecord, List.map_cons,
        List.sum_cons, hstack]
      dsimp only
      omega
    · have hamount : player.endStack ∈ { amount | ∃ p ∈ player :: players, p.endStack = amount } :=
        ⟨player, List.mem_cons_self, rfl⟩
      refine (sameSeats_insert hrecord hamount).trans ⟨hsame.forth, fun user record' h => ?_⟩
      obtain ⟨old, hold, hseat, hstack'⟩ := hsame.back user record' h
      refine ⟨old, hold, hseat, hstack'.imp_right ?_⟩
      rintro ⟨other, hother, heq⟩
      exact ⟨other, List.mem_cons_of_mem _ hother, heq⟩

/-- The lines of an accepted settlement cancel out. -/
theorem sum_lines {value : HandSettlementRecord} (hvalid : validHandSettlement value = true) :
    (value.players.map fun player => player.endStack - player.startStack).sum = 0 := by
  have hsum : ∀ players : List HandPlayerSettlement, (∀ player ∈ players, player.Balanced) →
      (players.map fun player => player.endStack - player.startStack).sum =
        (players.map (·.winnings)).sum - (players.map (·.committed)).sum := by
    intro players h
    induction players with
    | nil => rfl
    | cons player players ih =>
      obtain ⟨-, -, -, hplayer⟩ := h player List.mem_cons_self
      have hrest := ih fun p hp => h p (List.mem_cons_of_mem _ hp)
      simp only [List.map_cons, List.sum_cons, hrest]
      omega
  obtain ⟨-, hpot, hlines⟩ := validHandSettlement_balanced hvalid
  rw [hsum _ hlines, hpot, sub_self]

/-! ## Tables that change their seats -/

theorem sound_seat (h : table.Sound wallets) {user : UserId} {seat : Nat}
    {amount : Int} (hopen : table.aborted = false)
    (hinside : seat < table.record.config.maxPlayers) (hpositive : 0 < amount)
    (habsent : table.seats.lookup user = none) (hfree : table.occupiedSeats.lookup seat = none)
    (hwallet : ∃ balance, wallets.lookup user = some balance) :
    StoredTable.Sound wallets
      { table with
        seats := table.seats.insert user { userId := user, seat := seat, stack := amount }
        occupiedSeats := table.occupiedSeats.insert seat user } := by
  refine ⟨fun other record hr => ?_, fun other record hr => ?_, fun other record hr => ?_,
    fun number other ho => ?_, fun habort => ?_⟩
  · by_cases heq : other = user
    · rw [heq, AList.lookup_insert, Option.some.injEq] at hr
      rw [← hr]
      exact hpositive.le
    · rw [AList.lookup_insert_ne heq] at hr
      exact h.stack other record hr
  · by_cases heq : other = user
    · rw [heq]
      exact hwallet
    · rw [AList.lookup_insert_ne heq] at hr
      exact h.wallet other record hr
  · by_cases heq : other = user
    · rw [heq, AList.lookup_insert, Option.some.injEq] at hr
      rw [← hr, heq]
      exact ⟨hinside, AList.lookup_insert _⟩
    · rw [AList.lookup_insert_ne heq] at hr
      obtain ⟨hlt, hocc⟩ := h.seat other record hr
      refine ⟨hlt, ?_⟩
      rw [AList.lookup_insert_ne fun hseat => ?_]
      · exact hocc
      · rw [hseat, hfree] at hocc
        exact absurd hocc (by simp)
  · by_cases heq : number = seat
    · rw [heq, AList.lookup_insert, Option.some.injEq] at ho
      rw [← ho, heq]
      exact ⟨_, AList.lookup_insert _, rfl⟩
    · rw [AList.lookup_insert_ne heq] at ho
      obtain ⟨record, hr, hseat⟩ := h.occupant number other ho
      refine ⟨record, ?_, hseat⟩
      rw [AList.lookup_insert_ne fun huser => ?_]
      · exact hr
      · rw [huser, habsent] at hr
        exact absurd hr (by simp)
  · exact absurd habort (by simp [hopen])

theorem sound_unseat (h : table.Sound wallets) {user : UserId}
    {record : SeatRecord} (hseated : table.seats.lookup user = some record) :
    StoredTable.Sound wallets
      { table with
        seats := table.seats.erase user
        occupiedSeats := table.occupiedSeats.erase record.seat } := by
  have hback : ∀ other old, (table.seats.erase user).lookup other = some old →
      other ≠ user ∧ table.seats.lookup other = some old := by
    intro other old hr
    have hne : other ≠ user := by
      rintro rfl
      rw [AList.lookup_erase] at hr
      exact absurd hr (by simp)
    exact ⟨hne, by rw [← AList.lookup_erase_ne hne]; exact hr⟩
  refine ⟨fun other old hr => h.stack other old (hback other old hr).2,
    fun other old hr => h.wallet other old (hback other old hr).2,
    fun other old hr => ?_, fun number other ho => ?_, fun habort => ?_⟩
  · obtain ⟨hne, hr⟩ := hback other old hr
    obtain ⟨hlt, hocc⟩ := h.seat other old hr
    refine ⟨hlt, ?_⟩
    rw [AList.lookup_erase_ne fun hseat => ?_]
    · exact hocc
    · rw [hseat, (h.seat user record hseated).2, Option.some.injEq] at hocc
      exact hne hocc.symm
  · have hne : number ≠ record.seat := by
      rintro rfl
      rw [AList.lookup_erase] at ho
      exact absurd ho (by simp)
    rw [AList.lookup_erase_ne hne] at ho
    obtain ⟨old, hr, hseat⟩ := h.occupant number other ho
    refine ⟨old, ?_, hseat⟩
    rw [AList.lookup_erase_ne fun huser => ?_]
    · exact hr
    · rw [huser, hseated, Option.some.injEq] at hr
      rw [← hseat, ← hr] at hne
      exact hne rfl
  · obtain ⟨hnone, -⟩ := h.closed habort
    rw [hnone] at hseated
    exact absurd hseated (by simp)

theorem sound_restack (h : table.Sound wallets) {amounts : Set Int}
    {seats : Dict UserId SeatRecord} (hopen : table.aborted = false)
    (hsame : SameSeats amounts table.seats seats) (hnn : ∀ amount ∈ amounts, 0 ≤ amount) :
    StoredTable.Sound wallets { table with seats := seats, handInProgress := false } := by
  refine ⟨fun user record hr => ?_, fun user record hr => ?_, fun user record hr => ?_,
    fun number user ho => ?_, fun habort => ?_⟩
  · obtain ⟨old, hold, -, hstack | hstack⟩ := hsame.back user record hr
    · rw [hstack]
      exact h.stack user old hold
    · exact hnn _ hstack
  · obtain ⟨old, hold, -⟩ := hsame.back user record hr
    exact h.wallet user old hold
  · obtain ⟨old, hold, hseat, -⟩ := hsame.back user record hr
    rw [hseat]
    exact h.seat user old hold
  · obtain ⟨old, hold, hseat⟩ := h.occupant number user ho
    obtain ⟨record, hr, hseat'⟩ := hsame.forth user old hold
    exact ⟨record, hr, hseat'.trans hseat⟩
  · exact absurd habort (by simp [hopen])

/-! ## What each call keeps -/

theorem worth_setTable {new : StoredTable} (hfound : store.tables.lookup tableId = some table) :
    total StoredTable.chips (store.setTable tableId new).tables =
      total StoredTable.chips store.tables - table.chips + new.chips :=
  total_insert hfound

theorem chips_empty : StoredTable.chips {} = 0 := total_empty

/-- **A call changes the worth of the store by what it seeds.** -/
theorem Performed.worth (h : Performed store call answer store') (hsound : store.Sound) :
    store'.worth = store.worth + income (call, answer) := by
  unfold InMemoryGameStore.worth
  cases h with
  | refused error =>
    suffices hnone : income (call, answer) = 0 by rw [hnone, add_zero]
    unfold income
    split
    · rename_i heq
      obtain ⟨-, rfl⟩ := Prod.mk.inj heq
      exact absurd rfl error
    · rfl
  | repeated again =>
    suffices hnone : income (call, answer) = 0 by rw [hnone, add_zero]
    unfold income
    split
    · rename_i heq
      obtain ⟨rfl, -⟩ := Prod.mk.inj heq
      exact absurd again (by simp [Repeatable])
    · rfl
  | seeded real solvent new =>
    rw [total_insert_new new]
    simp only [income, id]
    omega
  | created new =>
    change total id store.wallets + total StoredTable.chips (store.tables.insert _ _) = _
    rw [total_insert_new new]
    change _ + (_ + StoredTable.chips {}) = _ + 0
    rw [chips_empty, add_zero, add_zero]
  | @boughtIn tableId userId seat amount wallet key table fresh found opened idle inside positive
      covered purse absent free =>
    have hchips : StoredTable.chips
        { table with
          seats := table.seats.insert userId { userId := userId, seat := seat, stack := amount }
          occupiedSeats := table.occupiedSeats.insert seat userId } = table.chips + amount :=
      total_insert_new absent
    dsimp only
    rw [total_insert purse, worth_setTable found, hchips]
    simp only [income, id]
    omega
  | @cashedOut tableId userId wallet key table record fresh found idle purse seated =>
    have hchips : StoredTable.chips
        { table with
          seats := table.seats.erase userId
          occupiedSeats := table.occupiedSeats.erase record.seat } = table.chips - record.stack :=
      total_erase seated
    dsimp only
    rw [total_insert purse, worth_setTable found, hchips]
    simp only [income, id]
    omega
  | begun new unsettled found opened idle =>
    dsimp only
    rw [worth_setTable found]
    simp only [income, StoredTable.chips, setTable]
    omega
  | appended begun unsettled => exact (add_zero _).symm
  | settled valid begun unsettled found opened playing lines =>
    obtain ⟨hchips, -⟩ := writeStacks_spec (validHandSettlement_balanced valid).1 lines
    rw [sum_lines valid, add_zero] at hchips
    dsimp only
    rw [worth_setTable found]
    change total id store.wallets + (_ - _ + StoredTable.chips (writeStacks _ _)) = _ + 0
    rw [hchips]
    omega
  | refunded found opened complete =>
    obtain ⟨wallets, hloop, htotal, -, -⟩ := hsound.refundLoop found
    obtain ⟨-, rfl⟩ := Prod.mk.inj (complete.symm.trans hloop)
    dsimp only
    rw [htotal, worth_setTable found]
    change _ + (_ - _ + StoredTable.chips {}) = _ + 0
    rw [chips_empty]
    omega
  | halted found opened stopped =>
    obtain ⟨wallets, hloop, -⟩ := hsound.refundLoop found
    exact absurd (stopped.symm.trans hloop) (by simp)

/-- **Every call keeps the store sound.** -/
theorem Performed.sound (h : Performed store call answer store') (hsound : store.Sound) :
    store'.Sound := by
  cases h with
  | refused error => exact hsound
  | repeated again => exact hsound
  | seeded real solvent new =>
    refine ⟨fun user balance hb => lookup_insert_nonneg hsound.wallet solvent hb,
      fun id table hfound => ?_⟩
    exact (keeps_insert _ _ _).sound (hsound.table id table hfound)
  | created new =>
    refine hsound.write (fun _ balance h => ⟨balance, h⟩) hsound.wallet rfl ?_
    exact ⟨by simp, by simp, by simp, by simp, fun _ => ⟨rfl, rfl⟩⟩
  | @boughtIn tableId userId seat amount wallet key table fresh found opened idle inside positive
      covered purse absent free =>
    have hkeeps := keeps_insert store.wallets userId (wallet - amount)
    refine hsound.write hkeeps
      (fun user balance hb => lookup_insert_nonneg hsound.wallet (by omega) hb) rfl ?_
    exact sound_seat (hkeeps.sound (hsound.table tableId table found)) opened inside positive absent
      free ⟨_, AList.lookup_insert _⟩
  | @cashedOut tableId userId wallet key table record fresh found idle purse seated =>
    have htable := hsound.table tableId table found
    have hkeeps := keeps_insert store.wallets userId (wallet + record.stack)
    refine hsound.write hkeeps (fun user balance hb => lookup_insert_nonneg hsound.wallet
      (add_nonneg (hsound.wallet _ _ purse) (htable.stack _ _ seated)) hb) rfl ?_
    exact sound_unseat (hkeeps.sound htable) seated
  | @begun hand table new unsettled found opened idle =>
    have htable := hsound.table _ table found
    exact hsound.write (fun _ balance h => ⟨balance, h⟩) hsound.wallet rfl
      ⟨htable.stack, htable.wallet, htable.seat, htable.occupant, htable.closed⟩
  | appended begun unsettled => exact ⟨hsound.wallet, hsound.table⟩
  | @settled value start table valid begun unsettled found opened playing lines =>
    obtain ⟨hnodup, -, hbalanced⟩ := validHandSettlement_balanced valid
    obtain ⟨-, hsame⟩ := writeStacks_spec hnodup lines
    refine hsound.write (fun _ balance h => ⟨balance, h⟩) hsound.wallet rfl ?_
    rw [writeStacks_frame]
    refine sound_restack (hsound.table _ table found) opened hsame ?_
    rintro amount ⟨player, hp, rfl⟩
    exact (hbalanced player hp).2.2.1
  | @refunded tableId table wallets found opened complete =>
    obtain ⟨wallets', hloop, -, hkeeps, hnn⟩ := hsound.refundLoop found
    obtain ⟨-, rfl⟩ := Prod.mk.inj (complete.symm.trans hloop)
    refine hsound.write hkeeps hnn rfl ?_
    exact ⟨by simp, by simp, by simp, by simp, fun _ => ⟨rfl, rfl⟩⟩
  | halted found opened stopped =>
    obtain ⟨wallets, hloop, -⟩ := hsound.refundLoop found
    exact absurd (stopped.symm.trans hloop) (by simp)

/-- The calls that may touch a table while a hand is in progress there. -/
def EndsHand : StoreOp → Prop
  | .settleHand _ => True
  | .abortTableAndRefund _ => True
  | _ => False

/-- A table other than the one that is written stays. -/
theorem lookup_setTable {new : StoredTable} {id : Nat}
    (hfound : store.tables.lookup id = some table) (hne : id ≠ tableId) :
    (store.setTable tableId new).tables.lookup id = some table := by
  rw [setTable, AList.lookup_insert_ne hne]
  exact hfound

/-- **A table with a hand in progress is left alone.** -/
theorem Performed.playing (h : Performed store call answer store') (hends : ¬ EndsHand call)
    (hfound : store.tables.lookup tableId = some table) (hplaying : table.handInProgress = true) :
    store'.tables.lookup tableId = some table := by
  -- Each of these calls writes a table that has no hand in progress.
  have hother : ∀ {id : Nat} {written : StoredTable}, store.tables.lookup id = some written →
      written.handInProgress = false → tableId ≠ id := by
    rintro id written hwritten hidle rfl
    rw [hfound, Option.some.injEq] at hwritten
    rw [← hwritten, hplaying] at hidle
    exact absurd hidle (by simp)
  cases h with
  | refused error => exact hfound
  | repeated again => exact hfound
  | seeded real solvent new => exact hfound
  | created new =>
    refine lookup_setTable hfound fun heq => ?_
    rw [← heq, hfound] at new
    exact absurd new (by simp)
  | boughtIn fresh found opened idle => exact lookup_setTable hfound (hother found idle)
  | cashedOut fresh found idle => exact lookup_setTable hfound (hother found idle)
  | begun new unsettled found opened idle => exact lookup_setTable hfound (hother found idle)
  | appended begun unsettled => exact hfound
  | settled => exact absurd trivial hends
  | refunded => exact absurd trivial hends
  | halted => exact absurd trivial hends

/-! ## Runs -/

theorem sound_empty : Sound {} := ⟨by simp, by simp⟩

theorem reaches_sound (hr : Reaches Does {} store) : store.Sound :=
  hr.invariant sound_empty fun _ _ _ hsound hdoes => (perform_performed hdoes).sound hsound

/-- **Money enters the store through `seedWallet` only**: over any run the wallets and the stacks
add up to what was seeded, call by call. The seats of each table agree with its occupied seats and
with the wallets, nobody is in debt, a table that was aborted is empty, and while a hand is in
progress only its settlement and the abort of a table touch the seats. -/
theorem money_conserved {trace : List StoreStep} (hr : Run Does {} trace store) :
    store.Sound ∧ store.worth = (trace.map fun e => income e.label).sum ∧
      ∀ e ∈ trace, e.after.worth = e.before.worth + income e.label ∧
        ∀ tableId table, e.before.tables.lookup tableId = some table →
          table.handInProgress = true → ¬ EndsHand e.label.1 →
          e.after.tables.lookup tableId = some table := by
  refine ⟨reaches_sound ⟨trace, hr⟩, ?_, fun e he => ?_⟩
  · induction hr with
    | nil => rfl
    | @snoc trace t u label hr hdoes ih =>
      rw [(perform_performed hdoes).worth (reaches_sound ⟨trace, hr⟩), ih]
      simp
  · obtain ⟨hreached, hdoes⟩ := hr.entry he
    have hperformed := perform_performed hdoes
    refine ⟨hperformed.worth (reaches_sound hreached), fun id table hfound hplaying hends => ?_⟩
    exact hperformed.playing hends hfound hplaying

theorem money_conserved_playedHand :
    ∃ trace store, Run Does {} trace store ∧ store.wallets.lookup 1 = some 1300 ∧
      store.wallets.lookup 2 = some 700 ∧ store.worth = 2000 ∧ store.Sound := by
  have hcheck : (replay performs {} (playedHand ++
      [.cashOut 7 1 "cash:1", .abortTableAndRefund 7])).any (fun r =>
        decide (r.2.wallets.lookup 1 = some 1300 ∧ r.2.wallets.lookup 2 = some 700 ∧
          (r.1.map fun e => income e.label).sum = 2000)) = true := by
    decide +kernel
  obtain ⟨⟨trace, store⟩, hreplay, hfacts⟩ := (Option.any_eq_true _ _).mp hcheck
  obtain ⟨hfirst, hsecond, hincome⟩ := of_decide_eq_true hfacts
  have hr := run_of_calls hreplay
  obtain ⟨hsound, hworth, -⟩ := money_conserved hr
  exact ⟨trace, store, hr, hfirst, hsecond, hworth.trans hincome, hsound⟩

/-! ## Calls that fail -/

/-- In a sound store the refund finds every wallet, whatever the order in which it meets the
seats. -/
theorem Sound.refunds_all (h : store.Sound) (hfound : store.tables.lookup tableId = some table)
    {records : List SeatRecord} (horder : records.Perm (seatRecords table)) :
    ∃ wallets, InMemoryGameStore.refundLoop store.wallets records = (true, wallets) := by
  obtain ⟨hpurse, hstacks⟩ := h.seated hfound
  obtain ⟨wallets, hloop, -⟩ := refundLoop_complete
    (fun record hr => hpurse record (horder.subset hr))
    (fun record hr => hstacks record (horder.subset hr)) h.wallet
  exact ⟨wallets, hloop⟩

theorem Performed.failed (h : Performed store call answer store') (hsound : store.Sound)
    (herror : answer.error ≠ .ok) : store' = store := by
  cases h with
  | refused => rfl
  | repeated => rfl
  | halted found opened stopped =>
    -- the one exit of a call that has changed something
    obtain ⟨wallets, hcomplete⟩ := hsound.refunds_all found (List.Perm.refl _)
    exact absurd (stopped.symm.trans hcomplete) (by simp)
  | seeded | created | boughtIn | cashedOut | begun | appended | settled | refunded =>
    exact absurd rfl herror

/-- **A call that fails leaves the store as it was**, in every reached store; the refund of a table
never stops halfway, in whatever order it walks the seats. -/
theorem failed_calls_untouched (hr : Reaches Does {} store) :
    (∀ call, (store.perform call).1.error ≠ .ok → (store.perform call).2 = store) ∧
      (∀ tableId, (store.abortTableAndRefund tableId).1 ≠ .conflict) ∧
      ∀ tableId table records, store.tables.lookup tableId = some table →
        records.Perm (seatRecords table) →
        ∃ wallets, InMemoryGameStore.refundLoop store.wallets records = (true, wallets) := by
  have hsound := reaches_sound hr
  refine ⟨fun call herror => (perform_performed rfl).failed hsound herror, fun tableId => ?_,
    fun tableId table records hfound horder => hsound.refunds_all hfound horder⟩
  unfold abortTableAndRefund
  split
  · simp
  · rename_i table hfound
    split
    · simp
    · obtain ⟨wallets, hloop⟩ := hsound.refunds_all hfound (List.Perm.refl _)
      change InMemoryGameStore.refundLoop store.wallets (table.seats.entries.map _) = _ at hloop
      simp [hloop]

/-- A hand that was played and an abort of a table that is not there. -/
theorem failed_calls_untouched_playedHand :
    ∃ trace store, Run Does {} trace store ∧ store.wallets.lookup 1 = some 700 ∧
      (store.perform (.abortTableAndRefund 8)).1.error = .notFound ∧
      (store.perform (.abortTableAndRefund 8)).2 = store := by
  have hcheck : (replay performs {} playedHand).any (fun r =>
      decide (r.2.wallets.lookup 1 = some 700 ∧
        (r.2.perform (.abortTableAndRefund 8)).1.error = .notFound)) = true := by
    decide +kernel
  obtain ⟨⟨trace, store⟩, hreplay, hfacts⟩ := (Option.any_eq_true _ _).mp hcheck
  obtain ⟨hwallet, herror⟩ := of_decide_eq_true hfacts
  have hr := run_of_calls hreplay
  have hsame := (failed_calls_untouched ⟨trace, hr⟩).1 (.abortTableAndRefund 8) (by simp [herror])
  exact ⟨trace, store, hr, hwallet, herror, hsame⟩

end InMemoryGameStore

end PokerServer
