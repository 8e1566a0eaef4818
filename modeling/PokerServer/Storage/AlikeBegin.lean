import PokerServer.Storage.AlikeMoney

/-!
# Hands begun in both stores

The in-memory store checks every player of a hand against its seat and then keeps the record as it
is. The database inserts one row for each player and updates its seat, in the order of the record,
and rolls back at the first that fails: as invalid data if the player is malformed, and as a
conflict otherwise (`startPlayer_ok_iff`, `startPlayer_refused`).
-/

namespace PokerServer

/-- A player that `beginHand` of the database does not refuse as invalid. -/
def HandStartPlayer.WellFormed (player : HandStartPlayer) : Prop :=
  player.userId ≠ 0 ∧ player.holeCards.length = 2 ∧ 0 ≤ player.startStack

variable {db db' cur next : MySqlGameStore} {store store' : InMemoryGameStore} {tableId : Nat}
  {table : StoredTable} {hand : HandStartRecord} {player : HandStartPlayer}

namespace MySqlGameStore

/-- Every stack is kept twice, as it is between two settlements. -/
def Twice (db : MySqlGameStore) : Prop :=
  ∀ key row, db.tableSeats.lookup key = some row → row.handStartStack = row.stack ∧ 0 ≤ row.stack

/-- The player can be inserted and has a seat with the start stack. -/
structure Admits (db : MySqlGameStore) (hand : HandStartRecord) (player : HandStartPlayer) :
    Prop where
  seat : player.seat ≤ 255
  known : (db.hands.lookup hand.handId).isSome = true
  new : db.handPlayers.lookup (hand.handId, player.userId) = none
  user : player.userId ∈ db.users
  stack : ∃ row, db.tableSeats.lookup (hand.tableId, player.userId) = some row ∧
    row.stack = player.startStack

/-- What a round leaves. -/
def enrol (db : MySqlGameStore) (hand : HandStartRecord) (player : HandStartPlayer) :
    MySqlGameStore :=
  { db with
    handPlayers := db.handPlayers.insert (hand.handId, player.userId)
      { seatNo := player.seat, startStack := player.startStack
        holeCards := encodeCards player.holeCards }
    tableSeats := updateRows (startSeat hand.tableId player) db.tableSeats }

/-- The update of the start stack writes what is there already. -/
theorem Twice.startSeat (h : db.Twice) (tableId : Nat) (player : HandStartPlayer)
    (key : Nat × UserId) :
    (updateRows (startSeat tableId player) db.tableSeats).lookup key =
        db.tableSeats.lookup key := by
  rw [lookup_updateRows]
  cases hrow : db.tableSeats.lookup key with
  | none => rfl
  | some row =>
    have hsame := (h key row hrow).1
    unfold MySqlGameStore.startSeat atKey
    rw [Option.map_some]
    split
    · dsimp only
      split
      · rename_i hstack
        obtain ⟨seatNo, stack, start⟩ := row
        obtain rfl : start = stack := hsame
        rw [Option.getD_some, ← hstack]
      · rfl
    · rfl

theorem Twice.enrol (h : db.Twice) (hand : HandStartRecord) (player : HandStartPlayer) :
    (db.enrol hand player).Twice := by
  intro key row hrow
  exact h key row ((h.startSeat hand.tableId player key).symm.trans hrow)

/-- The update of a seat passes its checks. -/
theorem Twice.updateSeats (h : db.Twice) (tableId : Nat) (player : HandStartPlayer) :
    db.updateSeats (MySqlGameStore.startSeat tableId player) =
      some (affectedRows (MySqlGameStore.startSeat tableId player) db.tableSeats,
        { db with
          tableSeats := updateRows (MySqlGameStore.startSeat tableId player) db.tableSeats }) := by
  refine if_pos (writesPass_iff.mpr fun key row new hrow hnew => ?_)
  obtain ⟨-, hnonneg⟩ := h key row hrow
  unfold MySqlGameStore.startSeat atKey at hnew
  split at hnew
  · dsimp only at hnew
    split at hnew
    · rename_i hstack
      rw [← Option.some.inj hnew, ← hstack]
      exact decide_eq_true ⟨hnonneg, hnonneg⟩
    · exact absurd hnew (by simp)
  · exact absurd hnew (by simp)

theorem affectedRows_startSeat :
    affectedRows (startSeat tableId player) db.tableSeats = 1 ↔
      ∃ row, db.tableSeats.lookup (tableId, player.userId) = some row ∧
        row.stack = player.startStack :=
  affectedRows_atKey_iff

/-- **A round succeeds iff the player is well formed and admitted.** -/
theorem startPlayer_ok_iff (htwice : cur.Twice) :
    startPlayer hand cur player = .ok next ↔
      player.WellFormed ∧ cur.Admits hand player ∧ next = cur.enrol hand player := by
  constructor
  · intro h
    unfold startPlayer insertHandPlayer at h
    split_ifs at h with hwell hbounds hnew huser
    · simp only [not_or, not_not, not_lt] at hwell
      simp only [not_or, not_lt, Option.isNone_iff_eq_none] at hbounds
      dsimp only at h
      rw [Twice.updateSeats (by exact htwice)] at h
      dsimp only at h
      split at h
      · exact absurd h (by simp)
      · rename_i haffected
        rw [not_not] at haffected
        refine ⟨hwell, ⟨hbounds.1, Option.isSome_iff_ne_none.mpr hbounds.2,
          Option.not_isSome_iff_eq_none.mp hnew, huser,
          affectedRows_startSeat.mp haffected⟩, (Except.ok.inj h).symm⟩
  · rintro ⟨⟨hreal, hcards, hstack⟩, hadmits, rfl⟩
    unfold startPlayer insertHandPlayer
    rw [if_neg (by simp [hreal, hcards, hstack]),
      if_neg (by simp [hadmits.seat, Option.isSome_iff_ne_none.mp hadmits.known]),
      if_neg (Option.not_isSome_iff_eq_none.mpr hadmits.new), if_neg (not_not.mpr hadmits.user)]
    dsimp only
    rw [Twice.updateSeats (by exact htwice)]
    dsimp only
    rw [if_neg (not_not.mpr (affectedRows_startSeat.mpr hadmits.stack))]
    rfl

/-- A well-formed player is refused as a conflict only. -/
theorem startPlayer_refused (htwice : cur.Twice) (hwell : player.WellFormed)
    (hrefused : ¬ cur.Admits hand player) : startPlayer hand cur player = .error .conflict := by
  cases hround : startPlayer hand cur player with
  | ok next => exact absurd ((startPlayer_ok_iff htwice).mp hround).2.1 hrefused
  | error error =>
    obtain ⟨hreal, hcards, hstack⟩ := hwell
    unfold startPlayer at hround
    rw [if_neg (by simp [hreal, hcards, hstack])] at hround
    split at hround
    · exact hround.symm
    · split at hround
      · exact hround.symm
      · split at hround
        · exact hround.symm
        · exact absurd hround (by simp)

/-! ## The loop -/

/-- The other players are admitted as before. -/
theorem Admits.enrol (htwice : db.Twice) {other : HandStartPlayer} (h : db.Admits hand other)
    (hne : other.userId ≠ player.userId) : (db.enrol hand player).Admits hand other := by
  refine ⟨h.seat, h.known, ?_, h.user, ?_⟩
  · exact (AList.lookup_insert_ne (by simp [hne])).trans h.new
  · obtain ⟨row, hrow, hstack⟩ := h.stack
    exact ⟨row, (htwice.startSeat hand.tableId player _).trans hrow, hstack⟩

/-- **The loop over players who are all well formed, admitted and different** inserts a row for each
of them and leaves the seats as they are. -/
theorem startPlayers_ok : ∀ {players : List HandStartPlayer} {cur : MySqlGameStore},
    cur.Twice → (∀ player ∈ players, player.WellFormed) → (players.map (·.userId)).Nodup →
    (∀ player ∈ players, cur.Admits hand player) →
    ∃ handPlayers tableSeats, players.foldlM (startPlayer hand) cur =
        .ok { cur with handPlayers := handPlayers, tableSeats := tableSeats } ∧
      (∀ key, tableSeats.lookup key = cur.tableSeats.lookup key) ∧
      (∀ handId user, handId ≠ hand.handId →
        handPlayers.lookup (handId, user) = cur.handPlayers.lookup (handId, user)) ∧
      ∀ user, (handPlayers.lookup (hand.handId, user)).map (·.startStack) =
        ((players.find? fun player => player.userId = user).map (·.startStack)).or
          ((cur.handPlayers.lookup (hand.handId, user)).map (·.startStack))
  | [], cur, _, _, _, _ =>
    ⟨cur.handPlayers, cur.tableSeats, rfl, fun _ => rfl, fun _ _ _ => rfl, fun _ => by simp⟩
  | player :: players, cur, htwice, hwell, hnodup, hadmits => by
    rw [List.map_cons, List.nodup_cons] at hnodup
    have hround : startPlayer hand cur player = .ok (cur.enrol hand player) :=
      (startPlayer_ok_iff htwice).mpr
        ⟨hwell player List.mem_cons_self, hadmits player List.mem_cons_self, rfl⟩
    have hrest : ∀ other ∈ players, (cur.enrol hand player).Admits hand other := by
      intro other hother
      refine (hadmits other (List.mem_cons_of_mem _ hother)).enrol htwice fun heq => ?_
      exact hnodup.1 (heq ▸ List.mem_map_of_mem hother)
    obtain ⟨handPlayers, tableSeats, hloop, hseats, hothers, hplayers⟩ := startPlayers_ok
      (htwice.enrol hand player) (fun p hp => hwell p (List.mem_cons_of_mem _ hp)) hnodup.2 hrest
    refine ⟨handPlayers, tableSeats, ?_, fun key => ?_, fun handId user hne => ?_, fun user => ?_⟩
    · rw [List.foldlM_cons, hround]
      exact hloop
    · exact (hseats key).trans (htwice.startSeat hand.tableId player key)
    · rw [hothers handId user hne]
      exact AList.lookup_insert_ne (by simp [hne])
    · rw [hplayers user]
      by_cases hown : player.userId = user
      · have hnone : players.find? (fun p => p.userId = user) = none := by
          rw [List.find?_eq_none]
          intro p hp heq
          have hsame : p.userId = player.userId := (of_decide_eq_true heq).trans hown.symm
          exact hnodup.1 (hsame ▸ List.mem_map_of_mem hp)
        subst hown
        rw [hnone, List.find?_cons_of_pos (by simp), MySqlGameStore.enrol, AList.lookup_insert]
        rfl
      · rw [List.find?_cons_of_neg (by simp [hown]), MySqlGameStore.enrol,
          AList.lookup_insert_ne (by simp [Ne.symm hown])]

/-- **The loop conflicts at a player who is not admitted**, or named before, if nobody up to there
is malformed. -/
theorem startPlayers_conflict {post : List HandStartPlayer} :
    ∀ {pre : List HandStartPlayer} {cur : MySqlGameStore}, cur.Twice →
      (∀ other ∈ pre, other.WellFormed) → player.WellFormed →
      ¬ cur.Admits hand player ∨ player.userId ∈ pre.map (·.userId) →
      (pre ++ player :: post).foldlM (startPlayer hand) cur = .error .conflict
  | [], cur, htwice, _, hplayer, hrefused => by
    have hround := startPlayer_refused htwice hplayer (hrefused.resolve_right (by simp))
    rw [List.nil_append, List.foldlM_cons, hround]
    rfl
  | first :: pre, cur, htwice, hwell, hplayer, hrefused => by
    rw [List.cons_append, List.foldlM_cons]
    by_cases hadmits : cur.Admits hand first
    · rw [(startPlayer_ok_iff htwice).mpr ⟨hwell first List.mem_cons_self, hadmits, rfl⟩]
      refine startPlayers_conflict (htwice.enrol hand first)
        (fun p hp => hwell p (List.mem_cons_of_mem _ hp)) hplayer ?_
      by_cases hsame : player.userId = first.userId
      · -- the first round has taken the row of this player
        refine Or.inl fun hagain => ?_
        have htaken := hagain.new
        rw [hsame, MySqlGameStore.enrol, AList.lookup_insert] at htaken
        exact absurd htaken (by simp)
      · rcases hrefused with hno | hbefore
        · refine Or.inl fun hlater => hno ⟨hlater.seat, hlater.known, ?_, hlater.user, ?_⟩
          · exact (AList.lookup_insert_ne (by simp [hsame])).symm.trans hlater.new
          · obtain ⟨row, hrow, hstack⟩ := hlater.stack
            exact ⟨row, (htwice.startSeat hand.tableId first _).symm.trans hrow, hstack⟩
        · rw [List.map_cons, List.mem_cons] at hbefore
          exact Or.inr (hbefore.resolve_left hsame)
    · rw [startPlayer_refused htwice (hwell first List.mem_cons_self) hadmits]
      rfl

end MySqlGameStore

/-! ## The call -/

/-- The check that the in-memory store makes of a player. -/
def StoredTable.Seats (table : StoredTable) (player : HandStartPlayer) : Prop :=
  InMemoryGameStore.seatMatches table player.userId player.seat player.startStack = true ∧
    player.holeCards.length = 2

/-- **When the players of a hand are treated alike.** Either all are seated as the record says and
nobody is named twice; or one is not, and the first whose row the database refuses (`player`) is
refused as a conflict, being named before or without a seat of its stack. -/
def AlikePlayers (table : StoredTable) (hand : HandStartRecord) : Prop :=
  ((∀ player ∈ hand.players, table.Seats player) → (hand.players.map (·.userId)).Nodup) ∧
  (¬ (∀ player ∈ hand.players, table.Seats player) →
    ∃ pre player post, hand.players = pre ++ player :: post ∧
      (∀ other ∈ pre, other.WellFormed) ∧ player.WellFormed ∧
      (player.userId ∈ pre.map (·.userId) ∨
        ∀ record, table.seats.lookup player.userId = some record →
          record.stack ≠ player.startStack))

/-- **When a hand start is treated alike.** A hand that is known is asked for again while its table
is idle (`known`): the database looks at the table first. A new hand is not for an aborted table
(`opened`), and at an idle table it has a new number (`number`) and players as above (`players`). -/
structure AlikeBegin (store : InMemoryGameStore) (hand : HandStartRecord) : Prop where
  known : (store.handStarts.lookup hand.handId).isSome = true →
    ∃ table, store.tables.lookup hand.tableId = some table ∧ table.aborted = false ∧
      table.handInProgress = false
  opened : store.handStarts.lookup hand.handId = none →
    ∀ table, store.tables.lookup hand.tableId = some table → table.aborted = false
  number : ∀ table, store.handStarts.lookup hand.handId = none →
    store.tables.lookup hand.tableId = some table → table.handInProgress = false →
    ∀ handId start, store.handStarts.lookup handId = some start →
      ¬ (start.tableId = hand.tableId ∧ start.handNumber = hand.handNumber)
  players : ∀ table, store.handStarts.lookup hand.handId = none →
    store.tables.lookup hand.tableId = some table → table.handInProgress = false →
    AlikePlayers table hand

/-- The stacks of the database are kept twice. -/
theorem MoneyCorresponds.twice (h : MoneyCorresponds db store) : db.Twice := by
  rintro ⟨tableId, user⟩ row hrow
  rw [h.seats, InMemoryGameStore.holding] at hrow
  obtain ⟨held, hheld, rfl⟩ := Option.map_eq_some_iff.mp hrow
  obtain ⟨record, hrecord, rfl⟩ := Option.map_eq_some_iff.mp hheld
  obtain ⟨table, htable, hseat⟩ := Option.bind_eq_some_iff.mp hrecord
  exact ⟨rfl, (h.sound.table tableId table htable).stack user record hseat⟩

/-- The hand is inserted, if its id and its number are new. -/
theorem Corresponds.insertHand (h : Corresponds db store) (hdealer : hand.dealerSeat ≤ 255)
    (hnew : store.handStarts.lookup hand.handId = none)
    (htable : store.tables.lookup hand.tableId = some table)
    (hnumber : ∀ handId start, store.handStarts.lookup handId = some start →
      ¬ (start.tableId = hand.tableId ∧ start.handNumber = hand.handNumber)) :
    db.insertHand hand = .ok { db with
      hands := db.hands.insert hand.handId
        { tableId := hand.tableId, handNumber := hand.handNumber, status := .playing
          dealerSeat := hand.dealerSeat } } := by
  obtain ⟨row, hrow, -⟩ := h.row htable
  unfold MySqlGameStore.insertHand
  rw [if_neg (by omega), h.no_hand hnew, hrow, if_neg ?_, if_neg (by simp)]
  rw [not_or]
  refine ⟨by simp, fun hany => ?_⟩
  obtain ⟨handId, other, hother, hcond⟩ := anyRow_iff.mp hany
  have hstate := h.hands handId
  rw [hother, Option.map_some] at hstate
  obtain ⟨start, hstart, heq⟩ := Option.map_eq_some_iff.mp hstate.symm
  obtain ⟨hid, hsame, -⟩ := HandState.mk.inj heq
  obtain ⟨hcond, hcond'⟩ := of_decide_eq_true hcond
  exact hnumber handId start hstart ⟨hid.trans hcond, hsame.trans hcond'⟩

/-- A player that the in-memory store accepts is well formed and admitted. -/
theorem Corresponds.admits (h : Corresponds db store)
    (hknown : store.handStarts.lookup hand.handId = none)
    (htable : store.tables.lookup hand.tableId = some table) (hseated : table.Seats player)
    (hrange : player.seat ≤ 255) (row : HandRow) :
    player.WellFormed ∧
      MySqlGameStore.Admits { db with hands := db.hands.insert hand.handId row } hand player := by
  obtain ⟨hmatches, hcards⟩ := hseated
  obtain ⟨record, hrecord, -, hstack⟩ := InMemoryGameStore.seatMatches_iff.mp hmatches
  have hseats := h.sound.table hand.tableId table htable
  have hreal : player.userId ≠ 0 := by
    intro hzero
    rw [hzero, h.seat_zero htable] at hrecord
    exact absurd hrecord (by simp)
  obtain ⟨balance, hwallet⟩ := hseats.wallet player.userId record hrecord
  refine ⟨⟨hreal, hcards, hstack ▸ hseats.stack player.userId record hrecord⟩, hrange, ?_, ?_,
    (h.purse player.userId balance hwallet).1, TableSeatRow.of (record.seat, record.stack), ?_,
      hstack⟩
  · rw [AList.lookup_insert]
    rfl
  · have hnone := h.players hand.handId player.userId
    rw [hknown] at hnone
    exact Option.map_eq_none_iff.mp hnone
  · refine (h.seats hand.tableId player.userId).trans ?_
    rw [InMemoryGameStore.holding_of_lookup htable, hrecord]
    rfl

/-- A player without a seat of the stack is not. -/
theorem Corresponds.not_admits (h : Corresponds db store)
    (htable : store.tables.lookup hand.tableId = some table)
    (hrefused : ∀ record, table.seats.lookup player.userId = some record →
      record.stack ≠ player.startStack) (row : HandRow) :
    ¬ MySqlGameStore.Admits { db with hands := db.hands.insert hand.handId row } hand player := by
  intro hadmits
  obtain ⟨seat, hseat, hstack⟩ := hadmits.stack
  have hheld := (h.seats hand.tableId player.userId).symm.trans hseat
  rw [InMemoryGameStore.holding_of_lookup htable, Option.map_map] at hheld
  obtain ⟨record, hrecord, rfl⟩ := Option.map_eq_some_iff.mp hheld
  exact hrefused record hrecord hstack

/-- A hand is added that is being played. -/
theorem HandsCorrespond.begin (h : HandsCorrespond db store)
    (hknown : store.handStarts.lookup hand.handId = none)
    (hstarts : store'.handStarts = store.handStarts.insert hand.handId hand)
    (htables : store'.tables = store.tables.insert hand.tableId table)
    (hopen : table.aborted = false)
    (haborted : table.aborted = (store.tables.lookup hand.tableId).any (·.aborted))
    (hsettlements : store'.settlements = store.settlements) (hsame : store'.actions = store.actions)
    {row : HandRow} (hhands : db'.hands = db.hands.insert hand.handId row)
    (hrow : row.state =
      { tableId := hand.tableId, handNumber := hand.handNumber, status := .playing })
    (hactions : db'.handActions = db.handActions)
    (hothers : ∀ handId user, handId ≠ hand.handId →
      db'.handPlayers.lookup (handId, user) = db.handPlayers.lookup (handId, user))
    (hplayers : ∀ user, (db'.handPlayers.lookup (hand.handId, user)).map (·.startStack) =
      (hand.stackOf user).or
        ((db.handPlayers.lookup (hand.handId, user)).map (·.startStack))) :
    HandsCorrespond db' store' := by
  refine h.of_sameActions hactions hsame (fun handId => ?_) (fun handId hnone => ?_)
    fun handId user => ?_
  · rw [hhands, hstarts]
    by_cases heq : handId = hand.handId
    · rw [heq, AList.lookup_insert, AList.lookup_insert, Option.map_some, Option.map_some, hrow,
        InMemoryGameStore.handState, hsettlements, h.settled _ hknown, htables, AList.lookup_insert,
        Option.any_some, hopen]
      rfl
    · rw [AList.lookup_insert_ne heq, AList.lookup_insert_ne heq, h.hands,
        InMemoryGameStore.handState_write htables haborted (by rw [hsettlements])]
  · rw [hstarts] at hnone
    rw [hsettlements]
    by_cases heq : handId = hand.handId
    · rw [heq, AList.lookup_insert] at hnone
      exact absurd hnone (by simp)
    · rw [AList.lookup_insert_ne heq] at hnone
      exact h.settled handId hnone
  · rw [hstarts]
    by_cases heq : handId = hand.handId
    · have hold := h.players hand.handId user
      rw [hknown, Option.bind_none] at hold
      rw [heq, hplayers, hold, Option.or_none, AList.lookup_insert, Option.bind_some]
    · rw [hothers handId user heq, AList.lookup_insert_ne heq]
      exact h.players handId user

/-- The players that the in-memory store checks one by one. -/
theorem all_seats_iff :
    (hand.players.all fun player =>
      InMemoryGameStore.seatMatches table player.userId player.seat player.startStack
        && player.holeCards.length == 2) = true ↔ ∀ player ∈ hand.players, table.Seats player := by
  simp only [List.all_eq_true, Bool.and_eq_true, beq_iff_eq, StoredTable.Seats]

/-- **A hand start that is treated alike** returns the same error. -/
theorem Corresponds.beginHand (h : Corresponds db store)
    (hrange : (GameStoreCall.beginHand hand).InRange)
    (halike : ¬ (hand.handId = 0 ∨ hand.tableId = 0 ∨ hand.handNumber = 0 ∨
      hand.players.length < 2) → AlikeBegin store hand) :
    (db.beginHand hand).1 = (store.beginHand hand).1 ∧
      Corresponds (db.beginHand hand).2 (store.beginHand hand).2 := by
  have hsound : (store.beginHand hand).2.Sound := sound_perform h.sound (.beginHand hand)
  by_cases hargs : hand.handId = 0 ∨ hand.tableId = 0 ∨ hand.handNumber = 0 ∨
      hand.players.length < 2
  · unfold MySqlGameStore.beginHand InMemoryGameStore.beginHand
    rw [if_pos hargs, if_pos hargs]
    exact ⟨rfl, h⟩
  specialize halike hargs
  revert hsound
  unfold MySqlGameStore.beginHand InMemoryGameStore.beginHand
  rw [if_neg hargs, if_neg hargs]
  cases hknown : store.handStarts.lookup hand.handId with
  | some start =>
    obtain ⟨table, htable, hopen, hidle⟩ := halike.known (by rw [hknown]; rfl)
    obtain ⟨row, hrow, hrules⟩ := h.row htable
    obtain ⟨other, hother, -⟩ := h.hand hknown
    obtain ⟨hstatus, -⟩ := rules_inj hrules
    rw [status_waiting hopen hidle] at hstatus
    intro _
    rw [if_pos (by simp), hrow]
    dsimp only
    rw [if_neg (not_not.mpr hstatus), MySqlGameStore.insertHand,
      if_neg (by have := hrange.1; omega),
      if_pos (Or.inl (by rw [hother]; rfl))]
    exact ⟨rfl, h⟩
  | none =>
    rw [if_neg (by simp [h.settled _ hknown])]
    cases htable : store.tables.lookup hand.tableId with
    | none =>
      intro _
      rw [h.no_row htable]
      exact ⟨rfl, h⟩
    | some table =>
      obtain ⟨row, hrow, hrules⟩ := h.row htable
      obtain ⟨hstatus, -⟩ := rules_inj hrules
      have hopen := halike.opened hknown table htable
      rw [hrow]
      dsimp only
      rw [if_neg (by simp [hopen])]
      by_cases hplaying : table.handInProgress = true
      · rw [if_pos hplaying]
        rw [status_playing hopen hplaying] at hstatus
        intro _
        rw [if_pos (by simp [hstatus])]
        exact ⟨rfl, h⟩
      rw [if_neg hplaying]
      rw [Bool.not_eq_true] at hplaying
      rw [status_waiting hopen hplaying] at hstatus
      obtain ⟨hnodup, hrefused⟩ := halike.players table hknown htable hplaying
      rw [if_neg (not_not.mpr hstatus),
        h.insertHand hrange.1 hknown htable (halike.number table hknown htable hplaying)]
      dsimp only
      have htwice : MySqlGameStore.Twice { db with
          hands := db.hands.insert hand.handId
            { tableId := hand.tableId, handNumber := hand.handNumber, status := .playing
              dealerSeat := hand.dealerSeat } } := h.twice
      by_cases hall : ∀ player ∈ hand.players, table.Seats player
      · rw [if_pos (all_seats_iff.mpr hall)]
        intro hsound
        have hadmits := fun player (hplayer : player ∈ hand.players) =>
          h.admits hknown htable (hall player hplayer) (hrange.2 player hplayer)
            { tableId := hand.tableId, handNumber := hand.handNumber, status := .playing
              dealerSeat := hand.dealerSeat }
        obtain ⟨handPlayers, tableSeats, hloop, hseats, hothers, hplayers⟩ :=
          MySqlGameStore.startPlayers_ok htwice (fun player hplayer => (hadmits player hplayer).1)
            (hnodup hall) fun player hplayer => (hadmits player hplayer).2
        rw [hloop]
        dsimp only
        rw [MySqlGameStore.playTable, affectedRows_atKey, hrow, Option.bind_some, if_pos hstatus,
          if_neg (by simp)]
        refine ⟨rfl, ⟨hsound, h.wallets, h.purse, ?_, ?_, ?_, h.ledger⟩, ?_⟩
        · refine h.status_write hrow hrules ?_ rfl rfl rfl
          have hplays : ({ table with handInProgress := true } : StoredTable).rules.status =
              .playing := status_playing hopen rfl
          rw [if_pos hstatus, hplays]
        · refine h.seats_write rfl (fun user => ?_) fun other user _ => hseats (other, user)
          rw [← InMemoryGameStore.holding_of_lookup htable, ← h.seats]
          exact hseats (hand.tableId, user)
        · have hzero := h.seat_zero htable
          exact h.real_write rfl hzero
        · exact h.begin hknown rfl rfl hopen (by rw [htable]; rfl) rfl rfl rfl rfl rfl hothers
            hplayers
      · rw [if_neg fun hc => hall (all_seats_iff.mp hc)]
        intro _
        obtain ⟨pre, player, post, hsplit, hpre, hwell, hcause⟩ := hrefused hall
        rw [hsplit, MySqlGameStore.startPlayers_conflict htwice hpre hwell
          (hcause.symm.imp_left fun hno => h.not_admits htable hno _)]
        exact ⟨rfl, h⟩

end PokerServer
