import Mathlib.Data.List.Perm.Basic
import Mathlib.Data.List.Nodup
import Mathlib.Algebra.Order.BigOperators.Group.List
import PokerServer.Domain.Table

/-!
# Hand records

The records of `include/poker/storage/game_store.hpp` that `ProtocolService` builds from a table,
and the check of `include/poker/storage/game_store_validation.hpp` that both stores make before
they accept a settlement.

Ids and seats are natural numbers and amounts are integers. `validHandSettlement` compares against
`std::numeric_limits<std::int64_t>::max()` before it adds, as the source does.
-/

namespace PokerServer

abbrev UserId := Nat

structure HandStartPlayer where
  userId : UserId := 0
  seat : Nat := 0
  startStack : Int := 0
  holeCards : List Card := []
  deriving DecidableEq

structure HandStartRecord where
  handId : Nat := 0
  tableId : Nat := 0
  handNumber : Nat := 0
  dealerSeat : Nat := 0
  players : List HandStartPlayer := []
  deriving DecidableEq

structure HandPlayerSettlement where
  userId : UserId := 0
  seat : Nat := 0
  startStack : Int := 0
  committed : Int := 0
  winnings : Int := 0
  endStack : Int := 0
  holeCards : List Card := []
  folded : Bool := false
  deriving DecidableEq

structure HandSettlementRecord where
  handId : Nat := 0
  tableId : Nat := 0
  handNumber : Nat := 0
  dealerSeat : Nat := 0
  board : List Card := []
  totalPot : Int := 0
  players : List HandPlayerSettlement := []
  deriving DecidableEq

/-- `std::numeric_limits<std::int64_t>::max()`. -/
def int64Max : Int := 2 ^ 63 - 1

/-- `validStoredCard`. -/
def validStoredCard (card : Card) : Bool := 2 ≤ card.rank && card.rank ≤ 14 && card.suit ≤ 3

theorem validStoredCard_iff {card : Card} : validStoredCard card = true ↔ card.Valid := by
  unfold validStoredCard Card.Valid
  simp [and_assoc]

/-- `add_card`: the seen indices with the card's, unless it is no card or was seen. -/
def addCard (seen : List UInt8) (card : Card) : Option (List UInt8) :=
  if !validStoredCard card then none
  else if cardIndex card ∈ seen then none
  else some (cardIndex card :: seen)

/-- The running state of the loop over the players. -/
structure SettlementScan where
  cards : List UInt8 := []
  users : List UserId := []
  totalCommitted : Int := 0
  totalWinnings : Int := 0

/-- One round of the loop over the players. -/
def SettlementScan.player (scan : SettlementScan) (player : HandPlayerSettlement) :
    Option SettlementScan :=
  if player.userId = 0 ∨ 6 ≤ player.seat ∨ player.startStack < 0 ∨ player.committed < 0
      ∨ player.startStack < player.committed ∨ player.winnings < 0 ∨ player.endStack < 0
      ∨ player.userId ∈ scan.users then none
  else match player.holeCards with
    | [first, second] => do
      let cards ← addCard scan.cards first
      let cards ← addCard cards second
      let afterCommitment := player.startStack - player.committed
      if int64Max - afterCommitment < player.winnings
          ∨ player.endStack ≠ afterCommitment + player.winnings
          ∨ int64Max - scan.totalCommitted < player.committed
          ∨ int64Max - scan.totalWinnings < player.winnings then none
      else
        return { cards := cards
                 users := player.userId :: scan.users
                 totalCommitted := scan.totalCommitted + player.committed
                 totalWinnings := scan.totalWinnings + player.winnings }
    | _ => none

/-- `validHandSettlement`. -/
def validHandSettlement (settlement : HandSettlementRecord) : Bool :=
  if settlement.handId = 0 ∨ settlement.tableId = 0 ∨ settlement.handNumber = 0
      ∨ settlement.players.length < 2 ∨ 6 < settlement.players.length
      ∨ 5 < settlement.board.length ∨ settlement.totalPot < 0 then false
  else match settlement.board.foldlM addCard [] with
    | none => false
    | some cards =>
      match settlement.players.foldlM SettlementScan.player { cards := cards } with
      | none => false
      | some scan =>
        decide (scan.totalCommitted = settlement.totalPot)
          && decide (scan.totalWinnings = settlement.totalPot)

/-! ## What the check comes down to -/

/-- A line of a settlement that adds up. -/
structure HandPlayerSettlement.Sound (player : HandPlayerSettlement) : Prop where
  userId : player.userId ≠ 0
  seat : player.seat < 6
  committed : 0 ≤ player.committed
  covered : player.committed ≤ player.startStack
  winnings : 0 ≤ player.winnings
  endStack : player.endStack = player.startStack - player.committed + player.winnings
  fits : player.endStack ≤ int64Max
  cards : player.holeCards.length = 2

/-- Every check but the two on the pot. -/
structure HandSettlementRecord.Sound (settlement : HandSettlementRecord) : Prop where
  handId : settlement.handId ≠ 0
  tableId : settlement.tableId ≠ 0
  handNumber : settlement.handNumber ≠ 0
  many : 2 ≤ settlement.players.length
  few : settlement.players.length ≤ 6
  board : settlement.board.length ≤ 5
  pot : 0 ≤ settlement.totalPot
  player : ∀ player ∈ settlement.players, player.Sound
  users : (settlement.players.map (·.userId)).Nodup
  real : ∀ card ∈ settlement.board ++ settlement.players.flatMap (·.holeCards),
    validStoredCard card = true
  distinct : ((settlement.board ++ settlement.players.flatMap (·.holeCards)).map cardIndex).Nodup
  committed : (settlement.players.map (·.committed)).sum ≤ int64Max
  winnings : (settlement.players.map (·.winnings)).sum ≤ int64Max

theorem addCard_of_real {seen : List UInt8} {card : Card} (hreal : validStoredCard card = true)
    (hnew : cardIndex card ∉ seen) : addCard seen card = some (cardIndex card :: seen) := by
  unfold addCard
  rw [hreal, if_neg (by decide), if_neg hnew]

theorem foldlM_addCard : ∀ (cards : List Card) (seen : List UInt8),
    (∀ card ∈ cards, validStoredCard card = true) → (cards.map cardIndex ++ seen).Nodup →
    cards.foldlM addCard seen = some ((cards.map cardIndex).reverse ++ seen)
  | [], seen, _, _ => rfl
  | card :: cards, seen, hreal, hnodup => by
    rw [List.map_cons, List.cons_append, ← List.perm_middle.nodup_iff] at hnodup
    have hnew : cardIndex card ∉ seen := fun hc =>
      (List.nodup_cons.mp (List.nodup_append.mp hnodup).2.1).1 hc
    rw [List.foldlM_cons, addCard_of_real (hreal card List.mem_cons_self) hnew]
    change cards.foldlM addCard _ = _
    rw [foldlM_addCard cards _ (fun c hc => hreal c (List.mem_cons_of_mem _ hc)) hnodup]
    simp

/-- The scan with one line more. -/
def SettlementScan.after (scan : SettlementScan) (player : HandPlayerSettlement) :
    SettlementScan where
  cards := (player.holeCards.map cardIndex).reverse ++ scan.cards
  users := player.userId :: scan.users
  totalCommitted := scan.totalCommitted + player.committed
  totalWinnings := scan.totalWinnings + player.winnings

/-- One sound line passes the loop. -/
theorem SettlementScan.player_of_sound (scan : SettlementScan) {player : HandPlayerSettlement}
    (h : player.Sound) (huser : player.userId ∉ scan.users)
    (hreal : ∀ card ∈ player.holeCards, validStoredCard card = true)
    (hdistinct : (player.holeCards.map cardIndex ++ scan.cards).Nodup)
    (hcommitted : scan.totalCommitted + player.committed ≤ int64Max)
    (hwinnings : scan.totalWinnings + player.winnings ≤ int64Max) :
    scan.player player = some (scan.after player) := by
  have hend := h.endStack
  have hfits := h.fits
  have hcov := h.covered
  have hnn := h.committed
  have hwin := h.winnings
  have hseat := h.seat
  have hcards := h.cards
  unfold SettlementScan.player
  rw [if_neg (by simp only [h.userId, huser, or_false, false_or]; omega)]
  match hole : player.holeCards, hcards with
  | [first, second], _ =>
    rw [hole] at hreal hdistinct
    have hfold := foldlM_addCard _ _ hreal hdistinct
    simp only [List.foldlM_cons, List.foldlM_nil, Option.bind_eq_bind, Option.bind_eq_some_iff]
      at hfold
    obtain ⟨cards, hfirst, cards', hsecond, hdone⟩ := hfold
    rw [Option.pure_def, Option.some.injEq] at hdone
    simp only [hfirst, hsecond, Option.bind_eq_bind, Option.bind_some]
    rw [if_neg (by omega), Option.pure_def, Option.some.injEq, SettlementScan.after, hole, hdone]

/-- The cards of a line and of the lines after it, in the order in which they are seen. -/
theorem nodup_cards_cons (player : HandPlayerSettlement) (players : List HandPlayerSettlement)
    (scan : SettlementScan) :
    (((player :: players).flatMap (·.holeCards)).map cardIndex ++ scan.cards).Nodup ↔
      ((players.flatMap (·.holeCards)).map cardIndex ++ (scan.after player).cards).Nodup := by
  rw [List.flatMap_cons, List.map_append, List.append_assoc]
  refine List.Perm.nodup_iff ((List.perm_append_comm_assoc _ _ _).trans (.append_left _ ?_))
  exact (List.reverse_perm _).symm.append_right _

theorem foldlM_player : ∀ (players : List HandPlayerSettlement) (scan : SettlementScan),
    (∀ player ∈ players, player.Sound) → (players.map (·.userId) ++ scan.users).Nodup →
    (∀ card ∈ players.flatMap (·.holeCards), validStoredCard card = true) →
    ((players.flatMap (·.holeCards)).map cardIndex ++ scan.cards).Nodup →
    scan.totalCommitted + (players.map (·.committed)).sum ≤ int64Max →
    scan.totalWinnings + (players.map (·.winnings)).sum ≤ int64Max →
    ∃ scan', players.foldlM SettlementScan.player scan = some scan' ∧
      scan'.totalCommitted = scan.totalCommitted + (players.map (·.committed)).sum ∧
      scan'.totalWinnings = scan.totalWinnings + (players.map (·.winnings)).sum
  | [], scan, _, _, _, _, _, _ => ⟨scan, rfl, by simp, by simp⟩
  | player :: players, scan, hsound, husers, hreal, hdistinct, hcommitted, hwinnings => by
    have hrest : ∀ p ∈ players, p.Sound := fun p hp => hsound p (List.mem_cons_of_mem _ hp)
    have hnn : 0 ≤ (players.map (·.committed)).sum ∧ 0 ≤ (players.map (·.winnings)).sum := by
      refine ⟨List.sum_nonneg fun x hx => ?_, List.sum_nonneg fun x hx => ?_⟩ <;>
        obtain ⟨p, hp, rfl⟩ := List.mem_map.mp hx
      · exact (hrest p hp).committed
      · exact (hrest p hp).winnings
    rw [List.map_cons, List.cons_append, ← List.perm_middle.nodup_iff] at husers
    have hreorder := (nodup_cards_cons player players scan).mp hdistinct
    rw [List.map_cons, List.sum_cons] at hcommitted hwinnings
    have hplayer := scan.player_of_sound (hsound player List.mem_cons_self)
      (List.nodup_cons.mp (List.nodup_append.mp husers).2.1).1
      (fun card hc => hreal card (List.mem_flatMap.mpr ⟨player, List.mem_cons_self, hc⟩))
      ((List.nodup_append.mp hreorder).2.1.perm ((List.reverse_perm _).append_right _))
      (by omega) (by omega)
    obtain ⟨scan', hfold, htotal, hwon⟩ := foldlM_player players (scan.after player) hrest husers
      (fun card hc => hreal card (by rw [List.flatMap_cons]; exact List.mem_append_right _ hc))
      hreorder (by simp only [SettlementScan.after]; omega)
      (by simp only [SettlementScan.after]; omega)
    refine ⟨scan', ?_, ?_, ?_⟩
    · rw [List.foldlM_cons, hplayer]
      exact hfold
    · rw [htotal, List.map_cons, List.sum_cons, SettlementScan.after, add_assoc]
    · rw [hwon, List.map_cons, List.sum_cons, SettlementScan.after, add_assoc]

/-- **A settlement that adds up line by line is accepted iff the pot does.** -/
theorem validHandSettlement_iff {settlement : HandSettlementRecord} (h : settlement.Sound) :
    validHandSettlement settlement = true ↔
      (settlement.players.map (·.committed)).sum = settlement.totalPot ∧
      (settlement.players.map (·.winnings)).sum = settlement.totalPot := by
  have hdistinct := h.distinct
  rw [List.map_append] at hdistinct
  have hboard := foldlM_addCard settlement.board []
    (fun card hc => h.real card (List.mem_append_left _ hc))
    (by rw [List.append_nil]; exact (List.nodup_append.mp hdistinct).1)
  rw [List.append_nil] at hboard
  obtain ⟨scan, hscan, hcommitted, hwinnings⟩ := foldlM_player settlement.players
    { cards := (settlement.board.map cardIndex).reverse } h.player
    (by rw [List.append_nil]; exact h.users)
    (fun card hc => h.real card (List.mem_append_right _ hc))
    ((List.perm_append_comm.trans ((List.reverse_perm _).symm.append_left _)).nodup_iff.mp
      hdistinct)
    (by rw [zero_add]; exact h.committed) (by rw [zero_add]; exact h.winnings)
  rw [zero_add] at hcommitted hwinnings
  have hmany := h.many
  have hfew := h.few
  have hlen := h.board
  have hpot := h.pot
  unfold validHandSettlement
  rw [if_neg (by simp only [h.handId, h.tableId, h.handNumber, false_or]; omega), hboard]
  simp only [hscan, Bool.and_eq_true, decide_eq_true_eq, hcommitted, hwinnings]

/-! ## What an accepted settlement satisfies -/

/-- What `settleHand` asks of a line besides its seat. -/
def HandPlayerSettlement.Balanced (player : HandPlayerSettlement) : Prop :=
  0 ≤ player.committed ∧ 0 ≤ player.winnings ∧ 0 ≤ player.endStack ∧
    player.endStack = player.startStack - player.committed + player.winnings

theorem HandPlayerSettlement.Sound.balanced {player : HandPlayerSettlement} (h : player.Sound) :
    player.Balanced := by
  have hcovered := h.covered
  have hwinnings := h.winnings
  exact ⟨h.committed, hwinnings, by rw [h.endStack]; omega, h.endStack⟩

theorem addCard_eq_some {seen seen' : List UInt8} {card : Card} :
    addCard seen card = some seen' ↔
      (validStoredCard card = true ∧ cardIndex card ∉ seen) ∧ cardIndex card :: seen = seen' := by
  unfold addCard
  split
  · simp_all
  · split <;> simp_all

/-- Cards that pass are real, and new. -/
theorem foldlM_addCard_some : ∀ {cards : List Card} {seen seen' : List UInt8},
    cards.foldlM addCard seen = some seen' →
    (∀ card ∈ cards, validStoredCard card = true) ∧
      ((cards.map cardIndex ++ seen).Nodup ↔ seen.Nodup) ∧
      seen' = (cards.map cardIndex).reverse ++ seen
  | [], seen, seen', h => by
    rw [List.foldlM_nil, Option.pure_def, Option.some.injEq] at h
    simp [h]
  | card :: cards, seen, seen', h => by
    rw [List.foldlM_cons, Option.bind_eq_bind, Option.bind_eq_some_iff] at h
    obtain ⟨next, hcard, hrest⟩ := h
    obtain ⟨⟨hreal, hnew⟩, rfl⟩ := addCard_eq_some.mp hcard
    obtain ⟨hreals, hnodup, rfl⟩ := foldlM_addCard_some hrest
    refine ⟨List.forall_mem_cons.mpr ⟨hreal, hreals⟩, ?_, by simp⟩
    rw [List.perm_middle.nodup_iff] at hnodup
    rw [List.map_cons, List.cons_append, hnodup, List.nodup_cons]
    exact and_iff_right hnew

/-- What a line that passes the loop has been checked for. -/
structure SettlementScan.Passes (scan : SettlementScan) (player : HandPlayerSettlement) : Prop where
  sound : player.Sound
  user : player.userId ∉ scan.users
  real : ∀ card ∈ player.holeCards, validStoredCard card = true
  distinct : (scan.after player).cards.Nodup ↔ scan.cards.Nodup
  committed : scan.totalCommitted + player.committed ≤ int64Max
  winnings : scan.totalWinnings + player.winnings ≤ int64Max

theorem SettlementScan.player_some {scan scan' : SettlementScan} {player : HandPlayerSettlement}
    (h : scan.player player = some scan') : scan.Passes player ∧ scan' = scan.after player := by
  unfold SettlementScan.player at h
  split at h
  · exact absurd h (by simp)
  rename_i hline
  simp only [not_or] at hline
  split at h
  · rename_i first second hole
    simp only [Option.bind_eq_bind, Option.bind_eq_some_iff] at h
    obtain ⟨cards, hfirst, cards', hsecond, h⟩ := h
    have hcards : [first, second].foldlM addCard scan.cards = some cards' := by
      simp [hfirst, hsecond]
    obtain ⟨hreal, hnodup, rfl⟩ := foldlM_addCard_some hcards
    split at h
    · exact absurd h (by simp)
    · rename_i hsums
      rw [Option.pure_def, Option.some.injEq] at h
      subst h
      obtain ⟨hid, hseat, -, hcommitted, hcovered, hwinnings, -, huser⟩ := hline
      refine ⟨⟨⟨hid, by omega, by omega, by omega, by omega, by omega, by omega, by rw [hole]; rfl⟩,
        huser, by rw [hole]; exact hreal, ?_, by omega, by omega⟩, ?_⟩
      · rw [after, hole, ← hnodup]
        exact ((List.reverse_perm _).append_right _).nodup_iff
      · rw [after, hole]
  · exact absurd h (by simp)

/-- What the lines that pass the loop have been checked for. -/
theorem foldlM_player_some : ∀ {players : List HandPlayerSettlement} {scan scan' : SettlementScan},
    players.foldlM SettlementScan.player scan = some scan' →
    (∀ player ∈ players, player.Sound) ∧
      ((players.map (·.userId) ++ scan.users).Nodup ↔ scan.users.Nodup) ∧
      (∀ card ∈ players.flatMap (·.holeCards), validStoredCard card = true) ∧
      (((players.flatMap (·.holeCards)).map cardIndex ++ scan.cards).Nodup ↔ scan.cards.Nodup) ∧
      scan'.totalCommitted = scan.totalCommitted + (players.map (·.committed)).sum ∧
      scan'.totalWinnings = scan.totalWinnings + (players.map (·.winnings)).sum
  | [], scan, scan', h => by
    rw [List.foldlM_nil, Option.pure_def, Option.some.injEq] at h
    subst h
    simp
  | player :: players, scan, scan', h => by
    rw [List.foldlM_cons, Option.bind_eq_bind, Option.bind_eq_some_iff] at h
    obtain ⟨next, hplayer, hrest⟩ := h
    obtain ⟨hpasses, rfl⟩ := SettlementScan.player_some hplayer
    obtain ⟨hsound, husers, hreal, hdistinct, htotal, hwon⟩ := foldlM_player_some hrest
    refine ⟨List.forall_mem_cons.mpr ⟨hpasses.sound, hsound⟩, ?_, ?_, ?_, ?_, ?_⟩
    · rw [SettlementScan.after, List.nodup_cons, List.perm_middle.nodup_iff] at husers
      rw [List.map_cons, List.cons_append, husers]
      exact and_iff_right hpasses.user
    · rw [List.flatMap_cons]
      exact List.forall_mem_append.mpr ⟨hpasses.real, hreal⟩
    · rw [nodup_cards_cons, hdistinct, hpasses.distinct]
    · rw [htotal, SettlementScan.after, List.map_cons, List.sum_cons, add_assoc]
    · rw [hwon, SettlementScan.after, List.map_cons, List.sum_cons, add_assoc]

/-- **Acceptance**: all lines are sound, all cards are real and different, and the pot adds up. -/
theorem validHandSettlement_accepts {settlement : HandSettlementRecord}
    (h : validHandSettlement settlement = true) (hpot : settlement.totalPot ≤ int64Max) :
    settlement.Sound ∧ (settlement.players.map (·.committed)).sum = settlement.totalPot ∧
      (settlement.players.map (·.winnings)).sum = settlement.totalPot := by
  unfold validHandSettlement at h
  split at h
  · exact absurd h (by simp)
  rename_i hcounts
  split at h
  · exact absurd h (by simp)
  rename_i cards hboard
  split at h
  · exact absurd h (by simp)
  rename_i scan hscan
  obtain ⟨hreal, hdistinct, rfl⟩ := foldlM_addCard_some hboard
  obtain ⟨hsound, husers, hreals, hdistincts, hcommitted, hwinnings⟩ := foldlM_player_some hscan
  rw [Bool.and_eq_true, decide_eq_true_eq, decide_eq_true_eq] at h
  rw [zero_add] at hcommitted hwinnings
  rw [List.append_nil] at husers hdistinct hdistincts
  simp only [not_or] at hcounts
  obtain ⟨hhand, htable, hnumber, hmany, hfew, hlength, hpositive⟩ := hcounts
  have hboards : (settlement.board.map cardIndex).Nodup := hdistinct.mpr List.nodup_nil
  refine ⟨⟨hhand, htable, hnumber, by omega, by omega, by omega, by omega, hsound,
    husers.mpr List.nodup_nil, List.forall_mem_append.mpr ⟨hreal, hreals⟩, ?_, by omega, by omega⟩,
    by omega, by omega⟩
  rw [List.map_append]
  have hall := hdistincts.mpr (List.nodup_reverse.mpr hboards)
  exact (List.perm_append_comm.trans ((List.reverse_perm _).append_right _)).nodup_iff.mp hall

/-- **An accepted settlement names each user once and pays out what was committed**, line by line
and in total. -/
theorem validHandSettlement_balanced {settlement : HandSettlementRecord}
    (h : validHandSettlement settlement = true) :
    (settlement.players.map (·.userId)).Nodup ∧
      (settlement.players.map (·.committed)).sum = (settlement.players.map (·.winnings)).sum ∧
      ∀ player ∈ settlement.players, player.Balanced := by
  unfold validHandSettlement at h
  split at h
  · exact absurd h (by simp)
  split at h
  · exact absurd h (by simp)
  split at h
  · exact absurd h (by simp)
  rename_i scan hscan
  obtain ⟨hsound, husers, -, -, hcommitted, hwinnings⟩ := foldlM_player_some hscan
  rw [Bool.and_eq_true, decide_eq_true_eq, decide_eq_true_eq] at h
  rw [zero_add] at hcommitted hwinnings
  rw [List.append_nil] at husers
  exact ⟨husers.mpr List.nodup_nil, by rw [← hcommitted, ← hwinnings, h.1, h.2],
    fun player hp => (hsound player hp).balanced⟩

end PokerServer
