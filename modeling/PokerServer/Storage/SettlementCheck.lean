import PokerServer.Lib.Int64
import PokerServer.Storage.RealCards

/-!
# The settlement check is exact

`validHandSettlement` (`include/poker/storage/game_store_validation.hpp`) decides in 64-bit
arithmetic whether a settlement adds up, for amounts that nobody has looked at before.
`validHandSettlement64` is its text with every operation on amounts checked; `Stop` tells an
operation that overflows from a `return false`.

* `validHandSettlement64_eq`: no operation overflows, because each is behind a guard that cannot
  overflow itself, so the check is the one over unbounded integers.
* `accepts_iff_addsUp`: that one accepts the settlements that add up.
-/

namespace PokerServer

open Signed64

/-- The amounts of a line are 64-bit integers. -/
structure HandPlayerSettlement.InRange (player : HandPlayerSettlement) : Prop where
  startStack : Fits player.startStack
  committed : Fits player.committed
  winnings : Fits player.winnings
  endStack : Fits player.endStack

structure HandSettlementRecord.InRange (settlement : HandSettlementRecord) : Prop where
  totalPot : Fits settlement.totalPot
  player : ∀ player ∈ settlement.players, player.InRange

/-- Why the check ends before its last line. -/
inductive Stop where
  | overflow
  | refused
  deriving DecidableEq

namespace SettlementScan

/-- The totals after a line, each operation as a 64-bit one. -/
def amounts64 (scan : SettlementScan) (player : HandPlayerSettlement) :
    Except Stop (Int × Int) := do
  let afterCommitment ← checked .overflow (player.startStack - player.committed)
  let room ← checked .overflow (int64Max - afterCommitment)
  if room < player.winnings then .error .refused
  else
    let endStack ← checked .overflow (afterCommitment + player.winnings)
    if player.endStack ≠ endStack then .error .refused
    else
      let room ← checked .overflow (int64Max - scan.totalCommitted)
      if room < player.committed then .error .refused
      else
        let room ← checked .overflow (int64Max - scan.totalWinnings)
        if room < player.winnings then .error .refused
        else
          let totalCommitted ← checked .overflow (scan.totalCommitted + player.committed)
          let totalWinnings ← checked .overflow (scan.totalWinnings + player.winnings)
          return (totalCommitted, totalWinnings)

/-- One round of the loop over the players. -/
def player64 (scan : SettlementScan) (player : HandPlayerSettlement) :
    Except Stop SettlementScan :=
  if player.userId = 0 ∨ 6 ≤ player.seat ∨ player.startStack < 0 ∨ player.committed < 0
      ∨ player.startStack < player.committed ∨ player.winnings < 0 ∨ player.endStack < 0
      ∨ player.userId ∈ scan.users then .error .refused
  else match player.holeCards with
    | [first, second] =>
      match (addCard scan.cards first).bind fun cards => addCard cards second with
      | none => .error .refused
      | some cards => do
        let (totalCommitted, totalWinnings) ← scan.amounts64 player
        return { cards, users := player.userId :: scan.users, totalCommitted, totalWinnings }
    | _ => .error .refused

end SettlementScan

/-- `validHandSettlement` in 64-bit arithmetic, up to the comparison with the pot. -/
def scanSettlement64 (settlement : HandSettlementRecord) : Except Stop SettlementScan :=
  if settlement.handId = 0 ∨ settlement.tableId = 0 ∨ settlement.handNumber = 0
      ∨ settlement.players.length < 2 ∨ 6 < settlement.players.length
      ∨ 5 < settlement.board.length ∨ settlement.totalPot < 0 then .error .refused
  else match settlement.board.foldlM addCard [] with
    | none => .error .refused
    | some cards => settlement.players.foldlM SettlementScan.player64 { cards := cards }

/-- `validHandSettlement` in 64-bit arithmetic: none where an operation overflows. -/
def validHandSettlement64 (settlement : HandSettlementRecord) : Option Bool :=
  match scanSettlement64 settlement with
  | .error .overflow => none
  | .error .refused => some false
  | .ok scan =>
    some (decide (scan.totalCommitted = settlement.totalPot)
      && decide (scan.totalWinnings = settlement.totalPot))

/-! ## No operation overflows -/

namespace SettlementScan

variable {scan scan' : SettlementScan} {player : HandPlayerSettlement}

/-- The totals so far are 64-bit integers. -/
def InRange (scan : SettlementScan) : Prop :=
  (0 ≤ scan.totalCommitted ∧ scan.totalCommitted ≤ int64Max) ∧
    0 ≤ scan.totalWinnings ∧ scan.totalWinnings ≤ int64Max

/-- The part of a line that the amounts decide. -/
theorem amounts64_eq (hscan : scan.InRange) (hstart : player.startStack ≤ int64Max)
    (hcommitted : 0 ≤ player.committed) (hcovered : player.committed ≤ player.startStack)
    (hwinnings : 0 ≤ player.winnings) :
    scan.amounts64 player =
      if int64Max - (player.startStack - player.committed) < player.winnings
          ∨ player.endStack ≠ player.startStack - player.committed + player.winnings
          ∨ int64Max - scan.totalCommitted < player.committed
          ∨ int64Max - scan.totalWinnings < player.winnings then .error .refused
      else .ok (scan.totalCommitted + player.committed, scan.totalWinnings + player.winnings) := by
  obtain ⟨⟨hlow, hhigh⟩, hlow', hhigh'⟩ := hscan
  have fits {x : Int} (hx : 0 ≤ x) (hle : x ≤ int64Max) : Fits x := by
    unfold int64Max at hle
    unfold Fits
    omega
  unfold amounts64
  rw [checked_bind_of_fits (fits (by omega) (by omega)),
    checked_bind_of_fits (fits (by omega) (by omega))]
  by_cases hroom : int64Max - (player.startStack - player.committed) < player.winnings
  · rw [if_pos hroom, if_pos (Or.inl hroom)]
  rw [if_neg hroom, checked_bind_of_fits (fits (by omega) (by omega))]
  by_cases hend : player.endStack ≠ player.startStack - player.committed + player.winnings
  · rw [if_pos hend, if_pos (Or.inr (Or.inl hend))]
  rw [if_neg hend, checked_bind_of_fits (fits (by omega) (by omega))]
  by_cases hmore : int64Max - scan.totalCommitted < player.committed
  · rw [if_pos hmore, if_pos (Or.inr (Or.inr (Or.inl hmore)))]
  rw [if_neg hmore, checked_bind_of_fits (fits (by omega) (by omega))]
  by_cases hmore' : int64Max - scan.totalWinnings < player.winnings
  · rw [if_pos hmore', if_pos (Or.inr (Or.inr (Or.inr hmore')))]
  rw [if_neg hmore', checked_bind_of_fits (fits (by omega) (by omega)),
    checked_bind_of_fits (fits (by omega) (by omega)),
    if_neg (by simp only [hroom, hend, hmore, hmore', or_self, not_false_eq_true])]
  rfl

/-- **One line in 64-bit arithmetic** is the line over unbounded integers. -/
theorem player64_eq (hscan : scan.InRange) (hplayer : player.InRange) :
    scan.player64 player = match scan.player player with
      | none => .error .refused
      | some scan' => .ok scan' := by
  unfold player64 SettlementScan.player
  by_cases hline : player.userId = 0 ∨ 6 ≤ player.seat ∨ player.startStack < 0
      ∨ player.committed < 0 ∨ player.startStack < player.committed ∨ player.winnings < 0
      ∨ player.endStack < 0 ∨ player.userId ∈ scan.users
  · rw [if_pos hline, if_pos hline]
  rw [if_neg hline, if_neg hline]
  rcases player.holeCards with _ | ⟨first, _ | ⟨second, _ | ⟨third, others⟩⟩⟩
  · rfl
  · rfl
  · simp only [Option.bind_eq_bind]
    cases addCard scan.cards first with
    | none => rfl
    | some cards =>
      simp only [Option.bind_some]
      cases addCard cards second with
      | none => rfl
      | some cards' =>
        have hstart : player.startStack ≤ int64Max := Int.le_sub_one_of_lt hplayer.startStack.2
        rw [amounts64_eq hscan hstart (by omega) (by omega) (by omega)]
        simp only [Option.bind_some]
        split <;> rfl
  · rfl

/-- A line that passes keeps the totals in range. -/
theorem InRange.after (hscan : scan.InRange) (h : scan.Passes player) :
    (scan.after player).InRange := by
  obtain ⟨⟨hlow, -⟩, hlow', -⟩ := hscan
  exact ⟨⟨Int.add_nonneg hlow h.sound.committed, h.committed⟩,
    Int.add_nonneg hlow' h.sound.winnings, h.winnings⟩

theorem foldlM_player64 : ∀ {players : List HandPlayerSettlement} {scan : SettlementScan},
    scan.InRange → (∀ player ∈ players, player.InRange) →
    players.foldlM player64 scan = match players.foldlM SettlementScan.player scan with
      | none => .error .refused
      | some scan' => .ok scan'
  | [], _, _, _ => rfl
  | player :: players, scan, hscan, hplayers => by
    obtain ⟨hplayer, hrest⟩ := List.forall_mem_cons.mp hplayers
    rw [List.foldlM_cons, List.foldlM_cons, player64_eq hscan hplayer]
    cases hnext : scan.player player with
    | none => rfl
    | some next =>
      obtain ⟨hpasses, rfl⟩ := player_some hnext
      exact foldlM_player64 (hscan.after hpasses) hrest

end SettlementScan

variable {settlement : HandSettlementRecord}

/-- **No operation overflows**: the check in 64-bit arithmetic is the one over unbounded
integers. -/
theorem validHandSettlement64_eq (h : settlement.InRange) :
    validHandSettlement64 settlement = some (validHandSettlement settlement) := by
  unfold validHandSettlement64 scanSettlement64 validHandSettlement
  split_ifs
  · rfl
  cases hboard : settlement.board.foldlM addCard [] with
  | none => rfl
  | some cards =>
    have hzero : (0 : Int) ≤ int64Max := by decide
    have hstart : SettlementScan.InRange { cards } := ⟨⟨Int.le_refl 0, hzero⟩, Int.le_refl 0, hzero⟩
    simp only
    rw [SettlementScan.foldlM_player64 hstart h.player]
    cases settlement.players.foldlM SettlementScan.player { cards } with
    | none => rfl
    | some scan => rfl

/-! ## What is accepted -/

/-- A settlement that adds up, over unbounded integers. -/
structure HandSettlementRecord.AddsUp (settlement : HandSettlementRecord) : Prop where
  ids : settlement.handId ≠ 0 ∧ settlement.tableId ≠ 0 ∧ settlement.handNumber ≠ 0
  players : 2 ≤ settlement.players.length ∧ settlement.players.length ≤ 6
  users : (settlement.players.map (·.userId)).Nodup ∧ ∀ player ∈ settlement.players,
    player.userId ≠ 0
  seats : ∀ player ∈ settlement.players, player.seat < 6
  board : settlement.board.length ≤ 5
  holeCards : ∀ player ∈ settlement.players, player.holeCards.length = 2
  cards : AllReal (settlement.board ++ settlement.players.flatMap (·.holeCards))
  committed : ∀ player ∈ settlement.players,
    0 ≤ player.committed ∧ player.committed ≤ player.startStack
  winnings : ∀ player ∈ settlement.players, 0 ≤ player.winnings
  endStack : ∀ player ∈ settlement.players,
    player.endStack = player.startStack - player.committed + player.winnings ∧
      Fits (player.startStack - player.committed + player.winnings)
  totalCommitted : (settlement.players.map (·.committed)).sum = settlement.totalPot
  totalWinnings : (settlement.players.map (·.winnings)).sum = settlement.totalPot
  totalPot : 0 ≤ settlement.totalPot

/-- Real cards are different iff their indices are. -/
theorem allReal_iff_nodup {cards : List Card} :
    AllReal cards ↔ (∀ card ∈ cards, validStoredCard card = true) ∧
      (cards.map cardIndex).Nodup := by
  rw [allReal_iff]
  simp only [validStoredCard_iff]
  constructor
  · exact fun h => ⟨h.2, h.1.nodup⟩
  · exact fun h => ⟨⟨fun card hc => (h.1 card hc).cardIndex_lt, h.2⟩, h.1⟩

theorem HandSettlementRecord.Sound.addsUp (h : settlement.Sound)
    (hcommitted : (settlement.players.map (·.committed)).sum = settlement.totalPot)
    (hwinnings : (settlement.players.map (·.winnings)).sum = settlement.totalPot) :
    settlement.AddsUp where
  ids := ⟨h.handId, h.tableId, h.handNumber⟩
  players := ⟨h.many, h.few⟩
  users := ⟨h.users, fun player hp => (h.player player hp).userId⟩
  seats player hp := (h.player player hp).seat
  board := h.board
  holeCards player hp := (h.player player hp).cards
  cards := allReal_iff_nodup.mpr ⟨h.real, h.distinct⟩
  committed player hp := ⟨(h.player player hp).committed, (h.player player hp).covered⟩
  winnings player hp := (h.player player hp).winnings
  endStack player hp := by
    have hline := h.player player hp
    have hbalanced := hline.balanced
    have hfits := hline.fits
    rw [hline.endStack] at hfits
    unfold HandPlayerSettlement.Balanced at hbalanced
    unfold int64Max at hfits
    exact ⟨hline.endStack, by unfold Fits; omega⟩
  totalCommitted := hcommitted
  totalWinnings := hwinnings
  totalPot := h.pot

theorem HandSettlementRecord.AddsUp.sound (h : settlement.AddsUp)
    (hpot : settlement.totalPot ≤ int64Max) : settlement.Sound where
  handId := h.ids.1
  tableId := h.ids.2.1
  handNumber := h.ids.2.2
  many := h.players.1
  few := h.players.2
  board := h.board
  pot := h.totalPot
  player player hp :=
    { userId := h.users.2 player hp
      seat := h.seats player hp
      committed := (h.committed player hp).1
      covered := (h.committed player hp).2
      winnings := h.winnings player hp
      endStack := (h.endStack player hp).1
      fits := by
        rw [(h.endStack player hp).1]
        exact Int.le_sub_one_of_lt (h.endStack player hp).2.2
      cards := h.holeCards player hp }
  users := h.users.1
  real := (allReal_iff_nodup.mp h.cards).1
  distinct := (allReal_iff_nodup.mp h.cards).2
  committed := h.totalCommitted.trans_le hpot
  winnings := h.totalWinnings.trans_le hpot

theorem accepts_iff_addsUp (hpot : settlement.totalPot ≤ int64Max) :
    validHandSettlement settlement = true ↔ settlement.AddsUp := by
  constructor
  · intro h
    obtain ⟨hsound, hcommitted, hwinnings⟩ := validHandSettlement_accepts h hpot
    exact hsound.addsUp hcommitted hwinnings
  · intro h
    exact (validHandSettlement_iff (h.sound hpot)).mpr ⟨h.totalCommitted, h.totalWinnings⟩

/-- **The settlement check is exact**: on every record of 64-bit amounts it returns, without an
operation that overflows, whether the settlement adds up. -/
theorem settlement_check_exact (h : settlement.InRange) :
    ∃ accepted, validHandSettlement64 settlement = some accepted ∧
      (accepted = true ↔ settlement.AddsUp) :=
  ⟨_, validHandSettlement64_eq h, accepts_iff_addsUp (Int.le_sub_one_of_lt h.totalPot.2)⟩

/-- All the chips there can be are committed by one player and won by another. -/
theorem settlement_check_exact_limit :
    ∃ settlement : HandSettlementRecord, settlement.totalPot = 2 ^ 63 - 1 ∧
      validHandSettlement64 settlement = some true ∧ settlement.AddsUp := by
  let settlement : HandSettlementRecord :=
    { handId := 1, tableId := 1, handNumber := 1, board := [⟨2, 0⟩], totalPot := 2 ^ 63 - 1,
      players :=
        [{ userId := 1, seat := 0, startStack := 2 ^ 63 - 1, committed := 2 ^ 63 - 1,
           winnings := 0, endStack := 0, holeCards := [⟨14, 0⟩, ⟨14, 1⟩] },
         { userId := 2, seat := 1, startStack := 0, committed := 0, winnings := 2 ^ 63 - 1,
           endStack := 2 ^ 63 - 1, holeCards := [⟨13, 2⟩, ⟨13, 3⟩] }] }
  have hrange : settlement.InRange := by
    refine ⟨by decide, fun player hp => ?_⟩
    simp only [settlement, List.mem_cons, List.not_mem_nil, or_false] at hp
    rcases hp with rfl | rfl <;> exact ⟨by decide, by decide, by decide, by decide⟩
  obtain ⟨accepted, hcheck, haccepted⟩ := settlement_check_exact hrange
  have haccepts : validHandSettlement64 settlement = some true := by decide
  obtain rfl : accepted = true := Option.some.inj (hcheck.symm.trans haccepts)
  exact ⟨settlement, rfl, hcheck, haccepted.mp rfl⟩

end PokerServer
