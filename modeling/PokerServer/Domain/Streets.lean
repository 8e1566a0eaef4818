import PokerServer.Domain.Betting

/-!
# Dealing streets and running out the board

What `advanceUntilActionOrSettlement` and the two settlements do to a table that is being bet.

* `Reveals k t t'`: a card is burnt and `k` cards go from the deck to the board.
* `PaidFrom awards t t'`: `t'` holds what `t` holds, plus what `awards` pay, apart from the fields
  that matter within one street only. With no awards nobody's chips moved.
* `Showdown t t'` / `FoldWin t t'`: `t'` is `t` settled, with what its awards add up to.
* `advanceLoop_spec`: the loop ends with a player who is asked, or in a showdown.
-/

namespace PokerServer

namespace Player

/-- The player with the fields that matter within one street only left out. -/
def strip (p : Player) : Player := { p with streetCommitment := 0, ready := false }

/-- `q` is `p` with what `awards` pay in its stack, street by street fields apart. -/
structure PaidBy (awards : List PotAward) (p q : Player) : Prop where
  id : q.id = p.id
  seat : q.seat = p.seat
  stack : q.stack = p.stack + wonBy awards p.id
  hand : q.handCommitment = p.handCommitment
  status : q.status = p.status
  hole : q.hole = p.hole
  hasHole : q.hasHole = p.hasHole

theorem paidBy_of_strip {awards : List PotAward} {p q : Player}
    (h : q.strip = (p.gain (wonBy awards)).strip) : p.PaidBy awards q := by
  simp only [strip, gain, Player.mk.injEq] at h
  obtain ⟨hid, hseat, hstack, -, hhand, hstatus, -, -, hhole, hhas⟩ := h
  exact ⟨hid, hseat, hstack, hhand, hstatus, hhole, hhas⟩

theorem PaidBy.contends {awards : List PotAward} {p q : Player} (h : p.PaidBy awards q) :
    q.contends = p.contends := by
  unfold Player.contends
  rw [h.status]

end Player

namespace Table

variable {t t' u w : Table} {i j : Nat} {p q : Player} {awards : List PotAward}

/-! ## Revealing cards -/

/-- A card is burnt and `k` cards go from the deck to the board. -/
def Reveals (k : Nat) (t t' : Table) : Prop :=
  ∃ deck deck' burnt cards, t.deck = some deck ∧ deck.rest = burnt :: (cards ++ deck'.rest) ∧
    cards.length = k ∧ t' = { t with board := t.board ++ cards, deck := some deck' }

theorem theDeck_ok {deck : Deck} (h : t.theDeck = .ok deck) : t.deck = some deck := by
  unfold theDeck at h
  split at h
  · exact absurd h (by simp)
  · rename_i d hd
    rw [Except.ok.injEq] at h
    rw [hd, h]

theorem revealFlop_ok (h : t.revealFlop = .ok t') : Reveals 3 t t' := by
  unfold revealFlop at h
  simp only [Checked.bind_ok_iff, Checked.pure_ok_iff, Prod.exists] at h
  obtain ⟨d0, hd0, d1, hd1, c1, d2, hd2, c2, d3, hd3, c3, d4, hd4, rfl⟩ := h
  obtain ⟨burnt, hburn, -⟩ := Deck.burn_ok hd1
  refine ⟨d0, d4, burnt, [c1, c2, c3], theDeck_ok hd0, ?_, rfl, rfl⟩
  rw [hburn, (Deck.draw_ok hd2).1, (Deck.draw_ok hd3).1, (Deck.draw_ok hd4).1]
  rfl

theorem revealOne_ok (h : t.revealOne = .ok t') : Reveals 1 t t' := by
  unfold revealOne at h
  simp only [Checked.bind_ok_iff, Checked.pure_ok_iff, Prod.exists] at h
  obtain ⟨d0, hd0, d1, hd1, c1, d2, hd2, rfl⟩ := h
  obtain ⟨burnt, hburn, -⟩ := Deck.burn_ok hd1
  refine ⟨d0, d2, burnt, [c1], theDeck_ok hd0, ?_, rfl, rfl⟩
  rw [hburn, (Deck.draw_ok hd2).1]
  rfl

/-- The streets `advanceStreet` moves between, and the cards the new one shows. -/
inductive Follows : Street → Nat → Street → Prop
  | flop : Follows .preflop 3 .flop
  | turn : Follows .flop 1 .turn
  | river : Follows .turn 1 .river

theorem advanceStreet_ok (h : t.advanceStreet = .ok t') :
    ∃ k s u, Follows t.street k s ∧ Reveals k { t.clearStreet with street := s } u ∧
      t' = u.askEveryone := by
  unfold advanceStreet at h
  simp only [show t.clearStreet.street = t.street from rfl] at h
  cases hs : t.street <;> rw [hs] at h <;>
    simp only [Checked.bind_ok_iff, Checked.pure_ok_iff] at h <;> obtain ⟨u, hu, rfl⟩ := h
  case preflop => exact ⟨_, _, u, Follows.flop, revealFlop_ok hu, rfl⟩
  case flop => exact ⟨_, _, u, Follows.turn, revealOne_ok hu, rfl⟩
  case turn => exact ⟨_, _, u, Follows.river, revealOne_ok hu, rfl⟩
  all_goals exact absurd hu (by simp)

/-- Completing the board changes the board and the deck only. -/
theorem completeBoard_ok : ∀ {fuel : Nat} {t t' : Table}, completeBoard fuel t = .ok t' →
    ∃ board deck, t' = { t with board := board, deck := deck }
  | 0, t, t', h => by
    rw [completeBoard, Except.ok.injEq] at h
    exact ⟨t.board, t.deck, h.symm⟩
  | fuel + 1, t, t', h => by
    rw [completeBoard] at h
    split_ifs at h with hlen hnil
    · rw [Checked.bind_ok_iff] at h
      obtain ⟨u, hu, h⟩ := h
      obtain ⟨_, _, _, _, -, -, -, rfl⟩ := revealFlop_ok hu
      obtain ⟨board, deck, rfl⟩ := completeBoard_ok h
      exact ⟨board, deck, rfl⟩
    · rw [Checked.bind_ok_iff] at h
      obtain ⟨u, hu, h⟩ := h
      obtain ⟨_, _, _, _, -, -, -, rfl⟩ := revealOne_ok hu
      obtain ⟨board, deck, rfl⟩ := completeBoard_ok h
      exact ⟨board, deck, rfl⟩
    · rw [Except.ok.injEq] at h
      exact ⟨t.board, t.deck, h.symm⟩

/-! ## Tables that hold the same chips -/

/-- `t'` holds what `t` holds plus what `awards` pay, street by street fields apart. -/
structure PaidFrom (awards : List PotAward) (t t' : Table) : Prop where
  config : t'.config = t.config
  length : t'.seats.length = t.seats.length
  dealer : t'.dealerSeat = t.dealerSeat
  handId : t'.handId = t.handId
  sequence : t.serverSequence ≤ t'.serverSequence
  seat : ∀ i, (t'.seatAt i).map Player.strip =
    (t.seatAt i).map fun p => (p.gain (wonBy awards)).strip

theorem gain_nil (p : Player) : p.gain (wonBy []) = p := by
  simp [Player.gain]

theorem PaidFrom.refl (t : Table) : PaidFrom [] t t :=
  ⟨rfl, rfl, rfl, rfl, le_refl _, fun i => by simp only [gain_nil]⟩

namespace PaidFrom

variable (h : PaidFrom awards t t')

include h

/-- The player at a seat of `t'`, seen from `t`. -/
theorem seat_some (hp : t.seatAt i = some p) :
    ∃ q, t'.seatAt i = some q ∧ p.PaidBy awards q := by
  have hs := h.seat i
  rw [hp, Option.map_some, Option.map_eq_some_iff] at hs
  obtain ⟨q, hq, heq⟩ := hs
  exact ⟨q, hq, Player.paidBy_of_strip heq⟩

/-- The player at a seat of `t`, seen from `t'`. -/
theorem seat_back (hq : t'.seatAt i = some q) :
    ∃ p, t.seatAt i = some p ∧ p.PaidBy awards q := by
  have hs := (h.seat i).symm
  rw [hq, Option.map_some, Option.map_eq_some_iff] at hs
  obtain ⟨p, hp, heq⟩ := hs
  exact ⟨p, hp, Player.paidBy_of_strip heq.symm⟩

theorem sameSeating : SameSeating t t' where
  config := h.config
  length := h.length
  keys := fun i => by
    have hs := congrArg (Option.map Player.key) (h.seat i)
    rw [Option.map_map, Option.map_map] at hs
    exact hs

/-- A sum over what `strip` keeps, read off the table before. -/
theorem sum_eq {f : Player → Int} (hf : ∀ p : Player, f p.strip = f p) :
    (t'.players.map f).sum = (t.players.map fun p => f (p.gain (wonBy awards))).sum := by
  rw [sum_players, sum_players]
  refine congrArg List.sum (map_seats_congr h.length fun i => ?_)
  have hs := congrArg (Option.map f) (h.seat i)
  rw [Option.map_map, Option.map_map] at hs
  have hstrip : (fun p : Player => f (p.gain (wonBy awards))) =
      f ∘ fun p => (p.gain (wonBy awards)).strip := funext fun p => (hf _).symm
  rw [show f ∘ Player.strip = f from funext hf] at hs
  unfold amountAt
  rw [hstrip, ← hs]

end PaidFrom

theorem PaidFrom.trans (h : PaidFrom [] t u) (h' : PaidFrom awards u t') :
    PaidFrom awards t t' where
  config := h'.config.trans h.config
  length := h'.length.trans h.length
  dealer := h'.dealer.trans h.dealer
  handId := h'.handId.trans h.handId
  sequence := h.sequence.trans h'.sequence
  seat := fun i => by
    have hs := congrArg (Option.map (Player.gain (wonBy awards))) (h.seat i)
    rw [Option.map_map, Option.map_map] at hs
    rw [h'.seat i]
    calc (u.seatAt i).map (fun p => (p.gain (wonBy awards)).strip)
        = (u.seatAt i).map (Player.gain (wonBy awards) ∘ Player.strip) := rfl
      _ = (t.seatAt i).map fun p => (p.gain (wonBy awards)).strip := by
        rw [hs]
        simp only [gain_nil]
        rfl

/-- Counts over what `strip` keeps agree when no chip moved. -/
theorem PaidFrom.countP_eq (h : PaidFrom [] t t') {c : Player → Bool}
    (hc : ∀ p : Player, c p.strip = c p) : t'.players.countP c = t.players.countP c := by
  have hsum := h.sum_eq (f := fun p => if c p then 1 else 0) fun p => by rw [hc]
  simp only [gain_nil] at hsum
  rw [sum_countP, sum_countP] at hsum
  exact_mod_cast hsum

theorem PaidFrom.contenders_eq (h : PaidFrom [] t t') : t'.contenders = t.contenders :=
  h.countP_eq fun _ => rfl

theorem PaidFrom.actionable_eq (h : PaidFrom [] t t') : t'.actionable = t.actionable :=
  h.countP_eq fun _ => rfl

theorem PaidFrom.covered (h : PaidFrom awards t t') (hc : t.Covered) : t'.Covered := by
  obtain ⟨i, p, hp, hc, hmax⟩ := hc
  obtain ⟨q, hq, hpq⟩ := h.seat_some hp
  refine ⟨i, q, hq, hpq.contends.trans hc, fun j s hs => ?_⟩
  obtain ⟨r, hr, hrs⟩ := h.seat_back hs
  rw [hrs.hand, hpq.hand]
  exact hmax j r hr

/-! ## The two settlements -/

/-- `t'` is `t` settled: each stack grew by what the awards pay it, the awards are paid in full to
the players, and only contenders are paid. -/
structure SettledFrom (t t' : Table) : Prop where
  paid : PaidFrom t'.lastAwards t t'
  street : t'.street = .settled
  sum_won : (t.players.map fun p => wonBy t'.lastAwards p.id).sum =
    (t'.lastAwards.map (·.potSize)).sum
  won_nonneg : ∀ id, 0 ≤ wonBy t'.lastAwards id
  won_contends : ∀ i p, t.seatAt i = some p → p.contends = false → wonBy t'.lastAwards p.id = 0

/-- Settled by a showdown: the pots add up to `∑ min c m` for the largest contending commitment
`m`, and nobody wins more than `∑ min c own`. -/
structure Showdown (t t' : Table) : Prop extends SettledFrom t t' where
  called : ∃ u, PaidFrom [] t u ∧ u.settleShowdown = .ok t'
  total : ∃ i p, t.seatAt i = some p ∧ p.contends = true ∧
    (∀ j q, t.seatAt j = some q → q.contends = true → q.handCommitment ≤ p.handCommitment) ∧
    (t'.lastAwards.map (·.potSize)).sum = (t.commitments.map fun c => min c p.handCommitment).sum
  cap : ∀ i p, t.seatAt i = some p →
    wonBy t'.lastAwards p.id ≤ (t.commitments.map fun c => min c p.handCommitment).sum

/-- Settled by folds: the last contender wins the pot. -/
structure FoldWin (t t' : Table) : Prop extends SettledFrom t t' where
  winner : ∃ i p, t.seatAt i = some p ∧ p.contends = true ∧
    ∀ id, wonBy t'.lastAwards id = if id = p.id then t.potSize else 0

theorem players_congr (h : t'.seats = t.seats) : t'.players = t.players := by
  unfold players
  rw [h]

/-- Marking a table settled after its stacks were paid. -/
theorem paidFrom_markSettled (t : Table) (awards : List PotAward) :
    PaidFrom awards t (markSettled { t.mapSeats (Player.gain (wonBy awards)) with
      lastAwards := awards }) where
  config := rfl
  length := by simp [markSettled, mapSeats]
  dealer := rfl
  handId := rfl
  sequence := Nat.le_succ _
  seat := fun i => by
    rw [show (markSettled { t.mapSeats (Player.gain (wonBy awards)) with
        lastAwards := awards }).seatAt i = ((t.mapSeats (Player.gain (wonBy awards))).mapSeats
          fun player => { player with ready := false }).seatAt i from rfl,
      seatAt_mapSeats, seatAt_mapSeats, Option.map_map, Option.map_map]
    rfl

theorem PaidFrom.commitments_eq (h : PaidFrom awards t u) : u.commitments = t.commitments := by
  unfold commitments players
  have hseats : u.seats.map (Option.map (·.handCommitment)) =
      t.seats.map (Option.map (·.handCommitment)) := by
    refine map_seats_congr h.length fun i => ?_
    have hs := congrArg (Option.map (·.handCommitment)) (h.seat i)
    rw [Option.map_map, Option.map_map] at hs
    exact hs
  have hflat : ∀ l : List (Option Player), (l.filterMap id).map (·.handCommitment) =
      (l.map (Option.map (·.handCommitment))).filterMap id := by
    intro l
    rw [List.map_filterMap, List.filterMap_map]
    rfl
  rw [hflat, hflat, hseats]

/-- A showdown settles the pots of the table with its whole board. -/
theorem settleShowdown_pots (hs : t.Seating)
    (hnn : ∀ i p, t.seatAt i = some p → 0 ≤ p.handCommitment) (hc : 0 < t.contenders)
    (h : t.settleShowdown = .ok t') :
    ∃ (w : Table) (awards : List PotAward),
      w = { t with street := .showdown, board := w.board, deck := w.deck } ∧ w.Seating ∧
      (∀ i p, w.seatAt i = some p → 0 ≤ p.handCommitment) ∧ 0 < w.contenders ∧
      w.buildAndAwardPots = .ok (w.mapSeats (Player.gain (wonBy awards)), awards) ∧
      t' = markSettled { w.mapSeats (Player.gain (wonBy awards)) with lastAwards := awards } := by
  unfold settleShowdown at h
  simp only [Checked.bind_ok_iff, Checked.pure_ok_iff, Prod.exists] at h
  obtain ⟨w, hw, v, awards, hpots, rfl⟩ := h
  obtain ⟨board, deck, hframe⟩ := completeBoard_ok hw
  have hseats : w.seats = t.seats := by rw [hframe]
  have hws : w.Seating := hs.of_same (.of_seats (by rw [hframe]) hseats)
  have hwnn : ∀ i p, w.seatAt i = some p → 0 ≤ p.handCommitment := by
    simpa only [seatAt_congr hseats] using hnn
  have hwc : 0 < w.contenders := by
    unfold contenders
    rw [players_congr hseats]
    exact hc
  obtain ⟨k, m, hm, hmc, hmax⟩ := exists_top_contender hwc
  obtain ⟨rfl, -⟩ := buildAndAwardPots_spec hws hwnn ⟨k, m, hm, hmc, rfl⟩ hmax hpots
  exact ⟨w, awards, by rw [hframe], hws, hwnn, hwc, hpots, rfl⟩

/-- **A showdown pays by layers.** -/
theorem settleShowdown_spec (hs : t.Seating)
    (hnn : ∀ i p, t.seatAt i = some p → 0 ≤ p.handCommitment) (hc : 0 < t.contenders)
    (h : t.settleShowdown = .ok t') : Showdown t t' := by
  have hcalled := h
  obtain ⟨w, awards, hframe, hws, hwnn, -, hpots, rfl⟩ := settleShowdown_pots hs hnn hc h
  have hseats : w.seats = t.seats := by rw [hframe]
  have hat := seatAt_congr hseats
  have hplayers := players_congr hseats
  have hsame : PaidFrom [] t w :=
    ⟨by rw [hframe], by rw [hseats], by rw [hframe], by rw [hframe], by rw [hframe],
      fun i => by simp only [hat i, gain_nil]⟩
  have hcommit : w.commitments = t.commitments := by unfold commitments; rw [hplayers]
  obtain ⟨k, m, hm, hmc, hmax⟩ := exists_top_contender hc
  obtain ⟨-, hpaid, htotal, hsound, hcap⟩ := buildAndAwardPots_spec hws hwnn
    ⟨k, m, by rw [hat]; exact hm, hmc, rfl⟩ (by simpa only [hat] using hmax) hpots
  simp only [hat, hcommit] at hpaid htotal hcap
  refine
    { paid := hsame.trans (paidFrom_markSettled w awards), street := rfl,
      sum_won := by have := hpaid.sum_won; rw [hplayers] at this; exact this,
      won_nonneg := hpaid.nonneg, won_contends := ?_, called := ⟨t, PaidFrom.refl t, hcalled⟩,
      total := ⟨k, m, hm, hmc, hmax, htotal⟩,
      cap := hcap }
  intro i p hp hpc
  refine List.sum_eq_zero fun x hx => ?_
  obtain ⟨award, ha, rfl⟩ := List.mem_map.mp hx
  refine paidTo_eq_zero fun hwin => ?_
  obtain ⟨level, hl⟩ := hsound award ha
  obtain ⟨q, hq, hid⟩ := hl.winners_eligible p.id hwin
  obtain ⟨⟨j, hj⟩, -, hstatus⟩ := mem_eligible hq
  rw [hat] at hj
  have hij := hs.unique hj hp hid
  subst hij
  have hqp : q = p := Option.some.inj (hj.symm.trans hp)
  rw [← hqp, contends_iff.mpr hstatus] at hpc
  exact absurd hpc (by decide)

/-- **A fold-out pays the whole pot to the last contender.** -/
theorem settleFoldWin_foldWin (hs : t.Seating)
    (hnn : ∀ i p, t.seatAt i = some p → 0 ≤ p.handCommitment)
    (h : t.settleFoldWin = .ok t') : FoldWin t t' := by
  obtain ⟨i, winner, hi, hc, heq, hawards⟩ := settleFoldWin_spec hs h
  have hwon : ∀ id, wonBy t'.lastAwards id = if id = winner.id then t.potSize else 0 := by
    intro id
    rw [hawards]
    simp [wonBy, PotAward.paidTo, PotAward.share, eq_comm]
  have hpot : 0 ≤ t.potSize := by
    refine List.sum_nonneg fun x hx => ?_
    obtain ⟨p, hp, rfl⟩ := List.mem_map.mp hx
    obtain ⟨j, hj⟩ := mem_players.mp hp
    exact hnn j p hj
  refine
    { paid := ?_, street := by rw [heq]; rfl, sum_won := ?_, won_nonneg := ?_, won_contends := ?_,
      winner := ⟨i, winner, hi, hc, hwon⟩ }
  · have := paidFrom_markSettled t t'.lastAwards
    rw [← heq] at this
    exact this
  · simp only [hwon]
    rw [hawards]
    have := hs.sum_single hi t.potSize
    simp only [eq_comm (a := winner.id)] at this
    simpa using this
  · intro id
    rw [hwon]
    split_ifs
    · exact hpot
    · exact le_refl _
  · intro j p hp hpc
    rw [hwon, if_neg]
    intro hid
    have hij := hs.unique hp hi hid
    subst hij
    rw [hp] at hi
    rw [Option.some.inj hi, hc] at hpc
    exact absurd hpc (by decide)

/-- A showdown seen from a table that holds the same chips. -/
theorem Showdown.of_paidFrom (hshow : Showdown u t') (h : PaidFrom [] t u) : Showdown t t' where
  called := by
    obtain ⟨v, hv, hcall⟩ := hshow.called
    exact ⟨v, h.trans hv, hcall⟩
  paid := h.trans hshow.paid
  street := hshow.street
  sum_won := by
    have hsum := h.sum_eq (f := fun p => wonBy t'.lastAwards p.id) fun _ => rfl
    simp only [gain_nil] at hsum
    rw [← hsum]
    exact hshow.sum_won
  won_nonneg := hshow.won_nonneg
  won_contends := fun i p hp hc => by
    obtain ⟨q, hq, hpq⟩ := h.seat_some hp
    rw [← hpq.id]
    exact hshow.won_contends i q hq (by rw [hpq.contends, hc])
  total := by
    obtain ⟨i, q, hq, hc, hmax, hsum⟩ := hshow.total
    obtain ⟨p, hp, hpq⟩ := h.seat_back hq
    refine ⟨i, p, hp, by rw [← hpq.contends]; exact hc, fun j r hr hrc => ?_, ?_⟩
    · obtain ⟨s, hs, hrs⟩ := h.seat_some hr
      rw [← hrs.hand, ← hpq.hand]
      exact hmax j s hs (by rw [hrs.contends]; exact hrc)
    · rw [hsum, h.commitments_eq, hpq.hand]
  cap := fun i p hp => by
    obtain ⟨q, hq, hpq⟩ := h.seat_some hp
    have := hshow.cap i q hq
    rw [h.commitments_eq, hpq.hand, hpq.id] at this
    exact this

/-! ## The loop -/

theorem betting_of_follows {k : Nat} {s s' : Street} (h : Follows s k s') : s'.betting = true := by
  cases h <;> rfl

/-- What a street starts with: nothing committed, and everybody who can act is asked. -/
structure Opened (t t' : Table) : Prop extends PaidFrom [] t t' where
  betting : t'.Betting
  bet : t'.currentBet = 0
  street_zero : ∀ i p, t'.seatAt i = some p → p.streetCommitment = 0
  raise : t'.minimumRaise = t'.config.bigBlind
  pending : t'.pendingAction = t'.canActIds

theorem advanceStreet_spec (hb : t.Betting) (h : t.advanceStreet = .ok t') : Opened t t' := by
  obtain ⟨k, s, u, hfollows, ⟨deck, deck', burnt, cards, -, -, -, rfl⟩, rfl⟩ := advanceStreet_ok h
  have hat : ∀ i, (askEveryone { t.clearStreet with
      street := s, board := t.board ++ cards, deck := some deck' }).seatAt i =
      (t.seatAt i).map fun p => { p with streetCommitment := 0 } := fun i =>
    seatAt_mapSeats t (fun p => { p with streetCommitment := 0 }) i
  have hpaid : PaidFrom [] t (askEveryone { t.clearStreet with
      street := s, board := t.board ++ cards, deck := some deck' }) := by
    refine ⟨rfl, length_mapSeats t _, rfl, rfl, le_refl _, fun i => ?_⟩
    rw [hat, Option.map_map]
    simp only [gain_nil]
    rfl
  have hzero : ∀ i p, (askEveryone { t.clearStreet with
      street := s, board := t.board ++ cards, deck := some deck' }).seatAt i = some p →
      ∃ q, t.seatAt i = some q ∧ p = { q with streetCommitment := 0 } := by
    intro i p hp
    rw [hat, Option.map_eq_some_iff] at hp
    obtain ⟨q, hq, rfl⟩ := hp
    exact ⟨q, hq, rfl⟩
  refine { toPaidFrom := hpaid, betting := ?_, bet := rfl, street_zero := ?_, raise := rfl,
           pending := rfl }
  · refine hb.update hpaid.sameSeating (betting_of_follows hfollows) rfl ?_ ?_
    · intro i p hp
      obtain ⟨q, hq, rfl⟩ := hzero i p hp
      have hq' := hb.sound i q hq
      exact ⟨le_refl _, hq'.hand_nonneg, le_refl _, hq'.waiting_hand, hq'.solvent, hq'.active_pos,
        hq'.present⟩
    · intro i p q hp hq hw
      obtain ⟨p', hp', rfl⟩ := hzero i q hq
      rw [hp] at hp'
      exact Option.some.inj hp' ▸ hw
  · intro i p hp
    obtain ⟨q, -, rfl⟩ := hzero i p hp
    rfl

/-- Changing who is asked changes nobody's chips. -/
theorem PaidFrom.ask (h : PaidFrom awards t t') (pending : Finset PlayerId) (acting : Option Nat) :
    PaidFrom awards t { t' with pendingAction := pending, actingSeat := acting } :=
  ⟨h.config, h.length, h.dealer, h.handId, h.sequence, h.seat⟩

theorem Betting.ask (h : t.Betting) (pending : Finset PlayerId) (acting : Option Nat) :
    Betting { t with pendingAction := pending, actingSeat := acting } :=
  ⟨h.seating.of_same (SameSeating.of_seats rfl rfl), h.street, h.sound, h.button⟩

/-- A street on which nobody is asked is over. -/
theorem Opened.complete (h : Opened t t') (acting : Option Nat) :
    bettingRoundComplete { t' with pendingAction := ∅, actingSeat := acting } = true := by
  unfold bettingRoundComplete
  rw [Bool.or_eq_true, List.all_eq_true]
  right
  intro p hp
  obtain ⟨i, hi⟩ := mem_players.mp hp
  have hz := h.street_zero i p hi
  simp [hz, h.bet]

/-- A street on which somebody can act waits for the first of them. -/
theorem Opened.awaiting (h : Opened t t') (hc : 2 ≤ t.contenders) (ha : 0 < t'.actionable) :
    Awaiting { t' with actingSeat := t'.firstPostflopActor } := by
  obtain ⟨d, p, hd, -⟩ := h.betting.button
  obtain ⟨i, q, hq, hact⟩ := countP_pos_iff.mp ha
  have hasked : t'.awaits i = true := by
    refine awaits_iff.mpr ⟨q, hq, hact, ?_⟩
    rw [h.pending]
    exact mem_canActIds.mpr ⟨i, q, hq, hact, rfl⟩
  obtain ⟨k, hk, hkw⟩ := nextCanActSeat_isSome ⟨i, hasked⟩ d
  refine { toBetting := h.betting.ask _ _, matched := ?_, asking := ⟨k, ?_, hkw⟩, contested := ?_ }
  · intro j r hr hract hid
    refine absurd ?_ hid
    change r.id ∈ t'.pendingAction
    rw [h.pending]
    exact mem_canActIds.mpr ⟨j, r, hr, hract, rfl⟩
  · simp only [firstPostflopActor, hd, Option.bind_some, hk]
  · have := h.toPaidFrom.contenders_eq
    change 2 ≤ t'.contenders
    omega

/-- What the loop of `advanceUntilActionOrSettlement` does, round by round. -/
inductive Advances : Table → Table → Prop
  | folds {t t' : Table} (few : t.contenders ≤ 1) (settled : t.settleFoldWin = .ok t') :
      Advances t t'
  | waits {t : Table} (many : ¬t.contenders ≤ 1) (asked : t.bettingRoundComplete = false) :
      Advances t { t with actingSeat := t.awaitActor.actingSeat }
  | shows {t t' : Table} (many : ¬t.contenders ≤ 1) (river : t.street = .river)
      (settled : t.settleShowdown = .ok t') : Advances t t'
  | asks {t u : Table} (done : t.bettingRoundComplete = true) (next : t.advanceStreet = .ok u)
      (many : ¬u.actionable ≤ 1) : Advances t { u with actingSeat := u.firstPostflopActor }
  | runsOut {t u t' : Table} (done : t.bettingRoundComplete = true) (next : t.advanceStreet = .ok u)
      (few : u.actionable ≤ 1)
      (rest : Advances { u with pendingAction := ∅, actingSeat := none } t') : Advances t t'

theorem awaitActor_frame (t : Table) :
    t.awaitActor = { t with actingSeat := t.awaitActor.actingSeat } := by
  unfold awaitActor
  split_ifs <;> rfl

theorem advances_of_loop {fuel : Nat} (h : advanceLoop fuel t = .ok t') : Advances t t' := by
  induction fuel generalizing t with
  | zero =>
    rw [advanceLoop] at h
    exact absurd h (by simp)
  | succ fuel ih =>
    rw [advanceLoop] at h
    split_ifs at h with hfew hopen hriver
    · exact .folds hfew h
    · rw [Except.ok.injEq, awaitActor_frame] at h
      rw [← h]
      exact .waits hfew (by simpa using hopen)
    · exact .shows hfew hriver h
    · have hdone : t.bettingRoundComplete = true := by simpa using hopen
      rw [Checked.bind_ok_iff] at h
      obtain ⟨u, hu, h⟩ := h
      split_ifs at h with hone
      · exact .runsOut hdone hu hone (ih h)
      · rw [Checked.pure_ok_iff] at h
        rw [← h]
        exact .asks hdone hu hone

/-- **The loop of `advanceUntilActionOrSettlement`**, from a finished round with two contenders:
it ends with a player who is asked, if two can act, or in a showdown. -/
theorem advanceLoop_spec {fuel : Nat} (hb : t.Betting) (hc : 2 ≤ t.contenders)
    (hdone : t.bettingRoundComplete = true) (h : advanceLoop fuel t = .ok t') :
    (Awaiting t' ∧ PaidFrom [] t t' ∧ 2 ≤ t.actionable) ∨ Showdown t t' := by
  replace h := advances_of_loop h
  induction h with
  | folds hfew => omega
  | waits _ hasked => exact absurd (hdone.symm.trans hasked) (by simp)
  | shows _ _ hsettled =>
    exact Or.inr (settleShowdown_spec hb.seating (fun i p hp => (hb.sound i p hp).hand_nonneg)
      (by omega) hsettled)
  | asks _ hnext hmany =>
    have hopen := advanceStreet_spec hb hnext
    have hact := hopen.toPaidFrom.actionable_eq
    exact Or.inl ⟨hopen.awaiting hc (by omega), hopen.toPaidFrom.ask _ _, by omega⟩
  | runsOut _ hnext _ _ ih =>
    -- nobody to bet against: the next street is dealt at once
    have hopen := advanceStreet_spec hb hnext
    have hpaid := hopen.toPaidFrom.ask ∅ none
    rcases ih (hopen.betting.ask ∅ none) (by rw [hpaid.contenders_eq]; exact hc)
        (hopen.complete none) with ⟨haw, hrest, htwo⟩ | hshow
    · exact Or.inl ⟨haw, hpaid.trans hrest, by rw [← hpaid.actionable_eq]; exact htwo⟩
    · exact Or.inr (hshow.of_paidFrom hpaid)

end Table

end PokerServer
