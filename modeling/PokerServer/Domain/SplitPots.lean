import PokerServer.Domain.BestHand
import PokerServer.Domain.History

/-!
# How a pot is split

Every award of a showdown, read off the settled table.

* `SplitsPot t below level award`: the pot of the layer between two neighbouring levels goes to the
  eligible players with the greatest hand, in equal shares and odd chips that make up the pot, and
  the winners stand in the order of their seats from the dealer's left.
* `ShowsDown step w`: the step settles its hand by a showdown of `w`.
* `pots_split`: so it is for every showdown of a run, and the stacks grow by the shares.
-/

namespace PokerServer.Table

variable {t t' u w : Table} {i : Nat} {p q : Player} {e : TableError} {previous below level : Int}
  {levels : List Int} {award : PotAward} {awards awards' : List PotAward}

/-- **What an award does with its pot**, the layer between `below` and `level`. -/
structure SplitsPot (t : Table) (below level : Int) (award : PotAward) : Prop where
  size : award.potSize = (level - below) * ((t.contributors level).length : Int)
  /-- Everybody who competes for the pot has a hand. -/
  shown : ∀ p ∈ t.eligible level, ∃ value, p.handOn t.board = .ok value
  winners_ne : award.winners ≠ []
  nodup : award.winners.Nodup
  /-- The winners are the eligible players with the greatest hand. -/
  winners : ∃ best,
    IsGreatest { value | ∃ p ∈ t.eligible level, p.handOn t.board = .ok value } best ∧
    ∀ id, id ∈ award.winners ↔ ∃ p ∈ t.eligible level, p.id = id ∧ p.handOn t.board = .ok best
  exact : award.equalShare * (award.winners.length : Int) + award.oddChips = award.potSize
  odd : 0 ≤ award.oddChips ∧ award.oddChips < award.winners.length
  /-- Their seats come in this order from the dealer's left; the dealer's seat comes last. -/
  clockwise : ∃ (dealer : Nat) (seats : List Nat), t.dealerSeat = some dealer ∧
    seats.Sublist (Clockwise.clockwise t.seats.length dealer) ∧
    seats.map (fun i => (t.seatAt i).map (·.id)) = award.winners.map some

/-- **What a showdown of `w` that leaves `t` does.** -/
structure SplitsPots (w t : Table) : Prop where
  awards : ∀ award ∈ t.lastAwards, ∃ below level,
    (below, level) ∈ (0 :: t.levels).zip t.levels ∧ t.SplitsPot below level award
  gains : ∀ i p, w.seatAt i = some p → ∃ q, t.seatAt i = some q ∧ q.id = p.id ∧
    q.stack = p.stack + wonBy t.lastAwards p.id

/-- The step settles its hand by a showdown of `w`, where the players have in the stack and in the
pot together what they had before it. -/
structure ShowsDown (step : Entry) (w : Table) : Prop where
  call : w.settleShowdown = .ok step.after
  chips : ∀ i p, step.before.seatAt i = some p → ∃ q, w.seatAt i = some q ∧ q.id = p.id ∧
    q.stack + q.handCommitment =
      p.stack + if step.label.1.begins then 0 else p.handCommitment

/-! ## The order of the winners -/

/-- The ids stand in the order of their distances from the dealer. -/
def Ordered (t : Table) (ids : List PlayerId) : Prop :=
  ids.Pairwise fun a b => t.clockwiseDistance a ≤ t.clockwiseDistance b

theorem clockwiseDistance_eq {d : Nat} (hd : t.dealerSeat = some d) (id : PlayerId) :
    t.clockwiseDistance id = Clockwise.distance t.seats.length d ((t.seatOf id).getD 0) := by
  unfold clockwiseDistance
  rw [hd]
  rfl

theorem orderedClockwise_ordered {ids winners : List PlayerId}
    (h : t.orderedClockwise ids = .ok winners) : t.Ordered winners := by
  unfold orderedClockwise at h
  split_ifs at h
  rw [Except.ok.injEq] at h
  rw [← h]
  exact List.pairwise_insertionSort _ _

/-- **Winners in order sit in order**, the dealer last. -/
theorem Ordered.seats {d : Nat} {ids : List PlayerId} (h : t.Ordered ids)
    (hd : t.dealerSeat = some d) (hlt : d < t.seats.length) (hnodup : ids.Nodup)
    (hseated : ∀ id ∈ ids, ∃ i p, t.seatAt i = some p ∧ p.id = id) :
    ∃ seats : List Nat, seats.Sublist (Clockwise.clockwise t.seats.length d) ∧
      seats.map (fun i => (t.seatAt i).map (·.id)) = ids.map some := by
  have hfound : ∀ id ∈ ids, ∃ p, t.seatAt ((t.seatOf id).getD 0) = some p ∧ p.id = id := by
    intro id hid
    obtain ⟨i, p, hp, rfl⟩ := hseated id hid
    obtain ⟨j, hj⟩ := seatOf_isSome hp
    obtain ⟨q, hq, hsame⟩ := seatOf_some hj
    exact ⟨q, by rw [hj, Option.getD_some, hq], hsame⟩
  refine ⟨ids.map fun id => (t.seatOf id).getD 0, Clockwise.sublist_clockwise hlt ?_ ?_ ?_, ?_⟩
  · intro j hj
    obtain ⟨id, hid, rfl⟩ := List.mem_map.mp hj
    obtain ⟨p, hp, -⟩ := hfound id hid
    exact seatAt_lt hp
  · refine hnodup.map_on fun a ha b hb hab => ?_
    obtain ⟨p, hp, rfl⟩ := hfound a ha
    obtain ⟨q, hq, rfl⟩ := hfound b hb
    rw [hab, hq, Option.some.injEq] at hp
    rw [hp]
  · rw [List.pairwise_map]
    simp only [← clockwiseDistance_eq hd]
    exact h
  · rw [List.map_map]
    refine List.map_congr_left fun id hid => ?_
    obtain ⟨p, hp, hsame⟩ := hfound id hid
    rw [Function.comp_apply, hp, Option.map_some, hsame]

theorem ordered_gain {extra : PlayerId → Int} {ids : List PlayerId} :
    (t.mapSeats (Player.gain extra)).Ordered ids ↔ t.Ordered ids := by
  have hsame : (t.mapSeats (Player.gain extra)).clockwiseDistance = t.clockwiseDistance := by
    funext id
    have hseat : (t.mapSeats (Player.gain extra)).seatOf id = t.seatOf id := by
      unfold seatOf mapSeats
      rw [List.findIdx?_map]
      congr 1
      funext seat
      cases seat <;> rfl
    unfold clockwiseDistance
    rw [hseat, length_mapSeats]
    rfl
  unfold Ordered
  rw [hsame]

theorem awardLayer_ordered (h : t.awardLayer awards previous level = .ok (t', awards')) :
    awards' = awards ∨ ∃ award, t.Ordered award.winners ∧ awards' = awards ++ [award] := by
  unfold awardLayer at h
  dsimp only at h
  split_ifs at h
  · rw [Except.ok.injEq, Prod.mk.injEq] at h
    exact .inl h.2.symm
  · simp only [Checked.bind_ok_iff, Checked.pure_ok_iff, Prod.mk.injEq] at h
    obtain ⟨_, -, winners, hwinners, _, -, -, rfl⟩ := h
    exact .inr ⟨_, orderedClockwise_ordered hwinners, rfl⟩

theorem awardLayers_ordered : ∀ {levels : List Int} {t t' : Table} {awards awards' : List PotAward}
    {previous : Int}, t.Seating → awardLayers t awards previous levels = .ok (t', awards') →
    (∀ award ∈ awards, t.Ordered award.winners) → ∀ award ∈ awards', t.Ordered award.winners
  | [], t, t', awards, awards', previous, _, h, hold => by
    rw [awardLayers, Except.ok.injEq, Prod.mk.injEq] at h
    exact h.2 ▸ hold
  | level :: levels, t, t', awards, awards', previous, hs, h, hold => by
    rw [awardLayers, Checked.bind_ok_iff] at h
    obtain ⟨⟨u, mid⟩, hlayer, h⟩ := h
    have hmid : ∀ award ∈ mid, t.Ordered award.winners := by
      rcases awardLayer_ordered hlayer with rfl | ⟨award, hnew, rfl⟩
      · exact hold
      · intro other hother
        rcases List.mem_append.mp hother with hmem | hmem
        · exact hold other hmem
        · exact List.mem_singleton.mp hmem ▸ hnew
    rcases awardLayer_spec hs hlayer with ⟨-, rfl, -⟩ | ⟨award, -, -, -, -, -, rfl⟩
    · exact awardLayers_ordered hs h hmid
    · have hsame : SameSeating t (t.mapSeats (Player.gain award.paidTo)) :=
        sameSeating_mapSeats fun _ => rfl
      have hrest := awardLayers_ordered (hs.of_same hsame) h
        fun other hother => ordered_gain.mpr (hmid other hother)
      exact fun other hother => ordered_gain.mp (hrest other hother)

/-! ## One award -/

/-- Each award pays the layer between two neighbouring levels. -/
theorem Awards.layer (h : Awards t previous levels awards) (hmem : award ∈ awards) :
    ∃ below level, (below, level) ∈ (previous :: levels).zip levels ∧
      award.potSize = Layers.layer below level t.commitments ∧ t.AwardSound level award ∧
      t.Strongest level award.winners := by
  induction h with
  | nil => exact absurd hmem (by simp)
  | skip _ _ ih =>
    obtain ⟨below, level, hzip, hrest⟩ := ih hmem
    exact ⟨below, level, List.mem_cons_of_mem _ hzip, hrest⟩
  | @pay previous level levels first awards size sound strongest _ ih =>
    rcases List.mem_cons.mp hmem with rfl | hmem
    · exact ⟨previous, level, List.mem_cons_self, size, sound, strongest⟩
    · obtain ⟨below, level, hzip, hrest⟩ := ih hmem
      exact ⟨below, level, List.mem_cons_of_mem _ hzip, hrest⟩

/-- Shares and odd chips make up the pot. -/
theorem AwardSound.exact (h : t.AwardSound level award) :
    award.equalShare * (award.winners.length : Int) + award.oddChips = award.potSize ∧
      0 ≤ award.oddChips ∧ award.oddChips < award.winners.length := by
  have hlen : 0 < (award.winners.length : Int) := by
    exact_mod_cast List.length_pos_iff.mpr h.winners_ne
  refine ⟨?_, ?_, ?_⟩
  · rw [h.share_eq, h.odd_eq, mul_comm]
    exact Int.mul_tdiv_add_tmod _ _
  · rw [h.odd_eq]
    exact Int.tmod_nonneg _ h.pot_pos.le
  · rw [h.odd_eq]
    exact Int.tmod_lt_of_pos _ hlen

/-- The strongest hand of a level is its greatest. -/
theorem Strongest.greatest (h : t.Strongest level award.winners) (hne : award.winners ≠ []) :
    ∃ best,
      IsGreatest { value | ∃ p ∈ t.eligible level, p.handOn t.board = .ok value } best ∧
      ∀ id, id ∈ award.winners ↔
        ∃ p ∈ t.eligible level, p.id = id ∧ p.handOn t.board = .ok best := by
  obtain ⟨-, best, hmax, hmem⟩ := h
  obtain ⟨id, hid⟩ := List.exists_mem_of_ne_nil _ hne
  obtain ⟨p, hp, -, hbest⟩ := (hmem id).mp hid
  refine ⟨best, ⟨⟨p, hp, hbest⟩, ?_⟩, hmem⟩
  rintro value ⟨q, hq, hvalue⟩
  obtain ⟨value', hvalue', hle⟩ := hmax q hq
  rw [hvalue, Except.ok.injEq] at hvalue'
  rw [HandValue.lt_iff_lt, not_lt] at hle
  exact hvalue' ▸ hle

/-- **The awards of `buildAndAwardPots` split their pots.** -/
theorem buildAndAwardPots_splits {d : Nat} (hs : t.Seating) (hd : t.dealerSeat = some d)
    (hlt : d < t.seats.length) (h : t.buildAndAwardPots = .ok (t', awards))
    (hmem : award ∈ awards) :
    ∃ below level, (below, level) ∈ (0 :: t.levels).zip t.levels ∧
      t.SplitsPot below level award := by
  obtain ⟨new, hnew, hlayers⟩ := awardLayers_awards hs (pairwise_levels t) h
  rw [List.nil_append] at hnew
  subst hnew
  obtain ⟨below, level, hzip, hsize, hsound, hstrong⟩ := hlayers.layer hmem
  have hordered := awardLayers_ordered hs h (by simp) award hmem
  have hseated : ∀ id ∈ award.winners, ∃ i p, t.seatAt i = some p ∧ p.id = id := fun id hid => by
    obtain ⟨p, hp, hsame⟩ := hsound.winners_eligible id hid
    obtain ⟨⟨i, hi⟩, -⟩ := mem_eligible hp
    exact ⟨i, p, hi, hsame⟩
  obtain ⟨seats, hsub, hmap⟩ := hordered.seats hd hlt hstrong.1 hseated
  obtain ⟨hexact, hodd⟩ := hsound.exact
  refine ⟨below, level, hzip, ?_, fun p hp => ?_, hsound.winners_ne, hstrong.1,
    hstrong.greatest hsound.winners_ne, hexact, hodd, d, seats, hd, hsub, hmap⟩
  · rw [hsize, length_contributors, Layers.layer]
  · obtain ⟨-, best, hmax, -⟩ := hstrong
    obtain ⟨value, hvalue, -⟩ := hmax p hp
    exact ⟨value, hvalue⟩

/-! ## The settled table -/

section Settled

variable {f : Player → Player} (hseats : t.seats = (w.mapSeats f).seats)
  (hf : ∀ p, (f p).id = p.id ∧ (f p).hole = p.hole ∧ (f p).status = p.status ∧
    (f p).handCommitment = p.handCommitment)

include hseats hf

theorem eligible_map (level : Int) : t.eligible level = (w.eligible level).map f := by
  unfold eligible contributors
  rw [players_congr hseats, players_mapSeats, List.filter_map, List.filter_map]
  simp only [Function.comp_def, (hf _).2.2.1, (hf _).2.2.2]

theorem length_contributors_map (level : Int) :
    (t.contributors level).length = (w.contributors level).length := by
  unfold contributors
  rw [players_congr hseats, players_mapSeats, List.filter_map, List.length_map]
  simp only [Function.comp_def, (hf _).2.2.2]

theorem levels_map : t.levels = w.levels := by
  unfold levels
  rw [players_congr hseats, players_mapSeats, List.map_map]
  simp only [Function.comp_def, (hf _).2.2.2]

/-- What a pot's clauses read of a player: everything but the chips left and the ready flag. -/
theorem SplitsPot.map (h : w.SplitsPot below level award) (hboard : t.board = w.board)
    (hdealer : t.dealerSeat = w.dealerSeat) : t.SplitsPot below level award := by
  have hhand : ∀ p, (f p).handOn t.board = p.handOn w.board := fun p => by
    unfold Player.handOn
    rw [hboard, (hf p).2.1]
  have hvalue : ∀ value, (∃ p ∈ t.eligible level, p.handOn t.board = .ok value) ↔
      ∃ p ∈ w.eligible level, p.handOn w.board = .ok value := fun value => by
    simp only [eligible_map hseats hf, List.mem_map, exists_exists_and_eq_and, hhand]
  obtain ⟨best, hbest, hmem⟩ := h.winners
  obtain ⟨dealer, seats, hd, hsub, hmap⟩ := h.clockwise
  refine ⟨?_, ?_, h.winners_ne, h.nodup, ⟨best, ?_, fun id => ?_⟩, h.exact, h.odd,
    dealer, seats, hdealer.trans hd, ?_, ?_⟩
  · rw [h.size, length_contributors_map hseats hf]
  · rw [eligible_map hseats hf]
    simp only [List.forall_mem_map, hhand]
    exact h.shown
  · simp only [hvalue]
    exact hbest
  · rw [hmem, eligible_map hseats hf]
    simp only [List.mem_map, exists_exists_and_eq_and, hhand, (hf _).1]
  · rw [hseats, length_mapSeats]
    exact hsub
  · rw [← hmap]
    refine List.map_congr_left fun i _ => ?_
    rw [seatAt_congr hseats, seatAt_mapSeats, Option.map_map]
    congr 1
    funext p
    exact (hf p).1

end Settled

/-- **A showdown splits its pots.** -/
theorem settleShowdown_splits {d : Nat} (hs : w.Seating)
    (hnn : ∀ i p, w.seatAt i = some p → 0 ≤ p.handCommitment) (hc : 0 < w.contenders)
    (hd : w.dealerSeat = some d) (hlt : d < w.seats.length)
    (h : w.settleShowdown = .ok t) : SplitsPots w t := by
  have hshow := settleShowdown_spec hs hnn hc h
  obtain ⟨u, awards, hframe, hus, -, -, hpots, rfl⟩ := settleShowdown_pots hs hnn hc h
  have hseats : u.seats = w.seats := by rw [hframe]
  set f := fun p : Player => { p.gain (wonBy awards) with ready := false } with hfdef
  have hsettled : (markSettled { u.mapSeats (Player.gain (wonBy awards)) with
      lastAwards := awards }).seats = (u.mapSeats f).seats := by
    change ((u.mapSeats (Player.gain (wonBy awards))).mapSeats _).seats = _
    rw [mapSeats_mapSeats]
  have hf : ∀ p, (f p).id = p.id ∧ (f p).hole = p.hole ∧ (f p).status = p.status ∧
      (f p).handCommitment = p.handCommitment := fun p => ⟨rfl, rfl, rfl, rfl⟩
  refine ⟨fun award hmem => ?_, fun i p hp => ?_⟩
  · obtain ⟨below, level, hzip, hsplit⟩ := buildAndAwardPots_splits hus (d := d)
      (by rw [hframe]; exact hd) (by rw [hseats]; exact hlt) hpots hmem
    refine ⟨below, level, ?_, hsplit.map hsettled hf rfl rfl⟩
    rw [levels_map hsettled hf]
    exact hzip
  · obtain ⟨q, hq, hpaid⟩ := hshow.paid.seat_some hp
    exact ⟨q, hq, hpaid.id, hpaid.stack⟩

/-! ## Runs -/

theorem Opening.chips {v : Table} {deck : Deck} (h : t.Opening deck v)
    (hp : t.seatAt i = some p) :
    ∃ q, v.seatAt i = some q ∧ q.id = p.id ∧ q.stack + q.handCommitment = p.stack := by
  obtain ⟨hole, hv⟩ := h.seat_some i p hp
  refine ⟨_, hv, ?_⟩
  by_cases hplays : p.plays = true
  · rw [Player.opens_of_plays hplays]
    refine ⟨rfl, ?_⟩
    simp only
    omega
  · rw [Player.opens_of_not_plays (Bool.not_eq_true _ ▸ hplays)]
    exact ⟨rfl, add_zero _⟩

/-- A step that settles with several contenders holds a showdown. -/
theorem exec_showdown {op : TableOp} (hi : t.Inv) (h : t.exec op = .ok (e, t'))
    (hset : Settles ⟨t, (op, e), t'⟩) (htwo : 2 ≤ t'.contenders) :
    ∃ u, u.Betting ∧ 2 ≤ u.contenders ∧ Showdown u t' ∧
      ∀ i p, t.seatAt i = some p → ∃ q, u.seatAt i = some q ∧ q.id = p.id ∧
        q.stack + q.handCommitment = p.stack + if op.begins then 0 else p.handCommitment := by
  obtain ⟨-, hends⟩ := exec_ends hi h hset
  cases hends with
  | @runsOut _ deck v _ hdeals hready hopen hshow =>
    refine ⟨v, hopen.betting hi.seating, hopen.contested hready, hshow, fun i p hp => ?_⟩
    rw [if_pos hdeals.begins, add_zero]
    exact hopen.chips hp
  | folds _ _ _ _ _ _ hfew hwin =>
    rw [hwin.paid.contenders_paid] at htwo
    exact absurd hfew (by omega)
  | @shows command i p q u _ hawait hp hacted hmany hshow =>
    refine ⟨u, hacted.betting hp hawait.toBetting, hmany, hshow, fun j r hr => ?_⟩
    obtain ⟨x, hx, hid, -⟩ := (hacted.sameSeating hp).seat hr
    exact ⟨x, hx, hid, hacted.chips_at hp hr hx⟩

theorem exec_splits {op : TableOp} (hi : t.Inv) (h : t.exec op = .ok (e, t'))
    (hset : Settles ⟨t, (op, e), t'⟩) (htwo : 2 ≤ t'.contenders) :
    ∃ w, ShowsDown ⟨t, (op, e), t'⟩ w ∧ SplitsPots w t' := by
  obtain ⟨u, hb, hmany, hshow, hchips⟩ := exec_showdown hi h hset htwo
  obtain ⟨w, hpaid, hcall⟩ := hshow.called
  obtain ⟨d, r, hd, hr, -⟩ := hb.button
  have hnn : ∀ i p, w.seatAt i = some p → 0 ≤ p.handCommitment := fun i q hq => by
    obtain ⟨p, hp, hpq⟩ := hpaid.seat_back hq
    rw [hpq.hand]
    exact (hb.sound i p hp).hand_nonneg
  have hcont : 0 < w.contenders := by
    rw [hpaid.contenders_eq]
    omega
  refine ⟨w, ⟨hcall, fun i p hp => ?_⟩, settleShowdown_splits (d := d)
    (hb.seating.of_same hpaid.sameSeating) hnn hcont (hpaid.dealer.trans hd) ?_ hcall⟩
  · obtain ⟨q, hq, hid, hsum⟩ := hchips i p hp
    obtain ⟨q', hq', hsame⟩ := hpaid.seat_some hq
    refine ⟨q', hq', hsame.id.trans hid, ?_⟩
    rw [hsame.stack, wonBy_nil, add_zero, hsame.hand]
    exact hsum
  · rw [hpaid.length]
    exact seatAt_lt hr

/-- **Split pots are exact and clockwise**, at every showdown of a run. -/
theorem pots_split {config : TableConfig} {trace : List Entry}
    (hrun : Run Steps (new config) trace t) {step : Entry} (hstep : step ∈ trace)
    (hset : Settles step) (htwo : 2 ≤ step.after.contenders) :
    ∃ w, ShowsDown step w ∧ SplitsPots w step.after := by
  obtain ⟨hi, hexec⟩ := inv_of_settles hrun hstep hset
  exact exec_splits hi hexec hset htwo

/-- The first cards of a deck that ties the players 1 and 2. -/
def tyingCards : List Card :=
  [⟨10, 0⟩, ⟨9, 0⟩, ⟨10, 1⟩, ⟨4, 0⟩, ⟨9, 1⟩, ⟨3, 0⟩, ⟨6, 0⟩, ⟨14, 3⟩, ⟨13, 2⟩, ⟨12, 1⟩, ⟨6, 1⟩,
    ⟨11, 3⟩, ⟨7, 0⟩, ⟨2, 0⟩]

/-- The odd chip of a split pot goes to the left of the dealer, player 1. -/
theorem pots_split_oddChip : ∃ trace t w,
    Run Steps (new { smallBlind := 1, bigBlind := 2, minBuyIn := 100 }) trace t ∧
      t.lastAwards = [{ potSize := 303, winners := [2, 1], equalShare := 151, oddChips := 1 }] ∧
      SplitsPots w t := by
  have hcheck : (replay perform (new { smallBlind := 1, bigBlind := 2, minBuyIn := 100 })
      [.seatPlayer 1 0 101, .seatPlayer 2 1 101, .seatPlayer 3 2 101, .setReady 1 true,
        .setReady 2 true, .setReady 3 true,
        .startHandWithDeck (tyingCards ++ orderedDeck.filter (· ∉ tyingCards)),
        .act { playerId := 1, type := .allIn }, .act { playerId := 2, type := .call },
        .act { playerId := 3, type := .call }]).any (fun r => r.1.getLast?.any fun step =>
          decide (step.after = r.2 ∧ Settles step ∧ 2 ≤ step.after.contenders ∧ r.2.lastAwards =
            [{ potSize := 303, winners := [2, 1], equalShare := 151, oddChips := 1 }])) = true := by
    decide +kernel
  obtain ⟨⟨trace, t⟩, hr, hc⟩ := (Option.any_eq_true _ _).mp hcheck
  obtain ⟨step, hlast, hstep⟩ := (Option.any_eq_true _ _).mp hc
  rw [decide_eq_true_eq] at hstep
  obtain ⟨rfl, hset, htwo, hawards⟩ := hstep
  have hrun := run_of_replay hr
  obtain ⟨w, -, hsplits⟩ := pots_split hrun (List.mem_of_getLast? hlast) hset htwo
  exact ⟨trace, _, w, hrun, hawards, hsplits⟩

end PokerServer.Table
