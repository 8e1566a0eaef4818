import PokerServer.Domain.Hand
import PokerServer.Server.HandRecords

/-!
# The settlement record of a hand

`handSettlement` describes a settled hand from the table and the awards; `validHandSettlement` is
the store's own idea of what such a description must satisfy.

* `FaithfulSettlement`: the record names whoever was dealt in, with the stacks before and after the
  hand and whether the player folded. Every played hand has a faithful record.
* `settlement_accepted_iff`: the store accepts the record iff the pots add up to the commitments and
  the cards recorded are real, as they are when the deck held real cards only. `startHandWithDeck`
  also takes cards that are none, whose index happens to be a card's (`settlement_refused`).
-/

namespace PokerServer.Table

variable {t₀ t t' u : Table} {deck : Deck} {op : TableOp} {command : ActionCommand}
  {result : ActionResult} {trace : List (Step Table (TableOp × TableError))} {i : Nat}
  {p q : Player} {folds : Set PlayerId}

/-! ## What a settlement leaves on the table -/

/-- `t'` is the hand dealt on `t₀`, settled, after `folds` folded. -/
structure SettledHand (t₀ : Table) (deck : Deck) (folds : Set PlayerId) (t' : Table) : Prop where
  inHand : InHand t₀ deck folds t'.lastAwards t'
  seating : t'.Seating
  hand_nonneg : ∀ i q, t'.seatAt i = some q → 0 ≤ q.handCommitment
  spare : ∀ i q, t'.seatAt i = some q → q.hasHole = false →
    q.handCommitment = 0 ∧ wonBy t'.lastAwards q.id = 0
  solvent : ∀ i q, t'.seatAt i = some q → q.hasHole = true → wonBy t'.lastAwards q.id ≤ q.stack
  won_nonneg : ∀ id, 0 ≤ wonBy t'.lastAwards id
  sum_won : (t'.players.map fun q => wonBy t'.lastAwards q.id).sum =
    (t'.lastAwards.map (·.potSize)).sum
  pots_le : (t'.lastAwards.map (·.potSize)).sum ≤ t'.commitments.sum

theorem SettledFrom.settledHand (h : SettledFrom u t') (hin : InHand t₀ deck folds [] u)
    (hb : u.Betting) (hshows : Shows u t')
    (hle : (t'.lastAwards.map (·.potSize)).sum ≤ u.commitments.sum) :
    SettledHand t₀ deck folds t' where
  inHand := hin.paid h.paid hshows
  seating := hb.seating.of_same h.paid.sameSeating
  hand_nonneg := fun i q hq => by
    obtain ⟨r, hr, hrq⟩ := h.paid.seat_back hq
    rw [hrq.hand]
    exact (hb.sound i r hr).hand_nonneg
  spare := fun i q hq hnone => by
    obtain ⟨r, hr, hrq⟩ := h.paid.seat_back hq
    obtain ⟨p, hp, hpr⟩ := hin.seat i r hr
    have hw : r.status = .waiting := by
      rw [hpr.waiting, ← hpr.hasHole, ← hrq.hasHole, hnone]
    refine ⟨hrq.hand.trans ((hb.sound i r hr).waiting_hand hw), ?_⟩
    rw [hrq.id]
    refine h.won_contends i r hr ?_
    rw [← Bool.not_eq_true, contends_iff]
    exact fun hc => hc.2 hw
  solvent := fun i q hq hhas => by
    obtain ⟨r, hr, hrq⟩ := h.paid.seat_back hq
    obtain ⟨p, hp, hpr⟩ := hin.seat i r hr
    have hw : r.status ≠ .waiting := by
      rw [Ne, hpr.waiting, ← hpr.hasHole, ← hrq.hasHole, hhas]
      decide
    have := (hb.sound i r hr).solvent hw
    rw [hrq.stack, hrq.id]
    omega
  won_nonneg := h.won_nonneg
  sum_won := by
    have := h.paid.sum_eq (f := fun q => wonBy t'.lastAwards q.id) fun _ => rfl
    exact this.trans h.sum_won
  pots_le := by
    rw [h.paid.commitments_eq]
    exact hle

/-- **Every played hand is settled as it was dealt.** -/
theorem Played.settledHand (h : Played t₀ op trace t command result t') (hi : t₀.Inv)
    (hdeals : op.Deals deck) :
    2 ≤ t₀.readyPlayers ∧ result.awards = t'.lastAwards ∧
      SettledHand t₀ deck (foldsOfHand trace command) t' := by
  obtain ⟨htwo, hawards, u, hin, hb, hshows, hout⟩ := h.outcome hi hdeals
  refine ⟨htwo, hawards, ?_⟩
  cases hout with
  | foldWin _ hwin =>
    exact hwin.toSettledFrom.settledHand hin hb hshows (hwin.pots_eq hb.seating).le
  | awaiting _ haw _ => exact absurd h.settled (betting_ne_settled haw.toBetting.street)
  | showdown _ hshow => exact hshow.toSettledFrom.settledHand hin hb hshows hshow.pots_le

/-! ## The record, line by line -/

theorem sum_filter_of_zero {l : List Player} {c : Player → Bool} {f : Player → Int}
    (h : ∀ q ∈ l, c q = false → f q = 0) : ((l.filter c).map f).sum = (l.map f).sum := by
  induction l with
  | nil => rfl
  | cons q l ih =>
    have ih := ih fun r hr => h r (List.mem_cons_of_mem _ hr)
    rw [List.filter_cons, List.map_cons, List.sum_cons]
    split_ifs with hq
    · rw [List.map_cons, List.sum_cons, ih]
    · rw [h q List.mem_cons_self (Bool.not_eq_true _ ▸ hq), ih, zero_add]

/-- The line of a player. -/
def settlementLine (awards : List PotAward) (q : Player) : HandPlayerSettlement :=
  { userId := q.id
    seat := q.seat
    startStack := q.stack + q.handCommitment - wonBy awards q.id
    committed := q.handCommitment
    winnings := wonBy awards q.id
    endStack := q.stack
    holeCards := [q.hole.1, q.hole.2]
    folded := q.status == .folded }

theorem handSettlement_players (hs : t.Seating) (tableId : Nat) (awards : List PotAward) :
    (t.auditSnapshot.handSettlement tableId awards).players =
      (t.players.filter (·.hasHole)).map (settlementLine awards) := by
  unfold TableSnapshot.handSettlement
  simp only [auditSnapshot_players hs, List.filterMap_map]
  rw [← List.filterMap_eq_map, List.filterMap_filter]
  congr 1
  funext q
  unfold auditView settlementLine
  by_cases hhas : q.hasHole = true
  · simp [hhas]
  · simp [hhas]

/-- The record of a settled hand says what happened in it. -/
structure FaithfulSettlement (t₀ t' : Table) (folds : Set PlayerId)
    (record : HandSettlementRecord) :
    Prop where
  start : (record.players.map fun r => (r.userId, r.seat, r.startStack)) =
    (t₀.players.filter Player.plays).map fun p => (p.id, p.seat, p.stack)
  finish : ∀ r ∈ record.players, ∃ q ∈ t'.players, q.id = r.userId ∧ q.stack = r.endStack
  folded : ∀ r ∈ record.players, r.folded = true ↔ r.userId ∈ folds

namespace SettledHand

variable (h : SettledHand t₀ deck folds t')

include h

/-- A seat of `t₀` that plays, seen from the settled table, and the other way round. -/
theorem start_keys (tableId : Nat) :
    ((t'.auditSnapshot.handSettlement tableId t'.lastAwards).players.map fun r =>
      (r.userId, r.seat, r.startStack)) =
    (t₀.players.filter Player.plays).map fun p => (p.id, p.seat, p.stack) := by
  rw [handSettlement_players h.seating, List.map_map, ← List.filterMap_eq_map,
    ← List.filterMap_eq_map, List.filterMap_filter, List.filterMap_filter]
  refine players_filterMap_congr h.inHand.length fun i => ?_
  cases hq : t'.seatAt i with
  | none =>
    cases hp : t₀.seatAt i with
    | none => rfl
    | some p =>
      by_cases hplays : p.plays = true
      · obtain ⟨q, hq'⟩ := h.inHand.stays i p hp hplays
        rw [hq] at hq'
        exact absurd hq' (by simp)
      · simp [hplays]
  | some q =>
    obtain ⟨p, hp, hin⟩ := h.inHand.seat i q hq
    rw [hp, Option.bind_some, Option.bind_some, hin.hasHole]
    by_cases hplays : p.plays = true
    · have hchips := hin.chips
      simp only [hplays, if_true, settlementLine, hin.id, hin.seat, Function.comp_apply,
        Option.some.injEq, Prod.mk.injEq, true_and]
      omega
    · simp [hplays]

theorem faithful (tableId : Nat) : FaithfulSettlement t₀ t' folds
    (t'.auditSnapshot.handSettlement tableId t'.lastAwards) := by
  refine ⟨h.start_keys tableId, fun r hr => ?_, fun r hr => ?_⟩ <;>
    rw [handSettlement_players h.seating] at hr <;>
    obtain ⟨q, hq, rfl⟩ := List.mem_map.mp hr <;>
    obtain ⟨hmem, hhas⟩ := List.mem_filter.mp hq
  · exact ⟨q, hmem, rfl, rfl⟩
  · obtain ⟨i, hi⟩ := mem_players.mp hmem
    obtain ⟨p, -, hin⟩ := h.inHand.seat i q hi
    rw [hin.hasHole] at hhas
    change (q.status == .folded) = true ↔ q.id ∈ folds
    rw [beq_iff_eq, hin.folded, hin.id]
    exact and_iff_right hhas

theorem flatMap_holeCards (tableId : Nat) :
    (t'.auditSnapshot.handSettlement tableId t'.lastAwards).players.flatMap (·.holeCards) =
      t'.holeCards := by
  rw [handSettlement_players h.seating]
  unfold holeCards Player.cards
  induction t'.players with
  | nil => rfl
  | cons p players ih =>
    rw [List.flatMap_cons, ← ih, List.filter_cons]
    split_ifs <;> simp [settlementLine]

/-- The cards of the record are those on the table. -/
theorem mem_recorded (tableId : Nat) {card : Card} :
    card ∈ t'.board ++ (t'.auditSnapshot.handSettlement tableId t'.lastAwards).players.flatMap
      (·.holeCards) ↔ card ∈ t'.holeCards ++ t'.board := by
  rw [h.flatMap_holeCards, List.mem_append, List.mem_append, or_comm]

/-- They are cards of the deck. -/
theorem cards_subperm (tableId : Nat) :
    (t'.board ++ (t'.auditSnapshot.handSettlement tableId t'.lastAwards).players.flatMap
      (·.holeCards)).Subperm deck.rest := by
  rw [h.flatMap_holeCards]
  refine List.Subperm.trans ?_ h.inHand.cards
  refine List.perm_append_comm.subperm.trans ?_
  exact ((List.Sublist.refl t'.holeCards).append (List.sublist_append_left t'.board _)).subperm

theorem sum_committed (tableId : Nat) :
    ((t'.auditSnapshot.handSettlement tableId t'.lastAwards).players.map (·.committed)).sum =
      t'.commitments.sum := by
  rw [handSettlement_players h.seating, List.map_map]
  refine sum_filter_of_zero fun q hq hnone => ?_
  obtain ⟨i, hi⟩ := mem_players.mp hq
  exact (h.spare i q hi hnone).1

theorem sum_winnings (tableId : Nat) :
    ((t'.auditSnapshot.handSettlement tableId t'.lastAwards).players.map (·.winnings)).sum =
      (t'.lastAwards.map (·.potSize)).sum := by
  rw [handSettlement_players h.seating, List.map_map, ← h.sum_won]
  refine sum_filter_of_zero fun q hq hnone => ?_
  obtain ⟨i, hi⟩ := mem_players.mp hq
  exact (h.spare i q hi hnone).2

/-- Each line adds up, and fits where the stacks before the hand fit together. -/
theorem line_sound (tableId : Nat) (hids : ∀ q ∈ t'.players, q.id ≠ 0)
    (hsum : ((t₀.players.filter Player.plays).map (·.stack)).sum ≤ int64Max)
    {r : HandPlayerSettlement}
    (hr : r ∈ (t'.auditSnapshot.handSettlement tableId t'.lastAwards).players) : r.Sound := by
  have hlines := handSettlement_players h.seating tableId t'.lastAwards
  have hstart : ((t'.players.filter (·.hasHole)).map fun q =>
      (settlementLine t'.lastAwards q).startStack).sum ≤ int64Max := by
    have := congrArg (List.map fun k : UserId × Nat × Int => k.2.2) (h.start_keys tableId)
    rw [hlines, List.map_map, List.map_map, List.map_map] at this
    exact (congrArg List.sum this).trans_le hsum
  have hcommitted := h.sum_committed tableId
  rw [hlines, List.map_map] at hcommitted
  rw [hlines] at hr
  obtain ⟨q, hq, rfl⟩ := List.mem_map.mp hr
  obtain ⟨hmem, hhas⟩ := List.mem_filter.mp hq
  obtain ⟨i, hi⟩ := mem_players.mp hmem
  have hkept : ∀ r ∈ t'.players.filter (·.hasHole), 0 ≤ r.stack - wonBy t'.lastAwards r.id := by
    intro r hr
    obtain ⟨hrmem, hrhas⟩ := List.mem_filter.mp hr
    obtain ⟨j, hj⟩ := mem_players.mp hrmem
    have := h.solvent j r hj hrhas
    omega
  -- what the player kept is part of what all kept, and what it won is part of the pot
  have hpart : q.stack - wonBy t'.lastAwards q.id ≤
      ((t'.players.filter (·.hasHole)).map fun r => r.stack - wonBy t'.lastAwards r.id).sum := by
    refine List.single_le_sum (fun x hx => ?_) _ (List.mem_map.mpr ⟨q, hq, rfl⟩)
    obtain ⟨r, hr, rfl⟩ := List.mem_map.mp hx
    exact hkept r hr
  have hwon : wonBy t'.lastAwards q.id ≤ (t'.lastAwards.map (·.potSize)).sum := by
    rw [← h.sum_won]
    refine List.single_le_sum (fun x hx => ?_) _ (List.mem_map.mpr ⟨q, hmem, rfl⟩)
    obtain ⟨r, -, rfl⟩ := List.mem_map.mp hx
    exact h.won_nonneg r.id
  have hsplit : ((t'.players.filter (·.hasHole)).map fun r =>
      (settlementLine t'.lastAwards r).startStack).sum =
      ((t'.players.filter (·.hasHole)).map fun r => r.stack - wonBy t'.lastAwards r.id).sum +
        t'.commitments.sum := by
    rw [← hcommitted, ← List.sum_map_add]
    refine congrArg List.sum (List.map_congr_left fun r _ => ?_)
    simp only [settlementLine, Function.comp_apply]
    omega
  have hlt : i < 6 := by
    have := seatAt_lt hi
    rw [h.seating.size] at this
    have := (blinds_pos h.seating.valid).2.2.2.1
    omega
  have hpots := h.pots_le
  have hself := hkept q hq
  refine ⟨hids q hmem, ?_, h.hand_nonneg i q hi, ?_, h.won_nonneg q.id, ?_, ?_, rfl⟩
  · change q.seat < 6
    rw [h.seating.index hi]
    exact hlt
  · change q.handCommitment ≤ q.stack + q.handCommitment - wonBy t'.lastAwards q.id
    omega
  · change q.stack = q.stack + q.handCommitment - wonBy t'.lastAwards q.id - q.handCommitment +
      wonBy t'.lastAwards q.id
    omega
  · change q.stack ≤ int64Max
    omega

/-- The pots are no more than was put in, which fits where the stacks before the hand fit
together. -/
theorem committed_le (tableId : Nat) (hids : ∀ q ∈ t'.players, q.id ≠ 0)
    (hsum : ((t₀.players.filter Player.plays).map (·.stack)).sum ≤ int64Max) :
    t'.commitments.sum ≤ int64Max := by
  have hstart := congrArg (List.map fun k : UserId × Nat × Int => k.2.2) (h.start_keys tableId)
  rw [List.map_map, List.map_map] at hstart
  rw [← h.sum_committed tableId]
  refine le_trans (List.sum_le_sum fun r hr => ?_) ((congrArg List.sum hstart).trans_le hsum)
  exact (h.line_sound tableId hids hsum hr).covered

theorem sound {tableId : Nat} (htwo : 2 ≤ t₀.readyPlayers)
    (hnodup : (deck.rest.map cardIndex).Nodup)
    (hreal : ∀ card ∈ t'.holeCards ++ t'.board, card.Valid)
    (hids : ∀ q ∈ t'.players, q.id ≠ 0) (htable : 1 ≤ tableId ∧ tableId ≤ 2 ^ 32 - 1)
    (hhand : t'.handId ≤ 2 ^ 32 - 1)
    (hsum : ((t₀.players.filter Player.plays).map (·.stack)).sum ≤ int64Max) :
    (t'.auditSnapshot.handSettlement tableId t'.lastAwards).Sound := by
  have hnumber : 1 ≤ t'.handId := by
    rw [h.inHand.handId]
    omega
  have hlength : (t'.auditSnapshot.handSettlement tableId t'.lastAwards).players.length =
      t₀.readyPlayers := by
    have := congrArg List.length (h.start_keys tableId)
    rw [List.length_map, List.length_map, ← List.countP_eq_length_filter] at this
    exact this
  have hsix : t₀.readyPlayers ≤ 6 :=
    calc t₀.readyPlayers ≤ t₀.players.length := List.countP_le_length
      _ ≤ t₀.seats.length := List.length_filterMap_le _ _
      _ = t'.config.maxPlayers := by rw [← h.inHand.length, h.seating.size]
      _ ≤ 6 := (blinds_pos h.seating.valid).2.2.2.1
  have hcommitted := h.committed_le tableId hids hsum
  obtain ⟨cards, hperm, hsublist⟩ := h.cards_subperm tableId
  refine
    { handId := ?_, tableId := by change tableId ≠ 0; omega
      handNumber := by change t'.handId ≠ 0; omega
      many := by rw [hlength]; exact htwo
      few := by rw [hlength]; exact hsix
      board := h.inHand.fits.le_five
      pot := ?_
      player := fun r hr => h.line_sound tableId hids hsum hr
      users := ?_
      real := fun card hc => ?_
      distinct := ?_
      committed := ?_
      winnings := ?_ }
  · change persistentHandId tableId t'.handId ≠ 0
    unfold persistentHandId
    rw [if_neg (by omega), Ne, Nat.or_eq_zero_iff]
    omega
  · change 0 ≤ (t'.lastAwards.map (·.potSize)).sum
    rw [← h.sum_won]
    refine List.sum_nonneg fun x hx => ?_
    obtain ⟨q, -, rfl⟩ := List.mem_map.mp hx
    exact h.won_nonneg q.id
  · rw [handSettlement_players h.seating, List.map_map]
    exact h.seating.nodup_ids.sublist (List.filter_sublist.map _)
  · exact validStoredCard_iff.mpr (hreal card ((h.mem_recorded tableId).mp hc))
  · exact (hperm.map cardIndex).nodup_iff.mp (hnodup.sublist (hsublist.map _))
  · rw [h.sum_committed]
    exact hcommitted
  · rw [h.sum_winnings]
    exact h.pots_le.trans hcommitted

/-- **What the store's check of a played hand comes down to.** -/
theorem accepted_iff {tableId : Nat} (htwo : 2 ≤ t₀.readyPlayers)
    (hnodup : (deck.rest.map cardIndex).Nodup) (hids : ∀ q ∈ t'.players, q.id ≠ 0)
    (htable : 1 ≤ tableId ∧ tableId ≤ 2 ^ 32 - 1) (hhand : t'.handId ≤ 2 ^ 32 - 1)
    (hsum : ((t₀.players.filter Player.plays).map (·.stack)).sum ≤ int64Max) :
    validHandSettlement (t'.auditSnapshot.handSettlement tableId t'.lastAwards) = true ↔
      (t'.lastAwards.map (·.potSize)).sum = (t'.players.map (·.handCommitment)).sum ∧
        ∀ card ∈ t'.holeCards ++ t'.board, card.Valid := by
  have hpot : (t'.lastAwards.map (·.potSize)).sum ≤ int64Max :=
    h.pots_le.trans (h.committed_le tableId hids hsum)
  constructor
  · intro haccepts
    obtain ⟨hsound, hcommitted, -⟩ := validHandSettlement_accepts haccepts hpot
    rw [h.sum_committed] at hcommitted
    refine ⟨hcommitted.symm, fun card hcard => validStoredCard_iff.mp (hsound.real card ?_)⟩
    exact (h.mem_recorded tableId).mpr hcard
  · rintro ⟨hpots, hreal⟩
    rw [validHandSettlement_iff (h.sound htwo hnodup hreal hids htable hhand hsum),
      h.sum_committed, h.sum_winnings]
    exact ⟨hpots.symm, rfl⟩

end SettledHand

/-- **The store's check and the table agree**: the record of every played hand is faithful, and it
is accepted iff the pots add up to what was put in and the cards held and shown are real; those of
a real deck are. -/
theorem settlement_accepted_iff {config : TableConfig} {tableId : Nat}
    (hreach : Reaches Steps (new config) t₀) (hdeals : op.Deals deck)
    (hplayed : Played t₀ op trace t command result t') (hids : ∀ q ∈ t'.players, q.id ≠ 0)
    (htable : 1 ≤ tableId ∧ tableId ≤ 2 ^ 32 - 1) (hhand : t'.handId ≤ 2 ^ 32 - 1)
    (hsum : ((t₀.players.filter Player.plays).map (·.stack)).sum < 2 ^ 63) :
    FaithfulSettlement t₀ t' (foldsOfHand trace command)
        (t'.auditSnapshot.handSettlement tableId result.awards) ∧
      (validHandSettlement (t'.auditSnapshot.handSettlement tableId result.awards) = true ↔
        (result.awards.map (·.potSize)).sum = (t'.players.map (·.handCommitment)).sum ∧
          ∀ card ∈ t'.holeCards ++ t'.board, card.Valid) ∧
      ((∀ card ∈ deck.rest, card.Valid) →
        (validHandSettlement (t'.auditSnapshot.handSettlement tableId result.awards) = true ↔
          (result.awards.map (·.potSize)).sum = (t'.players.map (·.handCommitment)).sum)) := by
  have hi : t₀.Inv := by
    obtain ⟨t₁, hstart, -⟩ := hplayed.run
    by_cases hc : config.validateConfig = .ok
    · exact reach_inv hc hreach
    · rw [reach_new_invalid hc hreach] at hstart
      exact absurd rfl (exec_new_invalid hc hstart).1
  obtain ⟨htwo, hawards, hsettled⟩ := hplayed.settledHand hi hdeals
  rw [hawards]
  have hfits : ((t₀.players.filter Player.plays).map (·.stack)).sum ≤ int64Max := by
    unfold int64Max
    omega
  have haccepted := hsettled.accepted_iff htwo hdeals.distinct.1.nodup hids htable hhand hfits
  refine ⟨hsettled.faithful tableId, haccepted, fun hreal => ?_⟩
  refine haccepted.trans (and_iff_left fun card hcard => hreal card ?_)
  exact (hsettled.cards_subperm tableId).subset ((hsettled.mem_recorded tableId).mpr hcard)

/-- Heads up on the given cards, the dealer folds at once: the table before the hand, when the
dealer is asked, the result of the fold and the table after it. -/
def headsUpFold (cards : List Card) : Option (Table × Table × ActionResult × Table) := do
  let (_, t₀) ← replay perform (new { minBuyIn := 1 }) (headsUp 1000 2000)
  match t₀.startHandWithDeck cards with
  | .ok (.ok, t) =>
    match t.act { playerId := 1, type := .fold } with
    | .ok (result, t') =>
      if t.street.betting = true ∧ result.error = .ok ∧ t'.street = .settled then
        some (t₀, t, result, t')
      else none
    | _ => none
  | _ => none

theorem played_headsUpFold {cards : List Card}
    (h : headsUpFold cards = some (t₀, t, result, t')) :
    Reaches Steps (new { minBuyIn := 1 }) t₀ ∧
      Played t₀ (.startHandWithDeck cards) [] t { playerId := 1, type := .fold } result t' := by
  unfold headsUpFold at h
  simp only [Option.bind_eq_bind, Option.bind_eq_some_iff, Prod.exists] at h
  obtain ⟨trace, v, hr, h⟩ := h
  split at h
  · rename_i w hw
    split at h
    · rename_i result' w' hw'
      split_ifs at h with hc
      simp only [Option.some.injEq, Prod.mk.injEq] at h
      obtain ⟨rfl, rfl, rfl, rfl⟩ := h
      exact ⟨⟨trace, run_of_replay hr⟩, ⟨_, hw, hc.1, Run.nil⟩, by simp, hw', hc.2.1, hc.2.2⟩
    · exact absurd h (by simp)
  · exact absurd h (by simp)

/-- Dealt from the ordered deck, the record of the folded hand is accepted. -/
theorem settlement_accepted_headsUp :
    ∃ t₀ op deck t command result t', Reaches Steps (new { minBuyIn := 1 }) t₀ ∧
      op.Deals deck ∧ Played t₀ op [] t command result t' ∧
      validHandSettlement (t'.auditSnapshot.handSettlement 7 result.awards) = true := by
  have hcheck : (headsUpFold orderedDeck).any (fun r =>
      decide ((∀ q ∈ r.2.2.2.players, q.id ≠ 0) ∧ r.2.2.2.handId ≤ 2 ^ 32 - 1 ∧
        ((r.1.players.filter Player.plays).map (·.stack)).sum < 2 ^ 63 ∧
        (r.2.2.1.awards.map (·.potSize)).sum =
          (r.2.2.2.players.map (·.handCommitment)).sum)) = true := by
    decide +kernel
  obtain ⟨⟨t₀, t, result, t'⟩, hr, hc⟩ := (Option.any_eq_true _ _).mp hcheck
  obtain ⟨hids, hhand, hsum, hpots⟩ := of_decide_eq_true hc
  obtain ⟨hreach, hplayed⟩ := played_headsUpFold hr
  have hdeals : (TableOp.startHandWithDeck orderedDeck).Deals { cards := orderedDeck } :=
    .startHandWithDeck (by decide +kernel)
  have hiff := (settlement_accepted_iff hreach hdeals hplayed hids
    (by decide : 1 ≤ 7 ∧ 7 ≤ 2 ^ 32 - 1)
    hhand hsum).2.2 (by decide +kernel)
  exact ⟨t₀, _, _, t, _, result, t', hreach, hdeals, hplayed, hiff.mpr hpots⟩

/-- The ordered deck with the two of diamonds, index 13, replaced by a fifteen of clubs, which has
the same index and is dealt first. -/
def fifteenDeck : List Card := ⟨15, 0⟩ :: orderedDeck.erase ⟨2, 1⟩

/-- The deck is accepted, the dealer folds, the pot is paid out in full, and the store refuses the
record for the card. -/
theorem settlement_refused :
    ∃ t₀ op deck t command result t', Reaches Steps (new { minBuyIn := 1 }) t₀ ∧
      op.Deals deck ∧ Played t₀ op [] t command result t' ∧ (∀ q ∈ t'.players, q.id ≠ 0) ∧
      t'.handId ≤ 2 ^ 32 - 1 ∧ ((t₀.players.filter Player.plays).map (·.stack)).sum < 2 ^ 63 ∧
      ¬ (validHandSettlement (t'.auditSnapshot.handSettlement 7 result.awards) = true ↔
        (result.awards.map (·.potSize)).sum = (t'.players.map (·.handCommitment)).sum) := by
  have hcheck : (headsUpFold fifteenDeck).any (fun r =>
      decide ((∀ q ∈ r.2.2.2.players, q.id ≠ 0) ∧ r.2.2.2.handId ≤ 2 ^ 32 - 1 ∧
        ((r.1.players.filter Player.plays).map (·.stack)).sum < 2 ^ 63 ∧
        ¬ (validHandSettlement (r.2.2.2.auditSnapshot.handSettlement 7 r.2.2.1.awards) = true ↔
          (r.2.2.1.awards.map (·.potSize)).sum =
            (r.2.2.2.players.map (·.handCommitment)).sum))) = true := by
    decide +kernel
  obtain ⟨⟨t₀, t, result, t'⟩, hr, hc⟩ := (Option.any_eq_true _ _).mp hcheck
  obtain ⟨hreach, hplayed⟩ := played_headsUpFold hr
  have hdeals : (TableOp.startHandWithDeck fifteenDeck).Deals { cards := fifteenDeck } :=
    .startHandWithDeck (by decide +kernel)
  exact ⟨t₀, _, _, t, _, result, t', hreach, hdeals, hplayed, of_decide_eq_true hc⟩

end PokerServer.Table
