import PokerServer.Domain.Conservation
import PokerServer.Storage.Records

/-!
# The records of a hand

The functions of `apps/server/protocol_service.cpp` that turn an audit snapshot into what the store
keeps: `persistentHandId`, `dealerSeat`, `handStart` and `handSettlement`.

`handStart_faithful_iff`: the start record taken right after `startHand` names the stacks before it
iff the hand was not run out and settled inside `startHand` (`Table.RunsOut`). A stack read back
from a settled table already holds what the hand paid.
-/

namespace PokerServer

/-- `persistentHandId`: the table id in the upper and the hand number in the lower 32 bits. -/
def persistentHandId (tableId handNumber : Nat) : Nat :=
  let maximum := 2 ^ 32 - 1
  if tableId = 0 ∨ maximum < tableId ∨ handNumber = 0 ∨ maximum < handNumber then 0
  else tableId <<< 32 ||| handNumber

namespace TableSnapshot

/-- `dealerSeat`. -/
def dealerSeat (snapshot : TableSnapshot) : Nat :=
  match snapshot.dealer with
  | none => 0
  | some id => ((snapshot.players.find? fun player => player.id == id).map (·.seat)).getD 0

/-- `handStart`. -/
def handStart (tableId : Nat) (snapshot : TableSnapshot) : HandStartRecord :=
  { handId := persistentHandId tableId snapshot.handId
    tableId := tableId
    handNumber := snapshot.handId
    dealerSeat := snapshot.dealerSeat
    players := snapshot.players.filterMap fun player =>
      if player.holeCards.length = 2 then
        some
          { userId := player.id
            seat := player.seat
            startStack := player.stack + player.handCommitment
            holeCards := player.holeCards }
      else none }

/-- `handSettlement`; `winnings[id]` is `wonBy awards id`. -/
def handSettlement (tableId : Nat) (snapshot : TableSnapshot) (awards : List PotAward) :
    HandSettlementRecord :=
  { handId := persistentHandId tableId snapshot.handId
    tableId := tableId
    handNumber := snapshot.handId
    dealerSeat := snapshot.dealerSeat
    board := snapshot.board
    totalPot := (awards.map (·.potSize)).sum
    players := snapshot.players.filterMap fun player =>
      if player.holeCards.length ≠ 2 then none
      else
        let won := wonBy awards player.id
        some
          { userId := player.id
            seat := player.seat
            startStack := player.stack + player.handCommitment - won
            committed := player.handCommitment
            winnings := won
            endStack := player.stack
            holeCards := player.holeCards
            folded := player.status == .folded } }

end TableSnapshot

namespace Table

variable {t t' v : Table} {i : Nat} {p q : Player}

/-- What an audit snapshot shows of a player: everything, cards included. -/
def auditView (p : Player) : PlayerView :=
  { id := p.id
    seat := p.seat
    stack := p.stack
    streetCommitment := p.streetCommitment
    handCommitment := p.handCommitment
    status := p.status
    ready := p.ready
    connected := p.connected
    holeCards := if p.hasHole then [p.hole.1, p.hole.2] else [] }

theorem auditSnapshot_players (hs : t.Seating) :
    t.auditSnapshot.players = t.players.map auditView := by
  unfold auditSnapshot snapshot
  simp only [List.map_map]
  refine List.map_congr_left fun p hp => ?_
  obtain ⟨i, hi⟩ := mem_players.mp hp
  simp only [Function.comp_apply, hs.findPlayer hi]
  unfold auditView
  by_cases hhas : p.hasHole = true
  · simp [hhas]
  · simp [hhas]

/-- Two tables read off the same, seat by seat, give the same list. -/
theorem players_filterMap_congr {β : Type} {f g : Player → Option β}
    (hlen : t'.seats.length = t.seats.length)
    (h : ∀ i, (t'.seatAt i).bind f = (t.seatAt i).bind g) :
    t'.players.filterMap f = t.players.filterMap g := by
  unfold players
  rw [List.filterMap_filterMap, List.filterMap_filterMap]
  have hseats : t'.seats.map (fun o => o.bind f) = t.seats.map (fun o => o.bind g) :=
    map_seats_congr hlen h
  have hid : ∀ (l : List (Option Player)) (f : Player → Option β),
      l.filterMap (fun o => (id o).bind f) = (l.map fun o => o.bind f).filterMap id := by
    intro l f
    rw [List.filterMap_map]
    rfl
  rw [hid, hid, hseats]

/-! ## The start record -/

/-- The record of a hand start names the players of `t` who play, once each, at their seats, with
their stacks and two cards. -/
structure FaithfulStart (t : Table) (record : HandStartRecord) : Prop where
  players : (record.players.map fun r => (r.userId, r.seat, r.startStack)) =
    (t.players.filter Player.plays).map fun p => (p.id, p.seat, p.stack)
  once : (record.players.map (·.userId)).Nodup
  cards : ∀ r ∈ record.players, r.holeCards.length = 2

theorem handStart_players (hs : t.Seating) (tableId : Nat) :
    (t.auditSnapshot.handStart tableId).players = t.players.filterMap fun q =>
      if q.hasHole then
        some { userId := q.id, seat := q.seat, startStack := q.stack + q.handCommitment,
               holeCards := [q.hole.1, q.hole.2] }
      else none := by
  unfold TableSnapshot.handStart
  simp only [auditSnapshot_players hs, List.filterMap_map]
  congr 1
  funext q
  unfold auditView
  by_cases hhas : q.hasHole = true
  · simp [hhas]
  · simp [hhas]

/-- What the record of a table says that was opened from `t` and paid `awards` since. -/
theorem Opening.handStart_keys {deck : Deck} {awards : List PotAward} (hopen : t.Opening deck v)
    (hpaid : PaidFrom awards v t') (hs : t.Seating) (tableId : Nat) :
    ((t'.auditSnapshot.handStart tableId).players.map fun r => (r.userId, r.seat, r.startStack)) =
      (t.players.filter Player.plays).map fun p =>
        (p.id, p.seat, p.stack + wonBy awards p.id) := by
  have hs' := (hs.of_same hopen.sameSeating).of_same hpaid.sameSeating
  rw [handStart_players hs', List.map_filterMap, ← List.filterMap_eq_map, List.filterMap_filter]
  refine players_filterMap_congr (hpaid.length.trans hopen.length) fun i => ?_
  cases hp : t.seatAt i with
  | none =>
    have hnone : t'.seatAt i = none := by
      have := hpaid.seat i
      rw [hopen.seat_none i hp, Option.map_none, Option.map_eq_none_iff] at this
      exact this
    rw [hnone]
    rfl
  | some p =>
    obtain ⟨hole, hi⟩ := hopen.seat_some i p hp
    obtain ⟨q, hq, hpq⟩ := hpaid.seat_some hi
    rw [hq, Option.bind_some, Option.bind_some, hpq.hasHole]
    by_cases hplays : p.plays = true
    · rw [Player.opens_of_plays hplays] at hpq
      simp only [hplays, if_true, Option.map_some, hpq.id, hpq.seat, hpq.stack, hpq.hand]
      simp only [Option.some.injEq, Prod.mk.injEq, true_and, Function.comp_apply]
      omega
    · simp [hplays]

theorem handStart_cards (hs : t.Seating) {tableId : Nat} {r : HandStartPlayer}
    (hr : r ∈ (t.auditSnapshot.handStart tableId).players) : r.holeCards.length = 2 := by
  rw [handStart_players hs, List.mem_filterMap] at hr
  obtain ⟨q, -, hq⟩ := hr
  split_ifs at hq
  rw [← Option.some.inj hq]
  rfl

/-- A showdown straight after the blinds pays somebody: the small blind is in the pot. -/
theorem Opening.exists_won {deck : Deck} (hopen : t.Opening deck v) (hs : t.Seating)
    (htwo : 2 ≤ t.readyPlayers) (h : Showdown v t') :
    ∃ p ∈ t.players.filter Player.plays, wonBy t'.lastAwards p.id ≠ 0 := by
  by_contra hnone
  push Not at hnone
  have hb := hopen.betting hs
  have hzero : ∀ q ∈ v.players, wonBy t'.lastAwards q.id = 0 := by
    intro q hq
    obtain ⟨i, hi⟩ := mem_players.mp hq
    obtain ⟨p, hole, hp, rfl⟩ := hopen.seat_back hi
    by_cases hplays : p.plays = true
    · rw [Player.opens_of_plays hplays]
      exact hnone p (List.mem_filter.mpr ⟨mem_players.mpr ⟨i, hp⟩, hplays⟩)
    · refine h.won_contends i _ hi ?_
      rw [Player.opens_contends]
      exact Bool.not_eq_true _ ▸ hplays
  obtain ⟨k, m, hm, hmc, hmax, htotal⟩ := h.total
  obtain ⟨d, s, b, hblinds⟩ := exists_blinds htwo
  obtain ⟨p, hp, hplays⟩ := playsAt_iff.mp hblinds.big_plays
  obtain ⟨hole, hvb⟩ := hopen.seat_some b p hp
  have hposted : 0 < m.handCommitment := by
    have hle := hmax b _ hvb (by rw [Player.opens_contends]; exact hplays)
    have hpos := (Player.plays_iff.mp hplays).2
    have hbig := blinds_pos hs.valid
    rw [Player.opens_of_plays hplays, hblinds.forcedBet_eq, if_pos rfl] at hle
    simp only at hle
    omega
  have hnn : ∀ x ∈ v.commitments.map fun c => min c m.handCommitment, 0 ≤ x := by
    intro x hx
    obtain ⟨c, hc, rfl⟩ := List.mem_map.mp hx
    obtain ⟨q, hq, rfl⟩ := List.mem_map.mp hc
    obtain ⟨i, hi⟩ := mem_players.mp hq
    exact le_min (hb.sound i q hi).hand_nonneg hposted.le
  have hmem : m.handCommitment ∈ v.commitments.map fun c => min c m.handCommitment :=
    List.mem_map.mpr ⟨_, List.mem_map.mpr ⟨m, mem_players.mpr ⟨k, hm⟩, rfl⟩, min_self _⟩
  have hge := List.single_le_sum hnn _ hmem
  have hsum : (v.players.map fun q => wonBy t'.lastAwards q.id).sum = 0 :=
    List.sum_eq_zero fun x hx => by
      obtain ⟨q, hq, rfl⟩ := List.mem_map.mp hx
      exact hzero q hq
  rw [h.sum_won, htotal] at hsum
  omega

/-- A hand that is opened and pays nothing leaves the stacks to be read off. -/
theorem Opening.faithfulStart {deck : Deck} (hopen : t.Opening deck v) (hsame : PaidFrom [] v t')
    (hs : t.Seating) (tableId : Nat) : FaithfulStart t (t'.auditSnapshot.handStart tableId) := by
  have hkeys := hopen.handStart_keys hsame hs tableId
  simp only [wonBy_nil, add_zero] at hkeys
  have hs' := (hs.of_same hopen.sameSeating).of_same hsame.sameSeating
  refine ⟨hkeys, ?_, fun r hr => handStart_cards hs' hr⟩
  have hids := congrArg (List.map Prod.fst) hkeys
  rw [List.map_map, List.map_map] at hids
  change _ = List.map (fun p : Player => p.id) _ at hids
  change List.Nodup (List.map (Prod.fst ∘ fun r : HandStartPlayer =>
    (r.userId, r.seat, r.startStack)) _)
  rw [hids]
  exact hs.nodup_ids.sublist (List.filter_sublist.map _)

theorem startHand_seating {config : TableConfig} {deck : Deck}
    (hreach : Reaches Steps (new config) t) (h : t.startHand deck = .ok (.ok, t')) : t.Seating := by
  by_cases hc : config.validateConfig = .ok
  · exact (reach_inv hc hreach).seating
  · rw [reach_new_invalid hc hreach] at h
    unfold startHand at h
    rw [if_pos (show (new config).config.validateConfig ≠ .ok from hc)] at h
    exact absurd (Prod.mk.inj (Except.ok.inj h)).1 (by decide)

/-- **The start record is faithful exactly when `startHand` did not settle the hand.** -/
theorem handStart_faithful_iff {config : TableConfig} {deck : Deck}
    (hreach : Reaches Steps (new config) t) (h : t.startHand deck = .ok (.ok, t'))
    (tableId : Nat) :
    FaithfulStart t (t'.auditSnapshot.handStart tableId) ↔ ¬ t.RunsOut := by
  have hs := startHand_seating hreach h
  obtain ⟨-, htwo, hstarted⟩ := startHand_spec hs h
  cases hstarted with
  | awaiting hopen htwo _ =>
    refine iff_of_true (hopen.faithfulStart (PaidFrom.refl t') hs tableId) fun hruns => ?_
    obtain ⟨i, j, p, q, hij, hi, hj⟩ := htwo
    exact hij (hruns.1 i j p q hi hj)
  | @stranded v hopen hlone _ hsame =>
    have hsame := hsame ▸ (PaidFrom.refl v).ask ∅ none
    exact iff_of_true (hopen.faithfulStart hsame hs tableId) fun hruns => hruns.2 hlone
  | showdown hopen hruns hshow _ =>
    refine iff_of_false (fun hf => ?_) (not_not_intro hruns)
    obtain ⟨p, hp, hwon⟩ := hopen.exists_won hs htwo hshow
    have hkeys := hf.players
    rw [hopen.handStart_keys hshow.paid hs, List.map_inj_left] at hkeys
    have := (Prod.mk.inj (Prod.mk.inj (hkeys p hp)).2).2
    omega

instance (t : Table) (record : HandStartRecord) : Decidable (FaithfulStart t record) :=
  decidable_of_iff (_ ∧ _ ∧ _) ⟨fun ⟨h, h', h''⟩ => ⟨h, h', h''⟩, fun ⟨h, h', h''⟩ => ⟨h, h', h''⟩⟩

/-- Two players sit down with the given stacks and get ready. -/
def headsUp (first second : Int) : List TableOp :=
  [.seatPlayer 1 0 first, .seatPlayer 2 1 second, .setReady 1 true, .setReady 2 true]

/-- The start record of a heads-up hand on the ordered deck. -/
def headsUpRecord (first second : Int) :
    Option (Table × Table × HandStartRecord) := do
  let (_, t) ← replay perform (new { minBuyIn := 1 }) (headsUp first second)
  match t.startHand { cards := orderedDeck } with
  | .ok (.ok, t') => some (t, t', t'.auditSnapshot.handStart 7)
  | _ => none

theorem headsUpRecord_some {first second : Int} {record : HandStartRecord}
    (h : headsUpRecord first second = some (t, t', record)) :
    Reaches Steps (new { minBuyIn := 1 }) t ∧
      t.startHand { cards := orderedDeck } = .ok (.ok, t') ∧
      record = t'.auditSnapshot.handStart 7 := by
  unfold headsUpRecord at h
  simp only [Option.bind_eq_bind, Option.bind_eq_some_iff, Prod.exists] at h
  obtain ⟨trace, u, hr, h⟩ := h
  split at h
  · rename_i u' hu
    simp only [Option.some.injEq, Prod.mk.injEq] at h
    obtain ⟨rfl, rfl, rfl⟩ := h
    exact ⟨⟨trace, run_of_replay hr⟩, hu, rfl⟩
  · exact absurd h (by simp)

/-- Both players keep chips behind their blinds: the record names their stacks. -/
theorem handStart_faithful_headsUp :
    ∃ t deck t', Reaches Steps (new { minBuyIn := 1 }) t ∧ t.startHand deck = .ok (.ok, t') ∧
      FaithfulStart t (t'.auditSnapshot.handStart 7) ∧ ¬ t.RunsOut := by
  have hcheck :
      (headsUpRecord 1000 2000).any (fun r => decide (FaithfulStart r.1 r.2.2)) = true := by
    decide +kernel
  obtain ⟨⟨t, t', record⟩, hr, hc⟩ := (Option.any_eq_true _ _).mp hcheck
  obtain ⟨hreach, hstart, rfl⟩ := headsUpRecord_some hr
  rw [decide_eq_true_eq] at hc
  exact ⟨t, _, t', hreach, hstart, hc, (handStart_faithful_iff hreach hstart 7).mp hc⟩

/-- The dealer is all-in for less than the small blind: the hand is settled before the snapshot,
and the record gives the winner's stack after it. -/
theorem handStart_unfaithful :
    ∃ t deck t', Reaches Steps (new { minBuyIn := 1 }) t ∧ t.startHand deck = .ok (.ok, t') ∧
      t'.street = .settled ∧ ¬ FaithfulStart t (t'.auditSnapshot.handStart 7) := by
  have hcheck : (headsUpRecord 40 2000).any (fun r =>
      decide (r.2.1.street = .settled ∧ ¬ FaithfulStart r.1 r.2.2)) = true := by
    decide +kernel
  obtain ⟨⟨t, t', record⟩, hr, hc⟩ := (Option.any_eq_true _ _).mp hcheck
  obtain ⟨hreach, hstart, rfl⟩ := headsUpRecord_some hr
  rw [decide_eq_true_eq] at hc
  exact ⟨t, _, t', hreach, hstart, hc⟩

end Table

end PokerServer
