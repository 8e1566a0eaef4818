import PokerServer.Domain.Effects
import PokerServer.Domain.Evaluation

/-!
# Calls that return

A member function can end in a throw, or in an access the language leaves undefined. `Carded G t`
holds of the tables a run reaches when every card dealt satisfies `G`: the cards in play are
distinct, the deck has what the later streets need, and everybody dealt in holds two cards. It
excludes every fault but one: `evaluateFive` counts by the bytes of a card, so a card with a rank or
suit no enumerator has (`Counted` fails) is counted outside its arrays. `exec_failsOnly` says so of
every operation, and that the card is one a showdown would evaluate (`atShowdown`) or one of a new
deck.
-/

namespace PokerServer

open Checked

/-- The fault of a hand whose cards satisfy `G`: a card that cannot be counted. -/
def Miscounts (G : Card → Prop) (fault : Fault) : Prop :=
  fault = .badAccess ∧ ∃ card, G card ∧ ¬ card.Counted

/-- The cards an operation brings to the table. -/
def TableOp.cards : TableOp → List Card
  | .startHand deck => deck.cards
  | .startHandWithDeck cards => cards
  | _ => []

theorem TableOp.Deals.rest_subset {op : TableOp} {deck : Deck} (h : op.Deals deck) :
    ∀ card ∈ deck.rest, card ∈ op.cards := by
  cases h with
  | startHand deck => exact fun card hc => List.mem_of_mem_drop hc
  | startHandWithDeck h =>
    obtain ⟨rfl, -⟩ := Deck.ofCards_ok h
    exact fun card hc => List.mem_of_mem_drop hc

variable {G G' : Card → Prop} {X : Fault → Prop}

/-! ## The evaluator -/

/-- Distinct cards are evaluated, or one of them cannot be counted. -/
theorem evaluateFive_failsOnly {cards : List Card} (hG : ∀ card ∈ cards, G card)
    (hd : Distinct cards) : FailsOnly (Miscounts G) (evaluateFive cards) := by
  by_cases hcount : ∀ card ∈ cards, card.Counted
  · obtain ⟨value, hvalue⟩ := evaluateFive_returns_iff.mpr ⟨hd, hcount⟩
    rw [hvalue]
    exact .ok value
  · push Not at hcount
    rw [evaluateFive_badAccess hd hcount]
    obtain ⟨card, hc, hnot⟩ := hcount
    intro fault hfault
    rw [Except.error.injEq] at hfault
    exact ⟨hfault.symm, card, hG card hc, hnot⟩

/-- **Five to seven distinct cards are evaluated.** -/
theorem evaluateBest_failsOnly {cards : List Card} (hG : ∀ card ∈ cards, G card)
    (hd : Distinct cards) (hlow : 5 ≤ cards.length) (hhigh : cards.length ≤ 7) :
    FailsOnly (Miscounts G) (evaluateBest cards) := by
  have hseen : Deck.seenLoop [] cards = true := Deck.seenLoop_iff.mpr ⟨hd, by simp⟩
  unfold evaluateBest
  rw [if_neg (by omega), hseen]
  simp only [Bool.not_true, Bool.false_eq_true, if_false]
  refine FailsOnly.bind (FailsOnly.foldlM (fun best hand hhand => ?_) none) fun _ _ => .ok _
  have hsub := (mem_choose_iff.mp hhand).1
  unfold better
  refine (evaluateFive_failsOnly (fun card hc => hG card (hsub.subset hc))
    (hd.subperm hsub.subperm)).bind fun value _ => ?_
  cases best with
  | none => exact .ok _
  | some best => exact .ok _

namespace Table

variable {t t' u v : Table} {i : Nat} {p q : Player} {e : TableError}

/-! ## The deck -/

theorem draw_failsOnly {deck : Deck} (h : 0 < deck.rest.length) : FailsOnly X deck.draw := by
  obtain ⟨card, cards, hrest⟩ := List.exists_cons_of_length_pos h
  rw [Deck.draw_of_rest hrest]
  exact .ok _

theorem burn_failsOnly {deck : Deck} (h : 0 < deck.rest.length) : FailsOnly X deck.burn :=
  (draw_failsOnly h).bind fun _ _ => .ok _

theorem length_draw {deck deck' : Deck} {card : Card} (h : deck.draw = .ok (card, deck')) :
    deck.rest.length = deck'.rest.length + 1 := by
  rw [(Deck.draw_ok h).1, List.length_cons]

theorem length_burn {deck deck' : Deck} (h : deck.burn = .ok deck') :
    deck.rest.length = deck'.rest.length + 1 := by
  obtain ⟨card, hrest, -⟩ := Deck.burn_ok h
  rw [hrest, List.length_cons]

theorem theDeck_failsOnly {deck : Deck} (h : t.deck = some deck) : FailsOnly X t.theDeck := by
  unfold theDeck
  rw [h]
  exact .ok deck

theorem revealFlop_failsOnly {deck : Deck} (hdeck : t.deck = some deck)
    (h : 4 ≤ deck.rest.length) : FailsOnly X t.revealFlop := by
  unfold revealFlop
  refine (theDeck_failsOnly hdeck).bind fun d hd => ?_
  obtain rfl : deck = d := Option.some.inj (hdeck.symm.trans (theDeck_ok hd))
  refine (burn_failsOnly (by omega)).bind fun d₀ h₀ => ?_
  have hl₀ := length_burn h₀
  refine (draw_failsOnly (by omega)).bind fun r₁ h₁ => ?_
  have hl₁ := length_draw h₁
  refine (draw_failsOnly (by omega)).bind fun r₂ h₂ => ?_
  have hl₂ := length_draw h₂
  exact (draw_failsOnly (by omega)).bind fun _ _ => .ok _

theorem revealOne_failsOnly {deck : Deck} (hdeck : t.deck = some deck)
    (h : 2 ≤ deck.rest.length) : FailsOnly X t.revealOne := by
  unfold revealOne
  refine (theDeck_failsOnly hdeck).bind fun d hd => ?_
  obtain rfl : deck = d := Option.some.inj (hdeck.symm.trans (theDeck_ok hd))
  refine (burn_failsOnly (by omega)).bind fun d₀ h₀ => ?_
  have hl₀ := length_burn h₀
  exact (draw_failsOnly (by omega)).bind fun _ _ => .ok _

/-- Before the river, a street can be advanced. -/
theorem advanceStreet_failsOnly (hs : t.Supplied) (hb : t.street.betting = true)
    (hriver : t.street ≠ .river) : FailsOnly X t.advanceStreet := by
  obtain ⟨deck, hdeck, hneed⟩ := hs hb
  have hclear : t.clearStreet.street = t.street := rfl
  unfold advanceStreet
  cases hstreet : t.street with
  | preflop =>
    simp only [hclear, hstreet]
    rw [hstreet] at hneed
    exact (revealFlop_failsOnly (t := { t.clearStreet with street := .flop }) hdeck
      (le_trans (by decide) hneed)).bind fun _ _ => .ok _
  | flop =>
    simp only [hclear, hstreet]
    rw [hstreet] at hneed
    exact (revealOne_failsOnly (t := { t.clearStreet with street := .turn }) hdeck
      (le_trans (by decide) hneed)).bind fun _ _ => .ok _
  | turn =>
    simp only [hclear, hstreet]
    rw [hstreet] at hneed
    exact (revealOne_failsOnly (t := { t.clearStreet with street := .river }) hdeck
      hneed).bind fun _ _ => .ok _
  | river => exact absurd hstreet hriver
  | waiting => rw [hstreet] at hb; exact absurd hb (by decide)
  | showdown => rw [hstreet] at hb; exact absurd hb (by decide)
  | settled => rw [hstreet] at hb; exact absurd hb (by decide)

/-! ## Settlement -/

theorem orderedClockwise_failsOnly {ids : List PlayerId}
    (h : ∀ id ∈ ids, ∃ i p, t.seatAt i = some p ∧ p.id = id) :
    FailsOnly X (t.orderedClockwise ids) := by
  unfold orderedClockwise
  rw [if_neg]
  · exact .ok _
  · rw [Bool.not_eq_true, List.any_eq_false]
    intro id hid hnone
    obtain ⟨i, p, hp, rfl⟩ := h id hid
    obtain ⟨j, hj⟩ := seatOf_isSome hp
    rw [hj] at hnone
    exact absurd hnone (by simp)

theorem payWinners_failsOnly {award : PotAward} : ∀ {ids : List PlayerId} {t : Table} {k : Nat},
    (∀ id ∈ ids, ∃ i p, t.seatAt i = some p ∧ p.id = id) →
    FailsOnly X (payWinners award t k ids)
  | [], t, _, _ => .ok t
  | id :: ids, t, k, h => by
    obtain ⟨i, p, hp, hid⟩ := h id List.mem_cons_self
    obtain ⟨j, hj⟩ := seatOf_isSome hp
    rw [hid] at hj
    rw [payWinners, hj]
    refine payWinners_failsOnly fun id' hid' => ?_
    obtain ⟨i', p', hp', rfl⟩ := h id' (List.mem_cons_of_mem _ hid')
    have hsame : SameSeating t (t.modifyPlayer id fun player =>
        { player with stack := player.stack + award.share k }) :=
      sameSeating_modifyPlayer id fun _ => rfl
    obtain ⟨q, hq, hqid, -⟩ := hsame.seat hp'
    exact ⟨i', q, hq, hqid⟩

/-- A layer is awarded if the hands of the contenders can be evaluated. -/
theorem awardLayer_failsOnly {awards : List PotAward} {previous level : Int}
    (hhands : ∀ p ∈ t.players, p.contends = true → FailsOnly X (p.handOn t.board)) :
    FailsOnly X (t.awardLayer awards previous level) := by
  unfold awardLayer
  simp only
  split_ifs with hskip
  · exact .ok _
  refine FailsOnly.bind (FailsOnly.foldlM (fun best p hp => ?_) none) fun best hbest => ?_
  · obtain ⟨hseat, -, hf, hw⟩ := mem_eligible hp
    unfold compareHand
    refine (hhands p (mem_players.mpr hseat) (contends_iff.mpr ⟨hf, hw⟩)).bind fun value _ => ?_
    cases best with
    | none => exact .ok _
    | some b =>
      simp only
      split_ifs <;> exact .ok _
  · have hseated : ∀ id ∈ (best.map Prod.snd).getD [], ∃ i p, t.seatAt i = some p ∧ p.id = id := by
      have hstart : Leads t.board [] none := rfl
      have hleads := compareHand_fold hstart hbest
      rw [List.nil_append] at hleads
      cases best with
      | none => simp
      | some b =>
        intro id hid
        obtain ⟨p, hp, rfl, -⟩ := (hleads.2.2.1 id).mp hid
        obtain ⟨⟨i, hi⟩, -⟩ := mem_eligible hp
        exact ⟨i, p, hi, rfl⟩
    refine (orderedClockwise_failsOnly hseated).bind fun winners hwin => ?_
    refine (payWinners_failsOnly fun id hid => hseated id ?_).bind fun _ _ => .ok _
    unfold orderedClockwise at hwin
    split at hwin
    · exact absurd hwin (by simp)
    · rw [Except.ok.injEq] at hwin
      exact (List.perm_insertionSort _ _).mem_iff.mp (hwin ▸ hid)

theorem awardLayers_failsOnly : ∀ {levels : List Int} {t : Table} {awards : List PotAward}
    {previous : Int}, t.Seating →
    (∀ p ∈ t.players, p.contends = true → FailsOnly X (p.handOn t.board)) →
    FailsOnly X (awardLayers t awards previous levels)
  | [], t, awards, _, _, _ => .ok (t, awards)
  | level :: levels, t, awards, previous, hs, hhands => by
    rw [awardLayers]
    refine (awardLayer_failsOnly hhands).bind fun r hr => ?_
    obtain ⟨u, mid⟩ := r
    rcases awardLayer_spec hs hr with ⟨-, rfl, rfl⟩ | ⟨award, -, -, -, -, rfl, rfl⟩
    · exact awardLayers_failsOnly hs hhands
    · refine awardLayers_failsOnly (hs.of_same (sameSeating_mapSeats fun _ => rfl)) ?_
      rw [players_mapSeats]
      simp only [List.forall_mem_map]
      exact hhands

theorem settleFoldWin_failsOnly (h : 0 < t.contenders) : FailsOnly X t.settleFoldWin := by
  obtain ⟨i, p, hp, hc⟩ := countP_pos_iff.mp h
  unfold settleFoldWin
  cases hfind : t.players.find? Player.contends with
  | none => exact absurd hc (List.find?_eq_none.mp hfind p (mem_players.mpr ⟨i, hp⟩))
  | some winner => exact .ok _

/-! ## The cards in play -/

/-- The cards of the hand: held, shown or still in the deck. -/
def inPlay (t : Table) : List Card := t.holeCards ++ (t.board ++ t.rest)

/-- The cards that come on the board after a street when `cards` are left in the deck: before each
reveal one is burnt. -/
def toCome : Street → List Card → List Card
  | .preflop, cards => (cards.drop 1).take 3 ++ ((cards.drop 5).take 1 ++ (cards.drop 7).take 1)
  | .flop, cards => (cards.drop 1).take 1 ++ (cards.drop 3).take 1
  | .turn, cards => (cards.drop 1).take 1
  | _, _ => []

/-- The cards a showdown would evaluate: those of the players who contend, and the whole board. -/
def atShowdown (t : Table) : List Card :=
  (t.players.filter Player.contends).flatMap Player.cards ++ (t.board ++ toCome t.street t.rest)

theorem mem_atShowdown {card : Card} : card ∈ t.atShowdown ↔
    (∃ i p, t.seatAt i = some p ∧ p.contends = true ∧ card ∈ p.cards) ∨
      card ∈ t.board ++ toCome t.street t.rest := by
  unfold atShowdown
  rw [List.mem_append]
  refine or_congr_left ?_
  simp only [List.mem_flatMap, List.mem_filter, mem_players]
  constructor
  · rintro ⟨p, ⟨⟨i, hi⟩, hp⟩, hcard⟩
    exact ⟨i, p, hi, hp, hcard⟩
  · rintro ⟨i, p, hi, hp, hcard⟩
    exact ⟨p, ⟨⟨i, hi⟩, hp⟩, hcard⟩

theorem toCome_subset (s : Street) (cards : List Card) : toCome s cards ⊆ cards := by
  have htake (n k : Nat) : (cards.drop n).take k ⊆ cards := fun card hcard =>
    List.mem_of_mem_drop (List.mem_of_mem_take hcard)
  cases s with
  | preflop =>
    exact List.append_subset.mpr ⟨htake 1 3, List.append_subset.mpr ⟨htake 5 1, htake 7 1⟩⟩
  | flop => exact List.append_subset.mpr ⟨htake 1 1, htake 3 1⟩
  | turn => exact htake 1 1
  | _ => exact List.nil_subset _

theorem atShowdown_subset (t : Table) : t.atShowdown ⊆ t.inPlay := by
  have hheld : (t.players.filter Player.contends).flatMap Player.cards ⊆ t.holeCards := by
    intro card hcard
    obtain ⟨p, hp, hcard⟩ := List.mem_flatMap.mp hcard
    exact List.mem_flatMap.mpr ⟨p, List.mem_of_mem_filter hp, hcard⟩
  refine List.append_subset.mpr ⟨List.subset_append_of_subset_left _ hheld, ?_⟩
  refine List.subset_append_of_subset_right _ ?_
  refine List.append_subset.mpr ⟨List.subset_append_left _ _, ?_⟩
  exact List.subset_append_of_subset_right _ (toCome_subset _ _)

/-- A reveal shows the next of the cards to come. -/
theorem toCome_follows {s s' : Street} {k : Nat} {burnt : Card} {cards rest : List Card}
    (h : Follows s k s') (hk : cards.length = k) :
    toCome s (burnt :: (cards ++ rest)) = cards ++ toCome s' rest := by
  cases h with
  | flop =>
    obtain ⟨a, b, c, rfl⟩ := List.length_eq_three.mp hk
    rfl
  | turn =>
    obtain ⟨a, rfl⟩ := List.length_eq_one_iff.mp hk
    rfl
  | river =>
    obtain ⟨a, rfl⟩ := List.length_eq_one_iff.mp hk
    rfl

/-- Nothing comes to be evaluated but by a player who contends anew, or a card on the board. -/
theorem PaidFrom.atShowdown {awards : List PotAward} (h : PaidFrom awards t t')
    (hboard : t'.board ++ toCome t'.street t'.rest = t.board ++ toCome t.street t.rest) :
    t'.atShowdown ⊆ t.atShowdown := by
  intro card hcard
  rw [mem_atShowdown] at hcard ⊢
  rcases hcard with ⟨i, q, hq, hcont, hcard⟩ | hcard
  · obtain ⟨p, hp, hpq⟩ := h.seat_back hq
    have hcards : q.cards = p.cards := by
      unfold Player.cards
      rw [hpq.hasHole, hpq.hole]
    exact .inl ⟨i, p, hp, hpq.contends ▸ hcont, hcards ▸ hcard⟩
  · exact .inr (hboard ▸ hcard)

theorem atShowdown_advanceStreet (hb : t.Betting) (h : t.advanceStreet = .ok t') :
    t'.atShowdown ⊆ t.atShowdown := by
  refine (advanceStreet_spec hb h).toPaidFrom.atShowdown ?_
  obtain ⟨k, s, u, hfollows, ⟨deck, deck', burnt, cards, hdeck, hrest, hk, rfl⟩, rfl⟩ :=
    advanceStreet_ok h
  have hbefore : t.rest = burnt :: (cards ++ deck'.rest) := by
    rw [← hrest]
    unfold rest
    rw [show t.deck = some deck from hdeck]
    rfl
  rw [hbefore, toCome_follows hfollows hk, ← List.append_assoc]
  rfl

theorem Acted.atShowdown (h : Acted t i p q u) (hp : t.seatAt i = some p)
    (hcont : p.contends = true) : u.atShowdown ⊆ t.atShowdown := by
  intro card hcard
  rw [mem_atShowdown] at hcard ⊢
  rcases hcard with ⟨j, r, hr, hrc, hcard⟩ | hcard
  · rcases h.seat_cases hp hr with ⟨-, rfl⟩ | ⟨-, hr⟩
    · rw [h.actor] at hcard
      exact .inl ⟨i, p, hp, hcont, hcard⟩
    · exact .inl ⟨j, r, hr, hrc, hcard⟩
  · rw [h.frame] at hcard
    exact .inr hcard

/-- **What is always known of the cards.** -/
structure Carded (G : Card → Prop) (t : Table) : Prop where
  good : ∀ card ∈ t.inPlay, G card
  distinct : Distinct t.inPlay
  fits : t.BoardFits
  supplied : t.Supplied
  dealt : t.street.betting = true → ∀ i p, t.seatAt i = some p → p.status ≠ .waiting →
    p.hasHole = true

/-- A player's seven cards are among those in play. -/
theorem hand_subperm (hp : p ∈ t.players) (hh : p.hasHole = true) :
    (t.board ++ [p.hole.1, p.hole.2]).Subperm t.inPlay := by
  have hcards : [p.hole.1, p.hole.2].Sublist t.holeCards := by
    have hown : p.cards = [p.hole.1, p.hole.2] := if_pos hh
    rw [← hown, holeCards, List.flatMap_def]
    exact List.sublist_flatten_of_mem (List.mem_map_of_mem hp)
  refine (List.perm_append_comm.subperm).trans ?_
  exact (hcards.append (List.sublist_append_left _ _)).subperm

theorem Carded.hands (hc : t.Carded G') (hG : ∀ card ∈ t.atShowdown, G card)
    (hb : t.street.betting = true) (hlen : t.board.length = 5) :
    ∀ p ∈ t.players, p.contends = true → FailsOnly (Miscounts G) (p.handOn t.board) := by
  intro p hp hcont
  obtain ⟨i, hi⟩ := mem_players.mp hp
  have hhole := hc.dealt hb i p hi (contends_iff.mp hcont).2
  refine evaluateBest_failsOnly (fun card hcard => hG card (mem_atShowdown.mpr ?_))
    (hc.distinct.subperm (hand_subperm hp hhole)) ?_ ?_
  · rcases List.mem_append.mp hcard with hboard | hown
    · exact .inr (List.mem_append_left _ hboard)
    · have hcards : p.cards = [p.hole.1, p.hole.2] := if_pos hhole
      exact .inl ⟨i, p, hi, hcont, hcards ▸ hown⟩
  · simp [hlen]
  · simp [hlen]

/-- On the river every hand can be shown. -/
theorem settleShowdown_failsOnly (hc : t.Carded G') (hG : ∀ card ∈ t.atShowdown, G card)
    (hs : t.Seating) (hriver : t.street = .river) : FailsOnly (Miscounts G) t.settleShowdown := by
  have hb : t.street.betting = true := by rw [hriver]; rfl
  have hlen : t.board.length = 5 := by
    have hfits := hc.fits
    unfold BoardFits at hfits
    rw [hriver] at hfits
    exact hfits
  have hfull : completeBoard 5 { t with street := .showdown } =
      .ok { t with street := .showdown } := by
    rw [completeBoard, if_neg (by change ¬ t.board.length < 5; omega)]
  unfold settleShowdown
  rw [hfull]
  refine FailsOnly.bind (.ok _) fun u hu => ?_
  rw [Except.ok.injEq] at hu
  subst hu
  refine FailsOnly.bind ?_ fun _ _ => .ok _
  exact awardLayers_failsOnly (hs.of_same (.of_seats rfl rfl)) (hc.hands hG hb hlen)

/-! ## The betting rounds -/

/-- The betting rounds from a street on. -/
def rounds : Street → Nat
  | .preflop => 4
  | .flop => 3
  | .turn => 2
  | .river => 1
  | _ => 0

theorem advanceStreet_rounds (h : t.advanceStreet = .ok t') :
    rounds t.street = rounds t'.street + 1 := by
  obtain ⟨k, s, u, hfollows, ⟨_, _, _, _, -, -, -, rfl⟩, rfl⟩ := advanceStreet_ok h
  change rounds t.street = rounds s + 1
  generalize t.street = s₀ at hfollows
  cases hfollows <;> rfl

/-- What keeps the hole cards and deals to the board only keeps the cards in play. -/
theorem Carded.paid {awards : List PotAward} (hc : t.Carded G) (hpaid : PaidFrom awards t t')
    (hshows : Shows t t') (hb : t'.street.betting = true → t.street.betting = true) :
    t'.Carded G := by
  have hsub : t'.inPlay.Subperm t.inPlay := by
    unfold inPlay
    rw [hpaid.holeCards_eq]
    exact ((List.Sublist.refl _).append hshows.drawn).subperm
  refine ⟨fun card h => hc.good card (hsub.subset h), hc.distinct.subperm hsub,
    hshows.fits hc.fits, hshows.supplied hc.supplied, fun hbet i q hq hw => ?_⟩
  obtain ⟨p, hp, hpq⟩ := hpaid.seat_back hq
  rw [hpq.hasHole]
  exact hc.dealt (hb hbet) i p hp (hpq.status ▸ hw)

/-- **The loop after a completed round returns**: each round is on a later street. -/
theorem advanceLoop_failsOnly : ∀ {fuel : Nat} {t : Table}, t.Betting → 2 ≤ t.contenders →
    t.Carded G' → (∀ card ∈ t.atShowdown, G card) → rounds t.street ≤ fuel →
    FailsOnly (Miscounts G) (advanceLoop fuel t)
  | 0, t, hb, _, _, _, hfuel => by
    have hstreet := hb.street
    cases h : t.street <;> rw [h] at hstreet hfuel <;>
      first
      | exact absurd hstreet (by decide)
      | exact absurd hfuel (by decide)
  | fuel + 1, t, hb, htwo, hc, hG, hfuel => by
    rw [advanceLoop, if_neg (by omega)]
    split_ifs with hopen hriver
    · exact .ok _
    · exact settleShowdown_failsOnly hc hG hb.seating hriver
    · refine (advanceStreet_failsOnly hc.supplied hb.street hriver).bind fun u hu => ?_
      have hnext := advanceStreet_spec hb hu
      have hrounds := advanceStreet_rounds hu
      split_ifs
      · have hask := hnext.toPaidFrom.ask ∅ none
        refine advanceLoop_failsOnly (hnext.betting.ask ∅ none) ?_ ?_ ?_ ?_
        · rw [hask.contenders_eq]
          exact htwo
        · refine hc.paid hask ?_ fun _ => hb.street
          exact (advanceStreet_shows hu).trans (Shows.of_eq rfl rfl rfl)
        · exact fun card hcard => hG card (atShowdown_advanceStreet hb hu hcard)
        · change rounds u.street ≤ fuel
          omega
      · exact .ok _

/-! ## The deal -/

/-- A deck with enough cards lasts a round. -/
theorem dealRound_failsOnly {round : Nat} : ∀ {k : Nat} {ys : List Nat} {t : Table} {i : Nat}
    {deck : Deck}, Clockwise.hits t.participatesAt t.seats.length i = ys → k ≤ ys.length →
    t.deck = some deck → k ≤ deck.rest.length → FailsOnly X (dealRound round k t ys.head?)
  | 0, ys, t, i, deck, _, _, _, _ => .ok _
  | k + 1, [], t, i, deck, _, hk, _, _ => by simp at hk
  | k + 1, x :: xs, t, i, deck, hhits, hk, hdeck, hcards => by
    obtain ⟨hx, hpx⟩ := Clockwise.mem_hits.mp (hhits ▸ List.mem_cons_self : x ∈ _)
    obtain ⟨p, hp, -⟩ := (Option.any_eq_true _ _).mp hpx
    rw [List.head?_cons, dealRound]
    simp only [hp]
    refine (theDeck_failsOnly hdeck).bind fun d hd => ?_
    obtain rfl : deck = d := Option.some.inj (hdeck.symm.trans (theDeck_ok hd))
    refine (draw_failsOnly (by omega)).bind fun r hr => ?_
    obtain ⟨card, deck₁⟩ := r
    have hlen := length_draw hr
    let t₁ : Table := { t.setSeat x (some (p.takeCard round card)) with deck := some deck₁ }
    obtain ⟨hhits₁, hnext⟩ := dealt_ring hhits hp round card deck₁
    change FailsOnly X (dealRound round k t₁ (t₁.nextParticipatingSeat x))
    rw [hnext]
    exact dealRound_failsOnly hhits₁ (by simp at hk ⊢; omega) rfl (by omega)

theorem dealHoleCards_failsOnly {deck : Deck} {d : Nat} {seats ys : List Nat}
    (hd : t.dealerSeat = some d) (hys : Clockwise.hits t.participatesAt t.seats.length d = ys)
    (hlen : seats.length = ys.length) (hdeck : t.deck = some deck)
    (hcards : 2 * ys.length ≤ deck.rest.length) : FailsOnly X (t.dealHoleCards seats) := by
  have hstart : t.nextParticipatingSeat d = ys.head? := by
    rw [← hys, ← Clockwise.next_eq_head]
    rfl
  unfold dealHoleCards
  simp only [hd, hstart, hlen]
  refine (dealRound_failsOnly hys (le_refl _) hdeck (by omega)).bind fun r hr => ?_
  obtain ⟨u, s⟩ := r
  obtain ⟨firsts, deck₁, hl₁, hrest₁, hframe₁, hlen₁, hother₁, hdealt₁, hs⟩ :=
    dealRound_spec hys (le_refl _) hdeck hr
  rw [List.take_length] at hother₁ hdealt₁
  have hys₁ := hits_after_round hys hl₁ hlen₁ hother₁ hdealt₁
  have hrest : deck.rest.length = ys.length + deck₁.rest.length := by
    rw [hrest₁, List.length_append, hl₁]
  simp only
  rw [hs, List.rotate_length]
  exact (dealRound_failsOnly hys₁ (le_refl _) (by rw [hframe₁]) (by omega)).bind fun _ _ => .ok _

/-- The blinds sit where they are posted. -/
theorem postBlinds_failsOnly {participants : List Nat} {s b : Nat} (hs : ∃ p, t.seatAt s = some p)
    (hb : ∃ p, t.seatAt b = some p) : FailsOnly X (t.postBlinds participants s b) := by
  obtain ⟨ps, hps⟩ := hs
  obtain ⟨pb, hpb⟩ := hb
  unfold postBlinds
  refine FailsOnly.bind ?_ fun u hu => ?_
  · unfold postBlindAt
    rw [hps]
    exact .ok _
  · refine FailsOnly.bind ?_ fun _ _ => .ok _
    obtain ⟨ps', hps', rfl⟩ := postBlindAt_ok hu
    have hsame : SameSeating t (t.setSeat s (some (ps'.postBlind t.config.smallBlind))) :=
      sameSeating_setSeat hps' rfl
    obtain ⟨pb', hpb', -⟩ := hsame.seat hpb
    unfold postBlindAt
    rw [hpb']
    exact .ok _

/-! ## Starting a hand -/

/-- **A hand is opened with every card in place.** -/
theorem Opening.carded {deck : Deck} (hopen : t.Opening deck v) (hs : t.Seating)
    (hG : ∀ card ∈ deck.rest, G card) (hd : Distinct deck.rest) (hlen : deck.rest.length = 52) :
    v.Carded G := by
  have hin := hopen.inHand hs
  refine ⟨fun card h => hG card (hin.cards.subset h), hd.subperm hin.cards, hin.fits, fun _ => ?_,
    fun _ i q hq hw => ?_⟩
  · obtain ⟨deck', ys, firsts, seconds, hdeck, -, hys, hf, hsec, hrest, -⟩ := hopen.cards
    refine ⟨deck', hdeck, ?_⟩
    have hsum := congrArg List.length hrest
    rw [List.length_append, List.length_append, hf, hsec, hlen] at hsum
    have hsix := (blinds_pos hs.valid).2.2.2.1
    rw [hs.size] at hys
    rw [hopen.street]
    change 8 ≤ _
    omega
  · obtain ⟨p, -, hpq⟩ := hin.seat i q hq
    rw [hpq.hasHole]
    by_contra hno
    exact hw (hpq.waiting.mpr (Bool.not_eq_true _ ▸ hno))

theorem startHand_failsOnly {deck : Deck} (hs : t.Seating) (hG : ∀ card ∈ deck.rest, G card)
    (hd : Distinct deck.rest) (hlen : deck.rest.length = 52) :
    FailsOnly (Miscounts G) (t.startHand deck) := by
  unfold startHand
  simp only
  split_ifs with hvalid hrun hready hfew
  · exact .ok _
  · exact .ok _
  · exact .ok _
  · exact .ok _
  have hmin := (blinds_pos hs.valid).2.2.1
  have htwo : 2 ≤ t.readyPlayers := by omega
  obtain ⟨d, s, b, hblinds⟩ := exists_blinds htwo
  rw [participatingSeats_openHand]
  refine FailsOnly.bind ?_ fun _ _ => .ok _
  unfold playHand
  refine FailsOnly.bind ?_ fun u hu => ?_
  · obtain ⟨hring, hseats⟩ := openHand_ring (t := t) deck d
      ((List.range t.seats.length).filter t.playsAt)
    refine dealHoleCards_failsOnly (moveButton_openHand deck hblinds) hring
      (Clockwise.length_hits _ _).symm rfl ?_
    have hsix := (blinds_pos hs.valid).2.2.2.1
    have hle := List.length_filter_le t.playsAt (List.range t.seats.length)
    have hsize := hs.size
    rw [List.length_range] at hle
    rw [Clockwise.length_hits, hlen]
    omega
  · obtain ⟨deck', ys, firsts, seconds, hdealt⟩ := handDealt hblinds hu
    rw [hdealt.blindSeats hblinds]
    refine FailsOnly.bind (.ok _) fun r hr => ?_
    rw [Except.ok.injEq] at hr
    subst hr
    have hseated : ∀ i, t.playsAt i = true → ∃ p, u.seatAt i = some p := fun i hi => by
      obtain ⟨p, hp, hplays⟩ := playsAt_iff.mp hi
      obtain ⟨_, _, -, -, hup⟩ := hdealt.dealt i p hp hplays
      exact ⟨_, hup⟩
    refine (postBlinds_failsOnly (hseated s hblinds.small_plays)
      (hseated b hblinds.big_plays)).bind fun w hw => ?_
    have hopen := hdealt.opening (n := ((List.range t.seats.length).filter t.playsAt).length)
      hs.valid hblinds hw
    have hask := (PaidFrom.refl (w.setInitialActor b
      ((List.range t.seats.length).filter t.playsAt).length)).ask ∅ none
    simp only
    split_ifs
    · have hcarded := (hopen.carded hs hG hd hlen).paid hask (Shows.of_eq rfl rfl rfl) id
      refine advanceLoop_failsOnly ((hopen.betting hs).ask ∅ none) ?_ hcarded
        (fun card hcard => hcarded.good card (atShowdown_subset _ hcard)) ?_
      · rw [hask.contenders_eq]
        exact hopen.contested htwo
      · change rounds (w.setInitialActor b _).street ≤ 4
        rw [hopen.street]
        exact le_refl _
    · exact .ok _

/-! ## Acting -/

/-- Somebody is left in the hand after an action. -/
theorem Acted.contenders_pos (hacted : Acted t i p q u) (htwo : 2 ≤ t.contenders) :
    0 < u.contenders := by
  obtain ⟨j, k, r, r', hjk, hj, hk, hr, hr'⟩ := two_le_countP_iff.mp htwo
  by_cases hji : j = i
  · refine countP_pos_iff.mpr ⟨k, r', ?_, hr'⟩
    rw [hacted.seat_other (by omega), hk]
  · refine countP_pos_iff.mpr ⟨j, r, ?_, hr⟩
    rw [hacted.seat_other hji, hj]

theorem Carded.acted (hc : t.Carded G) (hb : t.street.betting = true) (hacted : Acted t i p q u)
    (hp : t.seatAt i = some p) (hw : p.status ≠ .waiting) : u.Carded G := by
  have hboard : u.board = t.board := by rw [hacted.frame]; rfl
  have hdeck : u.deck = t.deck := by rw [hacted.frame]; rfl
  have hstreet : u.street = t.street := by rw [hacted.frame]; rfl
  have hshows : Shows t u := Shows.of_eq hboard hdeck hstreet
  have hsame : u.inPlay = t.inPlay := by
    unfold inPlay rest
    rw [hacted.holeCards_eq hp, hboard, hdeck]
  refine ⟨hsame ▸ hc.good, hsame ▸ hc.distinct, hshows.fits hc.fits, hshows.supplied hc.supplied,
    fun _ j r hr hwait => ?_⟩
  rcases hacted.seat_cases hp hr with ⟨-, rfl⟩ | ⟨-, hr⟩
  · rw [hacted.actor]
    exact hc.dealt hb i p hp hw
  · exact hc.dealt hb j r hr hwait

theorem Carded.sameBets {f : Player → Player} (hc : t.Carded G) (hf : SameBets f) (n : Nat) :
    Carded G { t.mapSeats f with serverSequence := n } := by
  have hsame : inPlay { t.mapSeats f with serverSequence := n } = t.inPlay := by
    change (t.mapSeats f).holeCards ++ (t.board ++ t.rest) = _
    rw [holeCards_mapSeats fun p => by rw [hf p]; rfl]
    rfl
  refine ⟨hsame ▸ hc.good, hsame ▸ hc.distinct, hc.fits, hc.supplied, fun hb i q hq hw => ?_⟩
  obtain ⟨p, hp, rfl⟩ := mapSeats_back hq
  rw [hf p] at hw ⊢
  exact hc.dealt hb i p hp hw

theorem concludeAction_failsOnly {seat : Nat} (hb : u.Betting) (hc : u.Carded G')
    (hG : ∀ card ∈ u.atShowdown, G card) (hpos : 0 < u.contenders) :
    FailsOnly (Miscounts G) (u.concludeAction seat) := by
  unfold concludeAction
  split_ifs with hfew hdone
  · exact settleFoldWin_failsOnly hpos
  · have hask := (PaidFrom.refl u).ask u.pendingAction none
    refine advanceLoop_failsOnly (hb.ask u.pendingAction none) ?_
      (hc.paid hask (Shows.of_eq rfl rfl rfl) id) hG ?_
    · rw [hask.contenders_eq]
      omega
    · change rounds u.street ≤ 4
      cases u.street <;> decide
  · exact .ok _

theorem Inv.awaiting_of_acting (hi : t.Inv) (hb : t.street.betting = true)
    (hacting : t.actingSeat = some i) : t.Awaiting := by
  cases hi with
  | idle h =>
    rw [h.street] at hb
    exact absurd hb (by decide)
  | awaiting h => exact h
  | stranded h =>
    rw [h.acting] at hacting
    exact absurd hacting (by simp)
  | settled _ hstreet =>
    rw [hstreet] at hb
    exact absurd hb (by decide)

theorem act_failsOnly {command : ActionCommand} (hi : t.Inv) (hc : t.Carded G')
    (hG : ∀ card ∈ t.atShowdown, G card) : FailsOnly (Miscounts G) (t.act command) := by
  unfold act
  split
  · exact .ok _
  rename_i hstreet
  have hb : t.street.betting = true := by
    cases hs : t.street <;> rw [hs] at hstreet <;> first | rfl | exact absurd rfl hstreet
  split
  · exact .ok _
  rename_i i hacting
  have hawait := hi.awaiting_of_acting hb hacting
  split
  · exact .ok _
  rename_i p hp
  split_ifs with hid hcan
  · exact .ok _
  · exact .ok _
  split
  · exact .ok _
  rename_i u happ
  have hact : p.canAct = true := by
    by_contra hno
    simp [hno] at hcan
  obtain ⟨q, hacted, -⟩ := applyAction_acted hawait.toBetting hawait.matched hp hact happ
  have hnow := hacted.sequenced (u.serverSequence + 1)
  have hcont := Player.contends_of_canAct hact
  exact (concludeAction_failsOnly (hnow.betting hp hawait.toBetting)
    (hc.acted hb hnow hp (contends_iff.mp hcont).2)
    (fun card hcard => hG card (hnow.atShowdown hp hcont hcard))
    (hnow.contenders_pos hawait.contested)).bind fun _ _ => .ok _

/-! ## Operations -/

/-- **Every call returns, unless it meets a card that cannot be counted.** -/
theorem exec_failsOnly {op : TableOp} (hi : t.Inv) (hc : t.Carded G')
    (hshow : ∀ card ∈ t.atShowdown, G card) (hG : ∀ card ∈ op.cards, G card) :
    FailsOnly (Miscounts G) (t.exec op) := by
  cases op with
  | seatPlayer id seat buyIn => exact .ok _
  | removePlayer id => exact .ok _
  | setReady id ready => exact .ok _
  | setConnected id connected => exact .ok _
  | abortHand => exact .ok _
  | startHand deck =>
    obtain ⟨hd, hlen⟩ := (TableOp.Deals.startHand deck).distinct
    exact startHand_failsOnly hi.seating (fun card h => hG card (List.mem_of_mem_drop h)) hd hlen
  | startHandWithDeck cards =>
    change FailsOnly _ (t.startHandWithDeck cards)
    unfold startHandWithDeck
    cases hdeck : Deck.ofCards cards with
    | error _ => exact .ok _
    | ok deck =>
      obtain ⟨hd, hlen⟩ := (TableOp.Deals.startHandWithDeck hdeck).distinct
      obtain ⟨rfl, -⟩ := Deck.ofCards_ok hdeck
      exact startHand_failsOnly hi.seating (fun card h => hG card (List.mem_of_mem_drop h)) hd hlen
  | act command => exact (act_failsOnly hi hc hshow).bind fun _ _ => .ok _

/-- With real cards every call returns. -/
theorem Carded.returns {op : TableOp} (hc : t.Carded Card.Valid) (hi : t.Inv)
    (hvalid : ∀ card ∈ op.cards, card.Valid) : ∃ e t', t.exec op = .ok (e, t') := by
  have hshown : ∀ card ∈ t.atShowdown, card.Valid := fun card hcard =>
    hc.good card (atShowdown_subset t hcard)
  obtain ⟨r, hr⟩ := (exec_failsOnly hi hc hshown hvalid).returns fun fault hf => by
    obtain ⟨-, card, hcard, hbad⟩ := hf
    exact hbad (Card.Valid.counted hcard)
  exact ⟨r.1, r.2, hr⟩

/-- A table that is not playing, on which fewer cards lie than on `t`. -/
theorem Carded.fewer (hc : t.Carded G) (hsub : t'.inPlay.Subperm t.inPlay)
    (hboard : t'.board.length ≤ 5) (hidle : t'.street.betting = false) : t'.Carded G := by
  refine ⟨fun card h => hc.good card (hsub.subset h), hc.distinct.subperm hsub, ?_, fun hb => ?_,
    fun hb => ?_⟩
  · unfold BoardFits
    rw [hidle]
    exact hboard
  · rw [hidle] at hb
    exact absurd hb (by simp)
  · rw [hidle] at hb
    exact absurd hb (by simp)

theorem carded_of_empty (hnone : t.inPlay = []) (hboard : t.board = [])
    (hidle : t.street.betting = false) : t.Carded G := by
  refine ⟨?_, ?_, ?_, fun hb => ?_, fun hb => ?_⟩
  · rw [hnone]
    simp
  · rw [hnone]
    exact ⟨by simp, List.nodup_nil⟩
  · unfold BoardFits
    rw [hidle, hboard]
    simp
  · rw [hidle] at hb
    exact absurd hb (by simp)
  · rw [hidle] at hb
    exact absurd hb (by simp)

theorem carded_new (config : TableConfig) : (new config).Carded G := by
  have hplayers : (new config).players = [] := by
    unfold players new
    simp
  refine carded_of_empty ?_ rfl rfl
  unfold inPlay holeCards rest
  rw [hplayers]
  rfl

theorem filterMap_set_none {α : Type} : ∀ (l : List (Option α)) (i : Nat),
    ((l.set i none).filterMap id).Sublist (l.filterMap id)
  | [], _ => List.Sublist.refl _
  | none :: _, 0 => List.Sublist.refl _
  | some a :: _, 0 => List.sublist_cons_self a _
  | none :: l, i + 1 => filterMap_set_none l i
  | some a :: l, i + 1 => (filterMap_set_none l i).cons_cons a

/-- Who leaves takes the cards along. -/
theorem holeCards_leave (t : Table) (i : Nat) :
    (t.setSeat i none).holeCards.Sublist t.holeCards :=
  (filterMap_set_none t.seats i).flatMap _

theorem not_betting_of_idle (h : handIsRunning t.street = false) : t.street.betting = false := by
  cases hs : t.street <;> rw [hs] at h <;> first | rfl | exact absurd h (by decide)

theorem Outcome.paid (h : Outcome u t') : ∃ awards, PaidFrom awards u t' := by
  cases h with
  | foldWin _ hwin => exact ⟨_, hwin.paid⟩
  | awaiting _ _ hsame => exact ⟨_, hsame⟩
  | showdown _ hshow => exact ⟨_, hshow.paid⟩

/-- A started hand is played with the cards of its deck, whatever lay on the table before. -/
theorem Started.carded {op : TableOp} {deck : Deck} (h : t.Started deck t') (hs : t.Seating)
    (hdeals : op.Deals deck) (hG : ∀ card ∈ op.cards, G card) : t'.Carded G := by
  obtain ⟨hd, hlen⟩ := hdeals.distinct
  have hfresh : ∀ card ∈ _, G card := fun card hcard => hG card (hdeals.rest_subset card hcard)
  cases h with
  | awaiting hopen _ _ => exact hopen.carded hs hfresh hd hlen
  | @showdown v hopen _ hshow hshows =>
    refine (hopen.carded hs hfresh hd hlen).paid hshow.paid hshows fun _ => ?_
    rw [hopen.street]
    rfl
  | @stranded v hopen _ _ hsame =>
    subst hsame
    exact (hopen.carded hs hfresh hd hlen).paid ((PaidFrom.refl v).ask ∅ none)
      (Shows.of_eq rfl rfl rfl) id

/-- **Every operation keeps the cards in order.** -/
theorem Effect.carded {op : TableOp} (h : t.Effect op t') (hi : t.Inv) (hc : t.Carded G)
    (hG : ∀ card ∈ op.cards, G card) : t'.Carded G := by
  cases h with
  | @sits id seat buyIn hidle hrange habsent hfree _ =>
    refine hc.fewer ?_ hc.fits.le_five (not_betting_of_idle hidle)
    have hsame : (t.setSeat seat (some { id := id, seat := seat, stack := buyIn })).holeCards =
        t.holeCards := by
      refine holeCards_congr (length_setSeat t seat _) fun j => ?_
      by_cases hj : seat = j
      · subst hj
        rw [seatAt_setSeat_self hrange, hfree]
        rfl
      · rw [seatAt_setSeat_ne hj]
    change ((t.setSeat seat _).holeCards ++ (t.board ++ t.rest)).Subperm _
    rw [hsame]
    exact List.Subperm.refl _
  | @leaves id i p hp _ hout =>
    have hsub : ((t.setSeat i none).holeCards ++ (t.board ++ t.rest)).Subperm t.inPlay :=
      ((holeCards_leave t i).append (List.Sublist.refl _)).subperm
    refine ⟨fun card hcard => hc.good card (hsub.subset hcard), hc.distinct.subperm hsub, hc.fits,
      hc.supplied, fun hb j q hq hw => ?_⟩
    change (t.setSeat i none).seatAt j = some q at hq
    obtain ⟨-, hq⟩ := seatAt_of_leave hq
    exact hc.dealt hb j q hq hw
  | readies hidle =>
    exact hc.sameBets (sameBets_ite (fun _ => rfl) _) _
  | connects =>
    exact hc.sameBets (sameBets_ite (fun _ => rfl) _) _
  | starts hdeals hidle htwo hstarted =>
    exact hstarted.carded hi.seating hdeals hG
  | aborts hhand =>
    rw [abortHand_eq hi.seating hhand]
    refine carded_of_empty ?_ rfl rfl
    change (t.mapSeats (Player.rollBack t.revoked)).holeCards ++ ([] ++ []) = []
    unfold holeCards
    rw [players_mapSeats, List.append_nil, List.append_nil, List.flatMap_eq_nil_iff]
    simp only [List.forall_mem_map]
    intro p _
    rfl
  | acts hawait _ hp _ hcan hacted _ _ hshows hout =>
    have hw := (contends_iff.mp (Player.contends_of_canAct hcan)).2
    have hu := hc.acted hawait.toBetting.street hacted hp hw
    obtain ⟨awards, hpaid⟩ := hout.paid
    exact hu.paid hpaid hshows fun _ => (hacted.betting hp hawait.toBetting).street

theorem exec_carded {op : TableOp} (hi : t.Inv) (hc : t.Carded G) (hG : ∀ card ∈ op.cards, G card)
    (h : t.exec op = .ok (e, t')) : t'.Carded G := by
  rcases exec_effect hi h with ⟨-, rfl⟩ | ⟨-, heffect⟩
  · exact hc
  · exact heffect.carded hi hc hG

end Table

end PokerServer
