import PokerServer.Domain.HandEvaluator

/-!
# What the deck and the evaluator accept

The input loops of `Deck(std::vector<Card>)`, `evaluateFive` and `evaluateBest` look at `cardIndex`
only. On real cards the index tells one from another (`cardIndex_injOn`), so there the loops reject
nothing but a repetition; a card that is not real may still have an index below 52.

Results:
* `perm_orderedDeck_iff`: the orders of the deck are the lists of 52 different real cards.
* `evaluateFive_returns_iff`, `evaluateBest_returns_iff`: exactly which lists are evaluated. Apart
  from the input loops, every card needs a counter for its rank and one for its suit (`Counted`).
* `evaluateFive_perm`: the order of the cards does not matter.
-/

namespace PokerServer

/-- `evaluateFive` has a counter for the rank and one for the suit. -/
def Card.Counted (card : Card) : Prop := card.rank < 15 ∧ card.suit < 4

instance (card : Card) : Decidable card.Counted :=
  inferInstanceAs (Decidable (card.rank < 15 ∧ card.suit < 4))

variable {card a b : Card} {cards hand hand' : List Card} {value : HandValue}

/-! ## Real cards -/

theorem Card.Valid.toNat (h : card.Valid) :
    2 ≤ card.rank.toNat ∧ card.rank.toNat ≤ 14 ∧ card.suit.toNat ≤ 3 := h

theorem Card.Valid.counted (h : card.Valid) : card.Counted :=
  ⟨UInt8.lt_iff_toNat_lt.mpr (Nat.lt_succ_of_le h.toNat.2.1),
    UInt8.lt_iff_toNat_lt.mpr (Nat.lt_succ_of_le h.toNat.2.2)⟩

theorem Card.Valid.toNat_cardIndex (h : card.Valid) :
    (cardIndex card).toNat = card.suit.toNat * 13 + card.rank.toNat - 2 := by
  obtain ⟨hlow, hhigh, hsuit⟩ := h.toNat
  unfold cardIndex
  rw [UInt8.toNat_sub, UInt8.toNat_add, UInt8.toNat_mul]
  simp only [UInt8.reduceToNat]
  omega

theorem Card.Valid.cardIndex_lt (h : card.Valid) : cardIndex card < 52 := by
  obtain ⟨hlow, hhigh, hsuit⟩ := h.toNat
  rw [UInt8.lt_iff_toNat_lt, h.toNat_cardIndex]
  show _ < 52
  omega

/-- **Two real cards with one index are one card.** -/
theorem cardIndex_injOn (ha : a.Valid) (hb : b.Valid) (h : cardIndex a = cardIndex b) : a = b := by
  obtain ⟨halow, hahigh, hasuit⟩ := ha.toNat
  obtain ⟨hblow, hbhigh, hbsuit⟩ := hb.toNat
  have hindex := congrArg UInt8.toNat h
  rw [ha.toNat_cardIndex, hb.toNat_cardIndex] at hindex
  have hsuit : a.suit = b.suit := UInt8.toNat_inj.mp (by omega)
  have hrank : a.rank = b.rank := UInt8.toNat_inj.mp (by omega)
  cases a
  cases b
  simp_all

/-- Lists of real cards are distinct when nothing is repeated. -/
theorem distinct_iff_nodup (h : ∀ card ∈ cards, card.Valid) : Distinct cards ↔ cards.Nodup := by
  constructor
  · exact fun hd => hd.nodup.of_map
  · intro hnodup
    refine ⟨fun card hc => (h card hc).cardIndex_lt, ?_⟩
    refine List.Nodup.map_on (fun a ha b hb => ?_) hnodup
    exact cardIndex_injOn (h a ha) (h b hb)

theorem mem_orderedDeck_iff : card ∈ orderedDeck ↔ card.Valid := by
  constructor
  · have hall : ∀ card ∈ orderedDeck, card.Valid := by decide
    exact hall card
  · intro h
    obtain ⟨hlow, hhigh, hsuit⟩ := h.toNat
    unfold orderedDeck
    rw [List.mem_flatMap]
    refine ⟨card.suit.toNat, List.mem_range.mpr (by omega), List.mem_map.mpr
      ⟨card.rank.toNat - 2, List.mem_range.mpr (by omega), ?_⟩⟩
    rw [Nat.sub_add_cancel hlow, UInt8.ofNat_toNat, UInt8.ofNat_toNat]

theorem nodup_orderedDeck : orderedDeck.Nodup := by decide

/-- **The orders of the deck are the lists of 52 different real cards.** -/
theorem perm_orderedDeck_iff :
    cards.Perm orderedDeck ↔ cards.length = 52 ∧ cards.Nodup ∧ ∀ card ∈ cards, card.Valid := by
  constructor
  · intro h
    refine ⟨h.length_eq, h.nodup_iff.mpr nodup_orderedDeck, fun card hc => ?_⟩
    exact mem_orderedDeck_iff.mp (h.subset hc)
  · rintro ⟨hlen, hnodup, hvalid⟩
    have hsub : cards.Subperm orderedDeck :=
      List.subperm_of_subset hnodup fun card hc => mem_orderedDeck_iff.mpr (hvalid card hc)
    exact hsub.perm_of_length_le (by rw [hlen]; decide)

/-! ## The deck -/

theorem Deck.ofCards_returns_iff :
    (∃ deck, Deck.ofCards cards = .ok deck) ↔ cards.length = 52 ∧ Distinct cards := by
  constructor
  · rintro ⟨deck, h⟩
    exact (Deck.ofCards_ok h).2
  · rintro ⟨hlen, hd⟩
    refine ⟨{ cards := cards }, ?_⟩
    unfold Deck.ofCards
    rw [if_neg (not_not.mpr hlen), if_pos (Deck.seenLoop_iff.mpr ⟨hd, by simp⟩)]

/-! ## Five cards -/

theorem not_counted_iff : 15 ≤ card.rank ∨ 4 ≤ card.suit ↔ ¬ card.Counted := by
  unfold Card.Counted
  rw [not_and_or, UInt8.not_lt, UInt8.not_lt]

/-- The input loop of `evaluateFive` ends: no index repeated, every card counted. -/
theorem tally_ok_iff : ∀ {cards : List Card} {seen : List UInt8},
    tally seen cards = .ok () ↔
      Deck.seenLoop seen cards = true ∧ ∀ card ∈ cards, card.Counted
  | [], _ => by simp [tally, Deck.seenLoop]
  | card :: cards, seen => by
    rw [tally, Deck.seenLoop, List.forall_mem_cons]
    by_cases hbad : 52 ≤ cardIndex card ∨ cardIndex card ∈ seen
    · simp [hbad]
    · by_cases hcount : card.Counted
      · simp only [if_neg hbad, if_neg (mt not_counted_iff.mp (not_not.mpr hcount)), tally_ok_iff,
          hcount, true_and]
      · simp [if_neg hbad, if_pos (not_counted_iff.mpr hcount), hcount]

/-- The input loop of `evaluateFive` indexes past a counter when a card it cannot count is
reached before the loop would throw; when no index is repeated, any such card. -/
theorem tally_badAccess : ∀ {cards : List Card} {seen : List UInt8},
    Deck.seenLoop seen cards = true → (∃ card ∈ cards, ¬ card.Counted) →
      tally seen cards = .error .badAccess
  | [], _, _, h => by simp at h
  | card :: cards, seen, hseen, h => by
    rw [Deck.seenLoop] at hseen
    split_ifs at hseen with hbad
    rw [tally, if_neg hbad]
    by_cases hcount : card.Counted
    · rw [if_neg (mt not_counted_iff.mp (not_not.mpr hcount))]
      obtain ⟨c, hc, hnot⟩ := h
      rcases List.mem_cons.mp hc with rfl | hc
      · exact absurd hcount hnot
      · exact tally_badAccess hseen ⟨c, hc, hnot⟩
    · rw [if_pos (not_counted_iff.mpr hcount)]

/-- Whether one suit has all five cards. -/
def isFlush (cards : List Card) : Bool := (List.range 4).any fun suit => suitCount cards suit == 5

/-- **What `evaluateFive` returns, and for which cards.** -/
theorem evaluateFive_eq_ok_iff :
    evaluateFive cards = .ok value ↔
      (Distinct cards ∧ ∀ card ∈ cards, card.Counted) ∧
        value = handValue (rankCount cards) (isFlush cards) := by
  have htally : tally [] cards = .ok () ↔ _ := tally_ok_iff
  rw [Deck.seenLoop_iff] at htally
  simp only [List.not_mem_nil, not_false_iff, implies_true, and_true] at htally
  rw [← htally]
  unfold evaluateFive
  cases tally [] cards with
  | error fault => simp [bind, Except.bind]
  | ok u =>
    simp only [bind, Except.bind, pure, Except.pure, Except.ok.injEq, true_and]
    exact eq_comm

theorem evaluateFive_returns_iff :
    (∃ value, evaluateFive cards = .ok value) ↔ Distinct cards ∧ ∀ card ∈ cards, card.Counted := by
  simp only [evaluateFive_eq_ok_iff, exists_and_left, exists_eq, and_true]

theorem evaluateFive_badAccess (hd : Distinct cards) (h : ∃ card ∈ cards, ¬ card.Counted) :
    evaluateFive cards = .error .badAccess := by
  have hloop : tally [] cards = .error .badAccess :=
    tally_badAccess (Deck.seenLoop_iff.mpr ⟨hd, fun _ _ => List.not_mem_nil⟩) h
  unfold evaluateFive
  rw [hloop]
  rfl

/-! ### The order of the cards -/

theorem rankCount_perm (h : hand.Perm hand') : rankCount hand = rankCount hand' := by
  funext rank
  exact h.countP_eq _

theorem suitCount_perm (h : hand.Perm hand') : suitCount hand = suitCount hand' := by
  funext suit
  exact h.countP_eq _

/-- **`evaluateFive` does not depend on the order of the cards.** -/
theorem evaluateFive_perm (h : hand.Perm hand') :
    evaluateFive hand = .ok value ↔ evaluateFive hand' = .ok value := by
  have hd : Distinct hand ↔ Distinct hand' :=
    ⟨fun hd => hd.subperm h.symm.subperm, fun hd => hd.subperm h.subperm⟩
  have hcount : (∀ card ∈ hand, card.Counted) ↔ ∀ card ∈ hand', card.Counted := by
    simp only [h.mem_iff]
  have hflush : isFlush hand = isFlush hand' := by
    unfold isFlush
    rw [suitCount_perm h]
  rw [evaluateFive_eq_ok_iff, evaluateFive_eq_ok_iff, hd, hcount, rankCount_perm h, hflush]

/-! ## Five of up to seven cards -/

/-- The choices are the sublists of their length. -/
theorem mem_choose_iff {α : Type} : ∀ {k : Nat} {l hand : List α},
    hand ∈ choose k l ↔ hand.Sublist l ∧ hand.length = k
  | 0, l, hand => by
    rw [choose, List.mem_singleton, List.length_eq_zero_iff]
    exact ⟨fun h => ⟨h ▸ List.nil_sublist l, h⟩, And.right⟩
  | k + 1, [], hand => by
    rw [choose, List.sublist_nil]
    refine iff_of_false List.not_mem_nil ?_
    rintro ⟨rfl, hlen⟩
    exact absurd hlen (by simp)
  | k + 1, x :: xs, hand => by
    rw [choose, List.mem_append, List.mem_map, mem_choose_iff]
    constructor
    · rintro (⟨rest, hrest, rfl⟩ | ⟨hsub, hlen⟩)
      · obtain ⟨hsub, hlen⟩ := mem_choose_iff.mp hrest
        exact ⟨hsub.cons_cons x, by rw [List.length_cons, hlen]⟩
      · exact ⟨hsub.cons x, hlen⟩
    · rintro ⟨hsub, hlen⟩
      cases hsub with
      | cons _ hsub => exact .inr ⟨hsub, hlen⟩
      | cons_cons _ hsub =>
        exact .inl ⟨_, mem_choose_iff.mpr ⟨hsub, by simpa using hlen⟩, rfl⟩

/-- Every element of a long enough list is in one of the choices. -/
theorem exists_choose_mem {α : Type} {x : α} {k : Nat} : ∀ {l : List α}, x ∈ l → k + 1 ≤ l.length →
    ∃ hand ∈ choose (k + 1) l, x ∈ hand
  | y :: ys, hx, hlen => by
    by_cases hfits : k + 1 ≤ ys.length
    · rcases List.mem_cons.mp hx with rfl | hx
      · refine ⟨x :: ys.take k, mem_choose_iff.mpr ⟨(List.take_sublist k ys).cons_cons x, ?_⟩,
          List.mem_cons_self⟩
        rw [List.length_cons, List.length_take]
        omega
      · obtain ⟨hand, hhand, hmem⟩ := exists_choose_mem hx hfits
        obtain ⟨hsub, hcard⟩ := mem_choose_iff.mp hhand
        exact ⟨hand, mem_choose_iff.mpr ⟨hsub.cons y, hcard⟩, hmem⟩
    · rw [List.length_cons] at hlen
      exact ⟨y :: ys, mem_choose_iff.mpr ⟨.refl _, by rw [List.length_cons]; omega⟩, hx⟩

/-- What the innermost loop keeps: the new value when it is the first or a greater one. -/
def HandValue.kept (best : Option HandValue) (value : HandValue) : HandValue :=
  match best with
  | none => value
  | some best => if best.lt value then value else best

theorem better_eq (best : Option HandValue) (hand : List Card) :
    better best hand = (evaluateFive hand).map fun value => some (HandValue.kept best value) := by
  unfold better
  cases evaluateFive hand with
  | error fault => rfl
  | ok value => cases best <;> rfl

theorem better_foldlM_returns_iff : ∀ {hands : List (List Card)} {best : Option HandValue},
    (∃ best', hands.foldlM better best = .ok best') ↔
      ∀ hand ∈ hands, ∃ value, evaluateFive hand = .ok value
  | [], best => by simp [pure, Except.pure]
  | hand :: hands, best => by
    rw [List.foldlM_cons, List.forall_mem_cons, better_eq]
    cases evaluateFive hand with
    | error fault => simp [bind, Except.bind, Except.map]
    | ok value =>
      have hrest :
          (∃ best', hands.foldlM better (some (HandValue.kept best value)) = .ok best') ↔ _ :=
        better_foldlM_returns_iff
      simp only [bind, Except.bind, Except.map, Except.ok.injEq, exists_eq', true_and]
      exact hrest

/-- **What `evaluateBest` accepts.** -/
theorem evaluateBest_returns_iff :
    (∃ value, evaluateBest cards = .ok value) ↔
      (5 ≤ cards.length ∧ cards.length ≤ 7) ∧ Distinct cards ∧ ∀ card ∈ cards, card.Counted := by
  unfold evaluateBest
  by_cases hlen : cards.length < 5 ∨ 7 < cards.length
  · rw [if_pos hlen]
    refine iff_of_false (by simp) ?_
    rintro ⟨⟨hlow, hhigh⟩, -⟩
    omega
  have hbounds : 5 ≤ cards.length ∧ cards.length ≤ 7 := by omega
  rw [if_neg hlen]
  by_cases hd : Distinct cards
  · have hseen : Deck.seenLoop [] cards = true := Deck.seenLoop_iff.mpr ⟨hd, by simp⟩
    have hloop : (∃ best, (choose 5 cards).foldlM better none = .ok best) ↔ _ :=
      better_foldlM_returns_iff
    rw [hseen]
    simp only [Bool.not_true, Bool.false_eq_true, if_false]
    have hall : (∀ hand ∈ choose 5 cards, ∃ value, evaluateFive hand = .ok value) ↔
        ∀ card ∈ cards, card.Counted := by
      constructor
      · intro h card hc
        obtain ⟨hand, hhand, hmem⟩ := exists_choose_mem hc hbounds.1
        exact (evaluateFive_returns_iff.mp (h hand hhand)).2 card hmem
      · intro h hand hhand
        have hsub := (mem_choose_iff.mp hhand).1
        exact evaluateFive_returns_iff.mpr
          ⟨hd.subperm hsub.subperm, fun card hc => h card (hsub.subset hc)⟩
    rw [← hall, ← hloop]
    constructor
    · rintro ⟨value, h⟩
      refine ⟨hbounds, hd, ?_⟩
      cases hfold : (choose 5 cards).foldlM better none with
      | error fault => rw [hfold] at h; exact absurd h (by simp [bind, Except.bind])
      | ok best => exact ⟨best, rfl⟩
    · rintro ⟨-, -, best, h⟩
      rw [h]
      exact ⟨_, rfl⟩
  · have hseen : Deck.seenLoop [] cards = false := by
      rw [← Bool.not_eq_true, Deck.seenLoop_iff]
      exact fun h => hd h.1
    rw [hseen]
    exact iff_of_false (by simp) fun h => hd h.2.1

/-- A choice with a card that cannot be counted ends the loops. -/
theorem better_foldlM_badAccess : ∀ {hands : List (List Card)} {best : Option HandValue},
    (∀ hand ∈ hands, (∃ value, evaluateFive hand = .ok value) ∨
      evaluateFive hand = .error .badAccess) →
    (∃ hand ∈ hands, evaluateFive hand = .error .badAccess) →
      hands.foldlM better best = .error .badAccess
  | [], _, _, h => by simp at h
  | hand :: hands, best, hall, h => by
    rw [List.foldlM_cons, better_eq]
    rcases hall hand List.mem_cons_self with ⟨value, hvalue⟩ | hbad
    · obtain ⟨bad, hbad, herror⟩ := h
      rcases List.mem_cons.mp hbad with rfl | hbad
      · rw [hvalue] at herror
        exact absurd herror (by simp)
      · rw [hvalue]
        exact better_foldlM_badAccess (fun hand hh => hall hand (List.mem_cons_of_mem _ hh))
          ⟨bad, hbad, herror⟩
    · rw [hbad]
      rfl

theorem evaluateBest_badAccess (hlow : 5 ≤ cards.length) (hhigh : cards.length ≤ 7)
    (hd : Distinct cards) (h : ∃ card ∈ cards, ¬ card.Counted) :
    evaluateBest cards = .error .badAccess := by
  have hseen : Deck.seenLoop [] cards = true := Deck.seenLoop_iff.mpr ⟨hd, by simp⟩
  have hchoice : ∀ hand ∈ choose 5 cards, Distinct hand := fun hand hhand =>
    hd.subperm (mem_choose_iff.mp hhand).1.subperm
  have hloop : (choose 5 cards).foldlM better none = .error .badAccess := by
    refine better_foldlM_badAccess (fun hand hhand => ?_) ?_
    · by_cases hcount : ∀ card ∈ hand, card.Counted
      · exact .inl (evaluateFive_returns_iff.mpr ⟨hchoice hand hhand, hcount⟩)
      · push Not at hcount
        exact .inr (evaluateFive_badAccess (hchoice hand hhand) hcount)
    · obtain ⟨card, hc, hnot⟩ := h
      obtain ⟨hand, hhand, hmem⟩ := exists_choose_mem hc hlow
      exact ⟨hand, hhand, evaluateFive_badAccess (hchoice hand hhand) ⟨card, hmem, hnot⟩⟩
  unfold evaluateBest
  rw [if_neg (by omega), hseen]
  simp only [Bool.not_true, Bool.false_eq_true, if_false]
  rw [hloop]
  rfl

end PokerServer
