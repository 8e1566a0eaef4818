import PokerServer.Domain.Evaluation
import PokerServer.Storage.Records

/-!
# Real cards

`validStoredCard` (`include/poker/storage/game_store_validation.hpp`) looks at the rank and the suit
of a card. The deck and the evaluator judge by `cardIndex`, which is computed in one byte: rank 15
of a suit has the index of rank 2 in the next, so a card that is not real passes for the one whose
index it has. `RealCardsOnly` is agreement of the two notions on one list, `realCardsOnly_iff` says
for which lists they agree, and `counterfeit_accepted` shows lists for which they do not.
-/

namespace PokerServer

variable {cards : List Card}

/-- The list holds different cards, each with rank 2 to 14 and suit 0 to 3. -/
def AllReal (cards : List Card) : Prop :=
  (∀ card ∈ cards, validStoredCard card = true) ∧ cards.Nodup

/-- On this list the deck and the evaluator accept real cards only, and no card that the loop over
`seen` lets pass is counted outside `counts` and `suit_counts`. -/
structure RealCardsOnly (cards : List Card) : Prop where
  deck : (∃ deck, Deck.ofCards cards = .ok deck) ↔ cards.Perm orderedDeck
  five : cards.length = 5 → ((∃ value, evaluateFive cards = .ok value) ↔ AllReal cards)
  best : (∃ value, evaluateBest cards = .ok value) ↔
    (5 ≤ cards.length ∧ cards.length ≤ 7) ∧ AllReal cards
  fiveInRange : cards.length = 5 → Deck.seenLoop [] cards = true →
    evaluateFive cards ≠ .error .badAccess
  bestInRange : 5 ≤ cards.length ∧ cards.length ≤ 7 → Deck.seenLoop [] cards = true →
    evaluateBest cards ≠ .error .badAccess

theorem allReal_iff : AllReal cards ↔ Distinct cards ∧ ∀ card ∈ cards, card.Valid := by
  unfold AllReal
  simp only [validStoredCard_iff]
  constructor
  · rintro ⟨hvalid, hnodup⟩
    exact ⟨(distinct_iff_nodup hvalid).mpr hnodup, hvalid⟩
  · rintro ⟨hd, hvalid⟩
    exact ⟨hvalid, (distinct_iff_nodup hvalid).mp hd⟩

theorem seenLoop_nil_iff : Deck.seenLoop [] cards = true ↔ Distinct cards := by
  rw [Deck.seenLoop_iff]
  exact and_iff_left fun _ _ => List.not_mem_nil

/-- A card that is not real is accepted or, when it has no counter, counted outside the arrays. -/
theorem forall_valid_of_best {cards : List Card} (hd : Distinct cards)
    (hlen : 5 ≤ cards.length ∧ cards.length ≤ 7)
    (hreal : (∃ value, evaluateBest cards = .ok value) ↔
      (5 ≤ cards.length ∧ cards.length ≤ 7) ∧ AllReal cards)
    (hrange : evaluateBest cards ≠ .error .badAccess) : ∀ card ∈ cards, card.Valid := by
  by_cases hcount : ∀ card ∈ cards, card.Counted
  · exact (allReal_iff.mp (hreal.mp (evaluateBest_returns_iff.mpr ⟨hlen, hd, hcount⟩)).2).2
  · push Not at hcount
    exact absurd (evaluateBest_badAccess hlen.1 hlen.2 hd hcount) hrange

section Genuine

/-! ### When the index does tell -/

variable (hgenuine : Distinct cards → ∀ card ∈ cards, card.Valid)

include hgenuine in
theorem counted_iff_allReal : (Distinct cards ∧ ∀ card ∈ cards, card.Counted) ↔ AllReal cards := by
  rw [allReal_iff]
  constructor
  · exact fun h => ⟨h.1, hgenuine h.1⟩
  · exact fun h => ⟨h.1, fun card hc => (h.2 card hc).counted⟩

include hgenuine in
theorem evaluateFive_returns_iff_allReal :
    (∃ value, evaluateFive cards = .ok value) ↔ AllReal cards :=
  evaluateFive_returns_iff.trans (counted_iff_allReal hgenuine)

include hgenuine in
theorem evaluateBest_returns_iff_allReal :
    (∃ value, evaluateBest cards = .ok value) ↔
      (5 ≤ cards.length ∧ cards.length ≤ 7) ∧ AllReal cards := by
  rw [evaluateBest_returns_iff, counted_iff_allReal hgenuine]

include hgenuine in
theorem evaluateFive_inRange (hseen : Deck.seenLoop [] cards = true) :
    evaluateFive cards ≠ .error .badAccess := by
  have hd := seenLoop_nil_iff.mp hseen
  obtain ⟨value, hvalue⟩ := (evaluateFive_returns_iff_allReal hgenuine).mpr
    (allReal_iff.mpr ⟨hd, hgenuine hd⟩)
  rw [hvalue]
  simp

include hgenuine in
theorem evaluateBest_inRange (hlen : 5 ≤ cards.length ∧ cards.length ≤ 7)
    (hseen : Deck.seenLoop [] cards = true) : evaluateBest cards ≠ .error .badAccess := by
  have hd := seenLoop_nil_iff.mp hseen
  obtain ⟨value, hvalue⟩ := (evaluateBest_returns_iff_allReal hgenuine).mpr
    ⟨hlen, allReal_iff.mpr ⟨hd, hgenuine hd⟩⟩
  rw [hvalue]
  simp

end Genuine

/-- **The checks by index accept real cards only, exactly for the lists in which no card that is not
real passes for another**: a list of a length the functions are for, whose indices are below 52 and
different, consists of real cards. -/
theorem realCardsOnly_iff (cards : List Card) :
    RealCardsOnly cards ↔
      (cards.length = 52 ∨ (5 ≤ cards.length ∧ cards.length ≤ 7) →
        Distinct cards → ∀ card ∈ cards, card.Valid) := by
  constructor
  · rintro hreal (hlen | hlen) hd
    · have hperm := hreal.deck.mp (Deck.ofCards_returns_iff.mpr ⟨hlen, hd⟩)
      exact (perm_orderedDeck_iff.mp hperm).2.2
    · exact forall_valid_of_best hd hlen hreal.best
        (hreal.bestInRange hlen (seenLoop_nil_iff.mpr hd))
  · intro hgenuine
    constructor
    case deck =>
      rw [Deck.ofCards_returns_iff, perm_orderedDeck_iff]
      constructor
      · rintro ⟨hlen, hd⟩
        obtain ⟨-, hnodup⟩ := allReal_iff.mpr ⟨hd, hgenuine (.inl hlen) hd⟩
        exact ⟨hlen, hnodup, hgenuine (.inl hlen) hd⟩
      · rintro ⟨hlen, hnodup, hvalid⟩
        exact ⟨hlen, (distinct_iff_nodup hvalid).mpr hnodup⟩
    case five =>
      exact fun hlen => evaluateFive_returns_iff_allReal (hgenuine (.inr (by omega)))
    case best =>
      by_cases hlen : 5 ≤ cards.length ∧ cards.length ≤ 7
      · exact evaluateBest_returns_iff_allReal (hgenuine (.inr hlen))
      · rw [evaluateBest_returns_iff]
        exact iff_of_false (fun h => hlen h.1) fun h => hlen h.1
    case fiveInRange =>
      exact fun hlen => evaluateFive_inRange (hgenuine (.inr (by omega)))
    case bestInRange =>
      exact fun hlen => evaluateBest_inRange (hgenuine (.inr hlen)) hlen

/-- The deck with a fifteen of clubs for the two of diamonds, which has the same index, is accepted;
so is the one of diamonds for the ace of clubs in a hand; and the fifteen is counted in
`counts[15]`, which the array does not have. -/
theorem counterfeit_accepted :
    ¬ RealCardsOnly (⟨15, 0⟩ :: orderedDeck.erase ⟨2, 1⟩) ∧
      ¬ RealCardsOnly [⟨1, 1⟩, ⟨3, 0⟩, ⟨5, 0⟩, ⟨7, 1⟩, ⟨9, 2⟩] ∧
      ¬ RealCardsOnly [⟨15, 0⟩, ⟨3, 0⟩, ⟨5, 0⟩, ⟨7, 1⟩, ⟨9, 2⟩] := by
  refine ⟨fun h => ?_, fun h => ?_, fun h => ?_⟩
  · have hperm := h.deck.mp ⟨_, rfl⟩
    exact absurd (perm_orderedDeck_iff.mp hperm).2.2 (by decide)
  · have hreal := (h.five rfl).mp ⟨_, rfl⟩
    exact absurd hreal.1 (by decide)
  · exact h.fiveInRange rfl (by decide) rfl

end PokerServer
