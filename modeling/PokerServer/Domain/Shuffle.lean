import Mathlib.Probability.Distributions.Uniform
import PokerServer.Domain.Evaluation
import PokerServer.Lib.FisherYates

/-!
# The shuffle is fair

`Deck(RandomSource&)` (`src/poker/domain/deck.cpp`) asks the source once at each bound from 52 down
to 2. An answer sequence is an `Answers 52`; on it the loop is the Fisher–Yates shuffle of
`orderedDeck` (`shuffleLoop_eq`), which no answer makes leave the deck.

* `shuffled_bijective`: every deck of 52 cards arises from exactly one answer sequence, and when all
  sequences are equally likely (independent uniform answers) all 52! orders are.
-/

namespace PokerServer.Deck

open FisherYates
open scoped ENNReal

variable {cards : List Card} {n : Nat}

theorem swap_eq {i j : Nat} (hi : i < cards.length) (hj : j < cards.length) :
    swap cards i j = .ok (swapAt cards i j) := by
  unfold swap
  rw [swapAt_eq hi hj, List.getElem?_eq_getElem hi, List.getElem?_eq_getElem hj]

/-- **On answers below their bounds the loop is the Fisher–Yates shuffle.** -/
theorem shuffleLoop_eq {uniform : Nat → Nat} (h : ∀ bound, 0 < bound → uniform bound < bound) :
    ∀ {n : Nat} {cards : List Card}, n ≤ cards.length →
      shuffleLoop uniform n cards = .ok (shuffle uniform n cards)
  | 0, _, _ => rfl
  | 1, _, _ => rfl
  | n + 2, cards, hn => by
    have hchosen := h (n + 2) (by omega)
    have hstep := swapAt_step_perm h hn
    rw [shuffleLoop, swap_eq (by omega) (by omega), shuffle]
    exact shuffleLoop_eq h (by rw [hstep.length_eq]; omega)

theorem length_orderedDeck : orderedDeck.length = 52 := rfl

theorem next_new (cards : List Card) : ({ cards } : Deck).next = 0 := rfl

/-- A full deck is an order of the 52 cards. -/
def ofOrder (order : { cards : List Card // cards.Perm orderedDeck }) : FullDeck where
  cards := order.val
  perm := order.property
  fresh := next_new order.val

theorem toDeck_ofOrder (order : { cards : List Card // cards.Perm orderedDeck }) :
    (ofOrder order).toDeck = { cards := order.val } := rfl

theorem ofOrder_bijective : Function.Bijective ofOrder := by
  constructor
  · intro order order' h
    exact Subtype.ext (congrArg (fun full : FullDeck => full.cards) h)
  · rintro ⟨⟨cards, next⟩, perm, fresh⟩
    obtain rfl : next = 0 := fresh
    exact ⟨⟨cards, perm⟩, rfl⟩

/-- The deck an answer sequence gives. -/
def ofAnswers (answers : Answers 52) : FullDeck := ofOrder (orderOf length_orderedDeck answers)

theorem ofAnswers_bijective : Function.Bijective ofAnswers :=
  ofOrder_bijective.comp (orderOf_bijective length_orderedDeck nodup_orderedDeck)

theorem shuffled_eq (answers : Answers 52) :
    shuffled answers.at = .ok (ofAnswers answers).toDeck := by
  unfold shuffled ofAnswers
  rw [shuffleLoop_eq answers.at_lt (Nat.le_refl _), length_orderedDeck, toDeck_ofOrder, orderOf_val]
  simp only [bind, Except.bind, pure, Except.pure]

theorem toDeck_injective {full full' : FullDeck} (h : full.toDeck = full'.toDeck) :
    full = full' := by
  obtain ⟨deck, perm, fresh⟩ := full
  obtain ⟨deck', perm', fresh'⟩ := full'
  obtain rfl : deck = deck' := h
  rfl

theorem shuffled_eq_iff {answers : Answers 52} {full : FullDeck} :
    shuffled answers.at = .ok full.toDeck ↔ ofAnswers answers = full := by
  rw [shuffled_eq, Except.ok.injEq]
  constructor
  · exact toDeck_injective
  · exact congrArg FullDeck.toDeck

/-- **The shuffle is a bijection from the answer sequences to the orders of the deck.** -/
theorem shuffled_bijective :
    (∀ answers : Answers 52, ∃ full : FullDeck, shuffled answers.at = .ok full.toDeck) ∧
      (∀ answers answers' : Answers 52,
        shuffled answers.at = shuffled answers'.at → answers = answers') ∧
      (∀ full : FullDeck, ∃! answers : Answers 52, shuffled answers.at = .ok full.toDeck) ∧
      Fintype.card (Answers 52) = Nat.factorial 52 ∧
      ∀ full : FullDeck, ((PMF.uniformOfFintype (Answers 52)).map fun answers =>
        shuffled answers.at) (.ok full.toDeck) = (Nat.factorial 52 : ℝ≥0∞)⁻¹ := by
  obtain ⟨hinj, hsurj⟩ := ofAnswers_bijective
  refine ⟨fun answers => ⟨_, shuffled_eq answers⟩, fun answers answers' h => ?_, fun full => ?_,
    card_answers 52, fun full => ?_⟩
  · rw [shuffled_eq answers'] at h
    exact hinj (shuffled_eq_iff.mp h)
  · obtain ⟨answers, hanswers⟩ := hsurj full
    refine ⟨answers, shuffled_eq_iff.mpr hanswers, fun other hother => ?_⟩
    exact hinj ((shuffled_eq_iff.mp hother).trans hanswers.symm)
  · obtain ⟨answers, hanswers⟩ := hsurj full
    -- one sequence gives this deck, and each sequence has probability 1 / 52!
    rw [PMF.map_apply, tsum_eq_single answers, if_pos (shuffled_eq_iff.mpr hanswers).symm,
      PMF.uniformOfFintype_apply, card_answers]
    intro other hother
    refine if_neg fun h => hother ?_
    exact hinj ((shuffled_eq_iff.mp h.symm).trans hanswers.symm)

end PokerServer.Deck
