import Mathlib.Data.List.Lex
import PokerServer.Domain.Card

/-!
# The hand evaluator

Model of `src/poker/domain/hand_evaluator.cpp`: `straightHigh`, `descendingRanks`,
`evaluateFive`, `evaluateBest` and the order on `HandValue`.

* `counts[rank]` and `suit_counts[suit]` are read as `count` functions of the five cards; an
  index past either array is `Fault.badAccess` (`tally`).
* The five nested index loops of `evaluateBest` are `choose 5`, in the same order.

`operator<` is the lexicographic order on what `std::tie` compares (`HandValue.lt_iff`), so that of
two different hands one is better.
-/

namespace PokerServer

inductive HandCategory where
  | highCard
  | onePair
  | twoPair
  | threeOfAKind
  | straight
  | flush
  | fullHouse
  | fourOfAKind
  | straightFlush
  deriving DecidableEq, Repr

/-- The underlying value of the enumeration, which `std::tie` compares. -/
def HandCategory.value : HandCategory → Nat
  | .highCard => 0
  | .onePair => 1
  | .twoPair => 2
  | .threeOfAKind => 3
  | .straight => 4
  | .flush => 5
  | .fullHouse => 6
  | .fourOfAKind => 7
  | .straightFlush => 8

/-- `HandValue`: `tiebreak` has five entries. -/
structure HandValue where
  category : HandCategory := .highCard
  tiebreak : List Nat := [0, 0, 0, 0, 0]
  deriving DecidableEq, Repr

/-- Lexicographic `<`, as `std::array` and `std::tie` compare. -/
def lexLt : List Nat → List Nat → Bool
  | [], [] => false
  | [], _ :: _ => true
  | _ :: _, [] => false
  | x :: xs, y :: ys => decide (x < y) || (x == y && lexLt xs ys)

/-- `operator<` on `HandValue`. -/
def HandValue.lt (lhs rhs : HandValue) : Bool :=
  lexLt (lhs.category.value :: lhs.tiebreak) (rhs.category.value :: rhs.tiebreak)

/-- `for (int rank = 14; rank >= 2; --rank)`. -/
def ranksDown : List Nat := [14, 13, 12, 11, 10, 9, 8, 7, 6, 5, 4, 3, 2]

/-- The cards of one rank: `counts[rank]`. -/
def rankCount (cards : List Card) (rank : Nat) : Nat :=
  cards.countP fun card => card.rank.toNat == rank

/-- The cards of one suit: `suit_counts[suit]`. -/
def suitCount (cards : List Card) (suit : Nat) : Nat :=
  cards.countP fun card => card.suit.toNat == suit

/-- The descending loop of `straightHigh`: five consecutive ranks ending at `rank`. -/
def straightLoop (counts : Nat → Nat) : Nat → List Nat → Option Nat
  | _, [] => none
  | consecutive, rank :: ranks =>
    if 0 < counts rank then
      if consecutive + 1 = 5 then some (rank + 4) else straightLoop counts (consecutive + 1) ranks
    else straightLoop counts 0 ranks

/-- `straightHigh`: the top rank of a straight, 5 for the wheel, 0 for none. -/
def straightHigh (counts : Nat → Nat) : Nat :=
  match straightLoop counts 0 ranksDown with
  | some high => high
  | none =>
    if 0 < counts 14 ∧ 0 < counts 2 ∧ 0 < counts 3 ∧ 0 < counts 4 ∧ 0 < counts 5 then 5 else 0

/-- `descendingRanks`. -/
def descendingRanks (counts : Nat → Nat) : List Nat :=
  ranksDown.flatMap fun rank => List.replicate (counts rank) rank

/-- The ranks that occur exactly `n` times, from the top. -/
def ranksWithCount (counts : Nat → Nat) (n : Nat) : List Nat :=
  ranksDown.filter fun rank => counts rank == n

/-- The input loop of `evaluateFive`: a duplicate or out-of-range index throws, and the two
counters are indexed by the card's own bytes. -/
def tally : List UInt8 → List Card → Except Fault Unit
  | _, [] => .ok ()
  | seen, card :: cards =>
    if 52 ≤ cardIndex card ∨ cardIndex card ∈ seen then
      .error (.invalidArgument "hand contains an invalid or duplicate card")
    else if 15 ≤ card.rank ∨ 4 ≤ card.suit then .error .badAccess
    else tally (cardIndex card :: seen) cards

/-- Pad a tiebreak to the five entries of the array. -/
def tiebreak5 (ranks : List Nat) : List Nat := (ranks ++ [0, 0, 0, 0, 0]).take 5

/-- The value of five counted cards. `four` and `three` hold the last rank the descending loop
saw, `pairs` the first two. -/
def handValue (counts : Nat → Nat) (flush : Bool) : HandValue :=
  let straight := straightHigh counts
  let four := (ranksWithCount counts 4).getLast?.getD 0
  let three := (ranksWithCount counts 3).getLast?.getD 0
  let pairs := (ranksWithCount counts 2).take 2
  let singles := ranksWithCount counts 1
  if flush && straight != 0 then ⟨.straightFlush, tiebreak5 [straight]⟩
  else if four ≠ 0 then ⟨.fourOfAKind, tiebreak5 (four :: singles.take 1)⟩
  else if three ≠ 0 ∧ pairs ≠ [] then ⟨.fullHouse, tiebreak5 (three :: pairs.take 1)⟩
  else if flush then ⟨.flush, tiebreak5 (descendingRanks counts)⟩
  else if straight ≠ 0 then ⟨.straight, tiebreak5 [straight]⟩
  else if three ≠ 0 then ⟨.threeOfAKind, tiebreak5 (three :: singles.take 2)⟩
  else if 2 ≤ pairs.length then ⟨.twoPair, tiebreak5 (pairs ++ singles.take 1)⟩
  else if pairs.length = 1 then ⟨.onePair, tiebreak5 (pairs ++ singles.take 3)⟩
  else ⟨.highCard, tiebreak5 (descendingRanks counts)⟩

/-- `evaluateFive`. -/
def evaluateFive (cards : List Card) : Except Fault HandValue := do
  tally [] cards
  let flush := (List.range 4).any fun suit => suitCount cards suit == 5
  return handValue (rankCount cards) flush

/-- The `k`-element choices of a list, in the order of `k` nested index loops. -/
def choose {α : Type} : Nat → List α → List (List α)
  | 0, _ => [[]]
  | _ + 1, [] => []
  | k + 1, x :: xs => (choose k xs).map (x :: ·) ++ choose (k + 1) xs

/-- The body of the innermost loop of `evaluateBest`: keep the first greatest value. -/
def better (best : Option HandValue) (hand : List Card) : Except Fault (Option HandValue) := do
  let value ← evaluateFive hand
  match best with
  | none => return some value
  | some best => return some (if best.lt value then value else best)

/-- `evaluateBest`. -/
def evaluateBest (cards : List Card) : Except Fault HandValue :=
  if cards.length < 5 ∨ 7 < cards.length then
    .error (.invalidArgument "best-hand evaluation requires five to seven cards")
  else if !Deck.seenLoop [] cards then
    .error (.invalidArgument "hand contains an invalid or duplicate card")
  else do
    let best ← (choose 5 cards).foldlM better none
    return best.getD {}

/-! ## The order of hands -/

theorem lexLt_iff : ∀ {xs ys : List Nat}, lexLt xs ys = true ↔ xs < ys
  | [], [] => by simp [lexLt]
  | [], _ :: _ => by simp [lexLt]
  | _ :: _, [] => by simp [lexLt]
  | x :: xs, y :: ys => by
    rw [lexLt, List.cons_lt_cons_iff]
    simp only [Bool.or_eq_true, decide_eq_true_eq, Bool.and_eq_true, beq_iff_eq, lexLt_iff]

theorem HandCategory.value_injective : Function.Injective HandCategory.value := by
  intro c c' h
  cases c <;> cases c' <;> first | rfl | exact absurd h (by decide)

namespace HandValue

variable {a b c : HandValue}

/-- What `std::tie` compares, as one list. -/
def strength (value : HandValue) : List Nat := value.category.value :: value.tiebreak

theorem lt_iff : a.lt b = true ↔ a.strength < b.strength := lexLt_iff

theorem lt_irrefl (a : HandValue) : a.lt a = false := by
  rw [← Bool.not_eq_true, lt_iff]
  exact (lt_self_iff_false _).mp

theorem lt_trans (h : a.lt b = true) (h' : b.lt c = true) : a.lt c = true := by
  rw [lt_iff] at *
  exact h.trans h'

theorem strength_injective : Function.Injective strength := by
  rintro ⟨c, ts⟩ ⟨c', ts'⟩ h
  obtain ⟨hvalue, htie⟩ := List.cons.inj h
  rw [show c = c' from HandCategory.value_injective hvalue, show ts = ts' from htie]

/-- Of two hands of which neither is better, both are the same. -/
theorem eq_of_not_lt (h : ¬ a.lt b = true) (h' : ¬ b.lt a = true) : a = b := by
  rw [lt_iff, not_lt] at h h'
  exact strength_injective (le_antisymm h' h)

end HandValue

end PokerServer
