import Mathlib.Data.List.Perm.Basic
import Mathlib.Data.List.Nodup

/-!
# Cards, the deck and the exceptions of the domain layer

Model of `include/poker/domain/card.hpp`, `src/poker/domain/card.cpp` and the deck of
`src/poker/domain/deck.cpp`.

* `Rank` and `Suit` are `enum class : std::uint8_t`, so a `Card` holds two arbitrary bytes and
  `cardIndex` is computed modulo 256.
* A throw (or an access the language leaves undefined) is a `Fault`; a function that can end in
  one returns `Except Fault`.
* `Deck.seenLoop` is the loop over `std::array<bool, 52> seen` which `Deck(std::vector<Card>)`,
  `evaluateFive` and `evaluateBest` share.
-/

namespace PokerServer

/-- What ends a call early: the exceptions the domain code throws, and an access that is
undefined (an empty `std::optional`, a null pointer, an index past an array). -/
inductive Fault where
  | outOfRange (what : String)
  | logicError (what : String)
  | invalidArgument (what : String)
  | badAccess
  deriving DecidableEq, Repr

/-- `Card`: a rank byte (2 to 14 when valid) and a suit byte (0 to 3 when valid). -/
structure Card where
  rank : UInt8 := 2
  suit : UInt8 := 0
  deriving DecidableEq, Repr, Inhabited

/-- `cardIndex`: `suit * 13 + rank - 2`, truncated to a byte. -/
def cardIndex (card : Card) : UInt8 :=
  card.suit * 13 + card.rank - 2

/-- `orderedDeck`: for each suit in order, the ranks 2 to 14. -/
def orderedDeck : List Card :=
  (List.range 4).flatMap fun suit =>
    (List.range 13).map fun rank => ⟨UInt8.ofNat (rank + 2), UInt8.ofNat suit⟩

/-- `std::vector<Card>` behind a read position. -/
structure Deck where
  cards : List Card
  next : Nat := 0
  deriving DecidableEq, Repr

namespace Deck

/-- The loop over `seen`: every index is below 52 and occurs once. -/
def seenLoop : List UInt8 → List Card → Bool
  | _, [] => true
  | seen, card :: cards =>
    if 52 ≤ cardIndex card ∨ cardIndex card ∈ seen then false
    else seenLoop (cardIndex card :: seen) cards

/-- `Deck(std::vector<Card>)`. -/
def ofCards (cards : List Card) : Except Fault Deck :=
  if cards.length ≠ 52 then .error (.invalidArgument "a poker deck must contain 52 cards")
  else if seenLoop [] cards then .ok { cards := cards }
  else .error (.invalidArgument "deck contains an invalid or duplicate card")

/-- `Deck::draw`. -/
def draw (deck : Deck) : Except Fault (Card × Deck) :=
  match deck.cards[deck.next]? with
  | none => .error (.outOfRange "deck is empty")
  | some card => .ok (card, { deck with next := deck.next + 1 })

/-- `Deck::burn`: a draw whose card is dropped. -/
def burn (deck : Deck) : Except Fault Deck := do
  let (_, deck) ← deck.draw
  return deck

/-- The cards still to be drawn. -/
def rest (deck : Deck) : List Card := deck.cards.drop deck.next

theorem draw_ok {deck deck' : Deck} {card : Card} (h : deck.draw = .ok (card, deck')) :
    deck.rest = card :: deck'.rest ∧ deck'.cards = deck.cards := by
  unfold draw at h
  split at h
  · exact absurd h (by simp)
  · rename_i c hc
    simp only [Except.ok.injEq, Prod.mk.injEq] at h
    obtain ⟨rfl, rfl⟩ := h
    obtain ⟨hlt, hget⟩ := List.getElem?_eq_some_iff.mp hc
    refine ⟨?_, rfl⟩
    unfold rest
    rw [List.drop_eq_getElem_cons hlt, hget]

theorem burn_ok {deck deck' : Deck} (h : deck.burn = .ok deck') :
    ∃ card, deck.rest = card :: deck'.rest ∧ deck'.cards = deck.cards := by
  unfold burn at h
  cases hd : deck.draw with
  | error e => rw [hd] at h; exact absurd h (by simp [bind, Except.bind])
  | ok r =>
    obtain ⟨card, d⟩ := r
    rw [hd] at h
    simp only [bind, Except.bind, pure, Except.pure, Except.ok.injEq] at h
    subst h
    exact ⟨card, draw_ok hd⟩

/-- A deck with a card left gives it. -/
theorem draw_of_rest {deck : Deck} {card : Card} {cards : List Card}
    (h : deck.rest = card :: cards) :
    deck.draw = .ok (card, { deck with next := deck.next + 1 }) := by
  have hlt : deck.next < deck.cards.length := by
    by_contra hc
    unfold rest at h
    rw [List.drop_eq_nil_of_le (by omega)] at h
    exact absurd h (by simp)
  unfold rest at h
  rw [List.drop_eq_getElem_cons hlt, List.cons.injEq] at h
  unfold draw
  rw [List.getElem?_eq_getElem hlt, h.1]

end Deck

/-- Every card has an index of the deck, and no two have the same. -/
structure Distinct (cards : List Card) : Prop where
  index : ∀ card ∈ cards, cardIndex card < 52
  nodup : (cards.map cardIndex).Nodup

theorem Distinct.subperm {cards cards' : List Card} (h : Distinct cards)
    (hsub : cards'.Subperm cards) : Distinct cards' where
  index := fun card hc => h.index card (hsub.subset hc)
  nodup := by
    obtain ⟨l, hperm, hsublist⟩ := hsub
    exact (hperm.map cardIndex).nodup_iff.mp (h.nodup.sublist (hsublist.map cardIndex))

/-- The loop over `seen` accepts distinct cards, none of them seen before. -/
theorem Deck.seenLoop_iff : ∀ {cards : List Card} {seen : List UInt8},
    Deck.seenLoop seen cards = true ↔
      Distinct cards ∧ ∀ card ∈ cards, cardIndex card ∉ seen
  | [], seen => by
    simp only [Deck.seenLoop, true_iff]
    exact ⟨⟨by simp, List.nodup_nil⟩, by simp⟩
  | card :: cards, seen => by
    rw [Deck.seenLoop]
    split_ifs with hbad
    · refine iff_of_false (by simp) fun h => ?_
      rcases hbad with hlarge | hseen
      · exact absurd (h.1.index card List.mem_cons_self) (UInt8.not_lt.mpr hlarge)
      · exact h.2 card List.mem_cons_self hseen
    · rw [not_or, UInt8.not_le] at hbad
      rw [Deck.seenLoop_iff]
      constructor
      · rintro ⟨⟨hindex, hnodup⟩, hnew⟩
        refine ⟨⟨List.forall_mem_cons.mpr ⟨hbad.1, hindex⟩, ?_⟩,
          List.forall_mem_cons.mpr ⟨hbad.2, fun c hc hs => hnew c hc (List.mem_cons_of_mem _ hs)⟩⟩
        rw [List.map_cons, List.nodup_cons]
        refine ⟨fun hc => ?_, hnodup⟩
        obtain ⟨c, hc, heq⟩ := List.mem_map.mp hc
        exact hnew c hc (heq ▸ List.mem_cons_self)
      · rintro ⟨⟨hindex, hnodup⟩, hnew⟩
        rw [List.map_cons, List.nodup_cons] at hnodup
        refine ⟨⟨fun c hc => hindex c (List.mem_cons_of_mem _ hc), hnodup.2⟩, fun c hc hs => ?_⟩
        rcases List.mem_cons.mp hs with heq | hs
        · exact hnodup.1 (List.mem_map.mpr ⟨c, hc, heq⟩)
        · exact hnew c (List.mem_cons_of_mem _ hc) hs

/-- What `Deck(std::vector<Card>)` accepts. -/
theorem Deck.ofCards_ok {cards : List Card} {deck : Deck} (h : Deck.ofCards cards = .ok deck) :
    deck = { cards := cards } ∧ cards.length = 52 ∧ Distinct cards := by
  unfold Deck.ofCards at h
  split_ifs at h with hlen hseen
  rw [Except.ok.injEq] at h
  exact ⟨h.symm, not_not.mp hlen, (Deck.seenLoop_iff.mp hseen).1⟩

theorem distinct_orderedDeck : Distinct orderedDeck := ⟨by decide, by decide⟩

/-- The constructor accepts the 52 cards in any order. -/
theorem Deck.ofCards_of_perm {cards : List Card} (h : cards.Perm orderedDeck) :
    Deck.ofCards cards = .ok { cards := cards } := by
  have hlen : cards.length = 52 := h.length_eq
  have hseen : Deck.seenLoop [] cards = true :=
    Deck.seenLoop_iff.mpr ⟨distinct_orderedDeck.subperm h.subperm, fun _ _ => List.not_mem_nil⟩
  unfold Deck.ofCards
  rw [if_neg (not_not.mpr hlen), if_pos hseen]

/-- `validStoredCard`'s notion of a real card: rank 2 to 14 and suit 0 to 3. -/
def Card.Valid (card : Card) : Prop :=
  2 ≤ card.rank ∧ card.rank ≤ 14 ∧ card.suit ≤ 3

instance (card : Card) : Decidable card.Valid :=
  inferInstanceAs (Decidable (_ ∧ _ ∧ _))

/-- A deck nobody has drawn from, holding each of the 52 cards once: what
`Deck(RandomSource&)` shuffles. -/
structure FullDeck extends Deck where
  perm : cards.Perm orderedDeck
  fresh : next = 0
  deriving DecidableEq

/-! ## The shuffle -/

namespace Deck

/-- `std::swap(cards_[i], cards_[j])`. -/
def swap (cards : List Card) (i j : Nat) : Except Fault (List Card) :=
  match cards[i]?, cards[j]? with
  | some a, some b => .ok ((cards.set i b).set j a)
  | _, _ => .error .badAccess

/-- The loop of `Deck(RandomSource&)` from `index` down. Every call of `uniform` in it has a bound
of its own, so what the source answers is a function of the bound. -/
def shuffleLoop (uniform : Nat → Nat) : Nat → List Card → Except Fault (List Card)
  | 0, cards => .ok cards
  | 1, cards => .ok cards
  | index + 2, cards => do
    let cards ← swap cards (index + 1) (uniform (index + 2))
    shuffleLoop uniform (index + 1) cards

/-- `Deck(RandomSource&)`. -/
def shuffled (uniform : Nat → Nat) : Except Fault Deck := do
  let cards ← shuffleLoop uniform orderedDeck.length orderedDeck
  return { cards := cards }

theorem swap_perm {cards : List Card} {i j : Nat} (hi : i < cards.length) (hj : j < cards.length) :
    ∃ cards', swap cards i j = .ok cards' ∧ cards'.Perm cards := by
  unfold swap
  rw [List.getElem?_eq_getElem hi, List.getElem?_eq_getElem hj]
  exact ⟨_, rfl, List.set_set_perm hi hj⟩

theorem shuffleLoop_perm {uniform : Nat → Nat} (h : ∀ n, 0 < n → uniform n < n) :
    ∀ {index : Nat} {cards : List Card}, index ≤ cards.length →
    ∃ cards', shuffleLoop uniform index cards = .ok cards' ∧ cards'.Perm cards
  | 0, cards, _ => ⟨cards, rfl, .refl _⟩
  | 1, cards, _ => ⟨cards, rfl, .refl _⟩
  | index + 2, cards, hle => by
    have hchosen := h (index + 2) (by omega)
    have hlast : index + 1 < cards.length := by omega
    have hother : uniform (index + 2) < cards.length := by omega
    obtain ⟨mid, hmid, hperm⟩ := swap_perm hlast hother
    have hshort : index + 1 ≤ mid.length := by rw [hperm.length_eq]; omega
    obtain ⟨cards', hrest, hperm'⟩ := shuffleLoop_perm h hshort
    refine ⟨cards', ?_, hperm'.trans hperm⟩
    rw [shuffleLoop, hmid]
    exact hrest

/-- **A shuffle returns the 52 cards in some order.** -/
theorem shuffled_full {uniform : Nat → Nat} (h : ∀ n, 0 < n → uniform n < n) :
    ∃ full : FullDeck, shuffled uniform = .ok full.toDeck := by
  obtain ⟨cards, hloop, hperm⟩ := shuffleLoop_perm h (Nat.le_refl orderedDeck.length)
  refine ⟨⟨{ cards := cards }, hperm, rfl⟩, ?_⟩
  unfold shuffled
  rw [hloop]
  rfl

end Deck

end PokerServer
