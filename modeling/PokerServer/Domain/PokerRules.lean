import PokerServer.Domain.Evaluation

/-!
# The rules of poker hands

What five cards are worth, stated by what the cards are and not by how the evaluator finds it.

* `Makes cards category`: the cards show the pattern of a category. A hand may show several: a full
  house also shows three of a kind, a pair and a high card.
* `IsCategory`: the highest category the cards show, in the order of `HandCategory.standing`.
* `Ties`: what decides between hands of one category. For straights it is the top of the straight,
  where the wheel (ace to five) is a five-high straight and nothing else wraps around the ace; for
  the other categories the ranks grouped by how often they occur and then by rank, from the top.
* `Beats`: the higher category wins, and within a category the lexicographically greater ties.

`Standing.unique` is that the rules leave nothing open: category and ties are determined.
-/

namespace PokerServer

/-- The ranks of the cards, as often as they occur. -/
def ranksOf (cards : List Card) : List Nat := cards.map (·.rank.toNat)

/-- All cards are of one suit. -/
def OneSuit (cards : List Card) : Prop := ∃ suit, ∀ card ∈ cards, card.suit = suit

/-- The ranks of a straight from the top: five consecutive ones, or the ace below the five. -/
def straightRanks (high : Nat) : List Nat :=
  if high = 5 then [5, 4, 3, 2, 14] else [high, high - 1, high - 2, high - 3, high - 4]

/-- The cards are a straight whose top rank is `high`. -/
def StraightTo (cards : List Card) (high : Nat) : Prop :=
  5 ≤ high ∧ high ≤ 14 ∧ (ranksOf cards).Perm (straightRanks high)

/-- The pattern of a category. -/
def Makes (cards : List Card) : HandCategory → Prop
  | .straightFlush => OneSuit cards ∧ ∃ high, StraightTo cards high
  | .fourOfAKind => ∃ rank, (ranksOf cards).count rank = 4
  | .fullHouse => ∃ rank rank', (ranksOf cards).count rank = 3 ∧ (ranksOf cards).count rank' = 2
  | .flush => OneSuit cards
  | .straight => ∃ high, StraightTo cards high
  | .threeOfAKind => ∃ rank, (ranksOf cards).count rank = 3
  | .twoPair => ∃ rank rank', rank ≠ rank' ∧
      (ranksOf cards).count rank = 2 ∧ (ranksOf cards).count rank' = 2
  | .onePair => ∃ rank, (ranksOf cards).count rank = 2
  | .highCard => True

/-- The categories, the weakest first. -/
def categories : List HandCategory :=
  [.highCard, .onePair, .twoPair, .threeOfAKind, .straight, .flush, .fullHouse, .fourOfAKind,
    .straightFlush]

/-- The place of a category among them. -/
def HandCategory.standing (category : HandCategory) : Nat := categories.idxOf category

/-- The highest category the cards show. -/
structure IsCategory (cards : List Card) (category : HandCategory) : Prop where
  makes : Makes cards category
  highest : ∀ other, Makes cards other → other.standing ≤ category.standing

/-- `rank` comes before `rank'`: it occurs more often, or as often and is higher. -/
def Before (cards : List Card) (rank rank' : Nat) : Prop :=
  (ranksOf cards).count rank' < (ranksOf cards).count rank ∨
    ((ranksOf cards).count rank' = (ranksOf cards).count rank ∧ rank' < rank)

/-- The different ranks of the cards, those that occur most often first, and the higher first of
those that occur equally often. -/
structure Grouped (cards : List Card) (ranks : List Nat) : Prop where
  mem : ∀ rank, rank ∈ ranks ↔ rank ∈ ranksOf cards
  sorted : ranks.Pairwise (Before cards)

/-- What decides between hands of the category. -/
def Ties (cards : List Card) (category : HandCategory) (ties : List Nat) : Prop :=
  match category with
  | .straightFlush | .straight => ∃ high, StraightTo cards high ∧ ties = [high]
  | _ => Grouped cards ties

/-- The cards are worth the category and, within it, the ties. -/
structure Standing (cards : List Card) (category : HandCategory) (ties : List Nat) : Prop where
  shows : IsCategory cards category
  decides : Ties cards category ties

/-- `cards` beats `cards'`. -/
def Beats (cards cards' : List Card) : Prop :=
  ∃ category ties category' ties', Standing cards category ties ∧
    Standing cards' category' ties' ∧
      (category'.standing < category.standing ∨ (category' = category ∧ ties' < ties))

/-! ## The rules leave nothing open -/

variable {cards : List Card} {category category' : HandCategory}
  {ties ties' ranks ranks' : List Nat}
  {rank rank' high high' : Nat}

theorem HandCategory.standing_injective : Function.Injective HandCategory.standing := by
  intro c c' h
  cases c <;> cases c' <;> first | rfl | exact absurd h (by decide)

theorem IsCategory.unique (h : IsCategory cards category) (h' : IsCategory cards category') :
    category = category' :=
  HandCategory.standing_injective
    (Nat.le_antisymm (h'.highest _ h.makes) (h.highest _ h'.makes))

theorem mem_straightRanks_of_ne (h : high ≠ 5) :
    rank ∈ straightRanks high ↔ rank = high ∨ rank = high - 1 ∨ rank = high - 2 ∨
      rank = high - 3 ∨ rank = high - 4 := by
  unfold straightRanks
  rw [if_neg h]
  simp only [List.mem_cons, List.not_mem_nil, or_false]

theorem mem_straightRanks_wheel :
    rank ∈ straightRanks 5 ↔ rank = 5 ∨ rank = 4 ∨ rank = 3 ∨ rank = 2 ∨ rank = 14 := by
  show rank ∈ [5, 4, 3, 2, 14] ↔ _
  simp only [List.mem_cons, List.not_mem_nil, or_false]

/-- Straights with the same ranks have the same top: the wheel holds the two and the ace, which no
other straight does. -/
theorem straightRanks_inj (hlow : 5 ≤ high) (hlow' : 5 ≤ high')
    (h : ∀ rank, rank ∈ straightRanks high ↔ rank ∈ straightRanks high') : high = high' := by
  by_cases h5 : high = 5
  · by_cases h5' : high' = 5
    · rw [h5, h5']
    · subst h5
      simp only [mem_straightRanks_wheel, mem_straightRanks_of_ne h5'] at h
      have htwo := h 2
      have hace := h 14
      omega
  · by_cases h5' : high' = 5
    · subst h5'
      simp only [mem_straightRanks_wheel, mem_straightRanks_of_ne h5] at h
      have htwo := h 2
      have hace := h 14
      omega
    · simp only [mem_straightRanks_of_ne h5, mem_straightRanks_of_ne h5'] at h
      have htop := h high
      have htop' := h high'
      omega

theorem StraightTo.unique (h : StraightTo cards high) (h' : StraightTo cards high') :
    high = high' :=
  straightRanks_inj h.1 h'.1 fun _ => (h.2.2.symm.trans h'.2.2).mem_iff

theorem Before.asymm (h : Before cards rank rank') : ¬ Before cards rank' rank := by
  unfold Before at *
  omega

theorem Grouped.nodup (h : Grouped cards ranks) : ranks.Nodup :=
  h.sorted.imp fun {rank rank'} hbefore heq => by
    subst heq
    exact hbefore.asymm hbefore

theorem Grouped.unique (h : Grouped cards ranks) (h' : Grouped cards ranks') : ranks = ranks' := by
  have hperm : ranks.Perm ranks' := (List.perm_ext_iff_of_nodup h.nodup h'.nodup).mpr
    fun rank => (h.mem rank).trans (h'.mem rank).symm
  exact hperm.eq_of_pairwise (fun _ _ _ _ hab hba => absurd hba hab.asymm) h.sorted h'.sorted

theorem Ties.unique (h : Ties cards category ties) (h' : Ties cards category ties') :
    ties = ties' := by
  have hstraight : (∃ high, StraightTo cards high ∧ ties = [high]) →
      (∃ high, StraightTo cards high ∧ ties' = [high]) → ties = ties' := by
    rintro ⟨high, hhigh, rfl⟩ ⟨high', hhigh', rfl⟩
    rw [hhigh.unique hhigh']
  cases category with
  | straightFlush => exact hstraight h h'
  | straight => exact hstraight h h'
  | _ => exact Grouped.unique h h'

/-- **Category and ties are determined by the cards.** -/
theorem Standing.unique (h : Standing cards category ties) (h' : Standing cards category' ties') :
    category = category' ∧ ties = ties' := by
  obtain rfl := h.shows.unique h'.shows
  exact ⟨rfl, h.decides.unique h'.decides⟩

end PokerServer
