import Mathlib.Algebra.BigOperators.Group.List.Basic
import Mathlib.Tactic.IntervalCases
import PokerServer.Domain.PokerRules

/-!
# The evaluator follows the rules

`evaluateFive` on five different real cards (`FiveCards`) against the rules of
`PokerServer.Domain.PokerRules`.

The evaluator sees the cards through `rankCount` and one bit for the suits. The lists
`ranksWithCount` at 4, 3, 2 and 1 hold the ranks by how often they occur, and their lengths are
bound by one equation, `FiveCards.weights`; it leaves the multiplicity patterns of five cards and
nothing else. What `straightHigh` finds are the straights (`straightHigh_eq_iff`).

* `standing_value`: category and tie-break of the value are the ones of the rules, the tie-break
  filled up with zeros.
* `evaluateFive_ranks`: so `operator<` on values is `Beats`, whatever the order of the cards and
  whichever suit is called which.
-/

namespace PokerServer

/-- Five different real cards. -/
structure FiveCards where
  cards : List Card
  length : cards.length = 5
  nodup : cards.Nodup
  valid : ∀ card ∈ cards, card.Valid

variable {cards : List Card} {rank high n c : Nat}

/-! ## Counting -/

section Counting

variable {counts : Nat → Nat}

theorem rankCount_eq_count (cards : List Card) (rank : Nat) :
    rankCount cards rank = (ranksOf cards).count rank := by
  unfold rankCount ranksOf List.count
  rw [List.countP_map]
  rfl

theorem mem_ranksDown : rank ∈ ranksDown ↔ 2 ≤ rank ∧ rank ≤ 14 := by
  unfold ranksDown
  simp only [List.mem_cons, List.not_mem_nil, or_false]
  omega

theorem ranksDown_pairwise : ranksDown.Pairwise (· > ·) := by decide

theorem mem_ranksWithCount :
    rank ∈ ranksWithCount counts n ↔ (2 ≤ rank ∧ rank ≤ 14) ∧ counts rank = n := by
  unfold ranksWithCount
  rw [List.mem_filter, mem_ranksDown, beq_iff_eq]

theorem ranksWithCount_pairwise (counts : Nat → Nat) (n : Nat) :
    (ranksWithCount counts n).Pairwise (· > ·) :=
  ranksDown_pairwise.filter _

theorem ranksWithCount_nodup (counts : Nat → Nat) (n : Nat) : (ranksWithCount counts n).Nodup :=
  (ranksWithCount_pairwise counts n).imp fun h => (ne_of_lt h).symm

/-- Each real card is counted at one of the ranks. -/
theorem sum_rankCount : ∀ {cards : List Card}, (∀ card ∈ cards, card.Valid) →
    (ranksDown.map (rankCount cards)).sum = cards.length
  | [], _ => by decide
  | card :: cards, h => by
    have hone : ∀ rank ∈ ranksDown,
        (ranksDown.map fun other => if rank == other then 1 else 0).sum = 1 := by decide
    have hcard := (h card List.mem_cons_self).toNat
    have hsplit : rankCount (card :: cards) = fun rank =>
        rankCount cards rank + if card.rank.toNat == rank then 1 else 0 := by
      funext rank
      exact List.countP_cons
    rw [hsplit, List.sum_map_add, sum_rankCount fun c hc => h c (List.mem_cons_of_mem _ hc),
      hone _ (mem_ranksDown.mpr ⟨hcard.1, hcard.2.1⟩), List.length_cons]

/-- The counts of a list of ranks, by how often each count occurs. -/
theorem sum_counts (ranks : List Nat) (h : ∀ rank ∈ ranks, counts rank ≤ 4) :
    (ranks.map counts).sum =
      4 * (ranks.filter fun rank => counts rank == 4).length +
      3 * (ranks.filter fun rank => counts rank == 3).length +
      2 * (ranks.filter fun rank => counts rank == 2).length +
      (ranks.filter fun rank => counts rank == 1).length := by
  induction ranks with
  | nil => rfl
  | cons rank ranks ih =>
    have hrank := h rank List.mem_cons_self
    have hrest := ih fun r hr => h r (List.mem_cons_of_mem _ hr)
    rw [List.map_cons, List.sum_cons, hrest]
    simp only [List.filter_cons, beq_iff_eq]
    rcases (by omega : counts rank = 0 ∨ counts rank = 1 ∨ counts rank = 2 ∨ counts rank = 3 ∨
      counts rank = 4) with hc | hc | hc | hc | hc
    · simp [hc]
    all_goals
      simp [hc]
      omega

end Counting

namespace FiveCards

variable (hand : FiveCards)

/-- `counts` after the input loop of `evaluateFive`. -/
def counts : Nat → Nat := rankCount hand.cards

theorem counts_eq (rank : Nat) : hand.counts rank = (ranksOf hand.cards).count rank :=
  rankCount_eq_count hand.cards rank

theorem ranksOf_length : (ranksOf hand.cards).length = 5 := by
  unfold ranksOf
  rw [List.length_map, hand.length]

theorem mem_ranksOf_iff : rank ∈ ranksOf hand.cards ↔ 0 < hand.counts rank := by
  rw [hand.counts_eq, List.count_pos_iff]

theorem rank_range (h : rank ∈ ranksOf hand.cards) : 2 ≤ rank ∧ rank ≤ 14 := by
  obtain ⟨card, hc, rfl⟩ := List.mem_map.mp h
  have hvalid := (hand.valid card hc).toNat
  exact ⟨hvalid.1, hvalid.2.1⟩

theorem mem_ranksWithCount_iff (hn : 0 < n) :
    rank ∈ ranksWithCount hand.counts n ↔ hand.counts rank = n := by
  rw [mem_ranksWithCount]
  constructor
  · exact And.right
  · intro h
    exact ⟨hand.rank_range (hand.mem_ranksOf_iff.mpr (h ▸ hn)), h⟩

/-- There are four cards of a rank. -/
theorem counts_le_four (rank : Nat) : hand.counts rank ≤ 4 := by
  have hlen : hand.counts rank =
      ((hand.cards.filter fun card => card.rank.toNat == rank).map (·.suit.toNat)).length := by
    rw [List.length_map]
    exact List.countP_eq_length_filter
  have hnodup : ((hand.cards.filter fun card => card.rank.toNat == rank).map
      (·.suit.toNat)).Nodup := by
    refine List.Nodup.map_on (fun a ha b hb hsuit => ?_) (hand.nodup.filter _)
    have harank := (List.mem_filter.mp ha).2
    have hbrank := (List.mem_filter.mp hb).2
    rw [beq_iff_eq] at harank hbrank
    have hrank : a.rank = b.rank := UInt8.toNat_inj.mp (harank.trans hbrank.symm)
    cases a
    cases b
    simp_all [UInt8.toNat_inj]
  have hsubset : (hand.cards.filter fun card => card.rank.toNat == rank).map (·.suit.toNat) ⊆
      List.range 4 := by
    intro suit hsuit
    obtain ⟨card, hc, rfl⟩ := List.mem_map.mp hsuit
    have hvalid := (hand.valid card (List.mem_of_mem_filter hc)).toNat
    exact List.mem_range.mpr (by omega)
  rw [hlen]
  exact (List.subperm_of_subset hnodup hsubset).length_le

/-- **The multiplicity patterns of five cards.** -/
theorem weights :
    4 * (ranksWithCount hand.counts 4).length + 3 * (ranksWithCount hand.counts 3).length +
      2 * (ranksWithCount hand.counts 2).length + (ranksWithCount hand.counts 1).length = 5 := by
  have hsum := sum_rankCount hand.valid
  rw [hand.length] at hsum
  rw [← hsum]
  exact (sum_counts ranksDown fun rank _ => hand.counts_le_four rank).symm

end FiveCards

/-! ## Straights -/

section Straights

variable {counts : Nat → Nat}

/-- The ranks from `n + 1` down to 2. -/
def ranksFrom : Nat → List Nat
  | 0 => []
  | n + 1 => (n + 2) :: ranksFrom n

/-- What the loop finds are five consecutive ranks, the `c` seen in a row before among them. -/
theorem straightLoop_some (n : Nat) : ∀ {c : Nat}, c ≤ 4 → (∀ k < c, 0 < counts (n + 2 + k)) →
    straightLoop counts c (ranksFrom n) = some high →
      6 ≤ high ∧ ∀ k < 5, 0 < counts (high - k) := by
  induction n with
  | zero => intro c _ _ h; simp [ranksFrom, straightLoop] at h
  | succ n ih =>
    intro c hc hrow h
    rw [ranksFrom, straightLoop] at h
    split_ifs at h with hpos hfive
    · -- the fifth in a row: the ranks from `n + 2` to `n + 6`
      obtain rfl : n + 2 + 4 = high := Option.some.inj h
      refine ⟨by omega, fun k hk => ?_⟩
      by_cases hlast : k = 4
      · subst hlast
        exact hpos
      · have hseen := hrow (3 - k) (by omega)
        rwa [show n + 1 + 2 + (3 - k) = n + 2 + 4 - k by omega] at hseen
    · refine ih (by omega) (fun k hk => ?_) h
      by_cases hfirst : k = 0
      · subst hfirst
        exact hpos
      · have hseen := hrow (k - 1) (by omega)
        rwa [show n + 1 + 2 + (k - 1) = n + 2 + k by omega] at hseen
    · exact ih (by omega) (fun k hk => absurd hk (Nat.not_lt_zero k)) h

/-- The loop misses no five consecutive ranks: if it ends without an answer, a rank is missing from
each five of which the ranks above `n + 1` have been seen. -/
theorem straightLoop_none (n : Nat) : ∀ {c : Nat}, c ≤ 4 →
    straightLoop counts c (ranksFrom n) = none →
      ∀ low, 2 ≤ low → low ≤ n + 1 → low + 4 ≤ n + 1 + c →
        ∃ rank, low ≤ rank ∧ rank ≤ low + 4 ∧ counts rank = 0 := by
  induction n with
  | zero => intro c _ _ low hlow hhigh; omega
  | succ n ih =>
    intro c hc h low hlow hhigh hseen
    rw [ranksFrom, straightLoop] at h
    split_ifs at h with hpos hfive
    · by_cases htop : low = n + 2
      · omega
      · exact ih (by omega) h low hlow (by omega) (by omega)
    · by_cases hhere : n + 2 ≤ low + 4
      · exact ⟨n + 2, by omega, hhere, by omega⟩
      · exact ih (by omega) h low hlow (by omega) (by omega)

/-- Every rank of the straight to `high` is there. -/
def Holds (counts : Nat → Nat) (high : Nat) : Prop :=
  5 ≤ high ∧ ∀ rank ∈ straightRanks high, 0 < counts rank

theorem holds_straightHigh (h : straightHigh counts ≠ 0) : Holds counts (straightHigh counts) := by
  unfold straightHigh at *
  cases hloop : straightLoop counts 0 ranksDown with
  | some high =>
    obtain ⟨hlow, hrow⟩ := straightLoop_some 13 (Nat.zero_le 4)
      (fun k hk => absurd hk (Nat.not_lt_zero k)) hloop
    show Holds counts high
    have hnotWheel : high ≠ 5 := by omega
    refine ⟨by omega, fun rank hrank => ?_⟩
    obtain rfl | rfl | rfl | rfl | rfl := (mem_straightRanks_of_ne hnotWheel).mp hrank
    · exact hrow 0 (by omega)
    · exact hrow 1 (by omega)
    · exact hrow 2 (by omega)
    · exact hrow 3 (by omega)
    · exact hrow 4 (by omega)
  | none =>
    rw [hloop] at h
    by_cases hwheel : 0 < counts 14 ∧ 0 < counts 2 ∧ 0 < counts 3 ∧ 0 < counts 4 ∧ 0 < counts 5
    · simp only [if_pos hwheel]
      refine ⟨Nat.le_refl 5, fun rank hrank => ?_⟩
      obtain rfl | rfl | rfl | rfl | rfl := mem_straightRanks_wheel.mp hrank
      · exact hwheel.2.2.2.2
      · exact hwheel.2.2.2.1
      · exact hwheel.2.2.1
      · exact hwheel.2.1
      · exact hwheel.1
    · exact absurd (if_neg hwheel) h

theorem straightHigh_ne_zero (h : Holds counts high) (htop : high ≤ 14) :
    straightHigh counts ≠ 0 := by
  obtain ⟨hlow, hall⟩ := h
  intro hzero
  unfold straightHigh at hzero
  cases hloop : straightLoop counts 0 ranksDown with
  | some found =>
    obtain ⟨hfound, -⟩ := straightLoop_some 13 (Nat.zero_le 4)
      (fun k hk => absurd hk (Nat.not_lt_zero k)) hloop
    rw [hloop] at hzero
    have : found = 0 := hzero
    omega
  | none =>
    rw [hloop] at hzero
    by_cases hwheel : high = 5
    · subst hwheel
      have hthere : 0 < counts 14 ∧ 0 < counts 2 ∧ 0 < counts 3 ∧ 0 < counts 4 ∧ 0 < counts 5 := by
        simp only [mem_straightRanks_wheel] at hall
        exact ⟨hall 14 (by omega), hall 2 (by omega), hall 3 (by omega), hall 4 (by omega),
          hall 5 (by omega)⟩
      simp [hthere] at hzero
    · obtain ⟨rank, hge, hle, hmissing⟩ := straightLoop_none 13 (Nat.zero_le 4) hloop (high - 4)
        (by omega) (by omega) (by omega)
      have hpos := hall rank ((mem_straightRanks_of_ne hwheel).mpr (by omega))
      omega

end Straights

namespace FiveCards

variable (hand : FiveCards)

/-- Five cards that hold all ranks of a straight are the straight. -/
theorem straightTo_iff_holds :
    StraightTo hand.cards high ↔ Holds hand.counts high ∧ high ≤ 14 := by
  constructor
  · rintro ⟨hlow, htop, hperm⟩
    refine ⟨⟨hlow, fun rank hrank => ?_⟩, htop⟩
    exact hand.mem_ranksOf_iff.mp (hperm.mem_iff.mpr hrank)
  · rintro ⟨⟨hlow, hall⟩, htop⟩
    refine ⟨hlow, htop, ?_⟩
    have hnodup : (straightRanks high).Nodup := by
      interval_cases high <;> decide
    have hlen : (straightRanks high).length = 5 := by
      unfold straightRanks
      split_ifs <;> rfl
    have hsub : (straightRanks high).Subperm (ranksOf hand.cards) :=
      List.subperm_of_subset hnodup fun rank hrank => hand.mem_ranksOf_iff.mpr (hall rank hrank)
    exact (hsub.perm_of_length_le (by rw [hlen, hand.ranksOf_length])).symm

/-- **`straightHigh` finds the top of a straight, and 0 when there is none.** -/
theorem straightHigh_eq_iff (hhigh : high ≠ 0) :
    straightHigh hand.counts = high ↔ StraightTo hand.cards high := by
  have hfound : straightHigh hand.counts ≠ 0 →
      StraightTo hand.cards (straightHigh hand.counts) := by
    intro h
    have hholds := holds_straightHigh h
    refine hand.straightTo_iff_holds.mpr ⟨hholds, ?_⟩
    have htop : straightHigh hand.counts ∈ straightRanks (straightHigh hand.counts) := by
      unfold straightRanks
      split_ifs with hwheel
      · rw [hwheel]
        exact List.mem_cons_self
      · exact List.mem_cons_self
    exact (hand.rank_range (hand.mem_ranksOf_iff.mpr (hholds.2 _ htop))).2
  constructor
  · rintro rfl
    exact hfound hhigh
  · intro h
    obtain ⟨hholds, htop⟩ := hand.straightTo_iff_holds.mp h
    exact (hfound (straightHigh_ne_zero hholds htop)).unique h

theorem straightHigh_ne_zero_iff :
    straightHigh hand.counts ≠ 0 ↔ ∃ high, StraightTo hand.cards high := by
  constructor
  · exact fun h => ⟨_, (hand.straightHigh_eq_iff h).mp rfl⟩
  · rintro ⟨high, h⟩
    have hhigh : high ≠ 0 := by
      have := h.1
      omega
    rw [(hand.straightHigh_eq_iff hhigh).mpr h]
    exact hhigh

/-! ## Suits -/

/-- **The evaluator sees a flush when the cards are of one suit.** -/
theorem isFlush_iff : isFlush hand.cards = true ↔ OneSuit hand.cards := by
  unfold isFlush OneSuit suitCount
  rw [List.any_eq_true]
  simp only [List.mem_range, beq_iff_eq, ← hand.length, List.countP_eq_length]
  constructor
  · rintro ⟨suit, hsuit, hall⟩
    refine ⟨UInt8.ofNat suit, fun card hc => ?_⟩
    rw [← hall card hc, UInt8.ofNat_toNat]
  · rintro ⟨suit, hall⟩
    obtain ⟨card, hc⟩ := List.exists_mem_of_length_pos (l := hand.cards)
      (by rw [hand.length]; omega)
    have hvalid := (hand.valid card hc).toNat
    refine ⟨suit.toNat, ?_, fun other ho => by rw [hall other ho]⟩
    rw [← hall card hc]
    omega

/-- In a straight or a flush no rank occurs twice. -/
theorem counts_le_one (h : OneSuit hand.cards ∨ ∃ high, StraightTo hand.cards high) (rank : Nat) :
    hand.counts rank ≤ 1 := by
  rw [hand.counts_eq]
  refine List.nodup_iff_count_le_one.mp ?_ rank
  rcases h with ⟨suit, hsuit⟩ | ⟨high, hlow, htop, hperm⟩
  · refine List.Nodup.map_on (fun a ha b hb hrank => ?_) hand.nodup
    have hsame : a.suit = b.suit := (hsuit a ha).trans (hsuit b hb).symm
    cases a
    cases b
    simp_all [UInt8.toNat_inj]
  · rw [hperm.nodup_iff]
    interval_cases high <;> decide

/-! ## Groups -/

/-- The different ranks by how often they occur, as the evaluator's loops list them. -/
def groups : List Nat :=
  ranksWithCount hand.counts 4 ++ ranksWithCount hand.counts 3 ++
    ranksWithCount hand.counts 2 ++ ranksWithCount hand.counts 1

theorem mem_groups_iff : rank ∈ hand.groups ↔ rank ∈ ranksOf hand.cards := by
  unfold groups
  have hfour := hand.counts_le_four rank
  simp only [List.mem_append, hand.mem_ranksWithCount_iff (by decide : 0 < 4),
    hand.mem_ranksWithCount_iff (by decide : 0 < 3),
        hand.mem_ranksWithCount_iff (by decide : 0 < 2),
    hand.mem_ranksWithCount_iff (by decide : 0 < 1), hand.mem_ranksOf_iff]
  omega

/-- **The groups are in the order of the rules.** -/
theorem grouped_groups : Grouped hand.cards hand.groups where
  mem := fun _ => hand.mem_groups_iff
  sorted := by
    have hsame : ∀ n, 0 < n → (ranksWithCount hand.counts n).Pairwise (Before hand.cards) := by
      intro n hn
      refine (ranksWithCount_pairwise hand.counts n).imp_of_mem fun {a b} ha hb hlt =>
        .inr ⟨?_, hlt⟩
      rw [← hand.counts_eq, ← hand.counts_eq, (hand.mem_ranksWithCount_iff hn).mp ha,
        (hand.mem_ranksWithCount_iff hn).mp hb]
    have hfewer : ∀ {m n a b}, 0 < m → m < n → a ∈ ranksWithCount hand.counts n →
        b ∈ ranksWithCount hand.counts m → Before hand.cards a b := by
      intro m n a b hm hmn ha hb
      refine .inl ?_
      rw [← hand.counts_eq, ← hand.counts_eq,
        (hand.mem_ranksWithCount_iff (by omega : 0 < n)).mp ha,
        (hand.mem_ranksWithCount_iff hm).mp hb]
      exact hmn
    unfold groups
    simp only [List.pairwise_append, List.mem_append]
    refine ⟨⟨⟨hsame 4 (by decide), hsame 3 (by decide), ?_⟩, hsame 2 (by decide), ?_⟩,
      hsame 1 (by decide), ?_⟩
    · exact fun a ha b hb => hfewer (by decide) (by decide) ha hb
    · rintro a (ha | ha) b hb
      · exact hfewer (by decide) (by decide) ha hb
      · exact hfewer (by decide) (by decide) ha hb
    · rintro a ((ha | ha) | ha) b hb
      · exact hfewer (by decide) (by decide) ha hb
      · exact hfewer (by decide) (by decide) ha hb
      · exact hfewer (by decide) (by decide) ha hb

/-- Where no rank occurs twice the descending ranks are the single ones. -/
theorem descendingRanks_eq (h : ∀ rank, hand.counts rank ≤ 1) :
    descendingRanks hand.counts = ranksWithCount hand.counts 1 := by
  unfold descendingRanks ranksWithCount
  induction ranksDown with
  | nil => rfl
  | cons rank ranks ih =>
    rw [List.flatMap_cons, List.filter_cons, ih]
    rcases (by have := h rank; omega : hand.counts rank = 0 ∨ hand.counts rank = 1) with hc | hc
    · simp [hc]
    · simp [hc]

/-! ## Categories -/

theorem exists_count_iff (hn : 0 < n) :
    (∃ rank, (ranksOf hand.cards).count rank = n) ↔ ranksWithCount hand.counts n ≠ [] := by
  simp only [← hand.counts_eq, ← hand.mem_ranksWithCount_iff hn]
  exact ⟨fun ⟨_, h⟩ => List.ne_nil_of_mem h, List.exists_mem_of_ne_nil _⟩

/-- The last rank of a list the loops keep is 0 only when they keep none. -/
theorem getLast_ne_zero_iff (n : Nat) :
    (ranksWithCount hand.counts n).getLast?.getD 0 ≠ 0 ↔ ranksWithCount hand.counts n ≠ [] := by
  constructor
  · rintro h hnil
    rw [hnil] at h
    exact h rfl
  · intro h
    rw [List.getLast?_eq_some_getLast h, Option.getD_some]
    have hmem := (mem_ranksWithCount.mp (List.getLast_mem h)).1
    omega

theorem makes_straightFlush_iff :
    (isFlush hand.cards && straightHigh hand.counts != 0) = true ↔
      Makes hand.cards .straightFlush := by
  rw [Bool.and_eq_true, bne_iff_ne, hand.isFlush_iff, hand.straightHigh_ne_zero_iff]
  rfl

theorem makes_fourOfAKind_iff :
    (ranksWithCount hand.counts 4).getLast?.getD 0 ≠ 0 ↔ Makes hand.cards .fourOfAKind :=
  (hand.getLast_ne_zero_iff 4).trans (hand.exists_count_iff (by decide)).symm

theorem makes_threeOfAKind_iff :
    (ranksWithCount hand.counts 3).getLast?.getD 0 ≠ 0 ↔ Makes hand.cards .threeOfAKind :=
  (hand.getLast_ne_zero_iff 3).trans (hand.exists_count_iff (by decide)).symm

theorem makes_onePair_iff : ranksWithCount hand.counts 2 ≠ [] ↔ Makes hand.cards .onePair :=
  (hand.exists_count_iff (by decide)).symm

theorem fullHouse_iff :
    Makes hand.cards .fullHouse ↔ Makes hand.cards .threeOfAKind ∧ Makes hand.cards .onePair :=
  ⟨fun ⟨rank, rank', h, h'⟩ => ⟨⟨rank, h⟩, rank', h'⟩,
    fun ⟨⟨rank, h⟩, rank', h'⟩ => ⟨rank, rank', h, h'⟩⟩

theorem makes_fullHouse_iff :
    (Makes hand.cards .threeOfAKind ∧ (ranksWithCount hand.counts 2).take 2 ≠ []) ↔
      Makes hand.cards .fullHouse := by
  have htake : (ranksWithCount hand.counts 2).take 2 ≠ [] ↔ ranksWithCount hand.counts 2 ≠ [] := by
    cases ranksWithCount hand.counts 2 <;> simp
  rw [htake, hand.makes_onePair_iff, hand.fullHouse_iff]

theorem makes_twoPair_iff :
    2 ≤ ((ranksWithCount hand.counts 2).take 2).length ↔ Makes hand.cards .twoPair := by
  have hmem : ∀ rank, rank ∈ ranksWithCount hand.counts 2 ↔
      (ranksOf hand.cards).count rank = 2 := by
    intro rank
    rw [hand.mem_ranksWithCount_iff (by decide), hand.counts_eq]
  have hnodup := ranksWithCount_nodup hand.counts 2
  unfold Makes
  simp only [← hmem]
  match ranksWithCount hand.counts 2, hnodup with
  | [], _ => simp
  | [rank], _ =>
    simp only [List.mem_singleton]
    refine iff_of_false (by simp) ?_
    rintro ⟨a, b, hne, rfl, rfl⟩
    exact hne rfl
  | a :: b :: rest, hnodup =>
    refine iff_of_true (by simp) ⟨a, b, ?_, by simp, by simp⟩
    rw [List.nodup_cons] at hnodup
    exact fun h => hnodup.1 (h ▸ List.mem_cons_self)

/-- The value of the five cards. -/
def value : HandValue := handValue hand.counts (isFlush hand.cards)

theorem evaluateFive_eq : evaluateFive hand.cards = .ok hand.value :=
  evaluateFive_eq_ok_iff.mpr ⟨⟨(distinct_iff_nodup hand.valid).mpr hand.nodup,
    fun card hc => (hand.valid card hc).counted⟩, rfl⟩

open Classical in
/-- **The evaluator as a decision list over the patterns of the rules.** -/
theorem value_eq : hand.value =
    if Makes hand.cards .straightFlush then
      ⟨.straightFlush, tiebreak5 [straightHigh hand.counts]⟩
    else if Makes hand.cards .fourOfAKind then
      ⟨.fourOfAKind, tiebreak5 ((ranksWithCount hand.counts 4).getLast?.getD 0 ::
        (ranksWithCount hand.counts 1).take 1)⟩
    else if Makes hand.cards .fullHouse then
      ⟨.fullHouse, tiebreak5 ((ranksWithCount hand.counts 3).getLast?.getD 0 ::
        ((ranksWithCount hand.counts 2).take 2).take 1)⟩
    else if Makes hand.cards .flush then ⟨.flush, tiebreak5 (descendingRanks hand.counts)⟩
    else if Makes hand.cards .straight then ⟨.straight, tiebreak5 [straightHigh hand.counts]⟩
    else if Makes hand.cards .threeOfAKind then
      ⟨.threeOfAKind, tiebreak5 ((ranksWithCount hand.counts 3).getLast?.getD 0 ::
        (ranksWithCount hand.counts 1).take 2)⟩
    else if Makes hand.cards .twoPair then
      ⟨.twoPair, tiebreak5 ((ranksWithCount hand.counts 2).take 2 ++
        (ranksWithCount hand.counts 1).take 1)⟩
    else if Makes hand.cards .onePair then
      ⟨.onePair, tiebreak5 ((ranksWithCount hand.counts 2).take 2 ++
        (ranksWithCount hand.counts 1).take 3)⟩
    else ⟨.highCard, tiebreak5 (descendingRanks hand.counts)⟩ := by
  have hflush : isFlush hand.cards = true ↔ Makes hand.cards .flush := hand.isFlush_iff
  have hstraight : straightHigh hand.counts ≠ 0 ↔ Makes hand.cards .straight :=
    hand.straightHigh_ne_zero_iff
  have hpair : ¬ Makes hand.cards .twoPair →
      (((ranksWithCount hand.counts 2).take 2).length = 1 ↔ Makes hand.cards .onePair) := by
    rw [← hand.makes_twoPair_iff, ← hand.makes_onePair_iff]
    cases ranksWithCount hand.counts 2 with
    | nil => simp
    | cons a rest => cases rest <;> simp
  unfold value handValue
  simp only [hand.makes_straightFlush_iff, hand.makes_fourOfAKind_iff, hand.makes_fullHouse_iff,
    hflush, hstraight, hand.makes_threeOfAKind_iff, hand.makes_twoPair_iff]
  by_cases htwo : Makes hand.cards .twoPair
  · simp only [htwo, if_true]
  · simp only [htwo, if_false, hpair htwo]

/-! ## Ties -/

theorem makes_iff_length_pos {category : HandCategory} (n : Nat) (hn : 0 < n)
    (h : Makes hand.cards category ↔ ∃ rank, (ranksOf hand.cards).count rank = n) :
    Makes hand.cards category ↔ 0 < (ranksWithCount hand.counts n).length := by
  rw [h, hand.exists_count_iff hn, List.length_pos_iff]

theorem four_pos_iff : Makes hand.cards .fourOfAKind ↔ 0 < (ranksWithCount hand.counts 4).length :=
  hand.makes_iff_length_pos 4 (by decide) Iff.rfl

theorem three_pos_iff :
    Makes hand.cards .threeOfAKind ↔ 0 < (ranksWithCount hand.counts 3).length :=
  hand.makes_iff_length_pos 3 (by decide) Iff.rfl

theorem pair_pos_iff : Makes hand.cards .onePair ↔ 0 < (ranksWithCount hand.counts 2).length :=
  hand.makes_iff_length_pos 2 (by decide) Iff.rfl

theorem twoPair_iff : Makes hand.cards .twoPair ↔ 2 ≤ (ranksWithCount hand.counts 2).length := by
  rw [← hand.makes_twoPair_iff, List.length_take]
  omega

theorem four_ties (h : Makes hand.cards .fourOfAKind) :
    (ranksWithCount hand.counts 4).getLast?.getD 0 :: (ranksWithCount hand.counts 1).take 1 =
      hand.groups := by
  have hweights := hand.weights
  rw [hand.four_pos_iff] at h
  obtain ⟨four, h4⟩ := List.length_eq_one_iff.mp
    (by omega : (ranksWithCount hand.counts 4).length = 1)
  have h3 := List.eq_nil_of_length_eq_zero (by omega : (ranksWithCount hand.counts 3).length = 0)
  have h2 := List.eq_nil_of_length_eq_zero (by omega : (ranksWithCount hand.counts 2).length = 0)
  have htake := List.take_of_length_le (by omega : (ranksWithCount hand.counts 1).length ≤ 1)
  unfold groups
  rw [h4, h3, h2, htake]
  rfl

theorem fullHouse_ties (h : Makes hand.cards .fullHouse) :
    (ranksWithCount hand.counts 3).getLast?.getD 0 ::
      ((ranksWithCount hand.counts 2).take 2).take 1 = hand.groups := by
  have hweights := hand.weights
  rw [hand.fullHouse_iff, hand.three_pos_iff, hand.pair_pos_iff] at h
  obtain ⟨three, h3⟩ := List.length_eq_one_iff.mp
    (by omega : (ranksWithCount hand.counts 3).length = 1)
  obtain ⟨pair, h2⟩ := List.length_eq_one_iff.mp
    (by omega : (ranksWithCount hand.counts 2).length = 1)
  have h4 := List.eq_nil_of_length_eq_zero (by omega : (ranksWithCount hand.counts 4).length = 0)
  have h1 := List.eq_nil_of_length_eq_zero (by omega : (ranksWithCount hand.counts 1).length = 0)
  unfold groups
  rw [h4, h3, h2, h1]
  rfl

theorem three_ties (h : Makes hand.cards .threeOfAKind) (hfull : ¬ Makes hand.cards .fullHouse) :
    (ranksWithCount hand.counts 3).getLast?.getD 0 :: (ranksWithCount hand.counts 1).take 2 =
      hand.groups := by
  have hweights := hand.weights
  rw [hand.fullHouse_iff, hand.pair_pos_iff] at hfull
  have hpair : (ranksWithCount hand.counts 2).length = 0 := by
    by_contra hc
    exact hfull ⟨h, by omega⟩
  rw [hand.three_pos_iff] at h
  obtain ⟨three, h3⟩ := List.length_eq_one_iff.mp
    (by omega : (ranksWithCount hand.counts 3).length = 1)
  have h4 := List.eq_nil_of_length_eq_zero (by omega : (ranksWithCount hand.counts 4).length = 0)
  have h2 := List.eq_nil_of_length_eq_zero hpair
  have htake := List.take_of_length_le (by omega : (ranksWithCount hand.counts 1).length ≤ 2)
  unfold groups
  rw [h4, h3, h2, htake]
  rfl

theorem twoPair_ties (h : Makes hand.cards .twoPair) :
    (ranksWithCount hand.counts 2).take 2 ++ (ranksWithCount hand.counts 1).take 1 =
      hand.groups := by
  have hweights := hand.weights
  rw [hand.twoPair_iff] at h
  have h4 := List.eq_nil_of_length_eq_zero (by omega : (ranksWithCount hand.counts 4).length = 0)
  have h3 := List.eq_nil_of_length_eq_zero (by omega : (ranksWithCount hand.counts 3).length = 0)
  have hpairs := List.take_of_length_le (by omega : (ranksWithCount hand.counts 2).length ≤ 2)
  have hsingle := List.take_of_length_le (by omega : (ranksWithCount hand.counts 1).length ≤ 1)
  unfold groups
  rw [h4, h3, hpairs, hsingle]
  rfl

theorem onePair_ties (h : Makes hand.cards .onePair) (htwo : ¬ Makes hand.cards .twoPair)
    (hthree : ¬ Makes hand.cards .threeOfAKind) :
    (ranksWithCount hand.counts 2).take 2 ++ (ranksWithCount hand.counts 1).take 3 =
      hand.groups := by
  have hweights := hand.weights
  rw [hand.pair_pos_iff] at h
  rw [hand.twoPair_iff] at htwo
  rw [hand.three_pos_iff] at hthree
  have h4 := List.eq_nil_of_length_eq_zero (by omega : (ranksWithCount hand.counts 4).length = 0)
  have h3 := List.eq_nil_of_length_eq_zero (by omega : (ranksWithCount hand.counts 3).length = 0)
  have hpair := List.take_of_length_le (by omega : (ranksWithCount hand.counts 2).length ≤ 2)
  have hsingles := List.take_of_length_le (by omega : (ranksWithCount hand.counts 1).length ≤ 3)
  unfold groups
  rw [h4, h3, hpair, hsingles]
  rfl

/-- Five different ranks are the groups. -/
theorem single_ties (h : ∀ rank, hand.counts rank ≤ 1) :
    descendingRanks hand.counts = hand.groups := by
  have hnil : ∀ n, 2 ≤ n → ranksWithCount hand.counts n = [] := by
    intro n hn
    rw [List.eq_nil_iff_forall_not_mem]
    intro rank hrank
    have hcount := (hand.mem_ranksWithCount_iff (by omega)).mp hrank
    have hone := h rank
    omega
  unfold groups
  rw [hand.descendingRanks_eq h, hnil 4 (by decide), hnil 3 (by decide), hnil 2 (by decide)]
  rfl

/-! ## Category and ties -/

/-- A pattern with none above it is the category. -/
theorem isCategory_of {category : HandCategory} (hmakes : Makes hand.cards category)
    (hnone : ∀ other, category.standing < other.standing → ¬ Makes hand.cards other) :
    IsCategory hand.cards category where
  makes := hmakes
  highest := fun other hother => not_lt.mp fun hlt => hnone other hlt hother

/-- **Category and tie-break of the value are the ones of the rules.** -/
theorem standing_value :
    ∃ ties, Standing hand.cards hand.value.category ties ∧
        hand.value.tiebreak = tiebreak5 ties := by
  have hgrouped := hand.grouped_groups
  have htop : (∃ high, StraightTo hand.cards high) →
      ∃ high, StraightTo hand.cards high ∧ [straightHigh hand.counts] = [high] := fun h =>
    ⟨_, (hand.straightHigh_eq_iff (hand.straightHigh_ne_zero_iff.mpr h)).mp rfl, rfl⟩
  rw [hand.value_eq]
  by_cases hsf : Makes hand.cards .straightFlush
  · rw [if_pos hsf]
    have hcategory : IsCategory hand.cards .straightFlush := hand.isCategory_of hsf
      fun other hlt _ => by cases other <;> contradiction
    exact ⟨_, ⟨hcategory, htop hsf.2⟩, rfl⟩
  rw [if_neg hsf]
  by_cases hfour : Makes hand.cards .fourOfAKind
  · rw [if_pos hfour, hand.four_ties hfour]
    have hcategory : IsCategory hand.cards .fourOfAKind := hand.isCategory_of hfour
      fun other hlt _ => by cases other <;> contradiction
    exact ⟨_, ⟨hcategory, hgrouped⟩, rfl⟩
  rw [if_neg hfour]
  by_cases hfull : Makes hand.cards .fullHouse
  · rw [if_pos hfull, hand.fullHouse_ties hfull]
    have hcategory : IsCategory hand.cards .fullHouse := hand.isCategory_of hfull
      fun other hlt _ => by cases other <;> contradiction
    exact ⟨_, ⟨hcategory, hgrouped⟩, rfl⟩
  rw [if_neg hfull]
  by_cases hflush : Makes hand.cards .flush
  · rw [if_pos hflush, hand.single_ties (hand.counts_le_one (.inl hflush))]
    have hcategory : IsCategory hand.cards .flush := hand.isCategory_of hflush
      fun other hlt _ => by cases other <;> contradiction
    exact ⟨_, ⟨hcategory, hgrouped⟩, rfl⟩
  rw [if_neg hflush]
  by_cases hstraight : Makes hand.cards .straight
  · rw [if_pos hstraight]
    have hcategory : IsCategory hand.cards .straight := hand.isCategory_of hstraight
      fun other hlt _ => by cases other <;> contradiction
    exact ⟨_, ⟨hcategory, htop hstraight⟩, rfl⟩
  rw [if_neg hstraight]
  by_cases hthree : Makes hand.cards .threeOfAKind
  · rw [if_pos hthree, hand.three_ties hthree hfull]
    have hcategory : IsCategory hand.cards .threeOfAKind := hand.isCategory_of hthree
      fun other hlt _ => by cases other <;> contradiction
    exact ⟨_, ⟨hcategory, hgrouped⟩, rfl⟩
  rw [if_neg hthree]
  by_cases htwo : Makes hand.cards .twoPair
  · rw [if_pos htwo, hand.twoPair_ties htwo]
    have hcategory : IsCategory hand.cards .twoPair := hand.isCategory_of htwo
      fun other hlt _ => by cases other <;> contradiction
    exact ⟨_, ⟨hcategory, hgrouped⟩, rfl⟩
  rw [if_neg htwo]
  by_cases hpair : Makes hand.cards .onePair
  · rw [if_pos hpair, hand.onePair_ties hpair htwo hthree]
    have hcategory : IsCategory hand.cards .onePair := hand.isCategory_of hpair
      fun other hlt _ => by cases other <;> contradiction
    exact ⟨_, ⟨hcategory, hgrouped⟩, rfl⟩
  rw [if_neg hpair]
  have hone : ∀ rank, hand.counts rank ≤ 1 := by
    intro rank
    have hle := hand.counts_le_four rank
    by_contra hc
    rcases (by omega : hand.counts rank = 2 ∨ hand.counts rank = 3 ∨ hand.counts rank = 4) with
      hn | hn | hn
    · exact hpair ⟨rank, hand.counts_eq rank ▸ hn⟩
    · exact hthree ⟨rank, hand.counts_eq rank ▸ hn⟩
    · exact hfour ⟨rank, hand.counts_eq rank ▸ hn⟩
  rw [hand.single_ties hone]
  have hcategory : IsCategory hand.cards .highCard := hand.isCategory_of trivial
    fun other hlt _ => by cases other <;> contradiction
  exact ⟨_, ⟨hcategory, hgrouped⟩, rfl⟩

end FiveCards

/-! ## The tie-break as an array -/

/-- The first `n` entries, zeros where there are none. -/
def padded : Nat → List Nat → List Nat
  | 0, _ => []
  | n + 1, [] => 0 :: padded n []
  | n + 1, rank :: ranks => rank :: padded n ranks

theorem tiebreak5_eq (ranks : List Nat) : tiebreak5 ranks = padded 5 ranks := by
  match ranks with
  | [] | [_] | [_, _] | [_, _, _] | [_, _, _, _] => rfl
  | _ :: _ :: _ :: _ :: _ :: _ => rfl

/-- **Zeros at the end leave the order of positive lists alone.** -/
theorem padded_lt_iff (n : Nat) : ∀ {ranks ranks' : List Nat}, ranks.length ≤ n →
    ranks'.length ≤ n → (∀ rank ∈ ranks, 0 < rank) → (∀ rank ∈ ranks', 0 < rank) →
      (padded n ranks < padded n ranks' ↔ ranks < ranks') := by
  induction n with
  | zero =>
    intro ranks ranks' hlen hlen' _ _
    rw [List.eq_nil_of_length_eq_zero (by omega : ranks.length = 0),
      List.eq_nil_of_length_eq_zero (by omega : ranks'.length = 0)]
    rfl
  | succ n ih =>
    intro ranks ranks' hlen hlen' hpos hpos'
    match ranks, ranks' with
    | [], [] => exact iff_of_false (lt_irrefl _) (lt_irrefl _)
    | [], rank' :: rest' =>
      refine iff_of_true ?_ (List.nil_lt_cons rank' rest')
      rw [padded, padded, List.cons_lt_cons_iff]
      exact .inl (hpos' rank' List.mem_cons_self)
    | rank :: rest, [] =>
      refine iff_of_false ?_ (List.not_lt_nil _)
      rw [padded, padded, List.cons_lt_cons_iff]
      have := hpos rank List.mem_cons_self
      omega
    | rank :: rest, rank' :: rest' =>
      rw [List.length_cons] at hlen hlen'
      rw [padded, padded, List.cons_lt_cons_iff, List.cons_lt_cons_iff,
        ih (by omega) (by omega) (fun r hr => hpos r (List.mem_cons_of_mem _ hr))
          fun r hr => hpos' r (List.mem_cons_of_mem _ hr)]

namespace FiveCards

variable (hand hand' : FiveCards)

/-- The ties are up to five ranks. -/
theorem ties_bounds {category : HandCategory} {ties : List Nat}
    (h : Ties hand.cards category ties) : ties.length ≤ 5 ∧ ∀ rank ∈ ties, 0 < rank := by
  have hstraight : (∃ high, StraightTo hand.cards high ∧ ties = [high]) →
      ties.length ≤ 5 ∧ ∀ rank ∈ ties, 0 < rank := by
    rintro ⟨high, hhigh, rfl⟩
    have hlow := hhigh.1
    refine ⟨by simp, fun rank hrank => ?_⟩
    rw [List.mem_singleton] at hrank
    omega
  have hgroups : Grouped hand.cards ties → ties.length ≤ 5 ∧ ∀ rank ∈ ties, 0 < rank := by
    intro hgrouped
    have hsub := List.subperm_of_subset hgrouped.nodup fun rank hrank =>
      (hgrouped.mem rank).mp hrank
    refine ⟨hand.ranksOf_length ▸ hsub.length_le, fun rank hrank => ?_⟩
    have hrange := hand.rank_range ((hgrouped.mem rank).mp hrank)
    omega
  cases category with
  | straightFlush => exact hstraight h
  | straight => exact hstraight h
  | _ => exact hgroups h

theorem value_eq_standing (category : HandCategory) : category.value = category.standing := by
  cases category <;> rfl

/-- **The order on values is the order of the rules.** -/
theorem value_lt_iff : hand.value.lt hand'.value = true ↔ Beats hand'.cards hand.cards := by
  obtain ⟨ties, hstanding, hties⟩ := hand.standing_value
  obtain ⟨ties', hstanding', hties'⟩ := hand'.standing_value
  have hbounds := hand.ties_bounds hstanding.decides
  have hbounds' := hand'.ties_bounds hstanding'.decides
  rw [HandValue.lt_iff, HandValue.strength, HandValue.strength, List.cons_lt_cons_iff, hties,
    hties',
    tiebreak5_eq, tiebreak5_eq, padded_lt_iff 5 hbounds.1 hbounds'.1 hbounds.2 hbounds'.2,
    value_eq_standing, value_eq_standing]
  constructor
  · rintro (hlt | ⟨heq, hlt⟩)
    · exact ⟨_, _, _, _, hstanding', hstanding, .inl hlt⟩
    · exact ⟨_, _, _, _, hstanding', hstanding,
        .inr ⟨HandCategory.standing_injective heq, hlt⟩⟩
  · rintro ⟨c', ts', c, ts, hs', hs, hbeats⟩
    obtain ⟨rfl, rfl⟩ := hs.unique hstanding
    obtain ⟨rfl, rfl⟩ := hs'.unique hstanding'
    rcases hbeats with hlt | ⟨heq, hlt⟩
    · exact .inl hlt
    · exact .inr ⟨congrArg _ heq, hlt⟩

end FiveCards

/-! ## Renaming the suits -/

/-- The card with its suit renamed. -/
def Card.renamed (σ : Equiv.Perm (Fin 4)) (card : Card) : Card :=
  { card with suit := if h : card.suit.toNat < 4 then UInt8.ofNat (σ ⟨_, h⟩) else card.suit }

theorem Card.toNat_suit_renamed {σ : Equiv.Perm (Fin 4)} {card : Card}
    (h : card.suit.toNat < 4) : (card.renamed σ).suit.toNat = σ ⟨_, h⟩ := by
  unfold Card.renamed
  rw [dif_pos h, UInt8.toNat_ofNat']
  have := (σ ⟨_, h⟩).isLt
  omega

theorem Card.Valid.renamed {σ : Equiv.Perm (Fin 4)} {card : Card} (h : card.Valid) :
    (card.renamed σ).Valid := by
  have hsuit : card.suit.toNat < 4 := by
    have := h.toNat
    omega
  refine ⟨h.1, h.2.1, ?_⟩
  rw [UInt8.le_iff_toNat_le, Card.toNat_suit_renamed hsuit]
  have := (σ ⟨_, hsuit⟩).isLt
  show _ ≤ 3
  omega

theorem renamed_inj {σ : Equiv.Perm (Fin 4)} {a b : Card} (ha : a.Valid) (hb : b.Valid)
    (h : a.renamed σ = b.renamed σ) : a = b := by
  have hasuit : a.suit.toNat < 4 := by
    have := ha.toNat
    omega
  have hbsuit : b.suit.toNat < 4 := by
    have := hb.toNat
    omega
  have hrenamed : (a.renamed σ).rank = (b.renamed σ).rank := congrArg _ h
  have hrank : a.rank = b.rank := hrenamed
  have hsuits := congrArg (fun card : Card => card.suit.toNat) h
  simp only [Card.toNat_suit_renamed hasuit, Card.toNat_suit_renamed hbsuit] at hsuits
  have hsuit : a.suit.toNat = b.suit.toNat := Fin.mk.inj (σ.injective (Fin.ext hsuits))
  cases a
  cases b
  simp_all [UInt8.toNat_inj]

namespace FiveCards

variable (hand : FiveCards) (σ : Equiv.Perm (Fin 4))

/-- The hand with its suits renamed. -/
def renamed : FiveCards where
  cards := hand.cards.map (Card.renamed σ)
  length := by rw [List.length_map, hand.length]
  nodup := List.Nodup.map_on
    (fun a ha b hb => renamed_inj (hand.valid a ha) (hand.valid b hb)) hand.nodup
  valid := by
    intro card hc
    obtain ⟨plain, hplain, rfl⟩ := List.mem_map.mp hc
    exact (hand.valid plain hplain).renamed

theorem counts_renamed : (hand.renamed σ).counts = hand.counts := by
  funext rank
  show rankCount (hand.cards.map (Card.renamed σ)) rank = rankCount hand.cards rank
  unfold rankCount
  rw [List.countP_map]
  rfl

theorem oneSuit_renamed : OneSuit (hand.renamed σ).cards ↔ OneSuit hand.cards := by
  have hsuit : ∀ card ∈ hand.cards, card.suit.toNat < 4 := by
    intro card hc
    have := (hand.valid card hc).toNat
    omega
  obtain ⟨first, hfirst⟩ := List.exists_mem_of_length_pos (l := hand.cards)
    (by rw [hand.length]; omega)
  constructor
  · rintro ⟨suit, hall⟩
    refine ⟨first.suit, fun card hc => ?_⟩
    have hsame := (hall _ (List.mem_map_of_mem hc)).trans (hall _ (List.mem_map_of_mem hfirst)).symm
    have hnat := congrArg UInt8.toNat hsame
    rw [Card.toNat_suit_renamed (hsuit card hc),
      Card.toNat_suit_renamed (hsuit first hfirst)] at hnat
    exact UInt8.toNat_inj.mp (Fin.mk.inj (σ.injective (Fin.ext hnat)))
  · rintro ⟨suit, hall⟩
    refine ⟨(first.renamed σ).suit, fun card hc => ?_⟩
    obtain ⟨plain, hplain, rfl⟩ := List.mem_map.mp hc
    have hsame : plain.suit = first.suit := (hall plain hplain).trans (hall first hfirst).symm
    unfold Card.renamed
    simp only [hsame]

theorem value_renamed : (hand.renamed σ).value = hand.value := by
  have hflush : isFlush (hand.renamed σ).cards = isFlush hand.cards := by
    rw [Bool.eq_iff_iff, isFlush_iff, isFlush_iff, hand.oneSuit_renamed σ]
  unfold value
  rw [hand.counts_renamed σ, hflush]

/-- **`evaluateFive` implements the rules**: of two hands of five different real cards one has the
lower value exactly when the other beats it, and neither the order of the cards nor a permutation of
the suits changes the value. -/
theorem evaluateFive_ranks (x y : FiveCards) :
    ∃ valueX valueY, evaluateFive x.cards = .ok valueX ∧ evaluateFive y.cards = .ok valueY ∧
      (valueX.lt valueY = true ↔ Beats y.cards x.cards) ∧
      (∀ cards : List Card, cards.Perm x.cards → evaluateFive cards = .ok valueX) ∧
      ∀ σ : Equiv.Perm (Fin 4),
        evaluateFive (x.cards.map (Card.renamed σ)) = .ok valueX := by
  refine ⟨x.value, y.value, x.evaluateFive_eq, y.evaluateFive_eq, x.value_lt_iff y,
    fun cards hperm => ?_, fun σ => ?_⟩
  · exact (evaluateFive_perm hperm).mpr x.evaluateFive_eq
  · rw [← x.value_renamed σ]
    exact (x.renamed σ).evaluateFive_eq

end FiveCards

end PokerServer
