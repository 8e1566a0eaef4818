import Mathlib.Order.Bounds.Basic
import Mathlib.Order.MinMax
import PokerServer.Domain.Evaluation

/-!
# The best of all five-card choices

`evaluateBest` (`src/poker/domain/hand_evaluator.cpp`) runs five nested index loops with shifted
upper bounds and keeps the first greatest value.

* `visited` is the loops as they are written, `choose 5` the choices without indices;
  they run through the same hands in the same order (`visited_eq_choose`), so `evaluateBest` is the
  loops (`evaluateBest_loops`).
* `HandValue` is linearly ordered by `operator<` (`HandValue.lt_iff_lt`), so that `evaluateBest`
  returns the greatest element of a set of values (`evaluateBest_greatest`): the values of all
  five-card hands from the list, in whatever order their cards come.
* `evaluateBest_best`: hence the order of the list does not matter, and a further card never lowers
  the value.
-/

namespace PokerServer

variable {cards cards' hand : List Card} {card : Card} {value : HandValue}

/-! ## The loops -/

/-- `for (std::size_t i = start; i + later < count; ++i)`. -/
def indexLoop (start later count : Nat) : List Nat := List.range' start (count - later - start)

/-- The hands the five nested loops of `evaluateBest` visit, in their order. -/
def visited (cards : List Card) : List (List Card) :=
  let count := cards.length
  let cardAt (i : Nat) : Card := cards[i]?.getD {}
  (indexLoop 0 4 count).flatMap fun a =>
    (indexLoop (a + 1) 3 count).flatMap fun b =>
      (indexLoop (b + 1) 2 count).flatMap fun c =>
        (indexLoop (c + 1) 1 count).flatMap fun d =>
          (indexLoop (d + 1) 0 count).flatMap fun e =>
            [[cardAt a, cardAt b, cardAt c, cardAt d, cardAt e]]

/-- `k` nested loops, the outermost from `start`. -/
def nestedLoops {α : Type} [Inhabited α] (xs : List α) : Nat → Nat → List (List α)
  | 0, _ => [[]]
  | k + 1, start => (indexLoop start k xs.length).flatMap fun i =>
      (nestedLoops xs k (i + 1)).map (xs[i]?.getD default :: ·)

theorem indexLoop_of_lt {start later count : Nat} (h : start + later < count) :
    indexLoop start later count = start :: indexLoop (start + 1) later count := by
  unfold indexLoop
  rw [show count - later - start = count - later - (start + 1) + 1 by omega, List.range'_succ]

theorem indexLoop_of_le {start later count : Nat} (h : count ≤ start + later) :
    indexLoop start later count = [] := by
  unfold indexLoop
  rw [show count - later - start = 0 by omega, List.range'_zero]

theorem choose_of_short {α : Type} : ∀ {k : Nat} {xs : List α}, xs.length < k → choose k xs = []
  | k + 1, [], _ => rfl
  | k + 1, x :: xs, h => by
    rw [List.length_cons] at h
    rw [choose, choose_of_short (by omega : xs.length < k),
      choose_of_short (by omega : xs.length < k + 1)]
    rfl

/-- **Nested index loops run through the choices in order.** -/
theorem nestedLoops_eq_choose {α : Type} [Inhabited α] (xs : List α) (k : Nat) :
    ∀ start, nestedLoops xs k start = choose k (xs.drop start) := by
  induction k with
  | zero => intro start; rw [nestedLoops, choose]
  | succ k ih =>
    intro start
    -- the outermost index goes up from `start`; the induction is on how far it may still go
    induction hleft : xs.length - start generalizing start with
    | zero =>
      rw [nestedLoops, indexLoop_of_le (by omega), List.drop_eq_nil_of_le (by omega)]
      rfl
    | succ left ihLeft =>
      have hlt : start < xs.length := by omega
      by_cases hfits : start + k < xs.length
      · have hrest := ihLeft (start + 1) (by omega)
        rw [nestedLoops] at hrest ⊢
        rw [indexLoop_of_lt hfits, List.flatMap_cons, hrest, ih, List.drop_eq_getElem_cons hlt,
          choose, List.getElem?_eq_getElem hlt]
        rfl
      · rw [nestedLoops, indexLoop_of_le (by omega),
          choose_of_short (by rw [List.length_drop]; omega)]
        rfl

/-- **The loops of `evaluateBest` visit every choice of five once, in the order of `choose`.** -/
theorem visited_eq_choose (cards : List Card) : visited cards = choose 5 cards := by
  have hloops := nestedLoops_eq_choose cards 5 0
  rw [List.drop_zero] at hloops
  rw [← hloops]
  unfold visited
  simp only [nestedLoops, List.map_flatMap, List.map_cons, List.map_nil]
  rfl

theorem evaluateBest_loops (cards : List Card) :
    evaluateBest cards =
      if cards.length < 5 ∨ 7 < cards.length then
        .error (.invalidArgument "best-hand evaluation requires five to seven cards")
      else if !Deck.seenLoop [] cards then
        .error (.invalidArgument "hand contains an invalid or duplicate card")
      else do
        let best ← (visited cards).foldlM better none
        return best.getD {} := by
  rw [visited_eq_choose]
  rfl

/-! ## The order on values -/

/-- `operator<` as a linear order. -/
instance : LinearOrder HandValue :=
  LinearOrder.lift' HandValue.strength HandValue.strength_injective

theorem HandValue.lt_iff_lt {a b : HandValue} : a.lt b = true ↔ a < b := HandValue.lt_iff

/-- What the loops keep is the greater of two values. -/
theorem HandValue.kept_some (best value : HandValue) :
    HandValue.kept (some best) value = max best value := by
  show (if best.lt value then value else best) = max best value
  by_cases h : best.lt value = true
  · rw [if_pos h, max_eq_right (HandValue.lt_iff_lt.mp h).le]
  · rw [if_neg h, max_eq_left (not_lt.mp (mt HandValue.lt_iff_lt.mpr h))]

/-- The values of the hands of a list. -/
def valuesOf (hands : List (List Card)) : Set HandValue :=
  { value | ∃ hand ∈ hands, evaluateFive hand = .ok value }

theorem valuesOf_cons {hands : List (List Card)} (h : evaluateFive hand = .ok value) :
    valuesOf (hand :: hands) = insert value (valuesOf hands) := by
  ext v
  constructor
  · rintro ⟨other, hmem, hv⟩
    rcases List.mem_cons.mp hmem with rfl | hmem
    · exact .inl (Except.ok.inj (hv.symm.trans h))
    · exact .inr ⟨other, hmem, hv⟩
  · rintro (rfl | ⟨other, hmem, hv⟩)
    · exact ⟨hand, List.mem_cons_self, h⟩
    · exact ⟨other, List.mem_cons_of_mem _ hmem, hv⟩

/-- The loops, with a best value so far: the greatest of it and the values to come. -/
theorem better_foldlM_greatest {hands : List (List Card)} : ∀ {best : HandValue}
    {best' : Option HandValue}, hands.foldlM better (some best) = .ok best' →
      ∃ value, best' = some value ∧ IsGreatest (insert best (valuesOf hands)) value := by
  induction hands with
  | nil =>
    intro best best' h
    refine ⟨best, (Except.ok.inj h).symm, Set.mem_insert best _, ?_⟩
    rintro v (rfl | ⟨hand, hhand, -⟩)
    · exact le_refl v
    · exact absurd hhand List.not_mem_nil
  | cons hand hands ih =>
    intro best best' h
    rw [List.foldlM_cons, better_eq] at h
    cases hvalue : evaluateFive hand with
    | error fault => rw [hvalue] at h; exact absurd h (by simp [bind, Except.bind, Except.map])
    | ok value =>
      rw [hvalue] at h
      obtain ⟨greatest, hbest', hmem, hupper⟩ := ih h
      rw [HandValue.kept_some] at hmem hupper
      rw [valuesOf_cons hvalue]
      refine ⟨greatest, hbest', ?_, ?_⟩
      · rcases hmem with rfl | hmem
        · rcases max_choice best value with hmax | hmax
          · exact .inl hmax
          · exact .inr (.inl hmax)
        · exact .inr (.inr hmem)
      · have hmax : max best value ≤ greatest := hupper (Set.mem_insert _ _)
        rintro v (rfl | rfl | hv)
        · exact (le_max_left _ _).trans hmax
        · exact (le_max_right _ _).trans hmax
        · exact hupper (Set.mem_insert_of_mem _ hv)

/-- **The loops keep the greatest value of the choices.** -/
theorem evaluateBest_greatest_choice (h : evaluateBest cards = .ok value) :
    IsGreatest (valuesOf (choose 5 cards)) value := by
  have hlow := (evaluateBest_returns_iff.mp ⟨value, h⟩).1.1
  unfold evaluateBest at h
  split_ifs at h with hlen hseen
  have hchoice : cards.take 5 ∈ choose 5 cards :=
    mem_choose_iff.mpr ⟨List.take_sublist 5 cards, by rw [List.length_take]; omega⟩
  cases hchoices : choose 5 cards with
  | nil => rw [hchoices] at hchoice; exact absurd hchoice List.not_mem_nil
  | cons hand hands =>
    rw [hchoices, List.foldlM_cons, better_eq] at h
    cases hfirst : evaluateFive hand with
    | error fault => rw [hfirst] at h; exact absurd h (by simp [bind, Except.bind, Except.map])
    | ok first =>
      rw [hfirst] at h
      cases hloop : hands.foldlM better (some first) with
      | error fault =>
        simp only [bind, Except.bind, Except.map, HandValue.kept, hloop] at h
        exact absurd h (by simp)
      | ok best =>
        obtain ⟨greatest, rfl, hgreatest⟩ := better_foldlM_greatest hloop
        simp only [bind, Except.bind, Except.map, HandValue.kept, hloop, pure, Except.pure,
          Option.getD_some, Except.ok.injEq] at h
        rw [valuesOf_cons hfirst, ← h]
        exact hgreatest

/-! ## All hands of five -/

/-- The values of all hands of five cards from a list. -/
def handValues (cards : List Card) : Set HandValue :=
  { value | ∃ hand : List Card, hand.Subperm cards ∧ hand.length = 5 ∧
    evaluateFive hand = .ok value }

theorem valuesOf_choose (cards : List Card) : valuesOf (choose 5 cards) = handValues cards := by
  ext value
  constructor
  · rintro ⟨hand, hhand, hvalue⟩
    obtain ⟨hsub, hlen⟩ := mem_choose_iff.mp hhand
    exact ⟨hand, hsub.subperm, hlen, hvalue⟩
  · rintro ⟨hand, ⟨hand', hperm, hsub⟩, hlen, hvalue⟩
    refine ⟨hand', mem_choose_iff.mpr ⟨hsub, hperm.length_eq.trans hlen⟩, ?_⟩
    exact (evaluateFive_perm hperm).mpr hvalue

theorem handValues_mono (h : cards.Subperm cards') : handValues cards ⊆ handValues cards' := by
  rintro value ⟨hand, hsub, hlen, hvalue⟩
  exact ⟨hand, hsub.trans h, hlen, hvalue⟩

/-- **What `evaluateBest` returns is the greatest value of five of the cards.** -/
theorem evaluateBest_greatest (h : evaluateBest cards = .ok value) :
    IsGreatest (handValues cards) value :=
  valuesOf_choose cards ▸ evaluateBest_greatest_choice h

/-- Five to seven different real cards are evaluated. -/
theorem evaluateBest_real (hlow : 5 ≤ cards.length) (hhigh : cards.length ≤ 7)
    (hnodup : cards.Nodup) (hvalid : ∀ card ∈ cards, card.Valid) :
    ∃ value, evaluateBest cards = .ok value :=
  evaluateBest_returns_iff.mpr ⟨⟨hlow, hhigh⟩, (distinct_iff_nodup hvalid).mpr hnodup,
    fun card hc => (hvalid card hc).counted⟩

/-- **`evaluateBest` is the maximum over all choices of five cards**, for the cards in any order,
and a further card does not lower it. -/
theorem evaluateBest_best (hlow : 5 ≤ cards.length) (hhigh : cards.length ≤ 7)
    (hnodup : cards.Nodup) (hvalid : ∀ card ∈ cards, card.Valid) :
    ∃ value, evaluateBest cards = .ok value ∧
      (∀ hand : List Card, hand.Subperm cards → hand.length = 5 →
        ∃ five, evaluateFive hand = .ok five ∧ value.lt five = false) ∧
      (∃ hand : List Card, hand.Subperm cards ∧ hand.length = 5 ∧
        evaluateFive hand = .ok value) ∧
      (∀ cards' : List Card, cards'.Perm cards → evaluateBest cards' = .ok value) ∧
      ∀ card : Card, card.Valid → card ∉ cards → cards.length < 7 →
        ∃ more, evaluateBest (cards ++ [card]) = .ok more ∧ more.lt value = false := by
  obtain ⟨value, hvalue⟩ := evaluateBest_real hlow hhigh hnodup hvalid
  have hgreatest := evaluateBest_greatest hvalue
  have hd := (distinct_iff_nodup hvalid).mpr hnodup
  refine ⟨value, hvalue, fun hand hsub hlen => ?_, hgreatest.1, fun cards' hperm => ?_,
    fun card hcard hnew hroom => ?_⟩
  · obtain ⟨five, hfive⟩ := evaluateFive_returns_iff.mpr
      ⟨hd.subperm hsub, fun card hc => (hvalid card (hsub.subset hc)).counted⟩
    refine ⟨five, hfive, ?_⟩
    rw [← Bool.not_eq_true, HandValue.lt_iff_lt, not_lt]
    exact hgreatest.2 ⟨hand, hsub, hlen, hfive⟩
  · obtain ⟨value', hvalue'⟩ := evaluateBest_real (hperm.length_eq.symm ▸ hlow)
      (hperm.length_eq.symm ▸ hhigh) (hperm.nodup_iff.mpr hnodup)
      fun card hc => hvalid card (hperm.subset hc)
    have hsame : handValues cards' = handValues cards :=
      (handValues_mono hperm.subperm).antisymm (handValues_mono hperm.symm.subperm)
    have hgreatest' := evaluateBest_greatest hvalue'
    rw [hsame] at hgreatest'
    rw [hvalue', hgreatest'.unique hgreatest]
  · have hlen : (cards ++ [card]).length = cards.length + 1 := by simp
    have hnodup' : (cards ++ [card]).Nodup :=
      hnodup.append (List.nodup_singleton card) (by simpa using hnew)
    obtain ⟨more, hmore⟩ := evaluateBest_real (by omega) (by omega) hnodup'
      (by simpa [or_imp, forall_and] using ⟨hvalid, hcard⟩)
    refine ⟨more, hmore, ?_⟩
    rw [← Bool.not_eq_true, HandValue.lt_iff_lt, not_lt]
    refine hgreatest.mono (evaluateBest_greatest hmore) (handValues_mono ?_)
    exact (List.sublist_append_left cards [card]).subperm

/-- Six cards with a straight to the seven, and the same from the other end. -/
theorem evaluateBest_best_sixCards : ∃ value,
    evaluateBest [⟨3, 0⟩, ⟨4, 1⟩, ⟨14, 3⟩, ⟨5, 2⟩, ⟨6, 3⟩, ⟨7, 0⟩] = .ok value ∧
      evaluateBest [⟨7, 0⟩, ⟨6, 3⟩, ⟨5, 2⟩, ⟨14, 3⟩, ⟨4, 1⟩, ⟨3, 0⟩] = .ok value := by
  have hnodup : List.Nodup [(⟨3, 0⟩ : Card), ⟨4, 1⟩, ⟨14, 3⟩, ⟨5, 2⟩, ⟨6, 3⟩, ⟨7, 0⟩] := by decide
  obtain ⟨value, hvalue, -, -, hperm, -⟩ :=
    evaluateBest_best (by decide) (by decide) hnodup (by decide)
  exact ⟨value, hvalue, hperm _ (by decide)⟩

end PokerServer
