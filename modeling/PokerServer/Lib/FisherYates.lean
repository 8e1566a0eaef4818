import Mathlib.Algebra.BigOperators.Fin
import Mathlib.Data.Fintype.BigOperators
import Mathlib.Data.List.Permutation
import Mathlib.SetTheory.Cardinal.Finite

/-!
# The Fisher–Yates shuffle

The shuffle in place: for `index` from the length of the list down to 2, the entry at `index - 1`
is exchanged with one at a chosen position below `index`. What is chosen at each bound is the
answer sequence of a shuffle (`Answers`).

After the exchange at `index` the entry at `index - 1` is final (`shuffle_frame`), so on a list
without repetition the result determines the answers one by one (`shuffle_injective`). There are as
many answer sequences as orders of the list, and therefore every order arises from exactly one
(`orderOf_bijective`).
-/

namespace PokerServer.FisherYates

variable {α : Type} {xs : List α} {i j k n : Nat}

/-! ## The exchange -/

/-- Exchange two entries; a position past the end leaves the list alone. -/
def swapAt (xs : List α) (i j : Nat) : List α :=
  match xs[i]?, xs[j]? with
  | some a, some b => (xs.set i b).set j a
  | _, _ => xs

theorem swapAt_eq (hi : i < xs.length) (hj : j < xs.length) :
    swapAt xs i j = (xs.set i xs[j]).set j xs[i] := by
  unfold swapAt
  rw [List.getElem?_eq_getElem hi, List.getElem?_eq_getElem hj]

theorem swapAt_perm (hi : i < xs.length) (hj : j < xs.length) : (swapAt xs i j).Perm xs := by
  rw [swapAt_eq hi hj]
  exact List.set_set_perm hi hj

/-- The first position gets what the second held. -/
theorem getElem?_swapAt_left (hi : i < xs.length) (hj : j < xs.length) :
    (swapAt xs i j)[i]? = xs[j]? := by
  rw [swapAt_eq hi hj, List.getElem?_eq_getElem hj]
  by_cases hij : j = i
  · subst hij
    rw [List.getElem?_set_self (by rw [List.length_set]; exact hj)]
  · rw [List.getElem?_set_ne hij, List.getElem?_set_self hi]

/-- The other positions keep what they hold. -/
theorem getElem?_swapAt_of_ne (hi : i < xs.length) (hj : j < xs.length) (hki : i ≠ k)
    (hkj : j ≠ k) : (swapAt xs i j)[k]? = xs[k]? := by
  rw [swapAt_eq hi hj, List.getElem?_set_ne hkj, List.getElem?_set_ne hki]

/-! ## The loop -/

/-- The loop from `index` down, choosing `choice index` at `index`. -/
def shuffle (choice : Nat → Nat) : Nat → List α → List α
  | 0, xs => xs
  | 1, xs => xs
  | index + 2, xs => shuffle choice (index + 1) (swapAt xs (index + 1) (choice (index + 2)))

section Loop

variable {choice other : Nat → Nat} (hchoice : ∀ bound, 0 < bound → choice bound < bound)

include hchoice in
theorem swapAt_step_perm (hn : n + 2 ≤ xs.length) :
    (swapAt xs (n + 1) (choice (n + 2))).Perm xs := by
  have hchosen := hchoice (n + 2) (by omega)
  exact swapAt_perm (by omega) (by omega)

include hchoice in
theorem shuffle_perm : ∀ {n : Nat} {xs : List α}, n ≤ xs.length → (shuffle choice n xs).Perm xs
  | 0, _, _ => .refl _
  | 1, _, _ => .refl _
  | n + 2, xs, hn => by
    have hstep := swapAt_step_perm hchoice hn
    have hlength : n + 1 ≤ (swapAt xs (n + 1) (choice (n + 2))).length := by
      rw [hstep.length_eq]
      omega
    have hrest := shuffle_perm hlength
    exact hrest.trans hstep

include hchoice in
/-- **The loop from `n` down leaves the positions from `n` on alone.** -/
theorem shuffle_frame : ∀ {n : Nat} {xs : List α}, n ≤ xs.length → n ≤ k →
    (shuffle choice n xs)[k]? = xs[k]?
  | 0, _, _, _ => rfl
  | 1, _, _, _ => rfl
  | n + 2, xs, hn, hk => by
    have hchosen := hchoice (n + 2) (by omega)
    have hstep := swapAt_step_perm hchoice hn
    rw [shuffle, shuffle_frame (by rw [hstep.length_eq]; omega) (by omega)]
    exact getElem?_swapAt_of_ne (by omega) (by omega) (by omega) (by omega)

include hchoice in
/-- The first exchange decides the last of the positions shuffled. -/
theorem shuffle_last (hn : n + 2 ≤ xs.length) :
    (shuffle choice (n + 2) xs)[n + 1]? = xs[choice (n + 2)]? := by
  have hchosen := hchoice (n + 2) (by omega)
  have hstep := swapAt_step_perm hchoice hn
  rw [shuffle, shuffle_frame hchoice (by rw [hstep.length_eq]; omega) (Nat.le_refl _)]
  exact getElem?_swapAt_left (by omega) (by omega)

include hchoice in
/-- **The result determines what was chosen at every bound.** -/
theorem shuffle_injective (hother : ∀ bound, 0 < bound → other bound < bound) :
    ∀ {n : Nat} {xs : List α}, xs.Nodup → n ≤ xs.length →
      shuffle choice n xs = shuffle other n xs →
        ∀ bound, 2 ≤ bound → bound ≤ n → choice bound = other bound
  | 0, _, _, _, _ => by omega
  | 1, _, _, _, _ => by omega
  | n + 2, xs, hnodup, hn, heq => by
    have hlast : choice (n + 2) = other (n + 2) := by
      have hsame := congrArg (·[n + 1]?) heq
      simp only [shuffle_last hchoice hn, shuffle_last hother hn] at hsame
      have hchosen := hchoice (n + 2) (by omega)
      exact (List.getElem?_inj (by omega) hnodup).mp hsame
    have hstep := swapAt_step_perm hchoice hn
    rw [shuffle, shuffle, ← hlast] at heq
    have hrest := shuffle_injective hother (hstep.nodup_iff.mpr hnodup)
      (by rw [hstep.length_eq]; omega) heq
    intro bound hlow hhigh
    rcases Nat.lt_or_eq_of_le hhigh with hlt | rfl
    · exact hrest bound hlow (by omega)
    · exact hlast

end Loop

/-! ## Answer sequences -/

/-- An answer below each bound from 2 to `n`. -/
abbrev Answers (n : Nat) := (k : Fin (n - 1)) → Fin (k + 2)

/-- What an answer sequence says at a bound. -/
def Answers.at (answers : Answers n) (bound : Nat) : Nat :=
  if h : 2 ≤ bound ∧ bound ≤ n then answers ⟨bound - 2, by omega⟩ else 0

theorem Answers.at_lt (answers : Answers n) (bound : Nat) (hbound : 0 < bound) :
    answers.at bound < bound := by
  unfold Answers.at
  split_ifs with h
  · have hlt := (answers ⟨bound - 2, by omega⟩).isLt
    simp only at hlt
    omega
  · exact hbound

theorem Answers.at_add_two (answers : Answers n) (k : Fin (n - 1)) :
    answers.at (k + 2) = answers k := by
  unfold Answers.at
  rw [dif_pos ⟨by omega, by omega⟩]
  rfl

theorem prod_bounds (n : Nat) : ∏ k : Fin n, (k.val + 2) = (n + 1).factorial := by
  induction n with
  | zero => rfl
  | succ n ih =>
    rw [Fin.prod_univ_castSucc]
    simp only [Fin.val_castSucc, Fin.val_last]
    rw [ih, Nat.factorial_succ (n + 1), Nat.mul_comm]

theorem card_answers (n : Nat) : Fintype.card (Answers n) = n.factorial := by
  rw [Fintype.card_pi]
  simp only [Fintype.card_fin]
  rw [prod_bounds]
  cases n with
  | zero => rfl
  | succ n => rfl

/-- The list in the order the answers give. -/
def orderOf (hlen : xs.length = n) (answers : Answers n) : { ys : List α // ys.Perm xs } :=
  ⟨shuffle answers.at n xs, shuffle_perm answers.at_lt hlen.ge⟩

@[simp] theorem orderOf_val (hlen : xs.length = n) (answers : Answers n) :
    (orderOf hlen answers).val = shuffle answers.at n xs := rfl

/-- The orders of a list without repetition. -/
theorem card_orders (hnodup : xs.Nodup) :
    Nat.card { ys : List α // ys.Perm xs } = xs.length.factorial := by
  classical
  have hequiv : { ys : List α // ys.Perm xs } ≃ { ys // ys ∈ xs.permutations.toFinset } :=
    Equiv.subtypeEquivRight fun ys => by rw [List.mem_toFinset, List.mem_permutations]
  rw [Nat.card_congr hequiv, Nat.card_eq_fintype_card, Fintype.card_coe,
    List.toFinset_card_of_nodup (xs.nodup_permutations hnodup), List.length_permutations]

theorem orderOf_injective (hlen : xs.length = n) (hnodup : xs.Nodup) :
    Function.Injective (orderOf hlen) := by
  intro answers answers' h
  have hshuffle := shuffle_injective answers.at_lt answers'.at_lt hnodup hlen.ge
    (congrArg Subtype.val h)
  funext k
  have hat := hshuffle (k + 2) (by omega) (by omega)
  rw [answers.at_add_two, answers'.at_add_two] at hat
  exact Fin.ext hat

/-- **Every order of a list without repetition arises from exactly one answer sequence.** -/
theorem orderOf_bijective (hlen : xs.length = n) (hnodup : xs.Nodup) :
    Function.Bijective (orderOf hlen) := by
  have hcard : Nat.card (Answers n) = Nat.card { ys : List α // ys.Perm xs } := by
    rw [card_orders hnodup, Nat.card_eq_fintype_card, card_answers, hlen]
  have hfinite : Finite { ys : List α // ys.Perm xs } :=
    Nat.finite_of_card_ne_zero (by rw [card_orders hnodup]; exact Nat.factorial_ne_zero _)
  exact (orderOf_injective hlen hnodup).bijective_of_nat_card_le hcard.ge

end PokerServer.FisherYates
