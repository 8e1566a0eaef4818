import Mathlib.Algebra.BigOperators.Group.List.Basic
import Mathlib.Algebra.Ring.Defs
import Mathlib.Order.Defs.LinearOrder
import Mathlib.Tactic.Ring

/-!
# Amounts cut into layers

A list of amounts `cs` is cut at an increasing list of levels. The layer between two consecutive
levels holds `(level - previous) * #{c ∈ cs | level ≤ c}`. `layerSum prev levels m cs` adds the
layers whose level is at most `m`.

`layerSum_eq_sum_min`: when every positive amount is a level, and `m` is one (or zero), the
layers up to `m` hold `∑ min c m`.
-/

namespace PokerServer.Layers

variable {α : Type} [CommRing α] [LinearOrder α]

/-- The part of one amount `x` in the layers above `prev`. -/
def layered (prev : α) : List α → α → α
  | [], _ => 0
  | level :: levels, x => (if level ≤ x then level - prev else 0) + layered level levels x

/-- What the layer from `prev` up to `level` holds. -/
def layer (prev level : α) (cs : List α) : α :=
  (level - prev) * ((cs.countP fun c => decide (level ≤ c) : Nat) : α)

/-- The layers above `prev` whose level is at most `m`. -/
def layerSum (m prev : α) : List α → List α → α
  | [], _ => 0
  | level :: levels, cs =>
    (if level ≤ m then layer prev level cs else 0) + layerSum m level levels cs

theorem layered_of_lt {prev x : α} {levels : List α} (h : ∀ level ∈ levels, x < level) :
    layered prev levels x = 0 := by
  induction levels generalizing prev with
  | nil => rfl
  | cons level levels ih =>
    rw [layered, if_neg (not_le.mpr (h level List.mem_cons_self)),
      ih fun l hl => h l (List.mem_cons_of_mem _ hl), add_zero]

/-- The layers of an amount that is itself a level telescope. -/
theorem layered_eq {prev x : α} {levels : List α} (hs : (prev :: levels).Pairwise (· < ·))
    (hx : x ∈ prev :: levels) : layered prev levels x = x - prev := by
  induction levels generalizing prev with
  | nil =>
    rw [List.mem_singleton] at hx
    rw [hx, layered, sub_self]
  | cons level levels ih =>
    rw [List.pairwise_cons] at hs
    rcases List.mem_cons.mp hx with rfl | hx
    · rw [layered_of_lt hs.1, sub_self]
    · have hle : level ≤ x := by
        rcases List.mem_cons.mp hx with rfl | hx
        · exact le_refl _
        · exact le_of_lt ((List.pairwise_cons.mp hs.2).1 x hx)
      rw [layered, if_pos hle, ih hs.2 hx]
      ring

/-- A layer is the sum of the parts of the amounts that reach it. -/
theorem layer_eq_sum (prev level : α) (cs : List α) :
    layer prev level cs = (cs.map fun c => if level ≤ c then level - prev else 0).sum := by
  induction cs with
  | nil => simp [layer]
  | cons c cs ih =>
    rw [List.map_cons, List.sum_cons, ← ih]
    unfold layer
    rw [List.countP_cons]
    by_cases h : level ≤ c
    · simp only [h, decide_true, if_true]
      push_cast
      ring
    · simp [h]

/-- Adding up the layers up to `m` is adding up, amount by amount, the layers of `min c m`. -/
theorem layerSum_eq_sum_layered (m prev : α) (levels cs : List α) :
    layerSum m prev levels cs = (cs.map fun c => layered prev levels (min c m)).sum := by
  induction levels generalizing prev with
  | nil => simp [layerSum, layered]
  | cons level levels ih =>
    rw [layerSum, ih level]
    simp only [layered]
    rw [List.sum_map_add]
    congr 1
    by_cases h : level ≤ m
    · rw [if_pos h, layer_eq_sum]
      congr 1
      exact List.map_congr_left fun c _ => by simp [h]
    · rw [if_neg h]
      simp [h]

/-- **The layers up to `m` hold `∑ min c m`.** -/
theorem layerSum_eq_sum_min {m : α} {levels cs : List α}
    (hs : ((0 : α) :: levels).Pairwise (· < ·)) (hm : m ∈ 0 :: levels)
    (hcs : ∀ c ∈ cs, c ∈ 0 :: levels) :
    layerSum m 0 levels cs = (cs.map fun c => min c m).sum := by
  rw [layerSum_eq_sum_layered]
  congr 1
  refine List.map_congr_left fun c hc => ?_
  have hmin : min c m ∈ 0 :: levels := by
    rcases min_choice c m with h | h
    · rw [h]; exact hcs c hc
    · rw [h]; exact hm
  rw [layered_eq hs hmin, sub_zero]

end PokerServer.Layers
