import Mathlib.Algebra.Ring.GeomSum
import Mathlib.Analysis.SpecificLimits.Basic
import Mathlib.Probability.ProbabilityMassFunction.Constructions

/-!
# Rejection sampling

A loop draws values until one is accepted and returns the result of that one. `draws source n` are
`n` independent draws, and `outcome` is what the loop makes of them: `none` while no value was
accepted.

* `outcome_some`: after `n` draws a result has the mass that one draw gives it, times a geometric
  sum of the mass rejected.
* `tendsto_outcome`: if one draw gives the same mass to every result of a finite set, and no other
  result is possible, then in the limit each of them has the inverse of their number as its
  probability.
-/

namespace PokerServer.Rejection

open Filter Topology
open scoped ENNReal

variable {V R : Type}

/-- The result of the first value that is accepted. -/
def firstAccepted (accepts : V → Bool) (result : V → R) : List V → Option R
  | [] => none
  | value :: values =>
    if accepts value then some (result value) else firstAccepted accepts result values

/-- `n` independent draws. -/
noncomputable def draws (source : PMF V) : Nat → PMF (List V)
  | 0 => PMF.pure []
  | n + 1 => source.bind fun value => (draws source n).map (value :: ·)

/-- What `n` draws lead to. -/
noncomputable def outcome (source : PMF V) (accepts : V → Bool) (result : V → R) (n : Nat) :
    PMF (Option R) :=
  (draws source n).map (firstAccepted accepts result)

open Classical in
/-- The probability that one draw is accepted with the result `r`. -/
noncomputable def acceptedMass (source : PMF V) (accepts : V → Bool) (result : V → R) (r : R) :
    ℝ≥0∞ :=
  tsum fun value => if accepts value = true ∧ result value = r then source value else 0

/-- The probability that one draw is rejected. -/
noncomputable def rejectedMass (source : PMF V) (accepts : V → Bool) : ℝ≥0∞ :=
  tsum fun value => if accepts value = true then 0 else source value

variable {source : PMF V} {accepts : V → Bool} {result : V → R}

/-- Draws can be converted one by one. -/
theorem map_draws {W : Type} (f : V → W) (n : Nat) :
    (draws source n).map (List.map f) = draws (source.map f) n := by
  induction n with
  | zero => exact PMF.pure_map _ _
  | succ n ih =>
    rw [draws, draws, PMF.map_bind, PMF.bind_map]
    refine congrArg source.bind (funext fun value => ?_)
    have hcons : List.map f ∘ (value :: ·) = (f value :: ·) ∘ List.map f := by
      funext values
      rfl
    rw [PMF.map_comp, hcons, ← PMF.map_comp, ih]
    rfl

theorem map_injective_apply {W : Type} {f : V → W} (hf : Function.Injective f) (value : V) :
    (source.map f) (f value) = source value := by
  rw [PMF.map_apply, tsum_eq_single value, if_pos rfl]
  intro other hother
  exact if_neg fun h => hother (hf h).symm

/-- **One draw more.** It is accepted, or the loop goes on. -/
theorem outcome_succ (n : Nat) :
    outcome source accepts result (n + 1) = source.bind fun value =>
      if accepts value then PMF.pure (some (result value))
      else outcome source accepts result n := by
  rw [outcome, draws, PMF.map_bind]
  refine congrArg source.bind (funext fun value => ?_)
  rw [PMF.map_comp]
  cases haccepts : accepts value with
  | true =>
    have hfirst : firstAccepted accepts result ∘ (value :: ·) =
        Function.const _ (some (result value)) := by
      funext values
      simp [firstAccepted, haccepts]
    rw [hfirst, PMF.map_const]
    rfl
  | false =>
    have hrest : firstAccepted accepts result ∘ (value :: ·) = firstAccepted accepts result := by
      funext values
      simp [firstAccepted, haccepts]
    rw [hrest]
    rfl

/-- **What a result weighs after `n` draws.** -/
theorem outcome_some (r : R) (n : Nat) :
    outcome source accepts result n (some r) =
      acceptedMass source accepts result r *
        ∑ k ∈ Finset.range n, rejectedMass source accepts ^ k := by
  induction n with
  | zero => simp [outcome, draws, firstAccepted, PMF.pure_map]
  | succ n ih =>
    have hsplit (value : V) :
        source value * (if accepts value then PMF.pure (some (result value))
          else outcome source accepts result n) (some r) =
        (open Classical in if accepts value = true ∧ result value = r then source value else 0) +
          (if accepts value = true then 0 else source value) *
            outcome source accepts result n (some r) := by
      by_cases haccepts : accepts value = true
      · by_cases hr : result value = r
        · simp [haccepts, hr]
        · simp [haccepts, hr, Ne.symm hr]
      · simp [haccepts]
    rw [outcome_succ, PMF.bind_apply, tsum_congr hsplit, ENNReal.tsum_add, ENNReal.tsum_mul_right,
      ih, geom_sum_succ]
    rw [acceptedMass, rejectedMass]
    ring

/-- A draw is accepted with one of the results, or rejected. -/
theorem acceptedMass_add_rejectedMass {results : Finset R}
    (hresults : ∀ value, accepts value = true → result value ∈ results) :
    ∑ r ∈ results, acceptedMass source accepts result r + rejectedMass source accepts = 1 := by
  classical
  have hvalue (value : V) :
      ∑ r ∈ results, (if accepts value = true ∧ result value = r then source value else 0) +
        (if accepts value = true then 0 else source value) = source value := by
    by_cases haccepts : accepts value = true
    · simp [haccepts, hresults value haccepts]
    · simp [haccepts]
  simp only [acceptedMass, rejectedMass]
  rw [← Summable.tsum_finsetSum fun _ _ => ENNReal.summable, ← ENNReal.tsum_add,
    ← source.tsum_coe]
  exact tsum_congr hvalue

/-- Where all values are equally likely, the values that lead to a result are counted. -/
theorem acceptedMass_uniform [Finite V] {weight : ℝ≥0∞} (hsource : ∀ value, source value = weight)
    (r : R) : acceptedMass source accepts result r =
      Nat.card { value // accepts value = true ∧ result value = r } * weight := by
  classical
  have := Fintype.ofFinite V
  rw [acceptedMass, tsum_fintype, Nat.card_eq_fintype_card, Fintype.card_subtype]
  simp only [hsource]
  rw [← Finset.sum_filter, Finset.sum_const, nsmul_eq_mul]

/-- **Equal masses give a uniform result.** -/
theorem tendsto_outcome {results : Finset R} {mass : ℝ≥0∞}
    (hresults : ∀ value, accepts value = true → result value ∈ results)
    (hmass : ∀ r ∈ results, acceptedMass source accepts result r = mass) (hpos : mass ≠ 0)
    {r : R} (hr : r ∈ results) :
    Tendsto (fun n => outcome source accepts result n (some r)) atTop
      (𝓝 (results.card : ℝ≥0∞)⁻¹) := by
  have htotal : results.card * mass + rejectedMass source accepts = 1 := by
    rw [← acceptedMass_add_rejectedMass hresults, Finset.sum_congr rfl hmass, Finset.sum_const,
      nsmul_eq_mul]
  have hrejected : rejectedMass source accepts ≠ ∞ :=
    ne_top_of_le_ne_top ENNReal.one_ne_top (htotal ▸ le_add_self)
  have hcard : (results.card : ℝ≥0∞) ≠ 0 := by
    exact_mod_cast (Finset.card_pos.mpr ⟨r, hr⟩).ne'
  have hfinite : mass ≠ ∞ := by
    intro htop
    rw [htop, ENNReal.mul_top hcard, top_add] at htotal
    exact ENNReal.top_ne_one htotal
  have haccepted : 1 - rejectedMass source accepts = results.card * mass :=
    (ENNReal.eq_sub_of_add_eq hrejected htotal).symm
  have hlimit : mass * tsum (fun n : Nat => rejectedMass source accepts ^ n) =
      (results.card : ℝ≥0∞)⁻¹ := by
    rw [ENNReal.tsum_geometric, haccepted, ENNReal.mul_inv (Or.inl hcard) (Or.inr hpos),
      mul_left_comm, ENNReal.mul_inv_cancel hpos hfinite, mul_one]
  have hsum := ENNReal.tendsto_nat_tsum fun n => rejectedMass source accepts ^ n
  rw [← hlimit]
  simp only [outcome_some, hmass r hr]
  exact ENNReal.Tendsto.const_mul hsum (Or.inr hfinite)

end PokerServer.Rejection
