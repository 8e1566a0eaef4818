import Mathlib.Probability.Distributions.Uniform
import PokerServer.Domain.Card
import PokerServer.Lib.Rejection

/-!
# The system's random source

Model of `SystemRandomSource::uniform` (`src/poker/domain/deck.cpp`) in its two builds. Both draw
64-bit values until one is below `limit` and return its remainder; the one with libsodium leaves
bounds of 32 bits to `randombytes_uniform`. The values drawn are a list, and `none` says that none
of them was accepted, in which case the loop of the source goes on. `sodium_init` succeeds.

`limit` is computed from the largest value, 2^64 - 1, and not from the number of values. It is still
a multiple of the bound (`toNat_limit`), so that every remainder is accepted equally often.

`rejection_sampling_unbiased` gives the count and the distribution that follows from it.
-/

namespace PokerServer.SystemRandomSource

open Filter Topology Rejection
open scoped ENNReal

/-- `std::numeric_limits<std::uint64_t>::max()`. -/
def maximum : UInt64 := 18446744073709551615

def limit (exclusiveUpperBound : UInt64) : UInt64 := maximum - maximum % exclusiveUpperBound

/-- The loop ends with this value. -/
def accepts (exclusiveUpperBound value : UInt64) : Bool :=
  !decide (limit exclusiveUpperBound ≤ value)

/-- The loop of `uniform` and what it returns. -/
def uniformLoop (exclusiveUpperBound : UInt64) : List UInt64 → Option UInt64 :=
  firstAccepted (accepts exclusiveUpperBound) (· % exclusiveUpperBound)

/-- Two draws of `std::random_device` as one value. -/
def deviceValue (high low : UInt32) : UInt64 := (high.toUInt64 <<< 32) ^^^ low.toUInt64

/-- `uniform`, with `std::random_device`. -/
def uniform (exclusiveUpperBound : UInt64) (device : List (UInt32 × UInt32)) :
    Except Fault (Option UInt64) :=
  if exclusiveUpperBound = 0 then
    .error (.invalidArgument "random upper bound must be positive")
  else .ok (uniformLoop exclusiveUpperBound (device.map fun draw => deviceValue draw.1 draw.2))

/-- `uniform`, with libsodium. -/
def uniformSodium (randombytesUniform : UInt32 → UInt32) (exclusiveUpperBound : UInt64)
    (buffers : List UInt64) : Except Fault (Option UInt64) :=
  if exclusiveUpperBound = 0 then
    .error (.invalidArgument "random upper bound must be positive")
  else if exclusiveUpperBound ≤ 4294967295 then
    .ok (some (randombytesUniform exclusiveUpperBound.toUInt32).toUInt64)
  else .ok (uniformLoop exclusiveUpperBound buffers)

/-! ## The values that are accepted -/

variable {b r : UInt64}

theorem toNat_maximum : maximum.toNat = 2 ^ 64 - 1 := rfl

/-- **The limit is a multiple of the bound.** -/
theorem toNat_limit (b : UInt64) : (limit b).toNat = b.toNat * ((2 ^ 64 - 1) / b.toNat) := by
  have hle : maximum % b ≤ maximum := by
    rw [UInt64.le_iff_toNat_le, UInt64.toNat_mod]
    exact Nat.mod_le _ _
  have hdiv := Nat.div_add_mod (2 ^ 64 - 1) b.toNat
  rw [limit, UInt64.toNat_sub_of_le _ _ hle, UInt64.toNat_mod, toNat_maximum]
  omega

theorem accepts_iff {value : UInt64} :
    accepts b value = true ↔ value.toNat < b.toNat * ((2 ^ 64 - 1) / b.toNat) := by
  rw [← toNat_limit, accepts, Bool.not_eq_true', decide_eq_false_iff_not, UInt64.le_iff_toNat_le]
  omega

theorem toNat_pos (hb : b ≠ 0) : 0 < b.toNat := by
  rcases Nat.eq_zero_or_pos b.toNat with h | h
  · exact absurd (UInt64.toNat_inj.mp h) hb
  · exact h

/-- Every bound goes at least once into the largest value. -/
theorem quotient_pos (hb : b ≠ 0) : 0 < (2 ^ 64 - 1) / b.toNat := by
  have hlt := b.toNat_lt
  exact Nat.div_pos (by omega) (toNat_pos hb)

theorem accepts_zero (hb : b ≠ 0) : accepts b 0 = true :=
  accepts_iff.mpr (Nat.mul_pos (toNat_pos hb) (quotient_pos hb))

/-- The values accepted with the remainder `r` are `r`, `r + b`, and so on up to the limit. -/
def term (b r : UInt64) (j : Nat) : UInt64 := UInt64.ofNat (r.toNat + b.toNat * j)

theorem term_lt (hr : r < b) {j : Nat} (hj : j < (2 ^ 64 - 1) / b.toNat) :
    r.toNat + b.toNat * j < b.toNat * ((2 ^ 64 - 1) / b.toNat) := by
  have hlt : r.toNat < b.toNat := UInt64.lt_iff_toNat_lt.mp hr
  calc
    r.toNat + b.toNat * j < b.toNat * (j + 1) := by rw [Nat.mul_succ]; omega
    _ ≤ b.toNat * ((2 ^ 64 - 1) / b.toNat) := Nat.mul_le_mul_left _ hj

theorem toNat_term (hr : r < b) {j : Nat} (hj : j < (2 ^ 64 - 1) / b.toNat) :
    (term b r j).toNat = r.toNat + b.toNat * j := by
  have hlt := term_lt hr hj
  have hle := Nat.mul_div_le (2 ^ 64 - 1) b.toNat
  rw [term, UInt64.toNat_ofNat_of_lt']
  rw [UInt64.size]
  omega

theorem term_accepted (hr : r < b) {j : Nat} (hj : j < (2 ^ 64 - 1) / b.toNat) :
    accepts b (term b r j) = true ∧ term b r j % b = r := by
  constructor
  · rw [accepts_iff, toNat_term hr hj]
    exact term_lt hr hj
  · rw [← UInt64.toNat_inj, UInt64.toNat_mod, toNat_term hr hj, Nat.add_mul_mod_self_left]
    exact Nat.mod_eq_of_lt (UInt64.lt_iff_toNat_lt.mp hr)

/-- **Every remainder is accepted equally often.** -/
theorem card_accepted (hb : b ≠ 0) (hr : r < b) :
    Nat.card { value : UInt64 // accepts b value = true ∧ value % b = r } =
      (2 ^ 64 - 1) / b.toNat := by
  have hbijective : Function.Bijective
      (fun j : Fin ((2 ^ 64 - 1) / b.toNat) =>
        (⟨term b r j, term_accepted hr j.2⟩ :
          { value : UInt64 // accepts b value = true ∧ value % b = r })) := by
    constructor
    · intro j j' h
      have hterms := congrArg UInt64.toNat (Subtype.mk.inj h)
      rw [toNat_term hr j.2, toNat_term hr j'.2] at hterms
      exact Fin.ext (Nat.eq_of_mul_eq_mul_left (toNat_pos hb) (Nat.add_left_cancel hterms))
    · rintro ⟨value, haccepts, hmod⟩
      have hlt : value.toNat / b.toNat < (2 ^ 64 - 1) / b.toNat :=
        Nat.div_lt_of_lt_mul (accepts_iff.mp haccepts)
      refine ⟨⟨value.toNat / b.toNat, hlt⟩, Subtype.ext (UInt64.toNat_inj.mp ?_)⟩
      have hrest : value.toNat % b.toNat = r.toNat := by rw [← hmod, UInt64.toNat_mod]
      rw [toNat_term hr hlt, ← hrest]
      exact Nat.mod_add_div _ _
  rw [← Nat.card_eq_of_bijective _ hbijective, Nat.card_fin]

/-! ## The result of the loop -/

theorem finite_values : Finite UInt64 :=
  Finite.of_injective UInt64.toFin fun _ _ h => UInt64.toFin_inj.mp h

/-- The results below a bound. -/
def results (b : UInt64) : Finset UInt64 := (Finset.range b.toNat).image UInt64.ofNat

theorem mem_results : r ∈ results b ↔ r < b := by
  rw [results, Finset.mem_image]
  constructor
  · rintro ⟨n, hn, rfl⟩
    have hlt := b.toNat_lt
    rw [Finset.mem_range] at hn
    rw [UInt64.lt_iff_toNat_lt, UInt64.toNat_ofNat_of_lt' (by rw [UInt64.size]; omega)]
    exact hn
  · intro hr
    exact ⟨r.toNat, Finset.mem_range.mpr (UInt64.lt_iff_toNat_lt.mp hr), UInt64.ofNat_toNat⟩

theorem card_results (b : UInt64) : (results b).card = b.toNat := by
  rw [results, Finset.card_image_of_injOn, Finset.card_range]
  intro n hn n' hn' h
  have hlt := b.toNat_lt
  rw [Finset.coe_range, Set.mem_Iio] at hn hn'
  have hnat := congrArg UInt64.toNat h
  rw [UInt64.toNat_ofNat_of_lt' (by rw [UInt64.size]; omega),
    UInt64.toNat_ofNat_of_lt' (by rw [UInt64.size]; omega)] at hnat
  exact hnat

/-- **A uniform source of 64-bit values gives a uniform result.** -/
theorem tendsto_uniformLoop {source : PMF UInt64} (hsource : ∀ value, source value = (2 ^ 64)⁻¹)
    (hb : b ≠ 0) (hr : r < b) :
    Tendsto (fun n => ((draws source n).map (uniformLoop b)) (some r)) atTop
      (𝓝 (b.toNat : ℝ≥0∞)⁻¹) := by
  have := finite_values
  have hmass : ∀ r ∈ results b, acceptedMass source (accepts b) (· % b) r =
      ((2 ^ 64 - 1) / b.toNat : Nat) * (2 ^ 64)⁻¹ := by
    intro r hr
    rw [acceptedMass_uniform hsource, card_accepted hb (mem_results.mp hr)]
  have hpos : (((2 ^ 64 - 1) / b.toNat : Nat) : ℝ≥0∞) ≠ 0 := by
    exact_mod_cast (quotient_pos hb).ne'
  rw [← card_results]
  refine tendsto_outcome (fun value _ => ?_) hmass (mul_ne_zero hpos (by simp)) (mem_results.mpr hr)
  rw [mem_results, UInt64.lt_iff_toNat_lt, UInt64.toNat_mod]
  exact Nat.mod_lt _ (toNat_pos hb)

/-! ## Two draws of the device -/

theorem toNat_deviceValue (high low : UInt32) :
    (deviceValue high low).toNat / 2 ^ 32 = high.toNat ∧
      (deviceValue high low).toNat % 2 ^ 32 = low.toNat := by
  have hhigh := high.toNat_lt
  have hlow := low.toNat_lt
  have h32 : UInt64.toNat 32 % 64 = 32 := rfl
  have hshift : high.toNat <<< 32 % 2 ^ 64 = high.toNat * 2 ^ 32 := by
    rw [Nat.shiftLeft_eq, Nat.mod_eq_of_lt (by omega)]
  rw [deviceValue, UInt64.toNat_xor, UInt64.toNat_shiftLeft, UInt32.toNat_toUInt64,
    UInt32.toNat_toUInt64, h32, hshift]
  constructor
  · rw [Nat.xor_div_two_pow, Nat.mul_div_cancel _ (by decide), Nat.div_eq_of_lt hlow, Nat.xor_zero]
  · rw [Nat.xor_mod_two_pow, Nat.mul_mod_left, Nat.zero_xor, Nat.mod_eq_of_lt hlow]

theorem deviceValue_inj {high low high' low' : UInt32} :
    deviceValue high low = deviceValue high' low' ↔ high = high' ∧ low = low' := by
  constructor
  · intro h
    obtain ⟨hhigh, hlow⟩ := toNat_deviceValue high low
    obtain ⟨hhigh', hlow'⟩ := toNat_deviceValue high' low'
    rw [h] at hhigh hlow
    exact ⟨UInt32.toNat_inj.mp (hhigh.symm.trans hhigh'),
      UInt32.toNat_inj.mp (hlow.symm.trans hlow')⟩
  · rintro ⟨rfl, rfl⟩
    rfl

/-- Every value is two draws. -/
theorem exists_deviceValue (value : UInt64) : ∃ high low, deviceValue high low = value := by
  have hlt := value.toNat_lt
  have hhigh : value.toNat / 2 ^ 32 < 2 ^ 32 := by omega
  have hlow : value.toNat % 2 ^ 32 < 2 ^ 32 := Nat.mod_lt _ (by decide)
  refine ⟨UInt32.ofNat (value.toNat / 2 ^ 32), UInt32.ofNat (value.toNat % 2 ^ 32), ?_⟩
  obtain ⟨hdiv, hmod⟩ := toNat_deviceValue (UInt32.ofNat (value.toNat / 2 ^ 32))
    (UInt32.ofNat (value.toNat % 2 ^ 32))
  rw [UInt32.toNat_ofNat_of_lt' hhigh] at hdiv
  rw [UInt32.toNat_ofNat_of_lt' hlow] at hmod
  rw [← UInt64.toNat_inj, ← Nat.div_add_mod (deviceValue _ _).toNat (2 ^ 32), hdiv, hmod,
    Nat.div_add_mod]

/-- Two independent draws of the device. -/
noncomputable def devicePair (device : PMF UInt32) : PMF (UInt32 × UInt32) :=
  device.bind fun high => device.map fun low => (high, low)

theorem devicePair_apply (device : PMF UInt32) (high low : UInt32) :
    devicePair device (high, low) = device high * device low := by
  have hlow : (device.map fun low => (high, low)) (high, low) = device low :=
    map_injective_apply (fun _ _ h => (Prod.mk.inj h).2) low
  have hother (other : UInt32) (hne : other ≠ high) :
      (device.map fun low => (other, low)) (high, low) = 0 := by
    rw [PMF.map_apply, ENNReal.tsum_eq_zero]
    intro other'
    exact if_neg fun h => hne (Prod.mk.inj h).1.symm
  rw [devicePair, PMF.bind_apply, tsum_eq_single high, hlow]
  intro other hne
  rw [hother other hne, mul_zero]

/-- **Two uniform draws make a uniform value.** -/
theorem deviceValue_uniform {device : PMF UInt32} (hdevice : ∀ draw, device draw = (2 ^ 32)⁻¹)
    (value : UInt64) :
    ((devicePair device).map fun draw => deviceValue draw.1 draw.2) value = (2 ^ 64)⁻¹ := by
  obtain ⟨high, low, rfl⟩ := exists_deviceValue value
  have hinjective : Function.Injective fun draw : UInt32 × UInt32 => deviceValue draw.1 draw.2 := by
    rintro ⟨high, low⟩ ⟨high', low'⟩ h
    obtain ⟨rfl, rfl⟩ := deviceValue_inj.mp h
    rfl
  have hpair : ((devicePair device).map fun draw => deviceValue draw.1 draw.2)
      (deviceValue high low) = devicePair device (high, low) :=
    map_injective_apply hinjective (high, low)
  rw [hpair, devicePair_apply, hdevice, hdevice, ← ENNReal.mul_inv, ← pow_add]
  · exact Or.inl (by simp)
  · exact Or.inl (by simp)

theorem exists_uniform_device : ∃ device : PMF UInt32, ∀ draw, device draw = (2 ^ 32)⁻¹ := by
  refine ⟨(PMF.uniformOfFintype (Fin UInt32.size)).map UInt32.ofFin, fun draw => ?_⟩
  have hinjective : Function.Injective UInt32.ofFin := fun _ _ h =>
    congrArg UInt32.toFin h
  have hdraw : draw = UInt32.ofFin draw.toFin := rfl
  have hsize : UInt32.size = 2 ^ 32 := rfl
  rw [hdraw, map_injective_apply hinjective, PMF.uniformOfFintype_apply, Fintype.card_fin, hsize,
    Nat.cast_pow, Nat.cast_ofNat]

/-! ## The two builds -/

theorem ok_injective :
    Function.Injective (Except.ok : Option UInt64 → Except Fault (Option UInt64)) :=
  fun _ _ h => Except.ok.inj h

/-- What `uniform` returns is what its loop returns. -/
theorem map_uniform_apply (device : PMF UInt32) (hb : b ≠ 0) (n : Nat) :
    ((draws (devicePair device) n).map (uniform b)) (.ok (some r)) =
      ((draws ((devicePair device).map fun draw => deviceValue draw.1 draw.2) n).map
        (uniformLoop b)) (some r) := by
  have huniform : uniform b =
      Except.ok ∘ uniformLoop b ∘ List.map fun draw => deviceValue draw.1 draw.2 := by
    funext device
    rw [uniform, if_neg hb]
    rfl
  rw [huniform, ← PMF.map_comp, map_injective_apply ok_injective, ← PMF.map_comp, map_draws]

theorem map_uniformSodium_apply (source : PMF UInt64) (randombytesUniform : UInt32 → UInt32)
    (hb : 4294967295 < b) (n : Nat) :
    ((draws source n).map (uniformSodium randombytesUniform b)) (.ok (some r)) =
      ((draws source n).map (uniformLoop b)) (some r) := by
  have hlarge : ¬ b ≤ 4294967295 := by
    rw [UInt64.le_iff_toNat_le]
    rw [UInt64.lt_iff_toNat_lt] at hb
    omega
  have hpos : b ≠ 0 := by
    rintro rfl
    exact absurd hb (by decide)
  have huniform : uniformSodium randombytesUniform b = Except.ok ∘ uniformLoop b := by
    funext buffers
    rw [uniformSodium, if_neg hpos, if_neg hlarge]
    rfl
  rw [huniform, ← PMF.map_comp, map_injective_apply ok_injective]

/-- **Rejection sampling is unbiased.** For every positive bound the loop accepts a value, and every
remainder comes from equally many of the values accepted. With uniform raw values every result below
the bound is then equally likely: the probability that `n` rounds return it tends to the inverse of
the bound. -/
theorem rejection_sampling_unbiased (b : UInt64) (hb : b ≠ 0) :
    (∃ value, accepts b value = true) ∧
      (∀ r < b, Nat.card { value : UInt64 // accepts b value = true ∧ value % b = r } =
        (2 ^ 64 - 1) / b.toNat) ∧
      (∀ device : PMF UInt32, (∀ draw, device draw = (2 ^ 32)⁻¹) → ∀ r < b,
        Tendsto (fun n => ((draws (devicePair device) n).map (uniform b)) (.ok (some r))) atTop
          (𝓝 (b.toNat : ℝ≥0∞)⁻¹)) ∧
      ∀ source : PMF UInt64, (∀ value, source value = (2 ^ 64)⁻¹) → 4294967295 < b →
        ∀ (randombytesUniform : UInt32 → UInt32), ∀ r < b,
          Tendsto (fun n =>
            ((draws source n).map (uniformSodium randombytesUniform b)) (.ok (some r))) atTop
              (𝓝 (b.toNat : ℝ≥0∞)⁻¹) := by
  refine ⟨⟨0, accepts_zero hb⟩, fun r hr => card_accepted hb hr, fun device hdevice r hr => ?_,
    fun source hsource hlarge randombytesUniform r hr => ?_⟩
  · simp only [map_uniform_apply device hb]
    exact tendsto_uniformLoop (deviceValue_uniform hdevice) hb hr
  · simp only [map_uniformSodium_apply source randombytesUniform hlarge]
    exact tendsto_uniformLoop hsource hb hr

/-- The first bound of a shuffle. -/
theorem rejection_sampling_unbiased_deck :
    Nat.card { value : UInt64 // accepts 52 value = true ∧ value % 52 = 51 } =
        (2 ^ 64 - 1) / 52 ∧
      ∃ device : PMF UInt32, (∀ draw, device draw = (2 ^ 32)⁻¹) ∧
        Tendsto (fun n => ((draws (devicePair device) n).map (uniform 52)) (.ok (some 51))) atTop
          (𝓝 (52 : ℝ≥0∞)⁻¹) := by
  obtain ⟨-, hcard, hresult, -⟩ := rejection_sampling_unbiased 52 (by decide)
  obtain ⟨device, hdevice⟩ := exists_uniform_device
  exact ⟨hcard 51 (by decide), device, hdevice, hresult device hdevice 51 (by decide)⟩

end PokerServer.SystemRandomSource
