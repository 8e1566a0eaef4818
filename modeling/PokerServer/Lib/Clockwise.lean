import Mathlib.Data.List.Chain
import Mathlib.Data.List.Rotate
import Mathlib.Data.List.Nodup
import Mathlib.Data.List.Sort

/-!
# Clockwise traversal of a ring

`clockwise n i` lists the `n` positions of a ring in the order `i + 1, i + 2, …, i`. A search for
the next position satisfying a predicate is `find?` on it. `hits` lists the positions that satisfy
the predicate in clockwise order, and going on to the next hit rotates that list by one
(`hits_rotate`). So a walk from hit to hit that is as long as there are hits meets each of them once
(`perm_of_isChain`), and no two hits have the same next one (`next_inj`).

`distance n i j` is how far round the ring `j` is from `i`: positions of increasing distance are met
in that order (`sublist_clockwise`).
-/

namespace PokerServer.Clockwise

/-- The positions after `i`, once round the ring; `i` itself comes last. -/
def clockwise (n i : Nat) : List Nat :=
  (List.range n).map fun k => (i + (k + 1)) % n

variable {n i j : Nat}

theorem length_clockwise : (clockwise n i).length = n := by simp [clockwise]

theorem clockwise_eq_rotate (n i : Nat) : clockwise n i = (List.range n).rotate (i + 1) := by
  apply List.ext_getElem
  · simp [clockwise]
  · intro k h1 h2
    simp only [clockwise, List.getElem_map, List.getElem_range, List.getElem_rotate,
      List.length_range]
    congr 1
    omega

theorem mem_clockwise : j ∈ clockwise n i ↔ j < n := by
  rw [clockwise_eq_rotate, List.mem_rotate, List.mem_range]

theorem nodup_clockwise (n i : Nat) : (clockwise n i).Nodup := by
  rw [clockwise_eq_rotate]
  exact List.nodup_rotate.mpr List.nodup_range

/-- The positions after `x` are those after `i`, read on from `x`. -/
theorem clockwise_split {pre post : List Nat} {x : Nat} (h : clockwise n i = pre ++ x :: post) :
    clockwise n x = post ++ pre ++ [x] := by
  have hlen : pre.length < n := by
    have := congrArg List.length h
    rw [length_clockwise] at this
    simp only [List.length_append, List.length_cons] at this
    omega
  have hx : x = (i + (pre.length + 1)) % n := by
    have hget : (clockwise n i)[pre.length]? = some x := by rw [h]; simp
    obtain ⟨_, hg⟩ := List.getElem?_eq_some_iff.mp hget
    rw [← hg]
    simp [clockwise]
  have hrot : clockwise n x = (clockwise n i).rotate (pre.length + 1) := by
    rw [clockwise_eq_rotate, clockwise_eq_rotate, List.rotate_rotate]
    rw [← List.rotate_mod _ (x + 1), ← List.rotate_mod _ (i + 1 + (pre.length + 1)),
      List.length_range, hx]
    congr 1
    rw [Nat.mod_add_mod]
    congr 1
    omega
  rw [hrot, h, show pre ++ x :: post = (pre ++ [x]) ++ post by simp,
    show pre.length + 1 = (pre ++ [x]).length by simp, List.rotate_append_length_eq]
  simp

/-! ## Distances -/

/-- How far `j` is from `i` clockwise; `i` itself is a whole round away. -/
def distance (n i j : Nat) : Nat :=
  let distance := (j + n - i) % n
  if distance = 0 then n else distance

theorem distance_of_lt (hij : i < j) (hj : j < n) : distance n i j = j - i := by
  have hmod : (j + n - i) % n = j - i := by
    rw [show j + n - i = j - i + n by omega, Nat.add_mod_right]
    exact Nat.mod_eq_of_lt (by omega)
  unfold distance
  simp only [hmod]
  exact if_neg (by omega)

theorem distance_of_le (hji : j ≤ i) (hi : i < n) : distance n i j = j + n - i := by
  unfold distance
  rcases Nat.eq_or_lt_of_le hji with rfl | hlt
  · rw [Nat.add_sub_cancel_left, Nat.mod_self]
    rfl
  · simp only [Nat.mod_eq_of_lt (show j + n - i < n by omega)]
    exact if_neg (by omega)

/-- Different positions are at different distances. -/
theorem distance_inj {k : Nat} (hi : i < n) (hj : j < n) (hk : k < n)
    (h : distance n i j = distance n i k) : j = k := by
  rcases Nat.lt_or_ge i j with hij | hij <;> rcases Nat.lt_or_ge i k with hik | hik
  · rw [distance_of_lt hij hj, distance_of_lt hik hk] at h
    omega
  · rw [distance_of_lt hij hj, distance_of_le hik hi] at h
    omega
  · rw [distance_of_le hij hi, distance_of_lt hik hk] at h
    omega
  · rw [distance_of_le hij hi, distance_of_le hik hi] at h
    omega

/-- The positions stand in the order of their distances. -/
theorem distance_step {k : Nat} (hi : i < n) (hk : k < n) :
    distance n i ((i + (k + 1)) % n) = k + 1 := by
  rcases Nat.lt_or_ge (i + (k + 1)) n with hlt | hge
  · rw [Nat.mod_eq_of_lt hlt, distance_of_lt (by omega) hlt]
    omega
  · have hmod : (i + (k + 1)) % n = i + (k + 1) - n := by
      rw [Nat.mod_eq_sub_mod hge]
      exact Nat.mod_eq_of_lt (by omega)
    rw [hmod, distance_of_le (by omega) hi]
    omega

theorem pairwise_clockwise (hi : i < n) :
    (clockwise n i).Pairwise fun j k => distance n i j ≤ distance n i k := by
  unfold clockwise
  rw [List.pairwise_map]
  refine List.pairwise_lt_range.imp_of_mem fun {a b} ha hb hab => ?_
  rw [distance_step hi (List.mem_range.mp ha), distance_step hi (List.mem_range.mp hb)]
  omega

/-- **Positions of increasing distance are met in this order.** -/
theorem sublist_clockwise {js : List Nat} (hi : i < n) (hjs : ∀ j ∈ js, j < n) (hnodup : js.Nodup)
    (hsorted : js.Pairwise fun j k => distance n i j ≤ distance n i k) :
    js.Sublist (clockwise n i) := by
  have hsub : js.Subperm (clockwise n i) :=
    List.subperm_of_subset hnodup fun j hj => mem_clockwise.mpr (hjs j hj)
  obtain ⟨ks, hperm, hks⟩ := hsub
  have hsame : ks = js := by
    refine hperm.eq_of_pairwise (fun a b ha hb hab hba => ?_)
      ((pairwise_clockwise hi).sublist hks) hsorted
    exact distance_inj hi (mem_clockwise.mp (hks.subset ha)) (hjs b hb) (le_antisymm hab hba)
  exact hsame ▸ hks

/-! ## Walking from hit to hit -/

variable (p : Nat → Bool)

/-- The first position after `i` that satisfies `p`. -/
def next (n i : Nat) : Option Nat := (clockwise n i).find? p

/-- The positions that satisfy `p`, clockwise from `i`. -/
def hits (n i : Nat) : List Nat := (clockwise n i).filter p

variable {p}

theorem next_eq_head (n i : Nat) : next p n i = (hits p n i).head? := by
  unfold next hits
  rw [List.head?_filter]

theorem mem_hits : j ∈ hits p n i ↔ j < n ∧ p j = true := by
  unfold hits
  rw [List.mem_filter, mem_clockwise]

theorem nodup_hits (n i : Nat) : (hits p n i).Nodup := (nodup_clockwise n i).filter _

theorem next_some (h : next p n i = some j) : j < n ∧ p j = true := by
  unfold next at h
  exact ⟨mem_clockwise.mp (List.mem_of_find?_eq_some h), List.find?_some h⟩

theorem next_isSome (hj : j < n) (hp : p j = true) : ∃ k, next p n i = some k := by
  unfold next
  rw [← Option.isSome_iff_exists, List.find?_isSome]
  exact ⟨j, mem_clockwise.mpr hj, hp⟩

theorem next_eq_none : next p n i = none ↔ ∀ j < n, p j = false := by
  unfold next
  rw [List.find?_eq_none]
  simp only [mem_clockwise, Bool.not_eq_true]

/-- Another hit is met before coming back to `i`. -/
theorem next_ne {k : Nat} (h : next p n i = some j) (hk : k < n) (hp : p k = true) (hki : k ≠ i) :
    j ≠ i := by
  rintro rfl
  unfold next at h
  obtain ⟨-, pre, post, hsplit, hpre⟩ := List.find?_eq_some_iff_append.mp h
  have hnodup := nodup_clockwise n j
  have hrot := clockwise_split hsplit
  have hpost : post = [] := by
    by_contra hne
    have hlast := congrArg List.getLast? (hsplit.symm.trans hrot)
    rw [List.getLast?_concat, List.getLast?_append_of_ne_nil _ (by simp),
      List.getLast?_cons, List.getLast?_eq_getLast_of_ne_nil hne] at hlast
    simp only [Option.getD_some, Option.some.injEq] at hlast
    rw [hsplit, List.nodup_append, List.nodup_cons] at hnodup
    exact hnodup.2.1.1 (hlast ▸ List.getLast_mem hne)
  have hmem : k ∈ clockwise n j := mem_clockwise.mpr hk
  rw [hsplit, hpost, List.mem_append, List.mem_singleton] at hmem
  rcases hmem with hin | heq
  · have := hpre k hin
    rw [hp] at this
    exact absurd this (by decide)
  · exact hki heq

theorem length_hits (n i : Nat) : (hits p n i).length = ((List.range n).filter p).length := by
  unfold hits
  rw [clockwise_eq_rotate]
  exact ((List.rotate_perm _ _).filter p).length_eq

/-- The hits seen from the first one are the others, and then it. -/
theorem hits_rotate {x : Nat} {xs : List Nat} (h : hits p n i = x :: xs) :
    hits p n x = xs ++ [x] := by
  have hnext : next p n i = some x := by rw [next_eq_head, h]; rfl
  unfold next at hnext
  obtain ⟨hx, pre, post, hsplit, hpre⟩ := List.find?_eq_some_iff_append.mp hnext
  have hfilt : pre.filter p = [] := by
    rw [List.filter_eq_nil_iff]
    intro a ha
    simpa using hpre a ha
  have hxs : xs = post.filter p := by
    unfold hits at h
    rw [hsplit, List.filter_append, List.filter_cons_of_pos hx, hfilt, List.nil_append,
      List.cons.injEq] at h
    exact h.2.symm
  unfold hits
  rw [clockwise_split hsplit, List.filter_append, List.filter_append, hfilt, List.append_nil,
    List.filter_cons_of_pos hx, List.filter_nil, hxs]

/-- Once round the ring, a hit is met last. -/
theorem hits_self (hi : i < n) (hp : p i = true) : ∃ xs, hits p n i = xs ++ [i] := by
  have hmem : i ∈ clockwise n i := mem_clockwise.mpr hi
  obtain ⟨pre, post, hsplit⟩ := List.append_of_mem hmem
  refine ⟨(post ++ pre).filter p, ?_⟩
  unfold hits
  rw [clockwise_split hsplit, List.filter_append, List.filter_cons_of_pos hp, List.filter_nil]

theorem next_inj {x : Nat} (hi : i < n) (hpi : p i = true) (hj : j < n) (hpj : p j = true)
    (hix : next p n i = some x) (hjx : next p n j = some x) : i = j := by
  have hrest : ∀ k, next p n k = some x → ∃ xs, hits p n k = x :: xs := fun k hk => by
    rw [next_eq_head] at hk
    obtain ⟨xs, hxs⟩ := List.head?_eq_some_iff.mp hk
    exact ⟨xs, hxs⟩
  obtain ⟨xs, hxs⟩ := hrest i hix
  obtain ⟨ys, hys⟩ := hrest j hjx
  have hsame : xs ++ [x] = ys ++ [x] := (hits_rotate hxs).symm.trans (hits_rotate hys)
  obtain ⟨us, hus⟩ := hits_self hi hpi
  obtain ⟨vs, hvs⟩ := hits_self hj hpj
  have hlast : us ++ [i] = vs ++ [j] := by
    rw [← hus, ← hvs, hxs, hys, List.append_cancel_right hsame]
  exact List.singleton_inj.mp (List.append_inj' hlast rfl).2

/-- A walk from hit to hit follows the list of hits, for one round. -/
theorem prefix_of_isChain : ∀ {is : List Nat} {i : Nat},
    (i :: is).IsChain (fun a b => next p n a = some b) → is.length ≤ (hits p n i).length →
      is <+: hits p n i
  | [], _, _, _ => List.nil_prefix
  | x :: is, i, hchain, hlen => by
    rw [List.isChain_cons_cons, next_eq_head] at hchain
    obtain ⟨xs, hxs⟩ := List.head?_eq_some_iff.mp hchain.1
    rw [hxs, List.length_cons, List.length_cons] at hlen
    have hrest : is <+: xs ++ [x] := by
      rw [← hits_rotate hxs]
      refine prefix_of_isChain hchain.2 ?_
      rw [hits_rotate hxs, List.length_append, List.length_singleton]
      omega
    rw [hxs, List.prefix_cons_inj]
    exact List.prefix_of_prefix_length_le hrest (List.prefix_append _ _) (by omega)

/-- **A walk of one round meets every hit once.** -/
theorem perm_of_isChain {is : List Nat} (hi : i < n) (hp : p i = true)
    (hchain : (i :: is).IsChain fun a b => next p n a = some b)
    (hlen : (i :: is).length = (hits p n i).length) : (i :: is).Perm (hits p n i) := by
  obtain ⟨xs, hxs⟩ := hits_self hi hp
  rw [hxs, List.length_cons, List.length_append, List.length_singleton] at hlen
  have hprefix : is <+: xs ++ [i] := by
    rw [← hxs]
    refine prefix_of_isChain hchain ?_
    rw [hxs, List.length_append]
    omega
  have his : is = xs :=
    (List.prefix_of_prefix_length_le hprefix (List.prefix_append _ _) (by omega)).eq_of_length
      (by omega)
  rw [hxs, his]
  exact (List.perm_append_singleton i xs).symm

end PokerServer.Clockwise
