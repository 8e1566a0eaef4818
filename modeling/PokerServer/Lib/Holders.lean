import Mathlib.Data.List.Count
import Mathlib.Data.List.Perm.Basic

/-!
# Items held by the members of a list

Every member of a list holds some items, `holding` says which. The lemmas count an item over all
members: what changes when one member is exchanged, taken away or added. Two ways of holding the
same items are permutations of each other once every count agrees (`List.perm_iff_count`).

`count_replace` and `count_erase` do the same for one item of a list of items.
-/

namespace PokerServer

variable {M I : Type} [DecidableEq I] (holding : M → List I) {members : List M} {member : M}
  {i : Nat} {items : List I} {a : I}

theorem count_flatMap_append (members more : List M) (x : I) :
    ((members ++ more).flatMap holding).count x =
      (members.flatMap holding).count x + (more.flatMap holding).count x := by
  rw [List.flatMap_append, List.count_append]

theorem count_flatMap_singleton (member : M) (x : I) :
    ([member].flatMap holding).count x = (holding member).count x := by
  rw [List.flatMap_singleton]

/-- A member is exchanged. -/
theorem count_flatMap_set (h : members[i]? = some member) (next : M) (x : I) :
    ((members.set i next).flatMap holding).count x + (holding member).count x =
      (members.flatMap holding).count x + (holding next).count x := by
  induction members generalizing i with
  | nil => exact absurd h (by simp)
  | cons first members ih =>
    cases i with
    | zero =>
      obtain rfl := Option.some.inj h
      rw [List.set_cons_zero]
      simp only [List.flatMap_cons, List.count_append]
      omega
    | succ i =>
      have hrest := ih (i := i) h
      rw [List.set_cons_succ]
      simp only [List.flatMap_cons, List.count_append]
      omega

/-- A member is taken away. -/
theorem count_flatMap_eraseIdx (h : members[i]? = some member) (x : I) :
    ((members.eraseIdx i).flatMap holding).count x + (holding member).count x =
      (members.flatMap holding).count x := by
  induction members generalizing i with
  | nil => exact absurd h (by simp)
  | cons first members ih =>
    cases i with
    | zero =>
      obtain rfl := Option.some.inj h
      rw [List.eraseIdx_cons_zero]
      simp only [List.flatMap_cons, List.count_append]
      omega
    | succ i =>
      have hrest := ih (i := i) h
      rw [List.eraseIdx_cons_succ]
      simp only [List.flatMap_cons, List.count_append]
      omega

variable {holding} in
omit [DecidableEq I] in
theorem mem_flatMap_of_getElem? (h : members[i]? = some member) (ha : a ∈ holding member) :
    a ∈ members.flatMap holding :=
  List.mem_flatMap.mpr ⟨member, List.mem_of_getElem? h, ha⟩

theorem count_cons_add (b : I) (items : List I) (x : I) :
    (b :: items).count x = items.count x + [b].count x := by
  have h : ([b] ++ items).count x = [b].count x + items.count x := List.count_append
  rw [Nat.add_comm]
  exact h

/-- The first place of an item gets another one. -/
theorem count_replace (h : a ∈ items) (b x : I) :
    (items.replace a b).count x + [a].count x = items.count x + [b].count x := by
  induction items with
  | nil => exact absurd h (by simp)
  | cons first items ih =>
    by_cases hfirst : first = a
    · subst hfirst
      rw [List.replace_cons_self, count_cons_add b items, count_cons_add first items]
      omega
    · have hmem : a ∈ items := by
        rcases List.mem_cons.mp h with rfl | h
        · exact absurd rfl hfirst
        · exact h
      have hrest := ih hmem
      have hne : (a == first) = false := by simpa using Ne.symm hfirst
      rw [List.replace_cons, hne]
      dsimp only
      rw [count_cons_add first (items.replace a b), count_cons_add first items]
      omega

theorem count_erase (h : a ∈ items) (x : I) :
    (items.erase a).count x + [a].count x = items.count x := by
  rw [(List.perm_cons_erase h).count_eq x, count_cons_add a (items.erase a)]

end PokerServer
