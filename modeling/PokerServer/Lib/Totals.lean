import Mathlib.Data.List.AList
import Mathlib.Algebra.BigOperators.Group.List.Basic
import Mathlib.Tactic.Abel

/-!
# Totals over a finite map

`total weight map`: the sum of the weights of the values of a map. Inserting at a new key adds a
weight, inserting at a known key exchanges one, erasing takes one away.
-/

namespace PokerServer

variable {K V M : Type} [AddCommGroup M] {weight : V → M} {map : AList fun _ : K => V} {key : K}
  {old new : V}

def total (weight : V → M) (map : AList fun _ : K => V) : M :=
  (map.entries.map fun entry => weight entry.2).sum

@[simp]
theorem total_empty : total weight (∅ : AList fun _ : K => V) = 0 := by
  simp [total]

variable [DecidableEq K]

/-- The entry of a known key, taken out of the list. -/
theorem sum_kerase {entries : List (Sigma fun _ : K => V)} (hnodup : entries.NodupKeys)
    (hmem : ⟨key, old⟩ ∈ entries) :
    ((entries.kerase key).map fun entry => weight entry.2).sum + weight old =
      (entries.map fun entry => weight entry.2).sum := by
  obtain ⟨value, front, back, hfront, rfl, hrest⟩ :=
    List.exists_of_kerase (List.mem_keys_of_mem hmem)
  have hvalue : (⟨key, value⟩ : Sigma fun _ : K => V) ∈ front ++ ⟨key, value⟩ :: back := by simp
  obtain rfl : value = old := eq_of_heq (Sigma.mk.inj (hnodup.eq_of_fst_eq hvalue hmem rfl)).2
  rw [hrest]
  simp only [List.map_append, List.sum_append, List.map_cons, List.sum_cons]
  abel

theorem total_erase (h : map.lookup key = some old) :
    total weight (map.erase key) = total weight map - weight old := by
  rw [eq_sub_iff_add_eq]
  exact sum_kerase map.nodupKeys (AList.mem_lookup_iff.mp h)

theorem total_insert_new (h : map.lookup key = none) :
    total weight (map.insert key new) = total weight map + weight new := by
  unfold total
  rw [AList.entries_insert_of_notMem (AList.lookup_eq_none.mp h), List.map_cons, List.sum_cons,
    add_comm]

theorem total_insert (h : map.lookup key = some old) :
    total weight (map.insert key new) = total weight map - weight old + weight new := by
  have hrest : ((map.entries.kerase key).map fun entry => weight entry.2).sum + weight old =
      total weight map := sum_kerase map.nodupKeys (AList.mem_lookup_iff.mp h)
  rw [← hrest, total, AList.entries_insert, List.map_cons, List.sum_cons]
  abel

end PokerServer
