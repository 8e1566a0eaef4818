import Mathlib.Data.List.AList

/-!
# Statements on keyed rows

The rows of a relation with a primary key are a finite map from keys to the other columns. A
statement maps rows to rows; what it does is said by `lookup`, so that a proof never looks at the
order of the rows.

* `updateRows set`: `UPDATE`. `set key row` is what the statement writes into the row, and `none`
  where its condition fails. `affectedRows set` counts the rows it writes.
* `atKey key set`: an update whose condition names the primary key; it affects one row or none.
* `deleteRows cond`: `DELETE`.
* `insertRows new`: `INSERT` of several rows, refused as a whole if a key is taken.
* `anyRow cond`: whether a row satisfies a condition, as a unique key other than the primary asks.
-/

namespace PokerServer

variable {K V : Type} {set : K → V → Option V} {rows : AList fun _ : K => V}

/-- `UPDATE`. -/
def updateRows (set : K → V → Option V) (rows : AList fun _ : K => V) : AList fun _ : K => V :=
  ⟨rows.entries.map (Sigma.map id fun key row => (set key row).getD row),
    List.NodupKeys.map₂ _ _ rows.nodupKeys⟩

/-- The rows that an `UPDATE` writes. -/
def affectedRows (set : K → V → Option V) (rows : AList fun _ : K => V) : Nat :=
  (rows.entries.filter fun entry => (set entry.1 entry.2).isSome).length

/-- Every row that an `UPDATE` writes satisfies `check`. -/
def writesPass (check : V → Bool) (set : K → V → Option V) (rows : AList fun _ : K => V) : Bool :=
  rows.entries.all fun entry => (set entry.1 entry.2).all check

/-- `DELETE`. -/
def deleteRows (cond : K → V → Bool) (rows : AList fun _ : K => V) : AList fun _ : K => V :=
  ⟨rows.entries.filter fun entry => !cond entry.1 entry.2,
    rows.nodupKeys.sublist List.filter_sublist⟩

/-- Some row satisfies the condition. -/
def anyRow (cond : K → V → Bool) (rows : AList fun _ : K => V) : Bool :=
  rows.entries.any fun entry => cond entry.1 entry.2

variable [DecidableEq K]

/-- The update of the row with this key. -/
def atKey (key : K) (set : V → Option V) : K → V → Option V :=
  fun other row => if other = key then set row else none

/-- `INSERT` of a list of rows. -/
def insertRows (new : List (K × V)) (rows : AList fun _ : K => V) : Option (AList fun _ : K => V) :=
  new.foldlM (fun rows entry =>
    if (rows.lookup entry.1).isSome then none else some (rows.insert entry.1 entry.2)) rows

/-! ## What the statements leave -/

theorem lookup_updateRows (set : K → V → Option V) (rows : AList fun _ : K => V) (key : K) :
    (updateRows set rows).lookup key = (rows.lookup key).map fun row => (set key row).getD row :=
  List.dlookup_map₂ key

theorem lookup_atKey_self (set : V → Option V) (rows : AList fun _ : K => V) (key : K) :
    (updateRows (atKey key set) rows).lookup key =
      (rows.lookup key).map fun row => (set row).getD row := by
  rw [lookup_updateRows]
  simp only [atKey, if_true]

theorem lookup_atKey_ne {key other : K} (h : other ≠ key) (set : V → Option V)
    (rows : AList fun _ : K => V) :
    (updateRows (atKey key set) rows).lookup other = rows.lookup other := by
  rw [lookup_updateRows]
  simp only [atKey, if_neg h, Option.getD_none, Option.map_id']

/-- An update by the primary key affects one row or none. -/
theorem affectedRows_atKey (key : K) (set : V → Option V) (rows : AList fun _ : K => V) :
    affectedRows (atKey key set) rows = ((rows.lookup key).bind set).isSome.toNat := by
  obtain ⟨entries, hnodup⟩ := rows
  unfold affectedRows AList.lookup
  dsimp only
  induction entries with
  | nil => rfl
  | cons entry entries ih =>
    obtain ⟨hnew, hrest⟩ := List.nodupKeys_cons.mp hnodup
    by_cases heq : entry.1 = key
    · -- the other rows have other keys
      have hnone : entries.filter (fun e => (atKey key set e.1 e.2).isSome) = [] := by
        refine List.filter_eq_nil_iff.mpr fun e he => ?_
        have hne : e.1 ≠ key := fun h => hnew (heq.trans h.symm ▸ List.mem_keys_of_mem he)
        simp [atKey, hne]
      subst heq
      rw [List.filter_cons, hnone, List.dlookup_cons_eq, Option.bind_some]
      simp only [atKey, if_true]
      cases set entry.2 <;> rfl
    · rw [List.filter_cons, List.dlookup_cons_ne _ _ (Ne.symm heq)]
      simp only [atKey, if_neg heq, Option.isSome_none, Bool.false_eq_true, if_false]
      exact ih hrest

/-- An update by the primary key under a condition on the row. -/
theorem affectedRows_atKey_iff {key : K} {cond : V → Prop} [DecidablePred cond] {write : V → V} :
    affectedRows (atKey key fun row => if cond row then some (write row) else none) rows = 1 ↔
      ∃ row, rows.lookup key = some row ∧ cond row := by
  rw [affectedRows_atKey]
  cases rows.lookup key with
  | none => simp
  | some row =>
    rw [Option.bind_some]
    split
    · rename_i hcond
      simp [hcond]
    · rename_i hcond
      simp [hcond]

theorem lookup_deleteRows (cond : K → V → Bool) (rows : AList fun _ : K => V) (key : K) :
    (deleteRows cond rows).lookup key = (rows.lookup key).filter fun row => !cond key row := by
  obtain ⟨entries, hnodup⟩ := rows
  unfold deleteRows AList.lookup
  dsimp only
  induction entries with
  | nil => rfl
  | cons entry entries ih =>
    obtain ⟨hnew, hrest⟩ := List.nodupKeys_cons.mp hnodup
    by_cases heq : key = entry.1
    · subst heq
      rw [List.dlookup_cons_eq, List.filter_cons]
      by_cases hcond : cond entry.1 entry.2 = true
      · have hnone : List.dlookup entry.1 entries = none := List.dlookup_eq_none.mpr hnew
        simp only [hcond, Bool.not_true, Bool.false_eq_true, if_false, Option.filter_some]
        rw [ih hrest, hnone, Option.filter_none]
      · rw [Bool.not_eq_true] at hcond
        simp only [hcond, Bool.not_false, if_true, Option.filter_some]
        exact List.dlookup_cons_eq _ _ _
    · rw [List.dlookup_cons_ne _ _ heq, List.filter_cons, ← ih hrest]
      split
      · exact List.dlookup_cons_ne _ _ heq
      · rfl

/-- A row that a `DELETE` takes, whatever it holds. -/
theorem lookup_deleteRows_gone {cond : K → V → Bool} {key : K} (h : ∀ row, cond key row = true)
    (rows : AList fun _ : K => V) : (deleteRows cond rows).lookup key = none := by
  rw [lookup_deleteRows, Option.filter_eq_none_iff]
  intro row _
  simp [h row]

/-- A row that a `DELETE` leaves, whatever it holds. -/
theorem lookup_deleteRows_kept {cond : K → V → Bool} {key : K} (h : ∀ row, cond key row = false)
    (rows : AList fun _ : K => V) : (deleteRows cond rows).lookup key = rows.lookup key := by
  rw [lookup_deleteRows]
  cases rows.lookup key with
  | none => rfl
  | some row => simp [h row]

theorem anyRow_iff {cond : K → V → Bool} :
    anyRow cond rows = true ↔ ∃ key row, rows.lookup key = some row ∧ cond key row = true := by
  unfold anyRow
  rw [List.any_eq_true]
  constructor
  · rintro ⟨entry, hentry, hcond⟩
    exact ⟨entry.1, entry.2, AList.mem_lookup_iff.mpr hentry, hcond⟩
  · rintro ⟨key, row, hrow, hcond⟩
    exact ⟨⟨key, row⟩, AList.mem_lookup_iff.mp hrow, hcond⟩

theorem writesPass_iff {check : V → Bool} :
    writesPass check set rows = true ↔
      ∀ key row new, rows.lookup key = some row → set key row = some new → check new = true := by
  unfold writesPass
  rw [List.all_eq_true]
  constructor
  · intro h key row new hrow hset
    have hpass := h ⟨key, row⟩ (AList.mem_lookup_iff.mp hrow)
    rwa [hset] at hpass
  · intro h entry hentry
    cases hset : set entry.1 entry.2 with
    | none => rfl
    | some new => exact h entry.1 entry.2 new (AList.mem_lookup_iff.mpr hentry) hset

/-- Maps with the same entries keep them under the same insertion. -/
theorem lookup_insert_congr {rows rows' : AList fun _ : K => V}
    (h : ∀ key, rows.lookup key = rows'.lookup key) (key : K) (row : V) (other : K) :
    (rows.insert key row).lookup other = (rows'.insert key row).lookup other := by
  by_cases heq : other = key
  · rw [heq, AList.lookup_insert, AList.lookup_insert]
  · rw [AList.lookup_insert_ne heq, AList.lookup_insert_ne heq, h]

/-- An update by the primary key that matches puts one row in the place of another. -/
theorem lookup_atKey {key : K} (set : V → Option V) {row new : V}
    (hrow : rows.lookup key = some row) (hset : set row = some new) (other : K) :
    (updateRows (atKey key set) rows).lookup other = (rows.insert key new).lookup other := by
  by_cases heq : other = key
  · rw [heq, lookup_atKey_self, hrow, Option.map_some, hset, Option.getD_some, AList.lookup_insert]
  · rw [lookup_atKey_ne heq, AList.lookup_insert_ne heq]

theorem writesPass_atKey {check : V → Bool} (key : K) (set : V → Option V) :
    writesPass check (atKey key set) rows = ((rows.lookup key).bind set).all check := by
  rw [Bool.eq_iff_iff, writesPass_iff, Option.all_eq_true]
  constructor
  · intro h new hnew
    obtain ⟨row, hrow, hset⟩ := Option.bind_eq_some_iff.mp hnew
    exact h key row new hrow (by rw [atKey, if_pos rfl, hset])
  · intro h other row new hrow hset
    unfold atKey at hset
    split at hset
    · rename_i heq
      rw [heq] at hrow
      exact h new (by rw [hrow, Option.bind_some, hset])
    · exact absurd hset (by simp)

theorem insertRows_singleton {key : K} (hfree : rows.lookup key = none) (row : V) :
    insertRows [(key, row)] rows = some (rows.insert key row) := by
  rw [insertRows, List.foldlM_cons, if_neg (by simp [hfree])]
  rfl

/-- **New keys can be inserted**, and then hold what was inserted. -/
theorem insertRows_new : ∀ {new : List (K × V)} {rows : AList fun _ : K => V},
    (new.map Prod.fst).Nodup → (∀ entry ∈ new, rows.lookup entry.1 = none) →
    ∃ rows', insertRows new rows = some rows' ∧
      ∀ key row, rows'.lookup key = some row ↔ (key, row) ∈ new ∨ rows.lookup key = some row
  | [], rows, _, _ => ⟨rows, rfl, by simp⟩
  | entry :: new, rows, hnodup, hfree => by
    rw [List.map_cons, List.nodup_cons] at hnodup
    obtain ⟨hnew, hrest⟩ := hnodup
    have hfirst : rows.lookup entry.1 = none := hfree entry List.mem_cons_self
    have hothers : ∀ other ∈ new, (rows.insert entry.1 entry.2).lookup other.1 = none := by
      intro other hother
      have hne : other.1 ≠ entry.1 := fun heq => by
        rw [← heq] at hnew
        exact hnew (List.mem_map_of_mem hother)
      rw [AList.lookup_insert_ne hne]
      exact hfree other (List.mem_cons_of_mem _ hother)
    obtain ⟨rows', hinsert, hlookup⟩ := insertRows_new hrest hothers
    refine ⟨rows', ?_, fun key row => ?_⟩
    · rw [insertRows, List.foldlM_cons, if_neg (by simp [hfirst])]
      exact hinsert
    · rw [hlookup, List.mem_cons]
      by_cases heq : key = entry.1
      · subst heq
        rw [AList.lookup_insert, hfirst, Option.some.injEq]
        constructor
        · rintro (hmem | rfl)
          · exact Or.inl (Or.inr hmem)
          · exact Or.inl (Or.inl rfl)
        · rintro ((hsame | hmem) | hold)
          · exact Or.inr (congrArg Prod.snd hsame).symm
          · exact Or.inl hmem
          · exact absurd hold (by simp)
      · rw [AList.lookup_insert_ne heq]
        constructor
        · exact fun h => h.imp_left Or.inr
        · rintro ((hsame | hmem) | hold)
          · exact absurd (congrArg Prod.fst hsame) heq
          · exact Or.inl hmem
          · exact Or.inr hold

end PokerServer
