import Mathlib.Algebra.BigOperators.Group.List.Basic
import Mathlib.Tactic.Ring
import PokerServer.Domain.Table

/-!
# Reading and writing seats

The small lemmas later proofs use in place of the list behind `seats_`: what a seat holds after a
write (`seatAt_setSeat_self`, `seatAt_mapSeats`), which players are seated (`mem_players`), how sums
and counts over the seats change, and what the two searches by id return.

`Seating` is the part of the table's invariant that is about seats alone: a valid configuration,
one seat per possible player, every player at the index it names, and no id twice. `SameSeating`
says two tables seat the same ids at the same indices, whatever the players hold.
-/

namespace PokerServer

/-- The id and the seat a player carries. -/
def Player.key (p : Player) : PlayerId × Nat := (p.id, p.seat)

namespace Table

variable {t t' : Table} {i j : Nat} {p q : Player} {id : PlayerId}

theorem seatAt_lt (h : t.seatAt i = some p) : i < t.seats.length := by
  unfold seatAt at h
  by_contra hc
  rw [List.getElem?_eq_none (by omega)] at h
  exact absurd h (by simp)

theorem seatAt_eq_getElem (h : i < t.seats.length) : t.seatAt i = t.seats[i] := by
  unfold seatAt
  rw [List.getElem?_eq_getElem h]
  rfl

theorem seatAt_congr (h : t'.seats = t.seats) (i : Nat) : t'.seatAt i = t.seatAt i := by
  unfold seatAt
  rw [h]

theorem seats_ext (hlen : t.seats.length = t'.seats.length)
    (h : ∀ i, t.seatAt i = t'.seatAt i) : t.seats = t'.seats := by
  apply List.ext_getElem hlen
  intro i h1 h2
  rw [← seatAt_eq_getElem h1, ← seatAt_eq_getElem h2, h i]

/-- Two tables read off the same, seat by seat, give the same list. -/
theorem map_seats_congr {β : Type} {f g : Option Player → β}
    (hlen : t'.seats.length = t.seats.length) (h : ∀ i, f (t'.seatAt i) = g (t.seatAt i)) :
    t'.seats.map f = t.seats.map g := by
  apply List.ext_getElem
  · rw [List.length_map, List.length_map, hlen]
  · intro i h1 h2
    rw [List.length_map] at h1 h2
    rw [List.getElem_map, List.getElem_map, ← seatAt_eq_getElem h1, ← seatAt_eq_getElem h2, h i]

/-! ## Writes -/

theorem length_setSeat (t : Table) (i : Nat) (o : Option Player) :
    (t.setSeat i o).seats.length = t.seats.length := by
  simp [setSeat]

theorem seatAt_setSeat_self (h : i < t.seats.length) (o : Option Player) :
    (t.setSeat i o).seatAt i = o := by
  simp [setSeat, seatAt, h]

theorem seatAt_setSeat_ne (h : i ≠ j) (o : Option Player) :
    (t.setSeat i o).seatAt j = t.seatAt j := by
  simp [setSeat, seatAt, List.getElem?_set_ne h]

theorem seatAt_of_leave (h : (t.setSeat i none).seatAt j = some p) :
    i ≠ j ∧ t.seatAt j = some p := by
  have hij : i ≠ j := by
    rintro rfl
    have hlt := seatAt_lt h
    rw [length_setSeat] at hlt
    rw [seatAt_setSeat_self hlt] at h
    exact absurd h (by simp)
  exact ⟨hij, (seatAt_setSeat_ne hij none).symm.trans h⟩

theorem length_mapSeats (t : Table) (f : Player → Player) :
    (t.mapSeats f).seats.length = t.seats.length := by
  simp [mapSeats]

@[simp] theorem seatAt_mapSeats (t : Table) (f : Player → Player) (i : Nat) :
    (t.mapSeats f).seatAt i = (t.seatAt i).map f := by
  unfold seatAt mapSeats
  rw [List.getElem?_map]
  cases t.seats[i]? <;> simp

/-! ## The seated players -/

/-- A player after a change of every seat was seated before. -/
theorem mapSeats_back {f : Player → Player} (hq : (t.mapSeats f).seatAt i = some q) :
    ∃ p, t.seatAt i = some p ∧ q = f p := by
  rw [seatAt_mapSeats, Option.map_eq_some_iff] at hq
  obtain ⟨p, hp, rfl⟩ := hq
  exact ⟨p, hp, rfl⟩

theorem mem_players : p ∈ t.players ↔ ∃ i, t.seatAt i = some p := by
  unfold players
  rw [List.mem_filterMap]
  constructor
  · rintro ⟨o, ho, rfl⟩
    obtain ⟨i, hi, hget⟩ := List.getElem_of_mem ho
    exact ⟨i, by rw [seatAt_eq_getElem hi, hget]⟩
  · rintro ⟨i, hi⟩
    have hlt := seatAt_lt hi
    rw [seatAt_eq_getElem hlt] at hi
    exact ⟨some p, hi ▸ List.getElem_mem hlt, rfl⟩

theorem players_mapSeats (t : Table) (f : Player → Player) :
    (t.mapSeats f).players = t.players.map f := by
  unfold players mapSeats
  induction t.seats with
  | nil => rfl
  | cons o os ih => cases o <;> simp_all

/-- What a seat counts for in a sum over the players. -/
def amountAt (f : Player → Int) (o : Option Player) : Int := (o.map f).getD 0

theorem sum_players (t : Table) (f : Player → Int) :
    (t.players.map f).sum = (t.seats.map (amountAt f)).sum := by
  unfold players
  induction t.seats with
  | nil => rfl
  | cons o os ih => cases o <;> simp_all [amountAt]

/-- A write changes a sum by what the seat held before and holds now. -/
theorem sum_setSeat (h : i < t.seats.length) (o : Option Player) (f : Player → Int) :
    ((t.setSeat i o).players.map f).sum =
      (t.players.map f).sum - amountAt f (t.seatAt i) + amountAt f o := by
  rw [sum_players, sum_players, setSeat, List.map_set, List.sum_set',
    dif_pos (by rw [List.length_map]; exact h), List.getElem_map, seatAt_eq_getElem h]
  ring

theorem sum_setSeat_some (h : t.seatAt i = some p) (f : Player → Int) :
    ((t.setSeat i (some q)).players.map f).sum = (t.players.map f).sum - f p + f q := by
  rw [sum_setSeat (seatAt_lt h), h]
  rfl

/-- A count, as a sum. -/
theorem sum_countP (c : Player → Bool) (l : List Player) :
    (l.map fun p => if c p then (1 : Int) else 0).sum = l.countP c := by
  induction l with
  | nil => rfl
  | cons p l ih => rw [List.map_cons, List.sum_cons, ih, List.countP_cons]; split_ifs <;> omega

/-- A count over the players is positive iff a seat passes. -/
theorem countP_pos_iff {c : Player → Bool} :
    0 < t.players.countP c ↔ ∃ i p, t.seatAt i = some p ∧ c p = true := by
  rw [List.countP_pos_iff]
  constructor
  · rintro ⟨p, hp, hc⟩
    obtain ⟨i, hi⟩ := mem_players.mp hp
    exact ⟨i, p, hi, hc⟩
  · rintro ⟨i, p, hi, hc⟩
    exact ⟨p, mem_players.mpr ⟨i, hi⟩, hc⟩

/-- Two players are counted iff two different seats pass. -/
theorem two_le_countP_iff {c : Player → Bool} :
    2 ≤ t.players.countP c ↔
      ∃ i j p q, i < j ∧ t.seatAt i = some p ∧ t.seatAt j = some q ∧ c p = true ∧ c q = true := by
  unfold players seatAt
  induction t.seats with
  | nil => simp
  | cons o os ih =>
    have hone : 0 < (os.filterMap id).countP c ↔
        ∃ (j : Nat) (q : Player), (os[j]?).join = some q ∧ c q = true := by
      have := countP_pos_iff (t := { t with seats := os }) (c := c)
      exact this
    cases o with
    | none =>
      rw [List.filterMap_cons_none rfl, ih]
      constructor
      · rintro ⟨i, j, p, q, hij, hi, hj, hp, hq⟩
        exact ⟨i + 1, j + 1, p, q, by omega, by simpa using hi, by simpa using hj, hp, hq⟩
      · rintro ⟨i, j, p, q, hij, hi, hj, hp, hq⟩
        cases i with
        | zero => simp at hi
        | succ i =>
          cases j with
          | zero => omega
          | succ j => exact ⟨i, j, p, q, by omega, by simpa using hi, by simpa using hj, hp, hq⟩
    | some r =>
      rw [show List.filterMap id (some r :: os) = r :: os.filterMap id from rfl,
        List.countP_cons]
      by_cases hr : c r = true
      · simp only [hr, if_true]
        constructor
        · intro h
          obtain ⟨j, q, hj, hq⟩ := hone.mp (by omega)
          exact ⟨0, j + 1, r, q, by omega, by simp, by simpa using hj, hr, hq⟩
        · rintro ⟨i, j, p, q, hij, hi, hj, hp, hq⟩
          cases j with
          | zero => omega
          | succ j =>
            have := hone.mpr ⟨j, q, by simpa using hj, hq⟩
            omega
      · simp only [hr, if_false, Nat.add_zero, Bool.false_eq_true]
        rw [ih]
        constructor
        · rintro ⟨i, j, p, q, hij, hi, hj, hp, hq⟩
          exact ⟨i + 1, j + 1, p, q, by omega, by simpa using hi, by simpa using hj, hp, hq⟩
        · rintro ⟨i, j, p, q, hij, hi, hj, hp, hq⟩
          cases i with
          | zero =>
            simp only [List.getElem?_cons_zero, Option.join_some, Option.some.injEq] at hi
            subst hi
            exact absurd hp hr
          | succ i =>
            cases j with
            | zero => omega
            | succ j => exact ⟨i, j, p, q, by omega, by simpa using hi, by simpa using hj, hp, hq⟩

/-- At most one player is counted iff all seats that pass are one seat. -/
theorem countP_le_one_iff {c : Player → Bool} :
    t.players.countP c ≤ 1 ↔
      ∀ i j p q, t.seatAt i = some p → t.seatAt j = some q → c p = true → c q = true → i = j := by
  rw [← not_lt, show 1 < t.players.countP c ↔ 2 ≤ t.players.countP c from Iff.rfl,
    two_le_countP_iff]
  constructor
  · intro h i j p q hi hj hp hq
    by_contra hne
    rcases Nat.lt_or_gt_of_ne hne with hlt | hlt
    · exact h ⟨i, j, p, q, hlt, hi, hj, hp, hq⟩
    · exact h ⟨j, i, q, p, hlt, hj, hi, hq, hp⟩
  · rintro h ⟨i, j, p, q, hlt, hi, hj, hp, hq⟩
    exact absurd (h i j p q hi hj hp hq) (by omega)

/-! ## Seating -/

/-- A valid configuration, one seat per possible player, every player at the seat it names, and
no id at two seats. -/
structure Seating (t : Table) : Prop where
  valid : t.config.validateConfig = .ok
  size : t.seats.length = t.config.maxPlayers
  index : ∀ {i p}, t.seatAt i = some p → p.seat = i
  unique : ∀ {i j p q}, t.seatAt i = some p → t.seatAt j = some q → p.id = q.id → i = j

/-- The same ids at the same seats, under the same configuration. -/
structure SameSeating (t t' : Table) : Prop where
  config : t'.config = t.config
  length : t'.seats.length = t.seats.length
  keys : ∀ i, (t'.seatAt i).map Player.key = (t.seatAt i).map Player.key

theorem SameSeating.refl (t : Table) : SameSeating t t := ⟨rfl, rfl, fun _ => rfl⟩

theorem SameSeating.trans {t'' : Table} (h : SameSeating t t') (h' : SameSeating t' t'') :
    SameSeating t t'' :=
  ⟨h'.config.trans h.config, h'.length.trans h.length, fun i => (h'.keys i).trans (h.keys i)⟩

theorem SameSeating.symm (h : SameSeating t t') : SameSeating t' t :=
  ⟨h.config.symm, h.length.symm, fun i => (h.keys i).symm⟩

/-- The player the other table has at the same seat. -/
theorem SameSeating.seat (h : SameSeating t t') (hp : t.seatAt i = some p) :
    ∃ q, t'.seatAt i = some q ∧ q.id = p.id ∧ q.seat = p.seat := by
  have hk := h.keys i
  rw [hp, Option.map_some] at hk
  obtain ⟨q, hq, hkey⟩ := Option.map_eq_some_iff.mp hk
  simp only [Player.key, Prod.mk.injEq] at hkey
  exact ⟨q, hq, hkey.1, hkey.2⟩

theorem Seating.of_same (hs : t.Seating) (h : SameSeating t t') : t'.Seating where
  valid := by rw [h.config]; exact hs.valid
  size := by rw [h.length, h.config]; exact hs.size
  index := fun hp => by
    obtain ⟨q, hq, -, hseat⟩ := h.symm.seat hp
    rw [← hseat]
    exact hs.index hq
  unique := fun hp hq hid => by
    obtain ⟨p', hp', hpid, -⟩ := h.symm.seat hp
    obtain ⟨q', hq', hqid, -⟩ := h.symm.seat hq
    exact hs.unique hp' hq' (by rw [hpid, hqid, hid])

/-- Changing anything but the seats keeps the seating. -/
theorem SameSeating.of_seats (hc : t'.config = t.config) (hs : t'.seats = t.seats) :
    SameSeating t t' :=
  ⟨hc, by rw [hs], fun i => by rw [seatAt_congr hs]⟩

theorem sameSeating_mapSeats {f : Player → Player} (hf : ∀ p, (f p).key = p.key) :
    SameSeating t (t.mapSeats f) where
  config := rfl
  length := length_mapSeats t f
  keys := fun i => by
    rw [seatAt_mapSeats]
    cases t.seatAt i with
    | none => rfl
    | some p => simp only [Option.map_some, hf]

/-- Rewriting the players and moving the sequence on keeps the seating. -/
theorem sameSeating_sequenced {f : Player → Player} (hf : ∀ p, (f p).key = p.key) (n : Nat) :
    SameSeating t { t.mapSeats f with serverSequence := n } :=
  (sameSeating_mapSeats hf).trans (SameSeating.of_seats rfl rfl)

theorem sameSeating_setSeat (hp : t.seatAt i = some p) (hk : q.key = p.key) :
    SameSeating t (t.setSeat i (some q)) where
  config := rfl
  length := length_setSeat t i _
  keys := fun j => by
    by_cases hij : i = j
    · subst hij
      rw [seatAt_setSeat_self (seatAt_lt hp), hp, Option.map_some, Option.map_some, hk]
    · rw [seatAt_setSeat_ne hij]

theorem sameSeating_modifyPlayer (id : PlayerId) {f : Player → Player}
    (hf : ∀ p, (f p).key = p.key) : SameSeating t (t.modifyPlayer id f) := by
  unfold modifyPlayer
  split
  · exact SameSeating.refl t
  · rename_i i _
    cases hp : t.seatAt i with
    | none =>
      refine ⟨rfl, length_setSeat t i _, fun j => ?_⟩
      rw [Option.map_none]
      by_cases hij : i = j
      · subst hij
        by_cases hlt : i < t.seats.length
        · rw [seatAt_setSeat_self hlt, hp]
        · unfold setSeat
          rw [List.set_eq_of_length_le (by omega)]
      · rw [seatAt_setSeat_ne hij]
    | some p => exact sameSeating_setSeat hp (hf p)

/-- A loop whose rounds keep the seating keeps it. -/
theorem sameSeating_foldl {α : Type} {f : Table → α → Table} (hf : ∀ t a, SameSeating t (f t a)) :
    ∀ (l : List α) (t : Table), SameSeating t (l.foldl f t)
  | [], t => SameSeating.refl t
  | a :: l, t => (hf t a).trans (sameSeating_foldl hf l (f t a))

/-- The seated ids are distinct. -/
theorem Seating.nodup_ids (hs : t.Seating) : (t.players.map (·.id)).Nodup := by
  rw [List.Nodup, List.pairwise_map, players, List.pairwise_filterMap, List.pairwise_iff_getElem]
  intro i j hi hj hij p hp q hq heq
  rw [id_eq, ← seatAt_eq_getElem hi] at hp
  rw [id_eq, ← seatAt_eq_getElem hj] at hq
  have := hs.unique hp hq heq
  omega

/-- A sum in which one id counts is that id's share. -/
theorem Seating.sum_single (hs : t.Seating) (hp : t.seatAt i = some p) (c : Int) :
    (t.players.map fun q => if p.id = q.id then c else 0).sum = c := by
  have hmem : p.id ∈ t.players.map (·.id) := List.mem_map.mpr ⟨p, mem_players.mpr ⟨i, hp⟩, rfl⟩
  have hcount := List.count_eq_one_of_mem hs.nodup_ids hmem
  have hmap : (t.players.map fun q => if p.id = q.id then c else 0) =
      (t.players.map (·.id)).map fun x => if x = p.id then c else 0 := by
    rw [List.map_map]
    exact List.map_congr_left fun q _ => by simp [eq_comm]
  rw [hmap, List.sum_map_ite_eq, hcount, one_nsmul, List.sum_map_zero, sub_zero, add_zero]

/-! ## Searching by id -/

theorem seatOf_some (h : t.seatOf id = some i) : ∃ p, t.seatAt i = some p ∧ p.id = id := by
  unfold seatOf at h
  rw [List.findIdx?_eq_some_iff_getElem] at h
  obtain ⟨hlt, hany, -⟩ := h
  rw [Option.any_eq_true] at hany
  obtain ⟨p, hp, hid⟩ := hany
  exact ⟨p, by rw [seatAt_eq_getElem hlt, hp], by simpa using hid⟩

theorem seatOf_isSome (h : t.seatAt i = some p) : ∃ j, t.seatOf p.id = some j := by
  rw [← Option.isSome_iff_exists]
  unfold seatOf
  rw [List.findIdx?_isSome, List.any_eq_true]
  have hlt := seatAt_lt h
  rw [seatAt_eq_getElem hlt] at h
  exact ⟨some p, h ▸ List.getElem_mem hlt, by simp⟩

theorem seatOf_none (h : t.seatOf id = none) (hp : t.seatAt i = some p) : p.id ≠ id := by
  rintro rfl
  obtain ⟨j, hj⟩ := seatOf_isSome hp
  rw [h] at hj
  exact absurd hj (by simp)

theorem findPlayer_some (h : t.findPlayer id = some p) : ∃ i, t.seatAt i = some p ∧ p.id = id := by
  unfold findPlayer at h
  obtain ⟨i, hi⟩ := mem_players.mp (List.mem_of_find?_eq_some h)
  exact ⟨i, hi, by simpa using List.find?_some h⟩

theorem Seating.findPlayer (hs : t.Seating) (h : t.seatAt i = some p) :
    t.findPlayer p.id = some p := by
  have hsome : (t.findPlayer p.id).isSome := by
    unfold Table.findPlayer
    rw [List.find?_isSome]
    exact ⟨p, mem_players.mpr ⟨i, h⟩, by simp⟩
  obtain ⟨q, hq⟩ := Option.isSome_iff_exists.mp hsome
  obtain ⟨j, hj, hid⟩ := findPlayer_some hq
  have hij := hs.unique hj h hid
  subst hij
  rw [hj] at h
  rw [hq, Option.some.inj h]

theorem findPlayer_none (h : t.findPlayer id = none) (hp : t.seatAt i = some p) : p.id ≠ id := by
  unfold findPlayer at h
  rw [List.find?_eq_none] at h
  simpa using h p (mem_players.mpr ⟨i, hp⟩)

/-- The seated ids are found by `findPlayer` iff by `seatOf`. -/
theorem seatOf_none_iff : t.seatOf id = none ↔ t.findPlayer id = none := by
  constructor
  · intro h
    by_contra hc
    obtain ⟨p, hp⟩ := Option.ne_none_iff_exists'.mp hc
    obtain ⟨i, hi, hid⟩ := findPlayer_some hp
    exact seatOf_none h hi hid
  · intro h
    by_contra hc
    obtain ⟨i, hi⟩ := Option.ne_none_iff_exists'.mp hc
    obtain ⟨p, hp, hid⟩ := seatOf_some hi
    exact findPlayer_none h hp hid

/-- With distinct ids, changing one player by id is a map over the seats. -/
theorem Seating.modifyPlayer_eq (hs : t.Seating) (id : PlayerId) (f : Player → Player) :
    t.modifyPlayer id f = t.mapSeats fun p => if p.id = id then f p else p := by
  have hseats : (t.modifyPlayer id f).seats =
      (t.mapSeats fun p => if p.id = id then f p else p).seats := by
    apply seats_ext
    · unfold modifyPlayer
      rw [length_mapSeats]
      split
      · rfl
      · exact length_setSeat t _ _
    · intro j
      rw [seatAt_mapSeats]
      unfold modifyPlayer
      cases hi : t.seatOf id with
      | none =>
        cases hj : t.seatAt j with
        | none => simp
        | some p => simp [seatOf_none hi hj]
      | some i =>
        obtain ⟨p, hp, hid⟩ := seatOf_some hi
        simp only [hp, Option.map_some]
        by_cases hij : i = j
        · subst hij
          rw [seatAt_setSeat_self (seatAt_lt hp), hp, Option.map_some, if_pos hid]
        · rw [seatAt_setSeat_ne hij]
          cases hj : t.seatAt j with
          | none => rfl
          | some q =>
            have : q.id ≠ id := fun hq => hij (hs.unique hp hj (by rw [hid, hq]))
            rw [Option.map_some, if_neg this]
  have hrest : t.modifyPlayer id f = { t with seats := (t.modifyPlayer id f).seats } := by
    unfold modifyPlayer
    split <;> rfl
  rw [hrest, hseats]
  rfl

end Table

end PokerServer
