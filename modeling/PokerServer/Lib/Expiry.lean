import PokerServer.Lib.Runs
import Mathlib.Order.Basic

/-!
# Cells whose value expires

A cell holds a value together with the last moment at which it is there. `CellOp` lists what an
event may do to a cell: write it, write it if nothing is there (`offer`), write it if nothing else
is there (`renew`), or empty it (`take`). `cellAfter` is the cell after a history of timed events.

* `cellAfter_eq_some`: the cell holds what was written last, unless it was taken since.
* `handover`: before a cell that is only renewed passes to another value, a term of its last value
  has run out.
* `Taken.unique`: what is written is taken once, and what is taken was written once.
-/

namespace PokerServer

variable {T : Type} [DecidableEq T]

/-- A value, and the last moment at which it is there. -/
abbrev Cell (T : Type) := Option (T × Int)

inductive CellOp (T : Type) where
  | keep
  | put (value : T) (expires : Int)
  | offer (value : T) (expires : Int)
  | renew (value : T) (expires : Int)
  | take
  deriving DecidableEq

namespace Cell

/-- The value that is there at a moment. -/
def seen (now : Int) (cell : Cell T) : Option T :=
  cell.bind fun c => if now ≤ c.2 then some c.1 else none

/-- What the event writes, if it writes. -/
def written (now : Int) (cell : Cell T) : CellOp T → Cell T
  | .put value expires => some (value, expires)
  | .offer value expires => if (cell.seen now).isNone then some (value, expires) else none
  | .renew value expires =>
    if cell.seen now = none ∨ cell.seen now = some value then some (value, expires) else none
  | .keep | .take => none

/-- The cell after an event. -/
def after (now : Int) (cell : Cell T) (op : CellOp T) : Cell T :=
  if op = .take then none else (cell.written now op).or cell

omit [DecidableEq T] in
theorem seen_eq_some {now : Int} {cell : Cell T} {value : T} :
    cell.seen now = some value ↔ ∃ expires, cell = some (value, expires) ∧ now ≤ expires := by
  unfold seen
  cases cell with
  | none => simp
  | some c =>
    obtain ⟨v, e⟩ := c
    rw [Option.bind_some, Option.ite_none_right_eq_some]
    constructor
    · rintro ⟨hlasts, hv⟩
      obtain rfl := Option.some.inj hv
      exact ⟨e, rfl, hlasts⟩
    · rintro ⟨_, heq, hlasts⟩
      obtain ⟨rfl, rfl⟩ := Prod.mk.inj (Option.some.inj heq)
      exact ⟨hlasts, rfl⟩

theorem after_take (now : Int) (cell : Cell T) : cell.after now .take = none := if_pos rfl

theorem after_of_ne {now : Int} {cell : Cell T} {op : CellOp T} (h : op ≠ .take) :
    cell.after now op = (cell.written now op).or cell := if_neg h

theorem after_keep (now : Int) (cell : Cell T) : cell.after now .keep = cell :=
  after_of_ne (by simp)

end Cell

/-- A history of timed events, oldest first. -/
abbrev CellHistory (T : Type) := List (Int × CellOp T)

/-- The cell after a history that finds it empty. -/
def cellAfter (history : CellHistory T) : Cell T :=
  history.foldl (fun cell e => cell.after e.1 e.2) none

theorem cellAfter_snoc (history : CellHistory T) (e : Int × CellOp T) :
    cellAfter (history ++ [e]) = (cellAfter history).after e.1 e.2 := by
  rw [cellAfter, List.foldl_append]
  rfl

namespace Cell

/-- What the entry of a history writes. -/
def writtenAt (history : CellHistory T) (i : Nat) : Cell T :=
  (history[i]?).bind fun e => (cellAfter (history.take i)).written e.1 e.2

/-- The entry takes the value away. -/
def takes (history : CellHistory T) (i : Nat) : Prop := ∃ now, history[i]? = some (now, .take)

variable {history : CellHistory T} {i j : Nat} {e : Int × CellOp T} {c : T × Int}

theorem writtenAt_snoc_of_lt (h : i < history.length) :
    writtenAt (history ++ [e]) i = writtenAt history i := by
  rw [writtenAt, writtenAt, List.getElem?_append_left h,
    List.take_append_of_le_length (Nat.le_of_lt h)]

theorem writtenAt_snoc_last :
    writtenAt (history ++ [e]) history.length = (cellAfter history).written e.1 e.2 := by
  rw [writtenAt, List.getElem?_concat_length, Option.bind_some, List.take_left]

omit [DecidableEq T] in
theorem takes_snoc_of_lt (h : i < history.length) :
    takes (history ++ [e]) i ↔ takes history i := by
  rw [takes, takes, List.getElem?_append_left h]

/-- Entry `i` wrote what is still in the cell after entries `i` to `j`. -/
structure Stands (history : CellHistory T) (i j : Nat) (c : T × Int) : Prop where
  wrote : writtenAt history i = some c
  before : i < j
  quiet : ∀ k, i < k → k < j → writtenAt history k = none ∧ ¬ takes history k

theorem Stands.snoc (h : Stands history i history.length c)
    (hwritten : (cellAfter history).written e.1 e.2 = none) (htake : e.2 ≠ .take) :
    Stands (history ++ [e]) i (history.length + 1) c where
  wrote := by rw [writtenAt_snoc_of_lt h.before, h.wrote]
  before := by have := h.before; omega
  quiet k hik hk := by
    rcases Nat.lt_succ_iff_lt_or_eq.mp hk with hlt | rfl
    · rw [writtenAt_snoc_of_lt hlt, takes_snoc_of_lt hlt]
      exact h.quiet k hik hlt
    · refine ⟨by rw [writtenAt_snoc_last, hwritten], fun ⟨now, hnow⟩ => htake ?_⟩
      rw [List.getElem?_concat_length, Option.some.injEq] at hnow
      rw [hnow]

/-- **The cell holds what was written last**, if nobody took it since. -/
theorem cellAfter_eq_some :
    cellAfter history = some c ↔ ∃ i, Stands history i history.length c := by
  induction history using List.reverseRecOn with
  | nil =>
    constructor
    · intro h
      exact absurd h (by simp [cellAfter])
    · rintro ⟨i, h⟩
      exact absurd h.before (by simp)
  | append_singleton history e ih =>
    rw [cellAfter_snoc, List.length_append, List.length_singleton]
    by_cases htake : e.2 = .take
    · rw [htake, after_take]
      constructor
      · exact fun h => absurd h (by simp)
      · rintro ⟨i, h⟩
        exfalso
        rcases Nat.lt_succ_iff_lt_or_eq.mp h.before with hlt | rfl
        · exact (h.quiet history.length hlt (Nat.lt_succ_self _)).2
            ⟨e.1, by rw [List.getElem?_concat_length, ← htake]⟩
        · have hwrote := h.wrote
          rw [writtenAt_snoc_last, htake] at hwrote
          exact absurd hwrote (by simp [written])
    · rw [after_of_ne htake]
      cases hwritten : (cellAfter history).written e.1 e.2 with
      | some c' =>
        rw [Option.some_or]
        constructor
        · intro h
          refine ⟨history.length, ?_, Nat.lt_succ_self _, fun k hk hk' => by omega⟩
          rw [writtenAt_snoc_last, hwritten, h]
        · rintro ⟨i, h⟩
          rcases Nat.lt_succ_iff_lt_or_eq.mp h.before with hlt | rfl
          · have hquiet := (h.quiet history.length hlt (Nat.lt_succ_self _)).1
            rw [writtenAt_snoc_last, hwritten] at hquiet
            exact absurd hquiet (by simp)
          · have hwrote := h.wrote
            rwa [writtenAt_snoc_last, hwritten] at hwrote
      | none =>
        rw [Option.none_or, ih]
        constructor
        · rintro ⟨i, h⟩
          exact ⟨i, h.snoc hwritten htake⟩
        · rintro ⟨i, h⟩
          rcases Nat.lt_succ_iff_lt_or_eq.mp h.before with hlt | rfl
          · refine ⟨i, ?_, hlt, fun k hik hk => ?_⟩
            · rw [← writtenAt_snoc_of_lt hlt, h.wrote]
            · have hquiet := h.quiet k hik (Nat.lt_succ_of_lt hk)
              rwa [writtenAt_snoc_of_lt hk, takes_snoc_of_lt hk] at hquiet
          · have hwrote := h.wrote
            rw [writtenAt_snoc_last, hwritten] at hwrote
            exact absurd hwrote (by simp)

/-! ## A value that is taken -/

/-- Entry `j` takes the value that entry `i` wrote. -/
structure Taken (history : CellHistory T) (i j : Nat) (c : T × Int) : Prop where
  stands : Stands history i j c
  takes : takes history j

/-- **What is taken was written once and is taken once.** -/
theorem Taken.unique {i' j' : Nat} {c' : T × Int} (h : Taken history i j c)
    (h' : Taken history i' j' c') : i = i' ↔ j = j' := by
  constructor
  · rintro rfl
    rcases Nat.lt_trichotomy j j' with hlt | heq | hlt
    · exact absurd h.takes (h'.stands.quiet j h.stands.before hlt).2
    · exact heq
    · exact absurd h'.takes (h.stands.quiet j' h'.stands.before hlt).2
  · rintro rfl
    rcases Nat.lt_trichotomy i i' with hlt | heq | hlt
    · have hquiet := (h.stands.quiet i' hlt h'.stands.before).1
      exact absurd (hquiet.symm.trans h'.stands.wrote) (by simp)
    · exact heq
    · have hquiet := (h'.stands.quiet i hlt h.stands.before).1
      exact absurd (hquiet.symm.trans h.stands.wrote) (by simp)

omit [DecidableEq T] in
theorem takes_take (h : i < j) : Cell.takes (history.take j) i ↔ Cell.takes history i := by
  rw [Cell.takes, Cell.takes, List.getElem?_take_of_lt h]

theorem writtenAt_take (h : i < j) : writtenAt (history.take j) i = writtenAt history i := by
  rw [writtenAt, writtenAt, List.getElem?_take_of_lt h, List.take_take,
    Nat.min_eq_left (Nat.le_of_lt h)]

/-- A prefix that is as long as `j` shows what stands before entry `j`. -/
theorem stands_take (hj : j ≤ history.length) :
    Stands (history.take j) i (history.take j).length c ↔ Stands history i j c := by
  rw [List.length_take, Nat.min_eq_left hj]
  constructor
  · rintro ⟨hwrote, hbefore, hquiet⟩
    refine ⟨by rwa [writtenAt_take hbefore] at hwrote, hbefore, fun k hik hk => ?_⟩
    have := hquiet k hik hk
    rwa [writtenAt_take hk, takes_take hk] at this
  · rintro ⟨hwrote, hbefore, hquiet⟩
    refine ⟨by rwa [writtenAt_take hbefore], hbefore, fun k hik hk => ?_⟩
    rw [writtenAt_take hk, takes_take hk]
    exact hquiet k hik hk

/-! ## A value that is renewed -/

theorem Stands.le_of_wrote {c' : T × Int} {k : Nat} (h : Stands history k j c)
    (hwrote : writtenAt history i = some c') (hij : i < j) : i ≤ k := by
  by_contra hki
  exact absurd (hwrote.symm.trans (h.quiet i (Nat.lt_of_not_le hki) hij).1) (by simp)

/-- What was written and never taken still stands, or something written later. -/
theorem exists_stands (hwrote : writtenAt history i = some c)
    (hkept : ∀ k, i < k → k < j → ¬ takes history k) (hij : i < j) :
    ∃ k c', Stands history k j c' := by
  induction j with
  | zero => omega
  | succ j ih =>
    rcases Nat.lt_succ_iff_lt_or_eq.mp hij with hlt | rfl
    · cases hwritten : writtenAt history j with
      | some c' => exact ⟨j, c', hwritten, Nat.lt_succ_self j, fun k hk hk' => by omega⟩
      | none =>
        obtain ⟨k, c', hstands⟩ := ih (fun k hk hk' => hkept k hk (by omega)) hlt
        refine ⟨k, c', hstands.wrote, Nat.lt_succ_of_lt hstands.before, fun m hkm hm => ?_⟩
        rcases Nat.lt_succ_iff_lt_or_eq.mp hm with hm | rfl
        · exact hstands.quiet m hkm hm
        · exact ⟨hwritten, hkept m hlt (Nat.lt_succ_self m)⟩
    · exact ⟨i, c, hwrote, Nat.lt_succ_self i, fun k hk hk' => by omega⟩

/-- **Only what stands, or what nobody holds any more, is renewed.** -/
theorem Stands.renewed {now until' : Int} {other : T} {c' : T × Int} (h : Stands history i j c)
    (hj : history[j]? = some (now, .renew other until')) (hwrote : writtenAt history j = some c') :
    c.1 = other ∨ c.2 < now := by
  have hlength : j ≤ history.length := Nat.le_of_lt (List.getElem?_eq_some_iff.mp hj).1
  have hcell : cellAfter (history.take j) = some c :=
    cellAfter_eq_some.mpr ⟨i, (stands_take hlength).mpr h⟩
  rw [writtenAt, hj, Option.bind_some, hcell, written] at hwrote
  obtain ⟨hfree, -⟩ := Option.ite_none_right_eq_some.mp hwrote
  by_contra hlasts
  rw [not_or, Int.not_lt] at hlasts
  have hseen : seen now (some c) = some c.1 := seen_eq_some.mpr ⟨c.2, rfl, hlasts.2⟩
  rw [hseen] at hfree
  rcases hfree with hnone | hsame
  · exact absurd hnone (by simp)
  · exact hlasts.1 (Option.some.inj hsame)

/-- **A cell that is only renewed is handed over after a term has run out.** Whoever holds it and
loses it to another had last renewed it until a moment that is past. -/
theorem handover {a b : T} {x y : Int}
    (htimes : ∀ (k k' : Nat) (e e' : Int × CellOp T), k ≤ k' → history[k]? = some e →
      history[k']? = some e' → e.1 ≤ e'.1)
    (hrenews : ∀ (k : Nat) (e : Int × CellOp T), history[k]? = some e →
      e.2 = .keep ∨ ∃ value expires, e.2 = .renew value expires)
    (hi : writtenAt history i = some (a, x)) (hj : writtenAt history j = some (b, y)) (hij : i < j)
    (hab : a ≠ b) :
    ∃ k x' now op, i ≤ k ∧ k < j ∧ writtenAt history k = some (a, x') ∧
      history[j]? = some (now, op) ∧ x' < now := by
  induction j using Nat.strongRecOn generalizing b y with
  | ind j ih =>
    obtain ⟨⟨now, op⟩, hentry, hwritten⟩ := Option.bind_eq_some_iff.mp hj
    obtain ⟨until', rfl⟩ : ∃ until', op = .renew b until' := by
      rcases hrenews j _ hentry with rfl | ⟨value, expires, rfl⟩
      · exact absurd hwritten (by simp [written])
      · obtain ⟨-, heq⟩ := Option.ite_none_right_eq_some.mp hwritten
        obtain ⟨rfl, -⟩ := Prod.mk.inj (Option.some.inj heq)
        exact ⟨expires, rfl⟩
    have hkept : ∀ k, i < k → k < j → ¬ takes history k := by
      rintro k - - ⟨when', htake⟩
      rcases hrenews k _ htake with h | ⟨_, _, h⟩ <;> exact absurd h (by simp)
    obtain ⟨k, ⟨c, z⟩, hstands⟩ := exists_stands hi hkept hij
    have hik : i ≤ k := hstands.le_of_wrote hi hij
    by_cases hc : c = a
    · subst hc
      rcases hstands.renewed hentry hj with hsame | hover
      · exact absurd hsame hab
      · exact ⟨k, z, now, _, hik, hstands.before, hstands.wrote, hentry, hover⟩
    · -- the cell had passed to another before
      have hlt : i < k := by
        rcases Nat.lt_or_eq_of_le hik with hlt | rfl
        · exact hlt
        · obtain ⟨rfl, -⟩ := Prod.mk.inj (Option.some.inj (hi.symm.trans hstands.wrote))
          exact absurd rfl hc
      obtain ⟨m, x', when', op', him, hmk, hwrote, hk, hover⟩ :=
        ih k hstands.before hstands.wrote hlt (Ne.symm hc)
      exact ⟨m, x', now, _, him, Nat.lt_trans hmk hstands.before, hwrote, hentry,
        Int.lt_of_lt_of_le hover (htimes k j _ _ (Nat.le_of_lt hstands.before) hk hentry)⟩

end Cell

end PokerServer
