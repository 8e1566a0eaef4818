import Mathlib.Order.WellFounded

/-!
# Loops without a bound, and descending measures

* `Loops round s r`: the loop `while (true)` whose body is `round`, begun in `s`, ends with `r`. A
  round throws, returns, or goes on with a new state. A run without end has no derivation, so
  `Loops` is termination and result in one; the result is unique (`Loops.unique`).
* `exists_last_descent`: along a sequence in which a well-founded measure never rises, it falls only
  finitely often.
-/

namespace PokerServer

variable {S E R : Type} {round : S → Except E (R ⊕ S)} {s s' : S} {r r' : Except E R}

/-- The loop `while (true)` over `round` ends with a result. -/
inductive Loops (round : S → Except E (R ⊕ S)) : S → Except E R → Prop
  | throws {s : S} {e : E} (h : round s = .error e) : Loops round s (.error e)
  | returns {s : S} {value : R} (h : round s = .ok (.inl value)) : Loops round s (.ok value)
  | again {s s' : S} {r : Except E R} (h : round s = .ok (.inr s')) (rest : Loops round s' r) :
      Loops round s r

theorem Loops.unique (h : Loops round s r) (h' : Loops round s r') : r = r' := by
  induction h with
  | throws h =>
    cases h' with
    | throws h' => rw [h, Except.error.injEq] at h'; rw [h']
    | returns h' => rw [h] at h'; exact absurd h' (by simp)
    | again h' _ => rw [h] at h'; exact absurd h' (by simp)
  | returns h =>
    cases h' with
    | throws h' => rw [h] at h'; exact absurd h' (by simp)
    | returns h' => rw [h, Except.ok.injEq, Sum.inl.injEq] at h'; rw [h']
    | again h' _ => rw [h] at h'; exact absurd h' (by simp)
  | again h _ ih =>
    cases h' with
    | throws h' => rw [h] at h'; exact absurd h' (by simp)
    | returns h' => rw [h] at h'; exact absurd h' (by simp)
    | again h' rest' =>
      rw [h, Except.ok.injEq, Sum.inr.injEq] at h'
      subst h'
      exact ih rest'

/-- **A measure that never rises falls finitely often.** -/
theorem exists_last_descent {α : Type} [Preorder α] [WellFoundedLT α] {f : Nat → α}
    (h : ∀ n, f (n + 1) ≤ f n) : ∃ last, ∀ n, last ≤ n → ¬ f (n + 1) < f n := by
  obtain ⟨least, ⟨last, rfl⟩, hmin⟩ := WellFounded.has_min wellFounded_lt (Set.range f)
    ⟨f 0, 0, rfl⟩
  have hbelow : ∀ n, last ≤ n → f n ≤ f last := by
    intro n hn
    induction hn with
    | refl => exact le_refl _
    | step _ ih => exact (h _).trans ih
  exact ⟨last, fun n hn hlt => hmin (f (n + 1)) ⟨n + 1, rfl⟩ (hlt.trans_le (hbelow n hn))⟩

end PokerServer
