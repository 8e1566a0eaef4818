import Mathlib.Data.List.Basic

/-!
# Computations that can fail

Inversion of `Except` computations that returned: a bind that returned has both parts returned,
and a left fold that returned keeps whatever each of its steps keeps. `FailsOnly` bounds the
failures of a computation, part by part.
-/

namespace PokerServer.Checked

variable {ε α β : Type}

theorem bind_ok_iff {x : Except ε α} {f : α → Except ε β} {b : β} :
    (x >>= f) = .ok b ↔ ∃ a, x = .ok a ∧ f a = .ok b := by
  cases x with
  | error e => simp [bind, Except.bind]
  | ok a => simp [bind, Except.bind]

theorem pure_ok_iff {a b : α} : (pure a : Except ε α) = .ok b ↔ a = b := by
  simp [pure, Except.pure]

/-- Two computations with the same image fail alike or return what has the same image. -/
theorem map_eq_map {γ : Type} {g : α → γ} {x y : Except ε α} (h : g <$> x = g <$> y) :
    (∃ e, x = .error e ∧ y = .error e) ∨ ∃ a b, x = .ok a ∧ y = .ok b ∧ g a = g b := by
  cases x with
  | error e =>
    cases y with
    | error e' => exact Or.inl ⟨e, rfl, congrArg _ (Except.error.inj h).symm⟩
    | ok b => exact absurd h (by simp [Functor.map, Except.map])
  | ok a =>
    cases y with
    | error e' => exact absurd h (by simp [Functor.map, Except.map])
    | ok b => exact Or.inr ⟨a, b, rfl, rfl, Except.ok.inj h⟩

/-! ## Computations that cannot fail -/

/-- Every failure of `x` is one that `excused` admits. -/
def FailsOnly (excused : ε → Prop) (x : Except ε α) : Prop := ∀ e, x = .error e → excused e

variable {excused : ε → Prop}

theorem FailsOnly.ok (a : α) : FailsOnly excused (.ok a : Except ε α) := fun e h => by
  exact absurd h (by simp)

/-- The second part runs on what the first one returned. -/
theorem FailsOnly.bind {x : Except ε α} {f : α → Except ε β} (hx : FailsOnly excused x)
    (hf : ∀ a, x = .ok a → FailsOnly excused (f a)) : FailsOnly excused (x >>= f) := by
  intro e h
  cases hcase : x with
  | error e' =>
    rw [hcase] at h
    exact hx e (hcase.trans (by simpa [Bind.bind, Except.bind] using h))
  | ok a =>
    rw [hcase] at h
    exact hf a hcase e h

/-- With nothing to excuse, a value is returned. -/
theorem FailsOnly.returns {x : Except ε α} (h : FailsOnly excused x) (hnone : ∀ e, ¬ excused e) :
    ∃ a, x = .ok a := by
  cases x with
  | error e => exact absurd (h e rfl) (hnone e)
  | ok a => exact ⟨a, rfl⟩

/-- A fold fails only as its steps do. -/
theorem FailsOnly.foldlM {f : β → α → Except ε β} {l : List α}
    (hf : ∀ b, ∀ a ∈ l, FailsOnly excused (f b a)) (b : β) :
    FailsOnly excused (l.foldlM f b) := by
  induction l generalizing b with
  | nil => exact .ok b
  | cons a l ih =>
    rw [List.foldlM_cons]
    exact (hf b a List.mem_cons_self).bind fun c _ =>
      ih (fun b a ha => hf b a (List.mem_cons_of_mem _ ha)) c

end PokerServer.Checked
