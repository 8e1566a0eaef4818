import Mathlib.Data.List.Basic

/-!
# Scanners

A scanner reads frames off the front of a stream: it looks at the items that are not read yet and
finds a frame, an error, or that it needs more items. Items that arrive later do not change what
it has found. `scan` reads as long as there is something to find.

* `scan_append`: scanning what has arrived and then the rest together with what follows finds the
  same as scanning the whole at once.
-/

namespace PokerServer

/-- What a scanner finds at the front of the items not read yet. -/
inductive Found (B F E : Type) where
  | more
  | frame (value : F) (rest : List B)
  | bad (error : E)

structure Scanner (B F E : Type) where
  next : List B → Found B F E
  shorter : ∀ {xs f rest}, next xs = .frame f rest → rest.length < xs.length
  frame_append : ∀ {xs f rest} (ys), next xs = .frame f rest →
      next (xs ++ ys) = .frame f (rest ++ ys)
  bad_append : ∀ {xs e} (ys), next xs = .bad e → next (xs ++ ys) = .bad e

/-- The frames read, the error reading stopped at, and the items not read. -/
structure Scan (B F E : Type) where
  frames : List F := []
  error : Option E := none
  rest : List B

namespace Scanner

variable {B F E : Type} (s : Scanner B F E)

def scan (xs : List B) : Scan B F E :=
  match _h : s.next xs with
  | .more => { rest := xs }
  | .bad e => { error := e, rest := xs }
  | .frame f rest => { scan rest with frames := f :: (scan rest).frames }
termination_by xs.length
decreasing_by all_goals exact s.shorter _h

variable {s} {xs ys rest : List B} {f : F} {e : E}

theorem scan_more (h : s.next xs = .more) : s.scan xs = { rest := xs } := by
  rw [scan]
  split
  · rfl
  · rename_i hbad
    exact absurd (h.symm.trans hbad) (by simp)
  · rename_i hframe
    exact absurd (h.symm.trans hframe) (by simp)

theorem scan_bad (h : s.next xs = .bad e) : s.scan xs = { error := e, rest := xs } := by
  rw [scan]
  split
  · rename_i hmore
    exact absurd (h.symm.trans hmore) (by simp)
  · rename_i hbad
    obtain rfl := Found.bad.inj (h.symm.trans hbad)
    rfl
  · rename_i hframe
    exact absurd (h.symm.trans hframe) (by simp)

theorem scan_frame (h : s.next xs = .frame f rest) :
    s.scan xs = { s.scan rest with frames := f :: (s.scan rest).frames } := by
  rw [scan]
  split
  · rename_i hmore
    exact absurd (h.symm.trans hmore) (by simp)
  · rename_i hbad
    exact absurd (h.symm.trans hbad) (by simp)
  · rename_i hframe
    obtain ⟨rfl, rfl⟩ := Found.frame.inj (h.symm.trans hframe)
    rfl

/-- Scanning by cases on what is found first, with the result for the rest at hand. -/
theorem scan_induction {P : List B → Prop} (hmore : ∀ xs, s.next xs = .more → P xs)
    (hbad : ∀ xs e, s.next xs = .bad e → P xs)
    (hframe : ∀ xs f rest, s.next xs = .frame f rest → P rest → P xs) (xs : List B) : P xs := by
  induction hn : xs.length using Nat.strongRecOn generalizing xs with
  | ind n ih =>
    cases h : s.next xs with
    | more => exact hmore xs h
    | bad e => exact hbad xs e h
    | frame f rest =>
      have hlt : rest.length < n := hn ▸ s.shorter h
      exact hframe xs f rest h (ih _ hlt rest rfl)

/-- Reading stops where more items are needed or an error is found. -/
theorem next_rest (xs : List B) :
    s.next (s.scan xs).rest = match (s.scan xs).error with
      | none => .more
      | some e => .bad e := by
  induction xs using scan_induction (s := s) with
  | hmore xs h => rw [scan_more h, h]
  | hbad xs e h => rw [scan_bad h, h]
  | hframe xs f rest h ih => rw [scan_frame h, ih]

theorem rest_length_le (xs : List B) : (s.scan xs).rest.length ≤ xs.length := by
  induction xs using scan_induction (s := s) with
  | hmore xs h => simp [scan_more h]
  | hbad xs e h => simp [scan_bad h]
  | hframe xs f rest h ih =>
    rw [scan_frame h]
    exact Nat.le_of_lt (Nat.lt_of_le_of_lt ih (s.shorter h))

/-- Nothing is consumed exactly when no frame is read. -/
theorem frames_eq_nil_iff (xs : List B) :
    (s.scan xs).frames = [] ↔ (s.scan xs).rest.length = xs.length := by
  cases h : s.next xs with
  | more => simp [scan_more h]
  | bad e => simp [scan_bad h]
  | frame f rest =>
    have hlt := s.shorter h
    have hle := rest_length_le (s := s) rest
    rw [scan_frame h]
    simp only [reduceCtorEq, false_iff]
    omega

/-- **What is found does not depend on when the items arrive.** -/
theorem scan_append (xs ys : List B) : s.scan (xs ++ ys) = match (s.scan xs).error with
    | none => { s.scan ((s.scan xs).rest ++ ys) with
        frames := (s.scan xs).frames ++ (s.scan ((s.scan xs).rest ++ ys)).frames }
    | some _ => { s.scan xs with rest := (s.scan xs).rest ++ ys } := by
  induction xs using scan_induction (s := s) with
  | hmore xs h => simp [scan_more h]
  | hbad xs e h => rw [scan_bad (s.bad_append ys h), scan_bad h]
  | hframe xs f rest h ih =>
    rw [scan_frame (s.frame_append ys h), ih, scan_frame h]
    cases (s.scan rest).error <;> simp

theorem scan_append_of_ok (h : (s.scan xs).error = none) (ys : List B) :
    s.scan (xs ++ ys) = { s.scan ((s.scan xs).rest ++ ys) with
      frames := (s.scan xs).frames ++ (s.scan ((s.scan xs).rest ++ ys)).frames } := by
  rw [scan_append, h]

theorem scan_append_of_bad (h : (s.scan xs).error = some e) (ys : List B) :
    s.scan (xs ++ ys) = { s.scan xs with rest := (s.scan xs).rest ++ ys } := by
  rw [scan_append, h]

/-! ## Where reading stops -/

variable (s) in
/-- The number of items read. -/
def position (xs : List B) : Nat := xs.length - (s.scan xs).rest.length

theorem position_eq_zero (xs : List B) : s.position xs = 0 ↔ (s.scan xs).frames = [] := by
  have hle := rest_length_le (s := s) xs
  rw [frames_eq_nil_iff, position]
  omega

theorem position_append_of_ok (h : (s.scan xs).error = none) (ys : List B) :
    s.position (xs ++ ys) = s.position xs + s.position ((s.scan xs).rest ++ ys) := by
  have hle := rest_length_le (s := s) xs
  have hle' := rest_length_le (s := s) ((s.scan xs).rest ++ ys)
  unfold position
  rw [scan_append_of_ok h]
  simp only [List.length_append] at *
  omega

theorem position_append_of_bad (h : (s.scan xs).error = some e) (ys : List B) :
    s.position (xs ++ ys) = s.position xs := by
  unfold position
  rw [scan_append_of_bad h]
  simp only [List.length_append]
  omega

/-- An error is found at the front, or behind a first frame. -/
theorem position_of_error (hbad : (s.scan xs).error = some e) :
    s.next xs = .bad e ∧ s.position xs = 0 ∨
      ∃ f rest, s.next xs = .frame f rest ∧ xs.length ≤ s.position xs + rest.length := by
  cases h : s.next xs with
  | more =>
    rw [scan_more h] at hbad
    exact absurd hbad (by simp)
  | bad e' =>
    rw [scan_bad h] at hbad
    obtain rfl := Option.some.inj hbad
    refine Or.inl ⟨rfl, ?_⟩
    rw [position_eq_zero, scan_bad h]
  | frame f rest =>
    refine Or.inr ⟨f, rest, rfl, ?_⟩
    have hle := rest_length_le (s := s) rest
    have hlt := s.shorter h
    have hrest : (s.scan xs).rest = (s.scan rest).rest := by rw [scan_frame h]
    unfold position
    rw [hrest]
    omega

end Scanner

end PokerServer
