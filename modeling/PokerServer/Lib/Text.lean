import Mathlib.Algebra.Ring.Int.Defs
import Mathlib.Algebra.Ring.Nat
import Mathlib.Data.List.Basic
import Mathlib.Data.List.TakeWhile

/-!
# Strings of bytes

The functions of `std::string` and `std::string_view` that take a string apart, and decimal numbers
as `std::to_string` prints and `std::stoull` reads them. A string is a list of characters, one for
each byte.

* A position that may be `npos` is an `Option Nat`, with `none` for `npos`.
* A function that throws returns `none`.
* `find_append`, `rfind_npos`, `rfind_before`: where a separator is found that does not occur behind
  it, or in front of it.
* `stoull_toDigits`: a 64-bit number is read as it was printed.
* `stoll_eq_some`: a whole text is read as a number iff it is a numeral that fits.
-/

namespace PokerServer

/-- The bytes of a `std::string`. -/
abbrev Text := List Char

namespace Text

/-- `n - 1` as a `std::size_t`: for 0 it is `npos`. -/
def minusOne : Nat → Option Nat
  | 0 => none
  | n + 1 => some n

/-- `text.find(c)`. -/
def find (c : Char) : Text → Option Nat
  | [] => none
  | x :: text => if x = c then some 0 else (find c text).map (· + 1)

/-- The last place of `c` in the whole text. -/
def findLast (c : Char) : Text → Option Nat
  | [] => none
  | x :: text =>
    match findLast c text with
    | some i => some (i + 1)
    | none => if x = c then some 0 else none

/-- `text.rfind(c, pos)`: the last place of `c` that is not behind `pos`. -/
def rfind (c : Char) (text : Text) : Option Nat → Option Nat
  | none => findLast c text
  | some pos => findLast c (text.take (pos + 1))

/-- `text.substr(pos, count)`. -/
def substr (text : Text) (pos : Nat) (count : Option Nat) : Option Text :=
  if text.length < pos then none
  else
    match count with
    | none => some (text.drop pos)
    | some count => some ((text.drop pos).take count)

/-- `isspace`: the blank, and the five control characters from tab to carriage return. -/
def isSpace (c : Char) : Bool := c.toNat = 32 || decide (9 ≤ c.toNat) && decide (c.toNat ≤ 13)

/-- The sign in front of a number, and what follows it. -/
def sign : Text → Bool × Text
  | '-' :: text => (true, text)
  | '+' :: text => (false, text)
  | text => (false, text)

/-- `std::stoull`: blanks, a sign, and as many digits as there are. Without a digit it throws
`std::invalid_argument`, and for a number that does not fit `std::out_of_range`; a minus sign
negates modulo 2^64. -/
def stoull (text : Text) : Option Nat :=
  let (negative, text) := sign (text.dropWhile isSpace)
  let digits := text.takeWhile Char.isDigit
  if digits = [] then none
  else
    let value := Nat.ofDigitChars 10 digits 0
    if 2 ^ 64 ≤ value then none
    else if negative then some ((2 ^ 64 - value) % 2 ^ 64)
    else some value

/-- The number that a sign and digits stand for. -/
def signed (negative : Bool) (digits : Text) : Int :=
  if negative then -Nat.ofDigitChars 10 digits 0 else Nat.ofDigitChars 10 digits 0

/-- `std::stoll(text, &consumed, 10)`: the number, and how many bytes it took. -/
def stoll (text : Text) : Option (Int × Nat) :=
  let (negative, rest) := sign (text.dropWhile isSpace)
  let digits := rest.takeWhile Char.isDigit
  let value := signed negative digits
  if digits = [] ∨ value < -2 ^ 63 ∨ 2 ^ 63 ≤ value then none
  else some (value, text.length - (rest.length - digits.length))

variable {c : Char} {front behind digits : Text}

/-! ## Separators -/

theorem find_append (h : c ∉ front) (behind : Text) :
    find c (front ++ c :: behind) = some front.length := by
  induction front with
  | nil => simp [find]
  | cons x front ih =>
    obtain ⟨hx, hfront⟩ := List.ne_and_not_mem_of_not_mem_cons h
    rw [List.cons_append, find, if_neg (Ne.symm hx), ih hfront]
    rfl

theorem findLast_eq_none (h : c ∉ behind) : findLast c behind = none := by
  induction behind with
  | nil => rfl
  | cons x behind ih =>
    obtain ⟨hx, hbehind⟩ := List.ne_and_not_mem_of_not_mem_cons h
    rw [findLast, ih hbehind]
    exact if_neg (Ne.symm hx)

theorem findLast_append (front : Text) (h : c ∉ behind) :
    findLast c (front ++ c :: behind) = some front.length := by
  induction front with
  | nil => simp [findLast, findLast_eq_none h]
  | cons x front ih =>
    rw [List.cons_append, findLast, ih]
    rfl

theorem rfind_npos (front : Text) (h : c ∉ behind) :
    rfind c (front ++ c :: behind) none = some front.length := findLast_append front h

/-- A search that starts at the end of `behind` does not see what comes later. -/
theorem rfind_before (front : Text) (h : c ∉ behind) (later : Text) :
    rfind c (front ++ c :: behind ++ later) (some (front.length + behind.length)) =
      some front.length := by
  have hlength : (front ++ c :: behind).length = front.length + behind.length + 1 := by
    rw [List.length_append, List.length_cons, Nat.add_assoc]
  rw [rfind, ← hlength, List.take_left]
  exact findLast_append front h

theorem substr_npos (front behind : Text) :
    substr (front ++ behind) front.length none = some behind := by
  unfold substr
  rw [if_neg (by simp), List.drop_left]

theorem substr_count (front middle later : Text) :
    substr (front ++ (middle ++ later)) front.length (some middle.length) = some middle := by
  unfold substr
  rw [if_neg (by simp), List.drop_left]
  exact congrArg some List.take_left

/-! ## Decimal numbers -/

theorem not_isSpace_of_isDigit (h : c.isDigit = true) : isSpace c = false := by
  obtain ⟨hlow, hhigh⟩ := Char.isDigit_iff_toNat.mp h
  have h0 : '0'.toNat = 48 := rfl
  simp only [isSpace, Bool.or_eq_false_iff, Bool.and_eq_false_iff, decide_eq_false_iff_not]
  omega

theorem sign_of_isDigit (h : c.isDigit = true) (behind : Text) :
    sign (c :: behind) = (false, c :: behind) := by
  have hminus : c ≠ '-' := by
    rintro rfl
    exact absurd h (by decide)
  have hplus : c ≠ '+' := by
    rintro rfl
    exact absurd h (by decide)
  unfold sign
  split
  · rename_i heq
    exact absurd (List.cons.inj heq).1 hminus
  · rename_i heq
    exact absurd (List.cons.inj heq).1 hplus
  · rfl

/-- A text of digits is read as the number it prints, if that fits. -/
theorem stoull_digits_eq (hne : digits ≠ []) (hdigits : ∀ c ∈ digits, c.isDigit = true) :
    stoull digits = if 2 ^ 64 ≤ Nat.ofDigitChars 10 digits 0 then none
      else some (Nat.ofDigitChars 10 digits 0) := by
  obtain ⟨c, rest, rfl⟩ := List.exists_cons_of_ne_nil hne
  have hc := hdigits c List.mem_cons_self
  have hblank : (c :: rest).dropWhile isSpace = c :: rest :=
    List.dropWhile_cons_of_neg (by simp [not_isSpace_of_isDigit hc])
  have hall : (c :: rest).takeWhile Char.isDigit = c :: rest := by
    rw [← List.append_nil (c :: rest), List.takeWhile_append_of_pos hdigits]
    rfl
  unfold stoull
  rw [hblank, sign_of_isDigit hc]
  simp only [hall]
  rw [if_neg hne]
  rfl

theorem stoull_digits (hne : digits ≠ []) (hdigits : ∀ c ∈ digits, c.isDigit = true)
    (hfits : Nat.ofDigitChars 10 digits 0 < 2 ^ 64) :
    stoull digits = some (Nat.ofDigitChars 10 digits 0) := by
  rw [stoull_digits_eq hne hdigits, if_neg (by omega)]

theorem stoull_toDigits {n : Nat} (h : n < 2 ^ 64) : stoull (Nat.toDigits 10 n) = some n := by
  have hdigits : ∀ c ∈ Nat.toDigits 10 n, c.isDigit = true := fun c hc =>
    Nat.isDigit_of_mem_toDigits (by decide) (by decide) hc
  have hvalue : Nat.ofDigitChars 10 (Nat.toDigits 10 n) 0 = n := Nat.ofDigitChars_ten_toDigits
  rw [stoull_digits Nat.toDigits_ne_nil hdigits (by rw [hvalue]; exact h), hvalue]

/-- A printed number is read as itself, or it does not fit. -/
theorem stoull_toDigits_eq_some {n m : Nat} :
    stoull (Nat.toDigits 10 n) = some m ↔ n < 2 ^ 64 ∧ n = m := by
  have hdigits : ∀ c ∈ Nat.toDigits 10 n, c.isDigit = true := fun c hc =>
    Nat.isDigit_of_mem_toDigits (by decide) (by decide) hc
  have hvalue : Nat.ofDigitChars 10 (Nat.toDigits 10 n) 0 = n := Nat.ofDigitChars_ten_toDigits
  rw [stoull_digits_eq Nat.toDigits_ne_nil hdigits, hvalue, Option.ite_none_left_eq_some,
    Option.some.injEq, Nat.not_le]

/-- The signs, and whether they negate. -/
def signs : List (Text × Bool) := [([], false), (['+'], false), (['-'], true)]

/-- Blanks, a sign and digits, with the number they stand for. -/
def Numeral (text : Text) (value : Int) : Prop :=
  ∃ blanks front negative digits, text = blanks ++ (front ++ digits) ∧
    (∀ c ∈ blanks, isSpace c = true) ∧ (front, negative) ∈ signs ∧ digits ≠ [] ∧
    (∀ c ∈ digits, c.isDigit = true) ∧ value = signed negative digits

theorem sign_eq {text rest : Text} {negative : Bool} (h : sign text = (negative, rest)) :
    ∃ front, (front, negative) ∈ signs ∧ text = front ++ rest := by
  unfold sign at h
  split at h <;> obtain ⟨rfl, rfl⟩ := Prod.mk.inj h
  · exact ⟨['-'], by simp [signs], rfl⟩
  · exact ⟨['+'], by simp [signs], rfl⟩
  · exact ⟨[], by simp [signs], rfl⟩

/-- A sign before digits is read as itself, and is no blank. -/
theorem sign_append {negative : Bool} (hfront : (front, negative) ∈ signs) (hne : digits ≠ [])
    (hdigits : ∀ c ∈ digits, c.isDigit = true) :
    sign (front ++ digits) = (negative, digits) ∧
      (front ++ digits).dropWhile isSpace = front ++ digits := by
  obtain ⟨c, rest, rfl⟩ := List.exists_cons_of_ne_nil hne
  have hc := hdigits c List.mem_cons_self
  simp only [signs, List.mem_cons, Prod.mk.injEq, List.not_mem_nil, or_false] at hfront
  rcases hfront with ⟨rfl, rfl⟩ | ⟨rfl, rfl⟩ | ⟨rfl, rfl⟩
  · exact ⟨sign_of_isDigit hc rest, List.dropWhile_cons_of_neg
      (by simp [not_isSpace_of_isDigit hc])⟩
  · exact ⟨rfl, List.dropWhile_cons_of_neg (by decide)⟩
  · exact ⟨rfl, List.dropWhile_cons_of_neg (by decide)⟩

/-- **A whole text is read as a number** iff it is a numeral that fits. -/
theorem stoll_eq_some {text : Text} {value : Int} :
    stoll text = some (value, text.length) ↔
      Numeral text value ∧ -2 ^ 63 ≤ value ∧ value < 2 ^ 63 := by
  constructor
  · intro h
    obtain ⟨⟨negative, rest⟩, hsign⟩ : ∃ r, sign (text.dropWhile isSpace) = r := ⟨_, rfl⟩
    obtain ⟨front, hfront, hrest⟩ := sign_eq hsign
    simp only [stoll, hsign, Option.ite_none_left_eq_some] at h
    obtain ⟨hfits, heq⟩ := h
    obtain ⟨rfl, hlength⟩ := Prod.mk.inj (Option.some.inj heq)
    rw [not_or, not_or, Int.not_lt, Int.not_le] at hfits
    have htext : text = text.takeWhile isSpace ++ (front ++ rest) := by
      rw [← hrest, List.takeWhile_append_dropWhile]
    -- all of the text was taken, so that nothing follows the digits
    have hall : rest.takeWhile Char.isDigit = rest := by
      have hprefix := List.takeWhile_prefix (l := rest) Char.isDigit
      have hle := congrArg List.length htext
      rw [List.length_append, List.length_append] at hle
      exact hprefix.eq_of_length_le (by have := hprefix.length_le; omega)
    rw [hall] at hfits ⊢
    refine ⟨⟨_, front, negative, rest, htext, fun c hc => List.mem_takeWhile_imp hc, hfront,
      hfits.1, fun c hc => ?_, rfl⟩, hfits.2⟩
    rw [← hall] at hc
    exact List.mem_takeWhile_imp hc
  · rintro ⟨⟨blanks, front, negative, digits, rfl, hblanks, hfront, hne, hdigits, rfl⟩, hfits⟩
    obtain ⟨hsign, hdrop⟩ := sign_append hfront hne hdigits
    have hall : digits.takeWhile Char.isDigit = digits := by
      rw [← List.append_nil digits, List.takeWhile_append_of_pos hdigits]
      rfl
    have hstart : (blanks ++ (front ++ digits)).dropWhile isSpace = front ++ digits := by
      rw [List.dropWhile_append_of_pos hblanks, hdrop]
    simp only [stoll, hstart, hsign, hall, Option.ite_none_left_eq_some, not_or, Int.not_lt,
      Int.not_le]
    exact ⟨⟨hne, hfits⟩, by rw [Nat.sub_self, Nat.sub_zero]⟩

/-- A character that is no digit does not occur in a printed number. -/
theorem not_mem_toDigits (h : c.isDigit = false) (n : Nat) : c ∉ Nat.toDigits 10 n := by
  intro hc
  rw [Nat.isDigit_of_mem_toDigits (by decide) (by decide) hc] at h
  exact absurd h (by simp)

end Text

end PokerServer
