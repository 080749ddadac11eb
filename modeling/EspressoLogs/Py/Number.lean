import EspressoLogs.Py.Text
import Mathlib.Data.List.TakeWhile
import Mathlib.Data.Rat.Floor
import Mathlib.Tactic.Linarith
import Mathlib.Tactic.FieldSimp
import Mathlib.Tactic.Ring

/-!
Python's floating-point numbers and the columns that round them.

A float is read as the decimal number it prints as, so that it is an exact
rational, a signed infinity or not a number. `Tenths` is a `NUMERIC(5, 1)`
column: what `round` stores, `repr` prints, and `floatOf_repr` reads back.
`floatOf_toString` is the same for a column of integers.
-/

namespace EspressoLogs.Py

/-- A `float`. -/
inductive PyFloat where
  | fin (q : ℚ)
  | inf (negative : Bool)
  | nan
  deriving DecidableEq, Repr

namespace PyFloat

/-- `math.isfinite`. -/
def isFinite : PyFloat → Bool
  | .fin _ => true
  | _ => false

/-- From here on a decimal number is read as infinite. -/
def overflow : ℚ := 2 ^ 1024 - 2 ^ 970

theorem small_lt_overflow : 10000 < overflow := by
  have gap : ∀ a b : ℚ, b ≤ a → 2 ^ 14 ≤ a → 10000 < 2 * a - b := by
    intro a b lower large
    linarith
  unfold overflow
  rw [pow_succ' 2 1023]
  exact gap _ _ (pow_le_pow_right₀ (by norm_num) (by norm_num))
    (pow_le_pow_right₀ (by norm_num) (by norm_num))

def ofRat (q : ℚ) : PyFloat := if overflow ≤ |q| then .inf (q < 0) else .fin q

end PyFloat

/-! ### Reading -/

/-- A run of digits that may be empty. -/
def digitsOrNone (cs : List Char) : Option (List Nat) :=
  if cs = [] then some [] else digitRun true cs

/-- Digits with a point among them. -/
def mantissaOf (cs : List Char) : Option ℚ :=
  match cs.span (· ≠ '.') with
  | (whole, []) => (digitRun true whole).map fun ds => (spelled ds : ℚ)
  | (whole, _ :: fraction) =>
      match digitsOrNone whole, digitsOrNone fraction with
      | some ds, some es =>
          if ds = [] ∧ es = [] then none
          else some ((spelled (ds ++ es) : ℚ) / 10 ^ es.length)
      | _, _ => none

def exponentOf (cs : List Char) : Option Int :=
  let (negative, digits) := splitSign cs
  (digitRun true digits).map fun ds => if negative then -(spelled ds : Int) else spelled ds

def lowerAscii (cs : List Char) : List Char := cs.map Char.toLower

/-- `float(s)` without white space and sign. -/
def magnitudeOf (cs : List Char) : Option PyFloat :=
  if lowerAscii cs = "nan".toList then some .nan
  else if lowerAscii cs = "inf".toList ∨ lowerAscii cs = "infinity".toList then some (.inf false)
  else
    match cs.span (fun c => c ≠ 'e' && c ≠ 'E') with
    | (digits, []) => (mantissaOf digits).map PyFloat.ofRat
    | (digits, _ :: exponent) =>
        match mantissaOf digits, exponentOf exponent with
        | some m, some e => some (PyFloat.ofRat (m * 10 ^ e))
        | _, _ => none

def PyFloat.neg : PyFloat → PyFloat
  | .fin q => .fin (-q)
  | .inf negative => .inf (!negative)
  | .nan => .nan

/-- `float(s)`, `none` for its `ValueError`. -/
def floatOf (s : String) : Option PyFloat :=
  let (negative, cs) := splitSign (dropEnd isNumSpace (s.toList.dropWhile isNumSpace))
  (magnitudeOf cs).map fun x => if negative then x.neg else x

/-- `int(x)` of a float: truncation, `none` for a `ValueError` or `OverflowError`. -/
def truncate : PyFloat → Option Int
  | .fin q => some (if q < 0 then -⌊-q⌋ else ⌊q⌋)
  | _ => none

/-! ### Columns with one decimal -/

/-- A value of a `NUMERIC(5, 1)` column, in tenths. -/
inductive Tenths where
  | num (t : Int) (small : t.natAbs < 100000)
  | nan
  deriving DecidableEq, Repr

namespace Tenths

/-- The nearest number of tenths, away from zero when it is halfway. -/
def nearest (q : ℚ) : Int :=
  if q < 0 then -⌊-q * 10 + 1 / 2⌋ else ⌊q * 10 + 1 / 2⌋

/-- What the column makes of a float; `none` when it does not fit. -/
def round : PyFloat → Option Tenths
  | .fin q =>
      if small : (nearest q).natAbs < 100000 then some (.num (nearest q) small) else none
  | .nan => some .nan
  | .inf _ => none

/-- The digits of a number of tenths. -/
def digits (t : Nat) : List Char := Nat.toDigits 10 (t / 10) ++ '.' :: Nat.toDigits 10 (t % 10)

/-- `str(x)` of the float the column is read as. -/
def repr : Tenths → String
  | .num t _ => String.ofList (if t < 0 then '-' :: digits t.natAbs else digits t.natAbs)
  | .nan => "nan"

def toFloat : Tenths → PyFloat
  | .num t _ => .fin ((t : ℚ) / 10)
  | .nan => .nan

end Tenths

/-! ### Round trip -/

section Digits

variable {cs ds : List Char}

private theorem span_of_all {p : Char → Bool} (h : ∀ c ∈ cs, p c = true) :
    cs.span p = (cs, []) := by
  rw [List.span_eq_takeWhile_dropWhile, List.takeWhile_eq_self_iff.mpr h,
    List.dropWhile_eq_nil_iff.mpr h]

private theorem span_at {p : Char → Bool} {x : Char} (h : ∀ c ∈ cs, p c = true)
    (hx : p x = false) : (cs ++ x :: ds).span p = (cs, x :: ds) := by
  rw [List.span_eq_takeWhile_dropWhile, List.takeWhile_append_of_pos h,
    List.dropWhile_append_of_pos h]
  simp [hx]

private theorem isDigit_toDigits {n : Nat} {c : Char} (h : c ∈ Nat.toDigits 10 n) :
    c.isDigit = true :=
  Nat.isDigit_of_mem_toDigits (by decide) (by decide) h

private theorem run_toDigits (n : Nat) :
    digitRun true (Nat.toDigits 10 n) =
      some ((Nat.toDigits 10 n).map fun c => c.toNat - 48) :=
  digitRun_of_isDigit true Nat.toDigits_ne_nil fun _ => isDigit_toDigits

private theorem not_dot_of_mem {n : Nat} : ∀ c ∈ Nat.toDigits 10 n, decide (c ≠ '.') = true := by
  intro c hc
  refine decide_eq_true fun dot => ?_
  have digit := isDigit_toDigits hc
  rw [dot] at digit
  exact absurd digit (by decide)

/-- Digits, perhaps with points between them: what `str` writes behind the sign. -/
structure Unsigned (cs : List Char) : Prop where
  start : ∃ d ds, cs = d :: ds ∧ d.isDigit = true
  plain : ∀ c ∈ cs, c.isDigit = true ∨ c = '.'

private theorem unsigned_toDigits (n : Nat) : Unsigned (Nat.toDigits 10 n) := by
  obtain ⟨d, ds, hd⟩ := List.exists_cons_of_ne_nil (Nat.toDigits_ne_nil (n := n) (b := 10))
  refine ⟨⟨d, ds, hd, isDigit_toDigits (n := n) ?_⟩, fun c hc => .inl (isDigit_toDigits hc)⟩
  rw [hd]
  exact List.mem_cons_self

private theorem Unsigned.point {n : Nat} (text : Unsigned cs) :
    Unsigned (cs ++ '.' :: Nat.toDigits 10 n) := by
  obtain ⟨d, ds, rfl, digit⟩ := text.start
  refine ⟨⟨d, _, rfl, digit⟩, fun c hc => ?_⟩
  rcases List.mem_append.mp hc with hc | hc
  · exact text.plain c hc
  · rcases List.mem_cons.mp hc with rfl | hc
    · exact .inr rfl
    · exact .inl (isDigit_toDigits hc)

/-- No word and no exponent: the text is a mantissa. -/
private theorem Unsigned.magnitudeOf (text : Unsigned cs) :
    magnitudeOf cs = (mantissaOf cs).map PyFloat.ofRat := by
  have noWord : ∀ (w : List Char) (c : Char), w.head? = some c → c.isDigit = false →
      lowerAscii cs ≠ w := by
    intro w c hw hc same
    obtain ⟨d, ds, rfl, digit⟩ := text.start
    have lower : d.toLower = d := by
      have := isDigit_bounds digit
      unfold Char.toLower
      rw [dif_neg]
      intro upper
      have above := UInt32.le_iff_toNat_le.mp upper.1
      have letterA : 'A'.val.toNat = 65 := rfl
      simp only [Char.toNat] at *
      omega
    rw [← same] at hw
    simp only [lowerAscii, List.map_cons, List.head?_cons, Option.some.injEq, lower] at hw
    rw [hw] at digit
    exact absurd digit (by simp [hc])
  have noExponent : ∀ c ∈ cs, (decide (c ≠ 'e') && decide (c ≠ 'E')) = true := by
    intro c hc
    rcases text.plain c hc with digit | rfl
    · have : c ≠ 'e' ∧ c ≠ 'E' := by
        constructor <;> rintro rfl <;> exact absurd digit (by decide)
      simp [this]
    · decide
  unfold Py.magnitudeOf
  rw [if_neg (noWord _ 'n' rfl (by decide)), if_neg (by
    rintro (h | h)
    · exact noWord _ 'i' rfl (by decide) h
    · exact noWord _ 'i' rfl (by decide) h), span_of_all noExponent]

/-- `float` of what `str` writes, from the digits behind the sign. -/
private theorem Unsigned.floatOf (text : Unsigned cs) (negative : Prop) [Decidable negative] :
    floatOf (String.ofList (if negative then '-' :: cs else cs)) =
      (mantissaOf cs).map fun q => if negative then (PyFloat.ofRat q).neg else .ofRat q := by
  have plain : ∀ c ∈ cs, isNumSpace c = false := by
    intro c hc
    rcases text.plain c hc with digit | rfl
    · exact isNumSpace_of_isDigit digit
    · rfl
  unfold Py.floatOf
  rw [String.toList_ofList]
  by_cases neg : negative
  · have signed : ∀ c ∈ '-' :: cs, isNumSpace c = false := List.forall_mem_cons.mpr ⟨rfl, plain⟩
    simp only [if_pos neg]
    rw [trim_of_plain signed]
    simp only [splitSign, text.magnitudeOf, Option.map_map]
    rfl
  · have unsigned : splitSign cs = (false, cs) := by
      obtain ⟨d, ds, rfl, digit⟩ := text.start
      unfold splitSign
      split
      · rename_i heq; cases heq; exact absurd digit (by decide)
      · rename_i heq; cases heq; exact absurd digit (by decide)
      · rfl
    simp only [if_neg neg]
    rw [trim_of_plain plain]
    simp only [unsigned, text.magnitudeOf, Option.map_map]
    rfl

private theorem mantissaOf_toDigits (n : Nat) : mantissaOf (Nat.toDigits 10 n) = some (n : ℚ) := by
  unfold mantissaOf
  rw [span_of_all not_dot_of_mem]
  simp only [run_toDigits, Option.map_some, spelled_eq_ofDigitChars, Nat.ofDigitChars_ten_toDigits]

private theorem mantissaOf_digits (t : Nat) :
    mantissaOf (Tenths.digits t) = some ((t : ℚ) / 10) := by
  have single : (Nat.toDigits 10 (t % 10)).length = 1 := by
    rw [Nat.toDigits_of_lt_base (Nat.mod_lt t (by decide))]
    rfl
  unfold mantissaOf Tenths.digits
  rw [span_at not_dot_of_mem (by decide)]
  simp only [digitsOrNone, Nat.toDigits_ne_nil, if_false, run_toDigits, List.map_eq_nil_iff,
    and_self, List.length_map, single, pow_one]
  rw [← List.map_append, spelled_eq_ofDigitChars, Nat.ofDigitChars_append,
    Nat.ofDigitChars_ten_toDigits, Nat.ofDigitChars_eq_ofDigitChars_zero,
    Nat.ofDigitChars_ten_toDigits, single, pow_one, Nat.div_add_mod]

end Digits

theorem PyFloat.neg_ofRat (q : ℚ) : (PyFloat.ofRat q).neg = .ofRat (-q) := by
  unfold PyFloat.ofRat
  rw [abs_neg]
  split
  · rename_i large
    have nonzero : q ≠ 0 := by
      rintro rfl
      exact absurd large (by rw [abs_zero]; linarith [small_lt_overflow])
    rcases lt_or_gt_of_ne nonzero with neg | pos
    · simp [PyFloat.neg, neg, neg.le]
    · simp [PyFloat.neg, pos, pos.le]
  · rfl

/-- Reading back the text of a stored value gives the value. -/
theorem Tenths.floatOf_repr (x : Tenths) : floatOf x.repr = some x.toFloat := by
  cases x with
  | nan => decide
  | num t small =>
      have text : Unsigned (Tenths.digits t.natAbs) := (unsigned_toDigits _).point
      have within : PyFloat.ofRat ((t.natAbs : ℚ) / 10) = .fin ((t.natAbs : ℚ) / 10) := by
        have bound : (t.natAbs : ℚ) < 100000 := by exact_mod_cast small
        unfold PyFloat.ofRat
        refine if_neg (not_le.mpr ?_)
        rw [abs_of_nonneg (by positivity)]
        linarith [PyFloat.small_lt_overflow]
      rw [Tenths.repr, text.floatOf (t < 0), mantissaOf_digits, Option.map_some, within]
      by_cases neg : t < 0
      · have value : (t : ℚ) = -(t.natAbs : ℚ) := by
          have : t = -(t.natAbs : Int) := by omega
          exact_mod_cast this
        rw [if_pos neg, PyFloat.neg, Tenths.toFloat, value, neg_div]
      · have value : (t : ℚ) = (t.natAbs : ℚ) := by
          have : (t.natAbs : Int) = t := by omega
          rw [← Int.cast_natCast, this]
        rw [if_neg neg, Tenths.toFloat, value]

/-- Reading back the text of an integer gives the float next to it. -/
theorem floatOf_toString (i : Int) : floatOf (toString i) = some (.ofRat i) := by
  cases i with
  | ofNat n =>
      have read := (unsigned_toDigits n).floatOf False
      rw [mantissaOf_toDigits] at read
      exact read
  | negSucc n =>
      have read := (unsigned_toDigits (n + 1)).floatOf True
      rw [mantissaOf_toDigits, Option.map_some, if_pos trivial, PyFloat.neg_ofRat] at read
      have written : toString (Int.negSucc n) = String.ofList ('-' :: Nat.toDigits 10 (n + 1)) := by
        rw [← String.toList_inj]
        simp [toString, Int.repr, Nat.repr]
      rw [written, Int.cast_negSucc]
      exact read

end EspressoLogs.Py
