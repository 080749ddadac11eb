import EspressoLogs.Py.Value
import Mathlib.Data.Int.Log

/-!
Rounding a float to one decimal, and writing numbers with six.

`binary64` is the float nearest to a number, so that `round` and the format `.6f`
start, as Python's do, from the exact value of the float.
-/

namespace EspressoLogs.Py

/-- The nearest integer, the even one halfway. -/
def halfEven (q : ℚ) : Int :=
  if q - ⌊q⌋ < 1 / 2 then ⌊q⌋
  else if 1 / 2 < q - ⌊q⌋ then ⌊q⌋ + 1
  else if ⌊q⌋ % 2 = 0 then ⌊q⌋
  else ⌊q⌋ + 1

/-- The value of the float nearest to a finite number. -/
def binary64 (q : ℚ) : ℚ :=
  if q = 0 then 0
  else
    let e := max (Int.log 2 |q| - 52) (-1074)
    halfEven (q / 2 ^ e) * 2 ^ e

/-- `f"{x:.6f}"` of the float with the value `q`. -/
def sixDecimals (q : ℚ) : String :=
  let n := (halfEven (q * 10 ^ 6)).natAbs
  let digits := Nat.toDigits 10 (n / 10 ^ 6) ++ '.' :: zfill 6 (n % 10 ^ 6)
  String.ofList (if q < 0 then '-' :: digits else digits)

/-- A float that `round(x, 1)` returns: the one nearest to a number of tenths, with
its zero that is below zero. -/
inductive Rounded where
  | tenths (t : Int)
  | negZero
  | inf (negative : Bool)
  | nan
  deriving DecidableEq, Repr

namespace Rounded

/-- `round(x, 1)` of the float read from a text with the given sign. -/
def ofFloat (negative : Bool) : PyFloat → Rounded
  | .fin q =>
      let t := halfEven (binary64 q * 10)
      if t = 0 ∧ negative = true then .negZero else .tenths t
  | .inf below => .inf below
  | .nan => .nan

/-- `f"{x:.6f}"`. -/
def fixed : Rounded → String
  | .tenths t => sixDecimals (binary64 (t / 10))
  | .negZero => "-0.000000"
  | .inf negative => if negative then "-inf" else "inf"
  | .nan => "nan"

end Rounded

/-- `f"{float(x):.6f}"` of the `Decimal` that a column is read as. -/
def Tenths.fixed : Tenths → String
  | .num t _ => sixDecimals (binary64 (t / 10))
  | .nan => "nan"

/-! ### Texts of other values -/

/-- `datetime.isoformat()` of an aware time in UTC. -/
def Timestamp.isoformat (t : Timestamp) : String :=
  let seconds := t.micros / 1000000
  let fraction := t.micros % 1000000
  String.ofList (t.date.isoformat.toList ++ 'T' :: zfill 2 (seconds / 3600) ++
    ':' :: zfill 2 (seconds / 60 % 60) ++ ':' :: zfill 2 (seconds % 60) ++
    (if fraction = 0 then [] else '.' :: zfill 6 fraction) ++ "+00:00".toList)

/-- `str(u)`. -/
def Uuid.text (u : Uuid) : String :=
  let hex := Nat.toDigits 16 u.value
  let cs := List.replicate (32 - hex.length) '0' ++ hex
  String.ofList (cs.take 8 ++ '-' :: (cs.drop 8).take 4 ++ '-' :: (cs.drop 12).take 4 ++
    '-' :: (cs.drop 16).take 4 ++ '-' :: cs.drop 20)

end EspressoLogs.Py
