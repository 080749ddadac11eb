import EspressoLogs.Py.Text

/-!
`datetime.date`, its texts, and instants.

A `Date` is a day of the proleptic Gregorian calendar in the years that Python
knows. `Date.fromIsoformat` accepts what Python 3.12 accepts: calendar dates and
ISO weeks, with or without dashes.
-/

namespace EspressoLogs.Py

/-- The leap years of the Gregorian calendar. -/
def isLeap (y : Nat) : Bool := y % 4 == 0 && (y % 100 != 0 || y % 400 == 0)

def daysInMonth (y m : Nat) : Nat :=
  if m = 2 then (if isLeap y then 29 else 28)
  else if m = 4 ∨ m = 6 ∨ m = 9 ∨ m = 11 then 30 else 31

/-- `datetime.date`. -/
structure Date where
  year : Nat
  month : Nat
  day : Nat
  inRange : 1 ≤ year ∧ year ≤ 9999 ∧ 1 ≤ month ∧ month ≤ 12 ∧ 1 ≤ day ∧
    day ≤ daysInMonth year month
  deriving DecidableEq, Repr

namespace Date

/-- `date(y, m, d)`, where it does not raise. -/
def ofYmd (y m d : Nat) : Option Date :=
  if h : 1 ≤ y ∧ y ≤ 9999 ∧ 1 ≤ m ∧ m ≤ 12 ∧ 1 ≤ d ∧ d ≤ daysInMonth y m then some ⟨y, m, d, h⟩
  else none

/-- The day after, up to the last one there is. -/
def next (x : Date) : Option Date :=
  match ofYmd x.year x.month (x.day + 1), ofYmd x.year (x.month + 1) 1 with
  | some d, _ => some d
  | none, some d => some d
  | none, none => ofYmd (x.year + 1) 1 1

def addDays : Nat → Date → Option Date
  | 0, x => some x
  | n + 1, x => x.next.bind (addDays n)

/-- `date.toordinal()`: the days since the last one before year 1. -/
def toordinal (x : Date) : Nat :=
  (x.year - 1) * 365 + (x.year - 1) / 4 - (x.year - 1) / 100 + (x.year - 1) / 400 +
    ((List.range (x.month - 1)).map fun m => daysInMonth x.year (m + 1)).sum + x.day

/-! ### Writing -/

/-- `date.isoformat()`. -/
def isoformat (x : Date) : String :=
  String.ofList (zfill 4 x.year ++ '-' :: zfill 2 x.month ++ '-' :: zfill 2 x.day)

/-- `date.strftime("%Y%m%d")`. -/
def compact (x : Date) : List Char := zfill 4 x.year ++ zfill 2 x.month ++ zfill 2 x.day

/-! ### Reading -/

/-- A number in ASCII digits. -/
def asciiNat (cs : List Char) : Option Nat :=
  if cs.all Char.isDigit then some (Nat.ofDigitChars 10 cs 0) else none

/-- The three numbers of a date, from their digits. -/
def ymdOf (y m d : List Char) : Option Date :=
  match asciiNat y, asciiNat m, asciiNat d with
  | some y, some m, some d => ofYmd y m d
  | _, _, _ => none

/-- The weekday of the first of January, from Monday as 0. -/
def firstWeekday (y : Nat) : Nat := ((y - 1) * 365 + (y - 1) / 4 - (y - 1) / 100 + (y - 1) / 400) % 7

/-- `date.fromisocalendar`: the week that holds the first Thursday is the first. -/
def isoWeek (y w d : Nat) : Option Date :=
  let first := firstWeekday y
  let longYear := first = 3 ∨ (first = 2 ∧ isLeap y = true)
  if (1 ≤ w ∧ w ≤ 52 ∨ w = 53 ∧ longYear) ∧ 1 ≤ d ∧ d ≤ 7 then
    let offset : Int := (w - 1) * 7 + (d - 1) + (if first ≤ 3 then -(first : Int) else 7 - first)
    if offset < 0 then ofYmd (y - 1) 12 (32 - offset.natAbs)
    else (ofYmd y 1 1).bind (addDays offset.toNat)
  else none

/-- The same from digits. -/
def weekOf (y w d : List Char) : Option Date :=
  match asciiNat y, asciiNat w, asciiNat d with
  | some y, some w, some d => if 1 ≤ y then isoWeek y w d else none
  | _, _, _ => none

/-- `date.fromisoformat(s)`, `none` for its `ValueError`. -/
def fromIsoformat (s : String) : Option Date :=
  match s.toList with
  | [a, b, c, d, '-', 'W', e, f] => weekOf [a, b, c, d] [e, f] ['1']
  | [a, b, c, d, '-', 'W', e, f, '-', g] => weekOf [a, b, c, d] [e, f] [g]
  | [a, b, c, d, 'W', e, f] => weekOf [a, b, c, d] [e, f] ['1']
  | [a, b, c, d, 'W', e, f, g] => weekOf [a, b, c, d] [e, f] [g]
  | [a, b, c, d, '-', e, f, '-', g, h] => ymdOf [a, b, c, d] [e, f] [g, h]
  | [a, b, c, d, e, f, g, h] => ymdOf [a, b, c, d] [e, f] [g, h]
  | _ => none

/-! ### Round trips -/

/-- A number that fits is padded to the width. -/
theorem length_zfill {w n : Nat} (hw : 0 < w) (h : n < 10 ^ w) : (zfill w n).length = w := by
  have short : (Nat.toDigits 10 n).length ≤ w := (Nat.length_toDigits_le_iff (by decide) hw).mpr h
  simp only [zfill, List.length_append, List.length_replicate]
  omega

/-- A padded number is read back. -/
theorem asciiNat_zfill (w n : Nat) : asciiNat (zfill w n) = some n := by
  have digits : (zfill w n).all Char.isDigit = true :=
    List.all_eq_true.mpr fun _ => isDigit_of_mem_zfill
  rw [asciiNat, if_pos digits, zfill, Nat.ofDigitChars_append, Nat.ofDigitChars_replicate_zero,
    Nat.mul_zero, Nat.ofDigitChars_ten_toDigits]

theorem ofYmd_self (x : Date) : ofYmd x.year x.month x.day = some x := by
  rw [ofYmd, dif_pos x.inRange]

/-- A date that is written is read back. -/
theorem ymdOf_zfill (x : Date) : ymdOf (zfill 4 x.year) (zfill 2 x.month) (zfill 2 x.day) = some x := by
  simp only [ymdOf, asciiNat_zfill, ofYmd_self]

theorem small_day (x : Date) : x.day < 100 := by
  have := x.inRange
  have : daysInMonth x.year x.month ≤ 31 := by
    unfold daysInMonth
    split
    · split <;> omega
    · split <;> omega
  omega

private theorem zfill_two {n : Nat} (h : n < 100) :
    ∃ a b, zfill 2 n = [a, b] ∧ a.isDigit = true := by
  have length := length_zfill (w := 2) (by decide) h
  have digits : ∀ c ∈ zfill 2 n, c.isDigit = true := fun _ => isDigit_of_mem_zfill
  match zfill 2 n, length, digits with
  | [a, b], _, digits => exact ⟨a, b, rfl, digits a List.mem_cons_self⟩

private theorem zfill_four {n : Nat} (h : n < 10000) : ∃ a b c d, zfill 4 n = [a, b, c, d] := by
  have length := length_zfill (w := 4) (by decide) h
  match zfill 4 n, length with
  | [a, b, c, d], _ => exact ⟨a, b, c, d, rfl⟩

/-- A date is read back from its text. -/
theorem fromIsoformat_isoformat (x : Date) : fromIsoformat x.isoformat = some x := by
  obtain ⟨a, b, c, d, year⟩ := zfill_four (n := x.year) (by have := x.inRange; omega)
  obtain ⟨e, f, month, digit⟩ := zfill_two (n := x.month) (by have := x.inRange; omega)
  obtain ⟨g, h, day, _⟩ := zfill_two x.small_day
  have text : x.isoformat.toList = [a, b, c, d, '-', e, f, '-', g, h] := by
    simp [isoformat, year, month, day]
  have read := ymdOf_zfill x
  rw [year, month, day] at read
  unfold fromIsoformat
  rw [text]
  have notWeek : e ≠ 'W' := by
    rintro rfl
    exact absurd digit (by decide)
  split
  · rename_i heq; simp at heq
  · rename_i heq
    simp only [List.cons.injEq] at heq
    exact absurd heq.2.2.2.2.2.1 notWeek
  · rename_i heq; simp at heq
  · rename_i heq; simp at heq
  · rename_i heq
    simp only [List.cons.injEq, and_true, true_and] at heq
    obtain ⟨rfl, rfl, rfl, rfl, rfl, rfl, rfl, rfl⟩ := heq
    exact read
  · rename_i heq; simp at heq
  · rename_i other _
    exact absurd rfl (other a b c d e f g h)

end Date

/-! ### Instants -/

/-- An aware `datetime`, in UTC: the day and the microseconds since its midnight. -/
structure Timestamp where
  date : Date
  micros : Nat
  deriving DecidableEq, Repr

namespace Timestamp

/-- The start of the day. -/
def midnight (d : Date) : Timestamp := ⟨d, 0⟩

/-- Timestamps are compared by when they are. -/
def rank (t : Timestamp) : Nat :=
  ((t.date.year * 12 + t.date.month) * 31 + t.date.day) * 86400000000 + t.micros

end Timestamp

end EspressoLogs.Py
