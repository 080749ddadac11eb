import Mathlib.Data.List.Induction
import Mathlib.Data.Nat.Digits.Defs

/-!
Strings and integers as Python reads and writes them.

The functions work on the characters of a string. `intOf` is `int(s)` for a
string, `formatInt` is `f"{i:0wd}"`; both fail, as Python's do, beyond the
interpreter's limit on the digits of an integer. `intOf_formatInt` is the round
trip that the id generators rely on.
-/

namespace EspressoLogs.Py

/-! ### White space -/

/-- `str.isspace` of one character. -/
def isSpace (c : Char) : Bool :=
  let n := c.toNat
  (9 ≤ n && n ≤ 13) || (28 ≤ n && n ≤ 32) || n == 0x85 || n == 0xa0 || n == 0x1680 ||
    (0x2000 ≤ n && n ≤ 0x200a) || n == 0x2028 || n == 0x2029 || n == 0x202f || n == 0x205f ||
    n == 0x3000

def dropEnd (p : Char → Bool) (cs : List Char) : List Char :=
  (cs.reverse.dropWhile p).reverse

/-- `str.strip()`, or `str.strip(chars)` for the characters that satisfy `p`. -/
def stripWhere (p : Char → Bool) (s : String) : String :=
  String.ofList (dropEnd p (s.toList.dropWhile p))

def strip (s : String) : String := stripWhere isSpace s

/-- The first word of `str.split()`. -/
def firstWord (s : String) : List Char :=
  (s.toList.dropWhile isSpace).takeWhile fun c => !isSpace c

/-! ### Decimal digits -/

/-- The zeros of the decimal digits of Unicode 15; each is followed by its nine
other digits. -/
def digitZeros : List Nat :=
  [0x30, 0x660, 0x6f0, 0x7c0, 0x966, 0x9e6, 0xa66, 0xae6, 0xb66, 0xbe6, 0xc66, 0xce6, 0xd66,
   0xde6, 0xe50, 0xed0, 0xf20, 0x1040, 0x1090, 0x17e0, 0x1810, 0x1946, 0x19d0, 0x1a80, 0x1a90,
   0x1b50, 0x1bb0, 0x1c40, 0x1c50, 0xa620, 0xa8d0, 0xa900, 0xa9d0, 0xa9f0, 0xaa50, 0xabf0,
   0xff10, 0x104a0, 0x10d30, 0x11066, 0x110f0, 0x11136, 0x111d0, 0x112f0, 0x11450, 0x114d0,
   0x11650, 0x116c0, 0x11730, 0x118e0, 0x11950, 0x11c50, 0x11d50, 0x11da0, 0x11f50, 0x16a60,
   0x16ac0, 0x16b50, 0x1d7ce, 0x1d7d8, 0x1d7e2, 0x1d7ec, 0x1d7f6, 0x1e140, 0x1e2f0, 0x1e4f0,
   0x1e950, 0x1fbf0]

/-- The value of a decimal digit, as `\d` and `int` recognise it. -/
def decimal (c : Char) : Option Nat :=
  (digitZeros.find? fun z => z ≤ c.toNat && c.toNat < z + 10).map (c.toNat - ·)

theorem isDigit_bounds {c : Char} (h : c.isDigit = true) : 48 ≤ c.toNat ∧ c.toNat ≤ 57 := by
  simp only [Char.isDigit, Bool.and_eq_true, decide_eq_true_eq] at h
  exact ⟨UInt32.le_iff_toNat_le.mp h.1, UInt32.le_iff_toNat_le.mp h.2⟩

theorem decimal_of_isDigit {c : Char} (h : c.isDigit = true) : decimal c = some (c.toNat - 48) := by
  have bounds := isDigit_bounds h
  unfold decimal digitZeros
  rw [List.find?_cons_of_pos (by simp; omega)]
  rfl

/-- The number that a list of digit values spells. -/
def spelled (digits : List Nat) : Nat := digits.foldl (fun n d => 10 * n + d) 0

/-- A run of digits, with single underscores between them when `_` is allowed. -/
def digitRun (underscores : Bool) : List Char → Option (List Nat)
  | [] => none
  | [c] => (decimal c).map fun d => [d]
  | c :: e :: rest => (decimal c).bind fun d =>
      if e = '_' && underscores then (digitRun underscores rest).map (d :: ·)
      else (digitRun underscores (e :: rest)).map (d :: ·)

theorem digitRun_of_isDigit (u : Bool) {cs : List Char} (ne : cs ≠ [])
    (h : ∀ c ∈ cs, c.isDigit = true) : digitRun u cs = some (cs.map fun c => c.toNat - 48) := by
  induction cs with
  | nil => exact absurd rfl ne
  | cons c cs ih =>
      have first := decimal_of_isDigit (h c List.mem_cons_self)
      cases cs with
      | nil => simp [digitRun, first]
      | cons e rest =>
          have next := ih (List.cons_ne_nil _ _) fun d hd => h d (List.mem_cons_of_mem _ hd)
          have noUnderscore : e ≠ '_' := by
            rintro rfl
            exact absurd (h '_' (by simp)) (by decide)
          simp [digitRun, first, noUnderscore, next]

theorem spelled_eq_ofDigitChars (cs : List Char) :
    spelled (cs.map fun c => c.toNat - 48) = Nat.ofDigitChars 10 cs 0 := by
  rw [spelled, List.foldl_map]
  rfl

/-! ### Integers -/

/-- The interpreter refuses to convert integers of more digits than this. -/
def intMaxStrDigits : Nat := 4300

/-- The white space that numbers may be surrounded by. -/
def isNumSpace (c : Char) : Bool := isSpace c && !(28 ≤ c.toNat && c.toNat ≤ 31)

/-- An optional sign and what follows it. -/
def splitSign : List Char → Bool × List Char
  | '-' :: cs => (true, cs)
  | '+' :: cs => (false, cs)
  | cs => (false, cs)

/-- `int(s)`, `none` for its `ValueError`. -/
def intOf (s : String) : Option Int :=
  let (negative, cs) := splitSign (dropEnd isNumSpace (s.toList.dropWhile isNumSpace))
  match digitRun true cs with
  | none => none
  | some digits =>
      if intMaxStrDigits < digits.length then none
      else some (if negative then -(spelled digits : Int) else spelled digits)

/-- The digits of a number, filled with zeros to width `w`. -/
def zfill (w n : Nat) : List Char :=
  List.replicate (w - (Nat.toDigits 10 n).length) '0' ++ Nat.toDigits 10 n

/-- `f"{i:0wd}"`, `none` for its `ValueError`. -/
def formatInt (w : Nat) (i : Int) : Option String :=
  if intMaxStrDigits < (Nat.toDigits 10 i.natAbs).length then none
  else if i < 0 then some (String.ofList ('-' :: zfill (w - 1) i.natAbs))
  else some (String.ofList (zfill w i.natAbs))

theorem isDigit_of_mem_zfill {w n : Nat} {c : Char} (h : c ∈ zfill w n) : c.isDigit = true := by
  rcases List.mem_append.mp h with h | h
  · rw [List.eq_of_mem_replicate h]
    rfl
  · exact Nat.isDigit_of_mem_toDigits (by decide) (by decide) h

theorem zfill_ne_nil (w n : Nat) : zfill w n ≠ [] :=
  List.append_ne_nil_of_right_ne_nil _ Nat.toDigits_ne_nil

/-- Reading back what was written, zeros in front included. -/
theorem digitRun_zfill (u : Bool) (w n : Nat) :
    ∃ digits, digitRun u (zfill w n) = some digits ∧ spelled digits = n ∧
      digits.length = max w (Nat.toDigits 10 n).length := by
  refine ⟨_, digitRun_of_isDigit u (zfill_ne_nil w n) fun c hc => isDigit_of_mem_zfill hc, ?_, ?_⟩
  · rw [spelled_eq_ofDigitChars, zfill, Nat.ofDigitChars_append,
      Nat.ofDigitChars_replicate_zero, Nat.mul_zero, Nat.ofDigitChars_ten_toDigits]
  · simp only [zfill, List.length_map, List.length_append, List.length_replicate]
    omega

theorem isNumSpace_of_isDigit {c : Char} (h : c.isDigit = true) : isNumSpace c = false := by
  have bounds := isDigit_bounds h
  simp only [isNumSpace, isSpace, Bool.and_eq_false_iff]
  left
  simp only [Bool.or_eq_false_iff, Bool.and_eq_false_iff, decide_eq_false_iff_not, beq_eq_false_iff_ne]
  omega

/-- Trimming leaves a text without white space at its ends as it is. -/
theorem trim_of_plain {p : Char → Bool} {cs : List Char} (h : ∀ c ∈ cs, p c = false) :
    dropEnd p (cs.dropWhile p) = cs := by
  have front : ∀ l : List Char, (∀ c ∈ l, p c = false) → l.dropWhile p = l := by
    intro l hl
    cases l with
    | nil => rfl
    | cons c l => simp [hl c List.mem_cons_self]
  unfold dropEnd
  rw [front cs h, front cs.reverse fun c hc => h c (List.mem_reverse.mp hc), List.reverse_reverse]

theorem splitSign_of_isDigit {cs : List Char} (h : ∀ c ∈ cs, c.isDigit = true) :
    splitSign cs = (false, cs) := by
  cases cs with
  | nil => rfl
  | cons c cs =>
      have hc := h c List.mem_cons_self
      unfold splitSign
      split
      · rename_i heq; cases heq; exact absurd hc (by decide)
      · rename_i heq; cases heq; exact absurd hc (by decide)
      · rfl

/-- What `formatInt` writes, `intOf` reads back. -/
theorem intOf_formatInt {w : Nat} {i : Int} {s : String} (hw : w ≤ intMaxStrDigits)
    (h : formatInt w i = some s) : intOf s = some i := by
  unfold formatInt at h
  split at h
  · cases h
  rename_i fits
  have read : ∀ v ≤ w, ∃ digits, digitRun true (zfill v i.natAbs) = some digits ∧
      spelled digits = i.natAbs ∧ ¬ intMaxStrDigits < digits.length := by
    intro v hv
    obtain ⟨digits, run, value, length⟩ := digitRun_zfill true v i.natAbs
    exact ⟨digits, run, value, by omega⟩
  split at h
  · rename_i neg
    obtain ⟨digits, run, value, length⟩ := read (w - 1) (Nat.sub_le _ _)
    cases h
    have plain : ∀ c ∈ '-' :: zfill (w - 1) i.natAbs, isNumSpace c = false := by
      intro c hc
      rcases List.mem_cons.mp hc with rfl | hc
      · rfl
      · exact isNumSpace_of_isDigit (isDigit_of_mem_zfill hc)
    unfold intOf
    rw [String.toList_ofList, trim_of_plain plain]
    simp only [splitSign, run, if_neg length, if_true, value]
    congr 1
    omega
  · rename_i nonneg
    obtain ⟨digits, run, value, length⟩ := read w le_rfl
    cases h
    have isDigit : ∀ c ∈ zfill w i.natAbs, c.isDigit = true := fun c => isDigit_of_mem_zfill
    unfold intOf
    rw [String.toList_ofList, trim_of_plain fun c hc => isNumSpace_of_isDigit (isDigit c hc),
      splitSign_of_isDigit isDigit]
    simp only [run, if_neg length, value]
    congr 1
    simp only [Bool.false_eq_true, if_false]
    omega

/-! ### Limits -/

theorem decimal_eq_some {c : Char} {d : Nat} (h : decimal c = some d) :
    d < 10 ∧ ∃ z ∈ digitZeros, c.toNat = z + d := by
  obtain ⟨z, found, rfl⟩ := Option.map_eq_some_iff.mp h
  have range := List.find?_some found
  simp only [Bool.and_eq_true, decide_eq_true_eq] at range
  exact ⟨by omega, z, List.mem_of_find?_eq_some found, by omega⟩

/-- No digit is a sign, an underscore or white space. -/
theorem plain_of_decimal {c : Char} (h : (decimal c).isSome) :
    c ∉ ['-', '+', '_'] ∧ isSpace c = false := by
  obtain ⟨d, h⟩ := Option.isSome_iff_exists.mp h
  obtain ⟨small, z, mem, code⟩ := decimal_eq_some h
  have plain : ∀ z ∈ digitZeros, ∀ d < 10,
      Char.ofNat (z + d) ∉ ['-', '+', '_'] ∧ isSpace (Char.ofNat (z + d)) = false := by
    decide +kernel
  have same : Char.ofNat (z + d) = c := by rw [← code, Char.ofNat_toNat]
  rw [← same]
  exact plain z mem d small

theorem digitRun_of_decimal {cs : List Char} (ne : cs ≠ [])
    (h : ∀ c ∈ cs, (decimal c).isSome = true) :
    ∃ digits, digitRun true cs = some digits ∧ digits.length = cs.length := by
  induction cs with
  | nil => exact absurd rfl ne
  | cons c cs ih =>
      obtain ⟨d, first⟩ := Option.isSome_iff_exists.mp (h c List.mem_cons_self)
      cases cs with
      | nil => exact ⟨[d], by rw [digitRun, first]; rfl, rfl⟩
      | cons e rest =>
          have others : ∀ c ∈ e :: rest, (decimal c).isSome = true :=
            fun c hc => h c (List.mem_cons_of_mem _ hc)
          obtain ⟨digits, run, length⟩ := ih (List.cons_ne_nil _ _) others
          have noUnderscore : e ≠ '_' := by
            rintro rfl
            exact (plain_of_decimal (others '_' List.mem_cons_self)).1 (by decide)
          exact ⟨d :: digits, by simp [digitRun, first, noUnderscore, run], by simp [length]⟩

/-- A run of digits within the limit is a number. -/
theorem intOf_of_decimal {cs : List Char} (ne : cs ≠ [])
    (h : ∀ c ∈ cs, (decimal c).isSome = true) (short : cs.length ≤ intMaxStrDigits) :
    ∃ n : Nat, intOf (String.ofList cs) = some (n : Int) := by
  obtain ⟨digits, run, length⟩ := digitRun_of_decimal ne h
  have plain : ∀ c ∈ cs, isNumSpace c = false := by
    intro c hc
    rw [isNumSpace, (plain_of_decimal (h c hc)).2]
    rfl
  have unsigned : splitSign cs = (false, cs) := by
    cases cs with
    | nil => rfl
    | cons c cs =>
        have sign := (plain_of_decimal (h c List.mem_cons_self)).1
        unfold splitSign
        split
        · rename_i heq; cases heq; exact absurd (by decide) sign
        · rename_i heq; cases heq; exact absurd (by decide) sign
        · rfl
  refine ⟨spelled digits, ?_⟩
  unfold intOf
  rw [String.toList_ofList, trim_of_plain plain, unsigned]
  simp only [run, length, if_neg (Nat.not_lt.mpr short), Bool.false_eq_true, if_false]

theorem lt_of_digitRun {u : Bool} {cs : List Char} {digits : List Nat}
    (h : digitRun u cs = some digits) : ∀ d ∈ digits, d < 10 := by
  fun_induction digitRun u cs generalizing digits with
  | case1 => cases h
  | case2 c =>
      obtain ⟨d, one, rfl⟩ := Option.map_eq_some_iff.mp h
      intro e mem
      rw [List.mem_singleton.mp mem]
      exact (decimal_eq_some one).1
  | case3 c e rest ih ih' =>
      obtain ⟨d, first, h⟩ := Option.bind_eq_some_iff.mp h
      have small := (decimal_eq_some first).1
      split at h
      · obtain ⟨ds, others, rfl⟩ := Option.map_eq_some_iff.mp h
        exact List.forall_mem_cons.mpr ⟨small, ih others⟩
      · obtain ⟨ds, others, rfl⟩ := Option.map_eq_some_iff.mp h
        exact List.forall_mem_cons.mpr ⟨small, ih' others⟩

theorem spelled_append (digits : List Nat) (d : Nat) :
    spelled (digits ++ [d]) = 10 * spelled digits + d := by
  rw [spelled, List.foldl_append]
  rfl

theorem spelled_lt {digits : List Nat} (h : ∀ d ∈ digits, d < 10) :
    spelled digits < 10 ^ digits.length := by
  induction digits using List.reverseRecOn with
  | nil => decide
  | append_singleton digits d ih =>
      have before := ih fun e mem => h e (List.mem_append_left [d] mem)
      have last := h d (List.mem_append_right digits List.mem_cons_self)
      rw [spelled_append, List.length_append, List.length_singleton, pow_succ]
      omega

/-- What can be read is within the limit. -/
theorem natAbs_intOf_lt {s : String} {i : Int} (h : intOf s = some i) :
    i.natAbs < 10 ^ intMaxStrDigits := by
  unfold intOf at h
  split at h
  rename_i negative cs signed
  split at h
  · cases h
  · rename_i digits run
    split at h
    · cases h
    · rename_i short
      have value : i.natAbs = spelled digits := by
        cases h
        split
        · exact Int.natAbs_neg _
        · rfl
      rw [value]
      exact (spelled_lt (lt_of_digitRun run)).trans_le
        (Nat.pow_le_pow_right (by decide) (Nat.not_lt.mp short))

/-- What is within the limit can be written. -/
theorem formatInt_total {w : Nat} {i : Int} (h : i.natAbs < 10 ^ intMaxStrDigits) :
    ∃ s, formatInt w i = some s := by
  have short := (Nat.length_toDigits_le_iff (by decide) (by decide)).mpr h
  unfold formatInt
  rw [if_neg (Nat.not_lt.mpr short)]
  split
  · exact ⟨_, rfl⟩
  · exact ⟨_, rfl⟩

/-! ### Prefixes -/

/-- `s.startswith(p)`, with what follows. -/
def afterPrefix (p s : String) : Option (List Char) := s.toList.dropPrefix? p.toList

/-! ### Bytes -/

theorem utf8ByteSize_intercalate (separator first : String) (rest : List String) :
    (String.intercalate separator (first :: rest)).utf8ByteSize =
      first.utf8ByteSize + (rest.map fun s => separator.utf8ByteSize + s.utf8ByteSize).sum := by
  induction rest generalizing first with
  | nil => simp
  | cons s rest ih =>
      rw [String.intercalate_cons_cons, String.utf8ByteSize_append, String.utf8ByteSize_append, ih,
        List.map_cons, List.sum_cons]
      omega

end EspressoLogs.Py
