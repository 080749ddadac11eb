import EspressoLogs.Py.Date
import EspressoLogs.Py.Number

/-!
Python values as they travel in the row dictionaries between the routers and
the repositories, and the JSON text of a string.
-/

namespace EspressoLogs.Py

/-! ### UUIDs -/

instance uuidNeZero : NeZero (2 ^ 128) := ⟨by decide⟩

/-- `uuid.UUID`. -/
structure Uuid where
  value : Fin (2 ^ 128)
  deriving DecidableEq, Repr

namespace Uuid

/-- The value of a digit in base 16; `int` takes every decimal digit. -/
def hexDigit (c : Char) : Option Nat :=
  if 'a' ≤ c ∧ c ≤ 'f' then some (c.toNat - 87)
  else if 'A' ≤ c ∧ c ≤ 'F' then some (c.toNat - 55)
  else decimal c

/-- A run of digits in base 16, with single underscores between them. -/
def hexRun : List Char → Option (List Nat)
  | [] => none
  | [c] => (hexDigit c).map fun d => [d]
  | c :: e :: rest => (hexDigit c).bind fun d =>
      if e = '_' then (hexRun rest).map (d :: ·) else (hexRun (e :: rest)).map (d :: ·)

/-- What follows `0x` and the one underscore that may stand behind it. -/
def afterBase : List Char → List Char
  | zero :: x :: rest =>
      if decimal zero = some 0 ∧ (x = 'x' ∨ x = 'X') then
        if rest.head? = some '_' then rest.tail else rest
      else zero :: x :: rest
  | cs => cs

/-- `int(s, 16)`, `none` for its `ValueError`. -/
def intOfHex (cs : List Char) : Option Int :=
  let (negative, digits) := splitSign (dropEnd isNumSpace (cs.dropWhile isNumSpace))
  (hexRun (afterBase digits)).map fun ds =>
    let n : Int := (ds.foldl (fun n d => 16 * n + d) 0 : Nat)
    if negative then -n else n

/-- `str.replace(p, "")`, with the length of the string as fuel. -/
def without (p : List Char) : Nat → List Char → List Char
  | 0, cs => cs
  | _ + 1, [] => []
  | n + 1, c :: cs =>
      match (c :: cs).dropPrefix? p with
      | some rest => without p n rest
      | none => c :: without p n cs

/-- `uuid.UUID(s)`, `none` for its `ValueError`. -/
def ofString (s : String) : Option Uuid :=
  let cs := s.toList
  let hex := without "uuid:".toList cs.length (without "urn:".toList cs.length cs)
  let brace := fun c : Char => c == '{' || c == '}'
  let digits := (dropEnd brace (hex.dropWhile brace)).filter (· ≠ '-')
  -- the 32 characters need not be digits: `int` also takes a sign, `0x`, `_` and blanks
  if digits.length ≠ 32 then none
  else (intOfHex digits).bind fun n =>
    if 0 ≤ n ∧ n < 2 ^ 128 then some ⟨Fin.ofNat (2 ^ 128) n.toNat⟩ else none

end Uuid

/-! ### Values -/

/-- A value of a row dictionary. -/
inductive Val where
  | none
  | str (s : String)
  | int (i : Int)
  | float (x : PyFloat)
  | uuid (u : Uuid)
  deriving DecidableEq, Repr

namespace Val

/-- `bool(v)`. -/
def truthy : Val → Bool
  | .none => false
  | .str s => s ≠ ""
  | .int i => i ≠ 0
  | .float x => x ≠ .fin 0
  | .uuid _ => true

/-- `v or w`. -/
def or (v w : Val) : Val := if v.truthy then v else w

@[simp] theorem none_or (v : Val) : Val.none.or v = v := rfl

theorem str_or_str (a b : String) : (Val.str a).or (.str b) = .str (if a = "" then b else a) := by
  by_cases empty : a = ""
  · simp [or, truthy, empty]
  · simp [or, truthy, empty]

/-- `v in (None, "")`. -/
def isBlank : Val → Bool
  | .none => true
  | .str s => s = ""
  | _ => false

/-- `v in (None, "", "N/A")`. -/
def isMissing : Val → Bool
  | .str s => s = "" || s = "N/A"
  | v => v.isBlank

/-- `str(v)`, "" where it cannot be the text of a date or a UUID. -/
def pyStr : Val → String
  | .str s => s
  | .int i => toString i
  | _ => ""

def text : Val → String
  | .str s => s
  | _ => ""

end Val

/-- A row dictionary, in insertion order. -/
abbrev Dict := List (String × Val)

namespace Dict

/-- `d.get(k)`. -/
def get (d : Dict) (k : String) : Val := (d.lookup k).getD .none

/-- `d.get(k, v)`. -/
def getD (d : Dict) (k : String) (v : Val) : Val := (d.lookup k).getD v

/-- `k in d`. -/
def has (d : Dict) (k : String) : Bool := (d.lookup k).isSome

theorem has_iff {d : Dict} {k : String} : d.has k = true ↔ k ∈ d.map Prod.fst := by
  induction d with
  | nil => simp [has]
  | cons p d ih =>
      obtain ⟨x, v⟩ := p
      simp only [has, List.lookup_cons, List.map_cons, List.mem_cons] at ih ⊢
      by_cases same : k = x
      · simp [same]
      · simp [same, ih, beq_eq_false_iff_ne.mpr same]

/-- `{**d, k: v}`. -/
def set (d : Dict) (k : String) (v : Val) : Dict :=
  if d.any fun p => p.1 == k then d.map fun p => if p.1 == k then (k, v) else p
  else d ++ [(k, v)]

theorem lookup_cons_eq (x z : String) (u : Val) (d : Dict) :
    List.lookup z ((x, u) :: d) = if z = x then some u else d.lookup z := by
  rw [List.lookup_cons]
  by_cases here : z = x
  · simp [here]
  · simp [here, beq_eq_false_iff_ne.mpr here]

/-- A key that is set again keeps its place. -/
theorem lookup_replace (d : Dict) (k k' : String) (v : Val) :
    List.lookup k' (d.map fun p => if p.1 == k then (k, v) else p) =
      if k' = k then (d.lookup k').map fun _ => v else d.lookup k' := by
  induction d with
  | nil => simp
  | cons p d ih =>
      obtain ⟨x, u⟩ := p
      rw [List.map_cons]
      by_cases here : x = k
      · subst here
        simp only [beq_self_eq_true, if_true]
        rw [lookup_cons_eq, lookup_cons_eq, ih]
        by_cases same : k' = x
        · simp [same]
        · simp [same]
      · simp only [beq_eq_false_iff_ne.mpr here, Bool.false_eq_true, if_false]
        rw [lookup_cons_eq, lookup_cons_eq, ih]
        by_cases same : k' = x
        · subst same
          simp [here]
        · simp [same]

theorem lookup_set (d : Dict) (k k' : String) (v : Val) :
    (d.set k v).lookup k' = if k' = k then some v else d.lookup k' := by
  unfold set
  by_cases present : (d.any fun p => p.1 == k) = true
  · rw [if_pos present, lookup_replace]
    by_cases same : k' = k
    · subst same
      obtain ⟨p, hp, here⟩ := List.any_eq_true.mp present
      have some : (d.lookup k').isSome = true :=
        has_iff.mpr (beq_iff_eq.mp here ▸ List.mem_map_of_mem hp)
      obtain ⟨u, hu⟩ := Option.isSome_iff_exists.mp some
      simp [hu]
    · simp [same]
  · rw [if_neg present, List.lookup_append]
    by_cases same : k' = k
    · subst same
      have none : d.lookup k' = none := by
        rw [← Option.not_isSome_iff_eq_none]
        intro there
        obtain ⟨p, hp, here⟩ := List.mem_map.mp (has_iff.mp there)
        exact present (List.any_eq_true.mpr ⟨p, hp, beq_iff_eq.mpr here⟩)
      simp [none]
    · simp [same, List.lookup_cons, beq_eq_false_iff_ne.mpr same]

/-- What is under a key after another, or the same, was set. -/
theorem get_set (d : Dict) (k k' : String) (v : Val) :
    (d.set k v).get k' = if k' = k then v else d.get k' := by
  rw [get, lookup_set]
  split
  · rfl
  · rfl

theorem getD_set (d : Dict) (k k' : String) (v u : Val) :
    (d.set k v).getD k' u = if k' = k then v else d.getD k' u := by
  rw [getD, lookup_set]
  split
  · rfl
  · rfl

/-- `d.get(k)` of a dictionary whose value there is a string, "" otherwise. -/
def text (d : Dict) (k : String) : String := (d.get k).text

end Dict

/-- A string that may be missing, as a value. -/
def ofOption : Option String → Val
  | some s => .str s
  | none => .none

/-! ### JSON -/

def hexChar (n : Nat) : Char := (Nat.toDigits 16 n).head?.getD '0'

/-- `\uXXXX` of one UTF-16 code unit. -/
def unicodeEscape (n : Nat) : List Char :=
  ['\\', 'u', hexChar (n / 4096 % 16), hexChar (n / 256 % 16), hexChar (n / 16 % 16),
    hexChar (n % 16)]

/-- One character inside a JSON string, as `json.dumps` writes it. -/
def jsonChar (c : Char) : List Char :=
  if c = '"' then ['\\', '"']
  else if c = '\\' then ['\\', '\\']
  else if c = '\n' then ['\\', 'n']
  else if c = '\r' then ['\\', 'r']
  else if c = '\t' then ['\\', 't']
  else if c.toNat = 8 then ['\\', 'b']
  else if c.toNat = 12 then ['\\', 'f']
  else if 32 ≤ c.toNat ∧ c.toNat < 127 then [c]
  else if c.toNat < 0x10000 then unicodeEscape c.toNat
  else unicodeEscape (0xd800 + (c.toNat - 0x10000) / 1024) ++
    unicodeEscape (0xdc00 + (c.toNat - 0x10000) % 1024)

/-- `json.dumps(s)`. -/
def jsonString (s : String) : String := String.ofList ('"' :: s.toList.flatMap jsonChar ++ ['"'])

end EspressoLogs.Py
