import DialPass.Lib.Text
/-!
# Python's floats, as text gives them

A float is kept as the exact number it was rounded from. `ofStr` is `float` of a str.
-/

/-- `decimal neg m e` is the float nearest to ±m·10^e, which may be an infinity. -/
inductive PyFloat where
  | decimal (negative : Bool) (mantissa : Nat) (exponent : Int)
  | infinity (negative : Bool)
  | nan
deriving DecidableEq, Repr

/-- A str: its code points, lone surrogates among them. -/
abbrev PyStr := List Nat

namespace PyStr

def ofChars (s : List Char) : PyStr := s.map Char.toNat

def ofString (s : String) : PyStr := s.toList.map Char.toNat

/-- As text; a lone surrogate is no `Char`. -/
def text (s : PyStr) : String := String.ofList (s.map Char.ofNat)

/-- `str.strip()`. -/
def strip (s : PyStr) : PyStr := s.dropWhile Text.isSpaceCode |>.rdropWhile Text.isSpaceCode

theorem strip_of_forall {s : PyStr} (h : ∀ c ∈ s, Text.isSpaceCode c = false) : strip s = s := by
  have h1 : s.dropWhile Text.isSpaceCode = s := by
    rw [List.dropWhile_eq_self_iff]
    exact fun hl => by simp [h _ (List.getElem_mem hl)]
  rw [strip, h1, List.rdropWhile_eq_self_iff]
  exact fun hl => by simp [h _ (List.getLast_mem hl)]

theorem text_ofString (s : String) : text (ofString s) = s := by
  apply String.toList_injective
  simp [text, ofString, Function.comp_def]

theorem ofString_injective : Function.Injective ofString := Function.LeftInverse.injective text_ofString

end PyStr

namespace PyFloat

/-- The number that a decimal stands for. -/
def toRat : PyFloat → Option ℚ
  | decimal negative m e => some ((if negative then -(m : ℚ) else m) * 10 ^ e)
  | infinity _ | nan => none


open Text

/-- The digits zero of Unicode 15, other than ASCII's: nine more follow each. -/
def decimalZeros : List Nat :=
  [0x660, 0x6f0, 0x7c0, 0x966, 0x9e6, 0xa66, 0xae6, 0xb66, 0xbe6, 0xc66, 0xce6, 0xd66, 0xde6, 0xe50, 0xed0,
    0xf20, 0x1040, 0x1090, 0x17e0, 0x1810, 0x1946, 0x19d0, 0x1a80, 0x1a90, 0x1b50, 0x1bb0, 0x1c40, 0x1c50,
    0xa620, 0xa8d0, 0xa900, 0xa9d0, 0xa9f0, 0xaa50, 0xabf0, 0xff10, 0x104a0, 0x10d30, 0x11066, 0x110f0,
    0x11136, 0x111d0, 0x112f0, 0x11450, 0x114d0, 0x11650, 0x116c0, 0x11730, 0x118e0, 0x11950, 0x11c50,
    0x11d50, 0x11da0, 0x11f50, 0x16a60, 0x16ac0, 0x16b50, 0x1d7ce, 0x1d7d8, 0x1d7e2, 0x1d7ec, 0x1d7f6,
    0x1e140, 0x1e2f0, 0x1e4f0, 0x1e950, 0x1fbf0]

/-- White space and digits of any script become ASCII; what else is not ASCII is in no number. -/
def toAscii (n : Nat) : Char :=
  if n < 127 then Char.ofNat n
  else if isSpaceCode n then ' '
  else
    match decimalZeros.find? fun z => z ≤ n ∧ n ≤ z + 9 with
    | some z => Char.ofNat (48 + (n - z))
    | none => '?'

/-- C's `isspace`. -/
def isAsciiSpace (c : Char) : Bool := c = ' ' ∨ (9 ≤ c.toNat ∧ c.toNat ≤ 13)

/-- Underscores may stand between two digits, and are dropped. -/
def dropUnderscores (prev : Char) : List Char → Option (List Char)
  | [] => if prev = '_' then none else some []
  | c :: cs =>
    if c = '_' then if prev.isDigit then dropUnderscores c cs else none
    else if prev = '_' ∧ ¬ c.isDigit then none
    else (dropUnderscores c cs).map (c :: ·)

def natOfDigits (ds : List Char) : Nat := ds.foldl (fun n d => 10 * n + (d.toNat - 48)) 0

/-- An optional sign; whether it is a minus. -/
def sign : List Char → Bool × List Char
  | '-' :: cs => (true, cs)
  | '+' :: cs => (false, cs)
  | cs => (false, cs)

/-- The number that the digits before and after the point and the exponent spell. -/
def ofParts (negative : Bool) (whole frac : List Char) (exponent : Int) : PyFloat :=
  .decimal negative (natOfDigits (whole ++ frac)) (exponent - frac.length)

/-- `e`, an optional sign and digits, up to the end; nothing at all is exponent 0. -/
def exponentOf : List Char → Option Int
  | [] => some 0
  | c :: cs =>
    let (negative, ds) := sign cs
    if (c = 'e' ∨ c = 'E') ∧ ds ≠ [] ∧ ds.all Char.isDigit then
      some (if negative then -natOfDigits ds else natOfDigits ds)
    else none

/-- The digits after a point, and what follows. -/
def fraction : List Char → List Char × List Char
  | '.' :: cs => cs.span Char.isDigit
  | cs => ([], cs)

/-- `float(s)`; `none` is the ValueError. -/
def ofStr (s : PyStr) : Option PyFloat := do
  let text ← dropUnderscores ' ' (((s.map toAscii).dropWhile isAsciiSpace).rdropWhile isAsciiSpace)
  let (negative, body) := sign text
  let name := String.ofList (body.map Char.toLower)
  if name = "inf" ∨ name = "infinity" then return .infinity negative
  if name = "nan" then return .nan
  let (whole, rest) := body.span Char.isDigit
  let (frac, rest) := fraction rest
  if whole = [] ∧ frac = [] then none
  let exponent ← exponentOf rest
  return ofParts negative whole frac exponent

/-- `float(n)`; `none` is the OverflowError: the nearest float would be 2^1024. -/
def ofInt (n : Int) : Option PyFloat :=
  if n.natAbs < 2 ^ 1024 - 2 ^ 970 then some (.decimal (n < 0) n.natAbs 0) else none

end PyFloat
