import DialPass.Lib.Dict
import DialPass.Lib.Number
/-!
# `json.loads`

The text is cut into tokens, one character after the other, and a pushdown machine builds the value from
them. What is wrong with a text shows in the order in which the decoder reads it: an error inside a token is
met when the machine gets there, and a number is converted only where a value is expected.

Besides `JSONDecodeError` there are two ways to fail: an integer with more digits than `int` converts (a plain
ValueError), and containers nested deeper than the interpreter's stack (RecursionError).
-/

/-- What the interpreter allows. -/
structure Interpreter where
  /-- nested containers that `json.loads` follows -/
  maxDepth : Nat
  /-- nested containers that `str` follows -/
  maxRepr : Nat
  /-- `sys.get_int_max_str_digits()` -/
  maxDigits : Nat := 4300

/-- A JSON value as Python holds it; an object is a dict, in insertion order. -/
inductive Json where
  | null
  | bool (b : Bool)
  | int (n : Int)
  | float (x : PyFloat)
  | str (s : PyStr)
  | arr (items : List Json)
  | obj (fields : List (PyStr × Json))

namespace Json

/-- Why `loads` raised. -/
inductive LoadsError where
  | decode
  /-- the ValueError of an integer too long -/
  | digits
  | recursion
deriving DecidableEq, Repr

/-! ## Tokens -/

inductive Token where
  | punct (c : Char)
  | str (s : PyStr)
  /-- a run of letters, digits, signs and points, that may begin with a literal or a number -/
  | word (w : List Char)
  | bad
deriving DecidableEq, Repr

/-- Where the reader is: in a word or a string it keeps what it has read, backwards. -/
inductive Lexer where
  | idle
  | word (acc : List Char)
  | str (acc : PyStr)
  | escape (acc : PyStr)
  /-- `left` hexadecimal digits of a `\u` to come -/
  | hex (acc : PyStr) (left value : Nat)
  | dead

def isWordChar (c : Char) : Bool := c.isAlphanum ∨ c = '+' ∨ c = '-' ∨ c = '.'

/-- A character between tokens. -/
def lexStart (c : Char) : Lexer × List Token :=
  if c ∈ [' ', '\t', '\n', '\r'] then (.idle, [])
  else if c ∈ ['{', '}', '[', ']', ':', ','] then (.idle, [.punct c])
  else if c = '"' then (.str [], [])
  else if isWordChar c then (.word [c], [])
  else (.dead, [.bad])

/-- The escapes of one character. -/
def unescape : Char → Option Nat
  | '"' => some 34
  | '\\' => some 92
  | '/' => some 47
  | 'b' => some 8
  | 'f' => some 12
  | 'n' => some 10
  | 'r' => some 13
  | 't' => some 9
  | _ => none

/-- The two halves of an escaped pair become one code point. -/
def joinSurrogates : PyStr → PyStr
  | hi :: lo :: rest =>
    if 0xd800 ≤ hi ∧ hi ≤ 0xdbff ∧ 0xdc00 ≤ lo ∧ lo ≤ 0xdfff then
      (0x10000 + (hi - 0xd800) * 0x400 + (lo - 0xdc00)) :: joinSurrogates rest
    else hi :: joinSurrogates (lo :: rest)
  | s => s

def lexStep : Lexer → Char → Lexer × List Token
  | .idle, c => lexStart c
  | .word acc, c =>
    if isWordChar c then (.word (c :: acc), [])
    else
      let (lexer, tokens) := lexStart c
      (lexer, .word acc.reverse :: tokens)
  | .str acc, c =>
    if c = '"' then (.idle, [.str (joinSurrogates acc.reverse)])
    else if c = '\\' then (.escape acc, [])
    -- a control character must be escaped
    else if c.toNat < 32 then (.dead, [.bad])
    else (.str (c.toNat :: acc), [])
  | .escape acc, c =>
    match unescape c with
    | some n => (.str (n :: acc), [])
    | none => if c = 'u' then (.hex acc 4 0, []) else (.dead, [.bad])
  | .hex acc left value, c =>
    match Text.hexDigit c with
    | none => (.dead, [.bad])
    | some d =>
      let value := 16 * value + d
      if left = 1 then (.str (value :: acc), []) else (.hex acc (left - 1) value, [])
  | .dead, _ => (.dead, [])

def tokens (lexer : Lexer) : List Char → List Token
  | [] =>
    match lexer with
    | .idle | .dead => []
    | .word acc => [.word acc.reverse]
    | .str _ | .escape _ | .hex _ _ _ => [.bad]
  | c :: cs => (lexStep lexer c).2 ++ tokens (lexStep lexer c).1 cs

/-! ## Numbers -/

/-- `e`, an optional sign and digits, if they are there; and what follows. -/
def exponentPart : List Char → Option Int × List Char
  | c :: cs =>
    let (negative, ds) := PyFloat.sign cs
    let (digits, rest) := ds.span Char.isDigit
    if (c = 'e' ∨ c = 'E') ∧ digits ≠ [] then
      (some (if negative then -PyFloat.natOfDigits digits else PyFloat.natOfDigits digits), rest)
    else (none, c :: cs)
  | [] => (none, [])

/-- A point and digits, if they are there; and what follows. -/
def fractionPart : List Char → Option (List Char) × List Char
  | '.' :: cs =>
    let (digits, rest) := cs.span Char.isDigit
    if digits ≠ [] then (some digits, rest) else (none, '.' :: cs)
  | cs => (none, cs)

/-- The digits before the point: a zero, or digits that do not begin with one. -/
def wholePart : List Char → Option (List Char × List Char)
  | '0' :: cs => some (['0'], cs)
  | c :: cs => if c.isDigit then some ((c :: cs).span Char.isDigit) else none
  | [] => none

/-- The number a word begins with, converted; what follows it is an error. -/
def number (py : Interpreter) (w : List Char) : Except LoadsError Json :=
  let (negative, body) := match w with
    | '-' :: cs => (true, cs)
    | cs => (false, cs)
  match wholePart body with
  | none => .error .decode
  | some (whole, rest) =>
    let (frac, rest) := fractionPart rest
    let (exponent, rest) := exponentPart rest
    if frac = none ∧ exponent = none ∧ py.maxDigits < whole.length then .error .digits
    else if rest ≠ [] then .error .decode
    else if frac = none ∧ exponent = none then
      let n : Int := PyFloat.natOfDigits whole
      .ok (.int (if negative then -n else n))
    else .ok (.float (.ofParts negative whole (frac.getD []) (exponent.getD 0)))

/-- A word where a value is expected. -/
def scalar (py : Interpreter) (w : List Char) : Except LoadsError Json :=
  if w = "null".toList then .ok .null
  else if w = "true".toList then .ok (.bool true)
  else if w = "false".toList then .ok (.bool false)
  else if w = "NaN".toList then .ok (.float .nan)
  else if w = "Infinity".toList then .ok (.float (.infinity false))
  else if w = "-Infinity".toList then .ok (.float (.infinity true))
  else number py w

/-! ## Values -/

/-- A container that is open: the items so far, or the fields so far and the key whose value comes. -/
inductive Frame where
  | arr (items : List Json)
  | obj (fields : List (PyStr × Json)) (key : PyStr)

/-- What comes next, in the containers that are open. -/
inductive Parser where
  /-- a value, or the end of an empty array -/
  | value (stack : List Frame) (first : Bool)
  /-- a key, or the end of an empty object -/
  | key (stack : List Frame) (fields : List (PyStr × Json)) (first : Bool)
  | colon (stack : List Frame) (fields : List (PyStr × Json)) (key : PyStr)
  /-- a comma or the end of the container -/
  | next (frame : Frame) (stack : List Frame)
  | done (v : Json)

/-- A value has been read. A key set before keeps its place and takes the new value. -/
def put (stack : List Frame) (v : Json) : Parser :=
  match stack with
  | [] => .done v
  | .arr items :: stack => .next (.arr (items ++ [v])) stack
  | .obj fields key :: stack => .next (.obj (Dict.place key v fields) key) stack

def parseStep (py : Interpreter) : Parser → Token → Except LoadsError Parser
  | .value stack _, .word w => (scalar py w).map (put stack)
  | .value stack _, .str s => .ok (put stack (.str s))
  | .value stack _, .punct '[' =>
    if py.maxDepth ≤ stack.length then .error .recursion else .ok (.value (.arr [] :: stack) true)
  | .value stack _, .punct '{' =>
    if py.maxDepth ≤ stack.length then .error .recursion else .ok (.key stack [] true)
  | .value (.arr _ :: stack) true, .punct ']' => .ok (put stack (.arr []))
  | .key stack fields _, .str s => .ok (.colon stack fields s)
  | .key stack _ true, .punct '}' => .ok (put stack (.obj []))
  | .colon stack fields key, .punct ':' => .ok (.value (.obj fields key :: stack) false)
  | .next (.arr items) stack, .punct ',' => .ok (.value (.arr items :: stack) false)
  | .next (.arr items) stack, .punct ']' => .ok (put stack (.arr items))
  | .next (.obj fields _) stack, .punct ',' => .ok (.key stack fields false)
  | .next (.obj fields _) stack, .punct '}' => .ok (put stack (.obj fields))
  | _, _ => .error .decode

/-- `json.loads` of a text. -/
def loads (py : Interpreter) (text : String) : Except LoadsError Json := do
  match ← (tokens .idle text.toList).foldlM (parseStep py) (.value [] false) with
  | .done v => return v
  | _ => throw .decode

/-! ## What Python does with a value -/

mutual

/-- How deep the containers of a value are nested. -/
def depth : Json → Nat
  | .arr items => itemsDepth items + 1
  | .obj fields => fieldsDepth fields + 1
  | _ => 0

def itemsDepth : List Json → Nat
  | [] => 0
  | v :: items => max (depth v) (itemsDepth items)

def fieldsDepth : List (PyStr × Json) → Nat
  | [] => 0
  | (_, v) :: fields => max (depth v) (fieldsDepth fields)

end

/-- `str(v)` returns; it would not on a value nested too deep. -/
def Printable (py : Interpreter) (v : Json) : Prop := v.depth ≤ py.maxRepr

instance (py : Interpreter) (v : Json) : Decidable (v.Printable py) := inferInstanceAs (Decidable (_ ≤ _))

/-- `float(v)`; `none` is a ValueError, an OverflowError or a TypeError. -/
def toFloat : Json → Option PyFloat
  | .bool b => some (.decimal false (if b then 1 else 0) 0)
  | .int n => PyFloat.ofInt n
  | .float x => some x
  | .str s => PyFloat.ofStr s
  | .null | .arr _ | .obj _ => none

/-- `fields.get(key, default)` of a dict. -/
def get (fields : List (PyStr × Json)) (key : String) (default : Json) : Json :=
  (Dict.find (.ofString key) fields).getD default

/-- `v.get(key, default)`; only a dict has it. -/
def dictGet (v : Json) (key : String) (default : Json) : Option Json :=
  match v with
  | .obj fields => some (get fields key default)
  | _ => none

/-- `v[key]`. -/
def item (v : Json) (key : String) : Option Json :=
  match v with
  | .obj fields => Dict.find (.ofString key) fields
  | _ => none

def asStr : Json → Option PyStr
  | .str s => some s
  | _ => none

/-- `not v`. -/
def falsy : Json → Bool
  | .null | .bool false | .int 0 | .float (.decimal _ 0 _) | .str [] | .arr [] | .obj [] => true
  | _ => false

/-- The one item of a list. -/
def asSingle : Json → Option Json
  | .arr [v] => some v
  | _ => none

end Json
