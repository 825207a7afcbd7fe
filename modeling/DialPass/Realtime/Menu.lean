import DialPass.Lib.Json
import DialPass.Realtime.Verdict
/-!
# The menu decision (realtime/client.py:31-45, client.py:77-91, client.py:121-205)

`menuTurn` is the receive loop of the exchange, `parseVerdict` reads the reply: a JSON object, or a "press N", or
an operator keyword. A reply is a text of code points; what a JSON string holds is a `PyStr`. `isWord` is what `\b`
takes for a character of a word, and `repr` what Python prints for a float, a list or a dict, and for a str in
quotes.
-/

namespace DialPass

open Regex Text

/-- `_VALID_DIGITS` (client.py:37). -/
def validDigits : List Char := "0123456789*#".toList

/-! ## The reply -/

/-- A part of the finished response (client.py:208-212). -/
structure ContentPart where
  type : String
  text : Option String

/-- An event of the menu's socket, by its `type` (client.py:165-174). -/
inductive MenuEvent where
  | error
  | outputTextDelta (delta : String)
  | responseDone (output : List (List ContentPart))
  | other

/-- `_text_from_done` (client.py:208). -/
def textFromDone (output : List (List ContentPart)) : Option String :=
  match output.flatten.find? fun part => part.type = "output_text" ∨ part.type = "text" with
  | some part => part.text
  | none => none

/-- The loop of `_menu_turn` (client.py:163-175), and what `_run` makes of an exchange that raised or timed out. -/
def menuTurn (parts : List String) (raised : Bool) : List MenuEvent → Option String
  | [] => if raised ∨ String.join parts = "" then none else some (String.join parts)
  | .error :: _ => none
  | .outputTextDelta delta :: events => menuTurn (parts ++ [delta]) raised events
  | .responseDone output :: _ => if String.join parts = "" then textFromDone output else some (String.join parts)
  | .other :: events => menuTurn parts raised events

/-! ## Reading it -/

/-- `\d` of a str pattern. -/
def isDecimal (c : Char) : Bool :=
  c.isDigit || (PyFloat.decimalZeros.any fun z => z ≤ c.toNat ∧ c.toNat ≤ z + 9)

def anyWord (ws : List String) : Regex Char := ws.foldr (fun w r => .alt (anyCase w) r) (.one fun _ => false)

/-- `(?:press|dial|key|option|choose|select)\D{0,12}?` (client.py:179). -/
def pressLead : Regex Char :=
  .seq (anyWord ["press", "dial", "key", "option", "choose", "select"]) (lazyUpTo (fun c => !isDecimal c) 12)

/-- `_PRESS_DIGIT.search`: the group `[0-9*#]`. -/
def pressDigit (blob : List Char) : Option (List Char) := search pressLead (.one fun c => c ∈ validDigits) blob

/-- `_KEYWORD_TO_OPERATOR.search` (client.py:176). -/
def keywordToOperator (isWord : Char → Bool) (blob : List Char) : Bool :=
  hasWord isWord (anyWord ["operator", "representative", "agent", "customer service", "human"]) none blob

section

variable (py : Interpreter) (isWord : Char → Bool) (repr : Json → PyStr)

/-- `str(v)`. -/
def pyStr (v : Json) : Except Json.LoadsError PyStr :=
  if ¬ v.Printable py then .error .recursion
  else
    match v with
    | .str s => .ok s
    | .null => .ok (.ofString "None")
    | .bool b => .ok (.ofString (if b then "True" else "False"))
    | .int n => .ok (.ofString (toString n))
    | v => .ok (repr v)

/-- The object between the first brace and the last, if there is an answer in it (client.py:189-198). A ValueError
that is no JSONDecodeError, and a RecursionError, are not caught. -/
def jsonAnswer (blob : List Char) : Except Json.LoadsError (Option (PyStr × PyStr)) :=
  match findChar '{' blob, rfindChar '}' blob with
  | some start, some stop =>
    if start < stop then
      match Json.loads py (String.ofList ((blob.take (stop + 1)).drop start)) with
      | .ok (.obj fields) => do
        let digit := PyStr.strip (← pyStr py repr (Json.get fields "digit" (.str [])))
        let rationale := PyStr.strip (← pyStr py repr (Json.get fields "rationale" (.str [])))
        if digit ≠ [] ∨ rationale ≠ [] then
          return some (digit, if rationale = [] then .ofChars (blob.take 200) else rationale)
        else return none
      | .ok _ | .error .decode => .ok none
      | .error exc => .error exc
    else .ok none
  | _, _ => .ok none

/-- `_parse_verdict` (client.py:183). -/
def parseVerdict (text : String) : Except Json.LoadsError (PyStr × PyStr) := do
  let blob := strip text.toList
  match ← jsonAnswer py repr blob with
  | some answer => return answer
  | none =>
    match pressDigit blob with
    | some digit => return (.ofChars digit, .ofChars (blob.take 200))
    | none =>
      if keywordToOperator isWord blob then return (.ofString "0", .ofChars (blob.take 200))
      else return ([], .ofChars (blob.take 200))

/-- `choose_menu_digit` (client.py:77) on what the exchange came to. -/
def chooseMenuDigit (reply : Option String) : Except Tier2Error MenuDecision :=
  match reply with
  | none => .error (.unavailable "menu exchange failed (timeout or error)")
  | some text =>
    match parseVerdict py isWord repr text with
    | .error .recursion => .error (.other "RecursionError")
    | .error _ => .error (.other "ValueError")
    | .ok (digits, rationale) =>
      if digits ≠ [] ∧ ¬ (∀ c ∈ digits, c ∈ PyStr.ofChars validDigits) then
        .ok ⟨none, "model returned non-DTMF keys " ++ PyStr.text (repr (.str digits))⟩
      else if 20 < digits.length then .ok ⟨none, "model returned too many keys"⟩
      else .ok ⟨if digits = [] then none else some (PyStr.text digits), PyStr.text rationale⟩

/-! ## A JSON answer wins -/

variable {py} {before inner after : List Char} {fields : List (PyStr × Json)} {digit rationale : PyStr}

theorem pyStr_str (s : PyStr) : pyStr py repr (.str s) = .ok s := by
  have h : (Json.str s).Printable py := Nat.zero_le _
  rw [pyStr, if_neg (not_not.2 h)]

/-- The braces found are the object's own, whatever else is said around it. -/
theorem jsonAnswer_object (hbefore : '{' ∉ before) (hafter : '}' ∉ after)
    (hloads : Json.loads py (String.ofList ('{' :: (inner ++ ['}']))) = .ok (.obj fields))
    (hdigit : Json.get fields "digit" (.str []) = .str digit)
    (hrationale : Json.get fields "rationale" (.str []) = .str rationale)
    (hblank : PyStr.strip digit ≠ [] ∨ PyStr.strip rationale ≠ []) :
    ∃ said, jsonAnswer py repr (strip (before ++ '{' :: (inner ++ '}' :: after))) =
      .ok (some (PyStr.strip digit, said)) := by
  have hb : '{' ∉ before.dropWhile isSpace := fun h => hbefore (List.dropWhile_sublist _ |>.mem h)
  have ha : '}' ∉ after.rdropWhile isSpace := fun h => hafter (List.rdropWhile_prefix _ _ |>.subset h)
  rw [strip_around (by decide) (by decide)]
  generalize before.dropWhile isSpace = b at hb ⊢
  generalize after.rdropWhile isSpace = a at ha ⊢
  have hstart := findChar_append hb (inner ++ '}' :: a)
  have hstop : rfindChar '}' (b ++ '{' :: (inner ++ '}' :: a)) = some (b ++ '{' :: inner).length := by
    have h := rfindChar_append ha (b ++ '{' :: inner)
    rwa [List.append_assoc, List.cons_append] at h
  have hslice : ((b ++ '{' :: (inner ++ '}' :: a)).take ((b ++ '{' :: inner).length + 1)).drop b.length =
      '{' :: (inner ++ ['}']) := by
    have hsplit : b ++ '{' :: (inner ++ '}' :: a) = (b ++ '{' :: inner ++ ['}']) ++ a := by simp
    have hlen : (b ++ '{' :: inner ++ ['}']).length = (b ++ '{' :: inner).length + 1 := List.length_append
    rw [hsplit, List.take_left' hlen]
    simp
  have hlt : b.length < (b ++ '{' :: inner).length := by simp
  simp only [jsonAnswer, hstart, hstop, if_pos hlt, hslice, hloads, hdigit, hrationale, pyStr_str]
  exact ⟨_, if_pos hblank⟩

theorem not_space_of_validDigits {c : Nat} (h : c ∈ PyStr.ofChars validDigits) : isSpaceCode c = false :=
  (show ∀ c ∈ PyStr.ofChars validDigits, isSpaceCode c = false by decide) c h

/-- **`explicitAnswer`**: whatever the model says around its JSON object (no opening brace before it, no closing one
after it), `choose_menu_digit` decides the object's keys, and none if it has none, as long as the keys or the
rationale are not blank. The text fallbacks are not consulted. -/
theorem explicitAnswer {d : String} {r : PyStr} (hkeys : ∀ c ∈ d.toList, c ∈ validDigits) (hlen : d.length ≤ 20)
    (hblank : PyStr.strip (.ofString d) ≠ [] ∨ PyStr.strip r ≠ []) (hbefore : '{' ∉ before) (hafter : '}' ∉ after)
    (hloads : Json.loads py (String.ofList ('{' :: (inner ++ ['}']))) = .ok (.obj fields))
    (hdigit : Json.get fields "digit" (.str []) = .str (.ofString d))
    (hrationale : Json.get fields "rationale" (.str []) = .str r) {events : List MenuEvent} {raised : Bool}
    (hreply : menuTurn [] raised events = some (String.ofList (before ++ '{' :: (inner ++ '}' :: after)))) :
    ∃ o, chooseMenuDigit py isWord repr (menuTurn [] raised events) = .ok o ∧
      o.digits = if d = "" then none else some d := by
  obtain ⟨said, hanswer⟩ := jsonAnswer_object repr hbefore hafter hloads hdigit hrationale hblank
  have hvalid : ∀ c ∈ PyStr.ofString d, c ∈ PyStr.ofChars validDigits := by
    intro c hc
    obtain ⟨x, hx, rfl⟩ := List.mem_map.1 hc
    exact List.mem_map_of_mem (hkeys x hx)
  have hstrip : PyStr.strip (.ofString d) = .ofString d :=
    PyStr.strip_of_forall fun c hc => not_space_of_validDigits (hvalid c hc)
  have hparse : parseVerdict py isWord repr (String.ofList (before ++ '{' :: (inner ++ '}' :: after))) =
      .ok (.ofString d, said) := by
    rw [parseVerdict, String.toList_ofList]
    rw [hanswer, hstrip]
    rfl
  have hshort : ¬ 20 < (PyStr.ofString d).length := by
    rw [PyStr.ofString, List.length_map, String.length_toList]
    exact not_lt.2 hlen
  have hempty : PyStr.ofString d = [] ↔ d = "" := by
    rw [PyStr.ofString, List.map_eq_nil_iff, String.toList_eq_nil_iff]
  rw [hreply]
  simp only [chooseMenuDigit, hparse]
  rw [if_neg (fun h => h.2 hvalid), if_neg hshort]
  refine ⟨_, rfl, ?_⟩
  simp only [hempty, PyStr.text_ofString]

end

/-- The object abstains; before it the model says "press 4", after it "say operator". -/
def chattyReply : List MenuEvent :=
  [.outputTextDelta "press 4. \x7b\"digit\": \"\", \"rationale\"", .outputTextDelta ": \"\x7bnone\x7d\"\x7d or say operator",
    .responseDone []]

theorem chattyReply_abstains : ∃ o, chooseMenuDigit { maxDepth := 990, maxRepr := 990 } Char.isAlphanum (fun _ => [])
    (menuTurn [] false chattyReply) = .ok o ∧ o.digits = none :=
  @explicitAnswer { maxDepth := 990, maxRepr := 990 } Char.isAlphanum (fun _ => []) "press 4. ".toList
    "\"digit\": \"\", \"rationale\": \"\x7bnone\x7d\"".toList " or say operator".toList
    [(.ofString "digit", .str []), (.ofString "rationale", .str (.ofString "\x7bnone\x7d"))] "" (.ofString "\x7bnone\x7d")
    (by simp) (by decide) (.inr (by decide)) (by decide) (by decide) rfl rfl rfl chattyReply false rfl

end DialPass
