import Mathlib
/-!
# Text as Python has it: white space, `strip`, letters in either case, digits
-/

namespace Text

/-- `str.isspace` of one code point. -/
def isSpaceCode (n : Nat) : Bool :=
  (9 ≤ n ∧ n ≤ 13) ∨ (28 ≤ n ∧ n ≤ 32) ∨ n = 0x85 ∨ n = 0xa0 ∨ n = 0x1680 ∨ (0x2000 ≤ n ∧ n ≤ 0x200a) ∨
    n = 0x2028 ∨ n = 0x2029 ∨ n = 0x202f ∨ n = 0x205f ∨ n = 0x3000

/-- White space; also `\s` of a str pattern. -/
def isSpace (c : Char) : Bool := isSpaceCode c.toNat

/-- `str.strip()`. -/
def strip (s : List Char) : List Char := s.dropWhile isSpace |>.rdropWhile isSpace

/-- What else IGNORECASE takes for an ASCII letter: these lower or fold to it. -/
def otherCases : Char → List Char
  | 'i' => ['\u0130', '\u0131']
  | 's' => ['\u017f']
  | 'k' => ['\u212a']
  | _ => []

/-- An ASCII letter of a pattern, under IGNORECASE. -/
def ignoreCase (l c : Char) : Bool := c.toLower = l.toLower ∨ c ∈ otherCases l.toLower

theorem toLower_of_isSpace {c : Char} (h : isSpace c = true) : c.toLower = c := by
  unfold Char.toLower
  split
  · rename_i hu
    have hA : 'A'.val.toNat = 65 := rfl
    have hZ : 'Z'.val.toNat = 90 := rfl
    have hc : c.val.toNat = c.toNat := rfl
    simp only [isSpace, isSpaceCode, decide_eq_true_eq] at h
    rw [ge_iff_le, UInt32.le_iff_toNat_le, UInt32.le_iff_toNat_le, hA, hZ, hc] at hu
    omega
  · rfl

theorem ignoreCase_iff {l : Char} (h : otherCases l.toLower = []) (c : Char) :
    ignoreCase l c = true ↔ c.toLower = l.toLower := by
  simp [ignoreCase, h]

/-- IGNORECASE takes nothing for a letter that another ASCII letter could be taken for. -/
theorem toLower_of_ignoreCase {l c : Char} (h : ignoreCase l c = true) :
    c.toLower = l.toLower ∨ c ∈ ['\u0130', '\u0131', '\u017f', '\u212a'] := by
  simp only [ignoreCase, decide_eq_true_eq] at h
  refine h.imp_right fun hc => ?_
  unfold otherCases at hc
  split at hc <;> simp only [List.mem_cons, List.not_mem_nil, or_false] at hc ⊢ <;> tauto

theorem dropWhile_append_cons {α : Type*} {p : α → Bool} {c : α} (hc : p c = false) (xs ys : List α) :
    (xs ++ c :: ys).dropWhile p = xs.dropWhile p ++ c :: ys := by
  rw [List.dropWhile_append]
  split
  · rename_i h
    rw [List.isEmpty_iff.1 h, List.dropWhile_cons_of_neg (by simp [hc]), List.nil_append]
  · rfl

theorem rdropWhile_append_cons {α : Type*} {p : α → Bool} {c : α} (hc : p c = false) (xs ys : List α) :
    (xs ++ c :: ys).rdropWhile p = xs ++ c :: ys.rdropWhile p := by
  rw [List.rdropWhile, List.reverse_append, List.reverse_cons, List.append_assoc, List.singleton_append,
    dropWhile_append_cons hc, List.reverse_append, List.reverse_cons, List.reverse_reverse, List.append_assoc,
    List.singleton_append, List.rdropWhile]

/-- Between two characters that are not white space `strip` takes nothing away. -/
theorem strip_around {c d : Char} (hc : isSpace c = false) (hd : isSpace d = false) (xs ys zs : List Char) :
    strip (xs ++ c :: (ys ++ d :: zs)) = xs.dropWhile isSpace ++ c :: (ys ++ d :: zs.rdropWhile isSpace) := by
  rw [strip, dropWhile_append_cons hc, ← List.cons_append, ← List.append_assoc, rdropWhile_append_cons hd,
    List.append_assoc, List.cons_append]

def hexDigit (c : Char) : Option Nat :=
  if c.isDigit then some (c.toNat - 48)
  else if 'a' ≤ c ∧ c ≤ 'f' then some (c.toNat - 87)
  else if 'A' ≤ c ∧ c ≤ 'F' then some (c.toNat - 55)
  else none

/-- `s.find(c)`. -/
def findChar (c : Char) (s : List Char) : Option Nat := s.findIdx? (· = c)

/-- `s.rfind(c)`. -/
def rfindChar (c : Char) (s : List Char) : Option Nat := (s.reverse.findIdx? (· = c)).map (s.length - 1 - ·)

theorem findChar_append {c : Char} {xs : List Char} (h : c ∉ xs) (ys : List Char) :
    findChar c (xs ++ c :: ys) = some xs.length := by
  have hn : xs.findIdx? (· = c) = none := List.findIdx?_eq_none_iff.2 fun x hx => by
    simpa using fun he : x = c => h (he ▸ hx)
  simp [findChar, List.findIdx?_append, hn, List.findIdx?_cons]

theorem rfindChar_append {c : Char} {ys : List Char} (h : c ∉ ys) (xs : List Char) :
    rfindChar c (xs ++ c :: ys) = some xs.length := by
  have hf : findChar c (ys.reverse ++ c :: xs.reverse) = some ys.reverse.length :=
    findChar_append (by simpa using h) xs.reverse
  rw [findChar] at hf
  rw [rfindChar, List.reverse_append, List.reverse_cons, List.append_assoc, List.singleton_append, hf]
  simp

/-- `s.replace(old, new)`, `old` not being empty; `skip` more characters belong to the last match. -/
def replaceFrom (old new : List Char) : Nat → List Char → List Char
  | _, [] => []
  | skip + 1, _ :: s => replaceFrom old new skip s
  | 0, c :: s => if old.isPrefixOf (c :: s) then new ++ replaceFrom old new (old.length - 1) s else c :: replaceFrom old new 0 s

def replace (old new s : List Char) : List Char := replaceFrom old new 0 s

theorem mem_replaceFrom {old new : List Char} {c : Char} (skip : Nat) (s : List Char) (h : c ∈ replaceFrom old new skip s) :
    c ∈ new ∨ c ∈ s := by
  induction s generalizing skip with
  | nil => cases skip <;> simp [replaceFrom] at h
  | cons d s ih =>
    cases skip with
    | succ skip => exact (ih skip h).imp_right (List.mem_cons_of_mem _)
    | zero =>
      rw [replaceFrom] at h
      split at h
      · rcases List.mem_append.1 h with h | h
        · exact .inl h
        · exact (ih _ h).imp_right (List.mem_cons_of_mem _)
      · rcases List.mem_cons.1 h with rfl | h
        · exact .inr List.mem_cons_self
        · exact (ih 0 h).imp_right (List.mem_cons_of_mem _)

theorem mem_replace {old new s : List Char} {c : Char} (h : c ∈ replace old new s) : c ∈ new ∨ c ∈ s :=
  mem_replaceFrom 0 s h

example : replace "http://".toList "ws://".toList "http://a/http://".toList = "ws://a/ws://".toList := by decide

end Text
