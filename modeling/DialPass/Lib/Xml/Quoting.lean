import DialPass.Lib.Xml
/-!
# Escaped text: xml.sax.saxutils

What `escape` and `quoteattr` make of a text is read back as that text. Only a carriage return is different: `escape`
leaves it, and the reader makes a line feed of it.
-/

namespace Xml

/-- `escape` replaces one character after the other, `&` first, which comes to one pass. -/
def escapeChar : Char → List Char
  | '&' => "&amp;".toList
  | '<' => "&lt;".toList
  | '>' => "&gt;".toList
  | c => [c]

def escape (s : List Char) : List Char := s.flatMap escapeChar

/-- With the entities `quoteattr` adds. -/
def attrChar : Char → List Char
  | '\n' => "&#10;".toList
  | '\r' => "&#13;".toList
  | '\t' => "&#9;".toList
  | c => escapeChar c

def quoteattr (s : List Char) : List Char :=
  if '"' ∈ s then
    if '\'' ∈ s then ['"'] ++ (s.flatMap fun c => if c = '"' then "&quot;".toList else attrChar c) ++ ['"']
    else ['\''] ++ s.flatMap attrChar ++ ['\'']
  else ['"'] ++ s.flatMap attrChar ++ ['"']

/-! ## Line ends -/

theorem cr_not_mem_escapeChar {c : Char} (h : c ≠ '\r') : '\r' ∉ escapeChar c := by
  unfold escapeChar
  split
  · decide
  · decide
  · decide
  · simpa using h.symm

theorem escape_cons (c : Char) (s : List Char) : escape (c :: s) = escapeChar c ++ escape s := rfl

/-- `escape` puts no line feed in front. -/
theorem eq_of_escape_eq_cons {s t : List Char} (h : escape s = '\n' :: t) : ∃ s', s = '\n' :: s' := by
  cases s with
  | nil => cases h
  | cons c s =>
    rw [escape_cons] at h
    unfold escapeChar at h
    split at h
    · cases h
    · cases h
    · cases h
    · exact ⟨s, by rw [(List.cons.inj h).1]⟩

theorem normalizeLines_escape (s : List Char) : normalizeLines (escape s) = escape (normalizeLines s) := by
  fun_induction normalizeLines s with
  | case1 s ih => simpa [escape, escapeChar, normalizeLines] using ih
  | case2 s hs ih =>
    have hn : ∀ t, escape s = '\n' :: t → False := fun t ht => by
      obtain ⟨s', hs'⟩ := eq_of_escape_eq_cons ht
      exact hs s' hs'
    rw [escape_cons, escape_cons, ← ih]
    exact normalizeLines.eq_2 _ hn
  | case3 d s _ hd ih => rw [escape_cons, normalizeLines_append (cr_not_mem_escapeChar hd), ih, escape_cons]
  | case4 => rfl

theorem cr_not_mem_attrChar (c : Char) : '\r' ∉ attrChar c := by
  unfold attrChar
  split
  · decide
  · decide
  · decide
  · rename_i hcr _
    exact cr_not_mem_escapeChar hcr

theorem cr_not_mem_quoteattr (s : List Char) : '\r' ∉ quoteattr s := by
  have h : '\r' ∉ s.flatMap attrChar := by simp [cr_not_mem_attrChar]
  unfold quoteattr
  split
  · split
    · simp only [List.mem_append, List.mem_flatMap, not_or, not_exists, not_and]
      refine ⟨⟨by decide, fun c hc => ?_⟩, by decide⟩
      split
      · decide
      · exact cr_not_mem_attrChar c
    · simpa using h
  · simpa using h

/-! ## In the text of an element -/

theorem run_escapeChar {c : Char} (hc : isChar c = true) (depth k : Nat) :
    ∃ k', run (depth + 1, .content k) (escapeChar c) = some ((depth + 1, .content k'), [.char c]) := by
  unfold escapeChar
  split
  · exact ⟨0, rfl⟩
  · exact ⟨0, rfl⟩
  · exact ⟨0, rfl⟩
  · rename_i hamp hlt hgt
    exact ⟨_, run_plainChar hc hlt hamp (fun h => hgt h.1) depth⟩

/-- **`run_escape`**: an escaped text is read as the text. -/
theorem run_escape {s : List Char} (hs : ∀ c ∈ s, isChar c = true) (depth k : Nat) :
    ∃ k', run (depth + 1, .content k) (escape s) = some ((depth + 1, .content k'), s.map .char) := by
  induction s generalizing k with
  | nil => exact ⟨k, rfl⟩
  | cons c s ih =>
    obtain ⟨k₁, h₁⟩ := run_escapeChar (hs c List.mem_cons_self) depth k
    obtain ⟨k₂, h₂⟩ := ih (fun d hd => hs d (List.mem_cons_of_mem c hd)) k₁
    refine ⟨k₂, ?_⟩
    rw [escape, List.flatMap_cons, run_append_of h₁, ← escape, h₂]
    rfl

/-! ## In the value of an attribute -/

/-- What `f` writes for a character in a quoted value is read as the character. -/
def Quotes (quote : Char) (f : Char → List Char) (c : Char) : Prop :=
  ∀ depth name as key acc, run (depth, .value name as key quote acc) (f c) =
    some ((depth, .value name as key quote (acc ++ [c])), [])

theorem run_flatMap_quotes {quote : Char} {f : Char → List Char} {s : List Char} (hs : ∀ c ∈ s, Quotes quote f c)
    (depth : Nat) (name : List Char) (as : Attrs) (key acc : List Char) :
    run (depth, .value name as key quote acc) (s.flatMap f) =
      some ((depth, .value name as key quote (acc ++ s)), []) := by
  induction s generalizing acc with
  | nil => simp [run]
  | cons c s ih =>
    rw [List.flatMap_cons, run_append_of (hs c List.mem_cons_self depth name as key acc),
      ih fun d hd => hs d (List.mem_cons_of_mem c hd)]
    simp

/-- A character with no meaning in a value. -/
theorem quotes_self {quote c : Char} (hc : isChar c = true) (hne : c ≠ quote) (hlt : c ≠ '<') (hamp : c ≠ '&')
    (hsp : isSpace c = true → c = ' ') : Quotes quote (fun c => [c]) c := by
  intro depth name as key acc
  have hread : (if isSpace c = true then ' ' else c) = c := by
    split
    · rename_i hs
      exact (hsp hs).symm
    · rfl
  rw [run_singleton, step_of_isChar hc, next, if_neg hne, if_neg hlt, if_neg hamp, hread]

theorem quotes_attrChar {quote c : Char} (hq : quote = '"' ∨ quote = '\'') (hc : isChar c = true) (hne : c ≠ quote) :
    Quotes quote attrChar c := by
  intro depth name as key acc
  unfold attrChar
  split
  · obtain rfl | rfl := hq <;> rfl
  · obtain rfl | rfl := hq <;> rfl
  · obtain rfl | rfl := hq <;> rfl
  · rename_i hlf hcr htab
    unfold escapeChar
    split
    · obtain rfl | rfl := hq <;> rfl
    · obtain rfl | rfl := hq <;> rfl
    · obtain rfl | rfl := hq <;> rfl
    · rename_i hamp hlt hgt
      have hsp : isSpace c = true → c = ' ' := fun hs => by
        simpa [isSpace, show ¬ c = '\t' from htab, show ¬ c = '\n' from hlf, show ¬ c = '\r' from hcr] using hs
      exact quotes_self hc hne hlt hamp hsp depth name as key acc

theorem run_quoted {quote : Char} (hq : quote = '"' ∨ quote = '\'') {f : Char → List Char} {s : List Char}
    (hs : ∀ c ∈ s, Quotes quote f c) (depth : Nat) {name : List Char} {as : Attrs} {key : List Char}
    (hk : key ∉ as.map Prod.fst) :
    run (depth, .attrVal name as key) ([quote] ++ s.flatMap f ++ [quote]) =
      some ((depth, .afterValue name (as ++ [(key, s)])), []) := by
  have hopen : run (depth, .attrVal name as key) [quote] = some ((depth, .value name as key quote []), []) := by
    obtain rfl | rfl := hq <;> rfl
  have hclose : run (depth, .value name as key quote s) [quote] =
      some ((depth, .afterValue name (as ++ [(key, s)])), []) := by
    obtain rfl | rfl := hq <;> simp [run_singleton, step, next, hk] <;> decide
  rw [List.append_assoc, run_append_of hopen, run_append_of (run_flatMap_quotes hs depth name as key []),
    List.nil_append, hclose]
  rfl

/-- **`run_quoteattr`**: a quoted value is read as the value. -/
theorem run_quoteattr {s : List Char} (hs : ∀ c ∈ s, isChar c = true) (depth : Nat) (name : List Char) (as : Attrs)
    (key : List Char) (hk : key ∉ as.map Prod.fst) :
    run (depth, .attrVal name as key) (quoteattr s) = some ((depth, .afterValue name (as ++ [(key, s)])), []) := by
  unfold quoteattr
  split
  · split
    · refine run_quoted (.inl rfl) (fun c hc => ?_) depth hk
      intro depth name as key acc
      beta_reduce
      split
      · rename_i hd
        subst hd
        rfl
      · rename_i hd
        exact quotes_attrChar (.inl rfl) (hs c hc) hd depth name as key acc
    · rename_i hq
      exact run_quoted (.inr rfl)
        (fun c hc => quotes_attrChar (.inr rfl) (hs c hc) fun h => hq (h ▸ hc)) depth hk
  · rename_i hq
    exact run_quoted (.inl rfl) (fun c hc => quotes_attrChar (.inl rfl) (hs c hc) fun h => hq (h ▸ hc)) depth hk

end Xml
