import DialPass.Lib.Json
import DialPass.Lib.Repr
/-!
# `json.dumps`

The text that CPython's encoder makes of a value with `ensure_ascii`, for values it has one of: no integer with more
digits than `str` converts, no containers nested deeper than the interpreter's stack.

`loads_dumps` is the round trip. A float comes back as the decimal its text spells, the same float. A str comes back
if no lone surrogate of it stands before another that would make a pair of them: in the text they are one.
-/

namespace Json

open PyFloat

/-! ## The text -/

/-- What stands between the items of a container, and between a key and its value. -/
structure Separators where
  item : List Char
  key : List Char
  item_blanks : ∃ n, item = ',' :: List.replicate n ' '
  key_blanks : ∃ n, key = ':' :: List.replicate n ' '

/-- `json.dumps(v)`. -/
def spaced : Separators := ⟨[',', ' '], [':', ' '], ⟨1, rfl⟩, ⟨1, rfl⟩⟩

/-- `separators=(",", ":")`. -/
def compact : Separators := ⟨[','], [':'], ⟨0, rfl⟩, ⟨0, rfl⟩⟩

def intText (n : Int) : List Char := signed (n < 0) (Nat.toDigits 10 n.natAbs)

def floatText : PyFloat → List Char
  | .nan => "NaN".toList
  | .infinity negative => signed negative "Infinity".toList
  | x => x.repr

/-- Four hexadecimal digits. -/
def hex4 (n : Nat) : List Char := [n / 4096, n / 256, n / 16, n].map fun d => (d % 16).digitChar

def unicodeEscape (n : Nat) : List Char := '\\' :: 'u' :: hex4 n

/-- A code point in a text: what is not printable ASCII is escaped, beyond the first plane as a pair. -/
def escape (c : Nat) : List Char :=
  if c = 34 then ['\\', '"']
  else if c = 92 then ['\\', '\\']
  else if c = 10 then ['\\', 'n']
  else if c = 13 then ['\\', 'r']
  else if c = 9 then ['\\', 't']
  else if c = 8 then ['\\', 'b']
  else if c = 12 then ['\\', 'f']
  else if 32 ≤ c ∧ c ≤ 126 then [Char.ofNat c]
  else if c < 0x10000 then unicodeEscape c
  else unicodeEscape (0xd800 + (c - 0x10000) / 0x400) ++ unicodeEscape (0xdc00 + (c - 0x10000) % 0x400)

def quote (s : PyStr) : List Char := '"' :: (s.flatMap escape ++ ['"'])

mutual

def text (seps : Separators) : Json → List Char
  | .null => "null".toList
  | .bool true => "true".toList
  | .bool false => "false".toList
  | .int n => intText n
  | .float x => floatText x
  | .str s => quote s
  | .arr items => '[' :: (itemsText seps true items ++ [']'])
  | .obj fields => '{' :: (fieldsText seps true fields ++ ['}'])

def itemsText (seps : Separators) (first : Bool) : List Json → List Char
  | [] => []
  | v :: items => (if first then [] else seps.item) ++ (text seps v ++ itemsText seps false items)

def fieldsText (seps : Separators) (first : Bool) : List (PyStr × Json) → List Char
  | [] => []
  | (key, v) :: fields =>
    (if first then [] else seps.item) ++ (quote key ++ (seps.key ++ (text seps v ++ fieldsText seps false fields)))

end

/-- `json.dumps(v, separators=seps)`. -/
def dumps (seps : Separators) (v : Json) : String := String.ofList (text seps v)

/-! ## What comes back -/

mutual

/-- The value that the text of a value spells. -/
def spelled : Json → Json
  | .float x => .float x.spelled
  | .arr items => .arr (itemsSpelled items)
  | .obj fields => .obj (fieldsSpelled fields)
  | v => v

def itemsSpelled : List Json → List Json
  | [] => []
  | v :: items => spelled v :: itemsSpelled items

def fieldsSpelled : List (PyStr × Json) → List (PyStr × Json)
  | [] => []
  | (key, v) :: fields => (key, spelled v) :: fieldsSpelled fields

end

def isHigh (c : Nat) : Prop := 0xd800 ≤ c ∧ c ≤ 0xdbff

def isLow (c : Nat) : Prop := 0xdc00 ≤ c ∧ c ≤ 0xdfff

/-- A str of code points, no two of them the halves of a pair. -/
structure Paired (s : PyStr) : Prop where
  code : ∀ c ∈ s, c < 0x110000
  chain : s.IsChain fun a b => ¬ (isHigh a ∧ isLow b)

/-- A text of `Char`s has no surrogates. -/
theorem paired_ofString (s : String) : Paired (.ofString s) := by
  have hvalid : ∀ x ∈ PyStr.ofString s, x < 0xd800 ∨ 0xdfff < x ∧ x < 0x110000 := fun x hx => by
    obtain ⟨c, -, rfl⟩ := List.mem_map.1 hx
    exact c.valid
  refine ⟨fun c hc => ?_, (List.pairwise_of_forall_mem_list fun a ha b _ hn => ?_).isChain⟩
  · have hx := hvalid c hc
    omega
  · have ha := hvalid a ha
    unfold isHigh at hn
    omega

mutual

/-- A value that its text spells; the keys of a dict are distinct. -/
def Writable (py : Interpreter) : Json → Prop
  | .int n => (Nat.toDigits 10 n.natAbs).length ≤ py.maxDigits
  | .str s => Paired s
  | .arr items => ItemsWritable py items
  | .obj fields => (fields.map Prod.fst).Nodup ∧ FieldsWritable py fields
  | .null | .bool _ | .float _ => True

def ItemsWritable (py : Interpreter) : List Json → Prop
  | [] => True
  | v :: items => Writable py v ∧ ItemsWritable py items

def FieldsWritable (py : Interpreter) : List (PyStr × Json) → Prop
  | [] => True
  | (key, v) :: fields => (Paired key ∧ Writable py v) ∧ FieldsWritable py fields

end

/-! ## Words -/

/-- What follows does not prolong a word. -/
def Stops (rest : List Char) : Prop := ∀ c ∈ rest.head?, isWordChar c = false

theorem stops_cons {c : Char} (h : isWordChar c = false) (rest : List Char) : Stops (c :: rest) := fun d hd => by
  rw [List.head?_cons, Option.mem_some_iff] at hd
  rwa [← hd]

theorem lexStart_of_isWordChar {c : Char} (h : isWordChar c = true) : lexStart c = (.word [c], []) := by
  have hblank : c ∉ [' ', '\t', '\n', '\r'] := fun hc => by
    have hall : ∀ d ∈ [' ', '\t', '\n', '\r'], isWordChar d = false := List.forall_iff_forall_mem.1 (by decide)
    simp [hall c hc] at h
  have hpunct : c ∉ ['{', '}', '[', ']', ':', ','] := fun hc => by
    have hall : ∀ d ∈ ['{', '}', '[', ']', ':', ','], isWordChar d = false :=
      List.forall_iff_forall_mem.1 (by decide)
    simp [hall c hc] at h
  have hquote : c ≠ '"' := fun hc => by
    subst hc
    exact absurd h (by decide)
  rw [lexStart, if_neg hblank, if_neg hpunct, if_neg hquote, if_pos h]

/-- The rest of a word. -/
theorem tokens_word {w : List Char} (hw : ∀ c ∈ w, isWordChar c = true) {rest : List Char} (hr : Stops rest)
    (acc : List Char) : tokens (.word acc) (w ++ rest) = .word (acc.reverse ++ w) :: tokens .idle rest := by
  induction w generalizing acc with
  | nil =>
    cases rest with
    | nil => simp [tokens]
    | cons c rest =>
      have hc : isWordChar c = false := hr c rfl
      simp [tokens, lexStep, hc]
  | cons c w ih =>
    have hc := hw c List.mem_cons_self
    rw [List.cons_append, tokens, lexStep, if_pos hc, List.nil_append,
      ih (fun d hd => hw d (List.mem_cons_of_mem _ hd)), List.reverse_cons, List.append_assoc, List.singleton_append]

theorem tokens_idle_word {w : List Char} (hne : w ≠ []) (hw : ∀ c ∈ w, isWordChar c = true) {rest : List Char}
    (hr : Stops rest) : tokens .idle (w ++ rest) = .word w :: tokens .idle rest := by
  obtain ⟨c, w, rfl⟩ := List.exists_cons_of_ne_nil hne
  rw [List.cons_append, tokens, lexStep, lexStart_of_isWordChar (hw c List.mem_cons_self), List.nil_append,
    tokens_word (fun d hd => hw d (List.mem_cons_of_mem _ hd)) hr]
  rfl

theorem tokens_punct {c : Char} (hc : c ∈ ['{', '}', '[', ']', ':', ',']) (rest : List Char) :
    tokens .idle (c :: rest) = .punct c :: tokens .idle rest := by
  have hblank : c ∉ [' ', '\t', '\n', '\r'] := fun hb => by
    have hall : ∀ d ∈ [' ', '\t', '\n', '\r'], d ∉ ['{', '}', '[', ']', ':', ','] :=
      List.forall_iff_forall_mem.1 (by decide)
    exact hall c hb hc
  rw [tokens, lexStep, lexStart, if_neg hblank, if_pos hc, List.singleton_append]

theorem tokens_blanks (n : Nat) (rest : List Char) :
    tokens .idle (List.replicate n ' ' ++ rest) = tokens .idle rest := by
  induction n with
  | zero => rfl
  | succ n ih => rw [List.replicate_succ, List.cons_append, tokens, lexStep, lexStart, if_pos (by decide), ih]; rfl

/-! ## Strings -/

/-- The UTF-16 units of a code point. -/
def units (c : Nat) : PyStr :=
  if c < 0x10000 then [c] else [0xd800 + (c - 0x10000) / 0x400, 0xdc00 + (c - 0x10000) % 0x400]

theorem hexDigit_digitChar {d : Nat} (h : d < 16) : Text.hexDigit d.digitChar = some d := by
  have hall : ∀ d < 16, Text.hexDigit d.digitChar = some d := by decide
  exact hall d h

theorem tokens_hex {d : Nat} (h : d < 16) (acc : PyStr) (left value : Nat) (rest : List Char) :
    tokens (.hex acc (left + 2) value) (d.digitChar :: rest) = tokens (.hex acc (left + 1) (16 * value + d)) rest := by
  rw [tokens, lexStep, hexDigit_digitChar h]
  rfl

theorem tokens_hex_last {d : Nat} (h : d < 16) (acc : PyStr) (value : Nat) (rest : List Char) :
    tokens (.hex acc 1 value) (d.digitChar :: rest) = tokens (.str ((16 * value + d) :: acc)) rest := by
  rw [tokens, lexStep, hexDigit_digitChar h]
  rfl

theorem tokens_hex4 {n : Nat} (h : n < 0x10000) (acc : PyStr) (rest : List Char) :
    tokens (.hex acc 4 0) (hex4 n ++ rest) = tokens (.str (n :: acc)) rest := by
  have hlt : ∀ k, k % 16 < 16 := fun k => Nat.mod_lt _ (by decide)
  have hn : 16 * (16 * (16 * (16 * 0 + n / 4096 % 16) + n / 256 % 16) + n / 16 % 16) + n % 16 = n := by omega
  rw [hex4, List.map_cons, List.map_cons, List.map_cons, List.map_cons, List.map_nil, List.cons_append,
    List.cons_append, List.cons_append, List.cons_append, List.nil_append, tokens_hex (hlt _), tokens_hex (hlt _),
    tokens_hex (hlt _), tokens_hex_last (hlt _), hn]

theorem tokens_unicodeEscape {n : Nat} (h : n < 0x10000) (acc : PyStr) (rest : List Char) :
    tokens (.str acc) (unicodeEscape n ++ rest) = tokens (.str (n :: acc)) rest := by
  rw [unicodeEscape, List.cons_append, List.cons_append, tokens, tokens]
  exact tokens_hex4 h acc rest

/-- An escaped code point is read as its units. -/
theorem tokens_escape {c : Nat} (h : c < 0x110000) (acc : PyStr) (rest : List Char) :
    tokens (.str acc) (escape c ++ rest) = tokens (.str ((units c).reverse ++ acc)) rest := by
  unfold escape
  by_cases hsmall : c < 0x10000
  · have hu : (units c).reverse ++ acc = c :: acc := by rw [units, if_pos hsmall]; rfl
    rw [hu]
    split_ifs with h34 h92 h10 h13 h9 h8 h12 hplain
    all_goals first | subst c; rfl | skip
    · have hvalid : c.isValidChar := .inl (by omega)
      have hval : (Char.ofNat c).toNat = c := by simp [Char.ofNat, hvalid, Char.ofNatAux, Char.toNat]
      have hq : Char.ofNat c ≠ '"' := fun he => h34 (by rw [← hval, he]; rfl)
      have hb : Char.ofNat c ≠ '\\' := fun he => h92 (by rw [← hval, he]; rfl)
      rw [List.singleton_append, tokens, lexStep, if_neg hq, if_neg hb, if_neg (by omega), hval]
      rfl
    · exact tokens_unicodeEscape hsmall acc rest
  · rw [if_neg (by omega), if_neg (by omega), if_neg (by omega), if_neg (by omega), if_neg (by omega),
      if_neg (by omega), if_neg (by omega), if_neg (by omega), if_neg hsmall, List.append_assoc,
      tokens_unicodeEscape (by omega), tokens_unicodeEscape (by omega), units, if_neg hsmall]
    rfl

theorem tokens_escapes {s : PyStr} (h : ∀ c ∈ s, c < 0x110000) (acc : PyStr) (rest : List Char) :
    tokens (.str acc) (s.flatMap escape ++ rest) = tokens (.str ((s.flatMap units).reverse ++ acc)) rest := by
  induction s generalizing acc with
  | nil => rfl
  | cons c s ih =>
    rw [List.flatMap_cons, List.append_assoc, tokens_escape (h c List.mem_cons_self),
      ih fun d hd => h d (List.mem_cons_of_mem _ hd)]
    simp

/-- The pairs are joined again. -/
theorem joinSurrogates_units {s : PyStr} (h : Paired s) : joinSurrogates (s.flatMap units) = s := by
  induction s with
  | nil => rfl
  | cons c s ih =>
    have hs : Paired s := ⟨fun d hd => h.code d (List.mem_cons_of_mem _ hd), h.chain.tail⟩
    have hc := h.code c List.mem_cons_self
    rw [List.flatMap_cons]
    by_cases hsmall : c < 0x10000
    · rw [units, if_pos hsmall, List.singleton_append]
      cases s with
      | nil => rfl
      | cons d s =>
        obtain ⟨u, us, hus, hu⟩ : ∃ u us, (d :: s).flatMap units = u :: us ∧ ¬ (isHigh c ∧ isLow u) := by
          rw [List.flatMap_cons]
          by_cases hd : d < 0x10000
          · exact ⟨d, s.flatMap units, by rw [units, if_pos hd]; rfl, (List.isChain_cons_cons.1 h.chain).1⟩
          · refine ⟨_, _, by rw [units, if_neg hd]; rfl, fun hn => ?_⟩
            have hlow := hn.2.1
            have hdc := h.code d (by simp)
            omega
        rw [hus, joinSurrogates, if_neg (fun hn => hu ⟨⟨hn.1, hn.2.1⟩, hn.2.2.1, hn.2.2.2⟩), ← hus, ih hs]
    · have hlt : (c - 0x10000) / 0x400 < 0x400 := by omega
      have hmod : (c - 0x10000) % 0x400 < 0x400 := Nat.mod_lt _ (by decide)
      have hjoin : 0x10000 + (c - 0x10000) / 0x400 * 0x400 + (c - 0x10000) % 0x400 = c := by omega
      rw [units, if_neg hsmall]
      generalize (c - 0x10000) / 0x400 = hi at hlt hjoin ⊢
      generalize (c - 0x10000) % 0x400 = lo at hmod hjoin ⊢
      have hpair : 0xd800 ≤ 0xd800 + hi ∧ 0xd800 + hi ≤ 0xdbff ∧ 0xdc00 ≤ 0xdc00 + lo ∧ 0xdc00 + lo ≤ 0xdfff := by
        omega
      rw [List.cons_append, List.cons_append, List.nil_append, joinSurrogates, if_pos hpair, ih hs,
        Nat.add_sub_cancel_left, Nat.add_sub_cancel_left, hjoin]

theorem tokens_quote {s : PyStr} (h : Paired s) (rest : List Char) :
    tokens .idle (quote s ++ rest) = .str s :: tokens .idle rest := by
  rw [quote, List.cons_append, List.append_assoc, tokens]
  have hstart : lexStep .idle '"' = (.str [], []) := by rw [lexStep, lexStart, if_neg (by simp), if_neg (by simp), if_pos rfl]
  rw [hstart, List.nil_append, tokens_escapes h.code, List.append_nil, List.singleton_append, tokens, lexStep,
    if_pos rfl, List.reverse_reverse, joinSurrogates_units h]
  rfl

/-! ## Numbers -/

theorem isWordChar_of_isDigit {c : Char} (h : c.isDigit = true) : isWordChar c = true := by
  simp [isWordChar, Char.isAlphanum, h]

theorem span_digits {ds rest : List Char} (hds : ∀ c ∈ ds, c.isDigit = true)
    (hr : ∀ c ∈ rest.head?, c.isDigit = false) : (ds ++ rest).span Char.isDigit = (ds, rest) := by
  rw [List.span_eq_takeWhile_dropWhile, List.takeWhile_append_of_pos hds, List.dropWhile_append_of_pos hds]
  cases rest with
  | nil => simp
  | cons c rest => simp [hr c rfl]

theorem wholePart_append {ds rest : List Char} (hne : ds ≠ []) (hds : ∀ c ∈ ds, c.isDigit = true)
    (hzero : ds.head? = some '0' → ds = ['0']) (hr : ∀ c ∈ rest.head?, c.isDigit = false) :
    wholePart (ds ++ rest) = some (ds, rest) := by
  obtain ⟨d, ds, rfl⟩ := List.exists_cons_of_ne_nil hne
  by_cases h0 : d = '0'
  · subst h0
    rw [hzero rfl]
    rfl
  · rw [List.cons_append, wholePart, if_pos (hds d List.mem_cons_self), ← List.cons_append, span_digits hds hr]
    exact fun h => h0 h

theorem fractionPart_append {ds rest : List Char} (hds : ∀ c ∈ ds, c.isDigit = true)
    (hr : ∀ c ∈ rest.head?, c.isDigit = false ∧ c ≠ '.') :
    fractionPart ((if ds = [] then [] else '.' :: ds) ++ rest) = (if ds = [] then none else some ds, rest) := by
  by_cases hne : ds = []
  · rw [if_pos hne, if_pos hne, List.nil_append]
    cases rest with
    | nil => rfl
    | cons c rest =>
      rw [fractionPart]
      exact fun cs h => (hr c rfl).2 (List.cons.inj h).1
  · rw [if_neg hne, if_neg hne, List.cons_append, fractionPart, span_digits hds fun c hc => (hr c hc).1]
    exact if_pos hne

theorem exponentPart_text (x : Option Int) :
    exponentPart ((x.map exponentText).getD []) = (x, []) := by
  cases x with
  | none => rfl
  | some x =>
    have hds : ∀ ds : List Char, ds = Nat.toDigits 10 x.natAbs ∨ ds = '0' :: Nat.toDigits 10 x.natAbs →
        (∀ c ∈ ds, c.isDigit = true) ∧ ds ≠ [] ∧ natOfDigits ds = x.natAbs := by
      rintro ds (rfl | rfl)
      · exact ⟨isDigit_toDigits _, Nat.toDigits_ne_nil, natOfDigits_toDigits _⟩
      · refine ⟨List.forall_mem_cons.2 ⟨by decide, isDigit_toDigits _⟩, by simp, ?_⟩
        have h := natOfDigits_zeros_append 1 (Nat.toDigits 10 x.natAbs)
        rw [natOfDigits_toDigits] at h
        exact h
    obtain ⟨hdig, hne, hval⟩ := hds (if (Nat.toDigits 10 x.natAbs).length < 2 then '0' :: Nat.toDigits 10 x.natAbs
      else Nat.toDigits 10 x.natAbs) (by split <;> simp)
    rw [Option.map_some, Option.getD_some, exponentText]
    generalize (if (Nat.toDigits 10 x.natAbs).length < 2 then '0' :: Nat.toDigits 10 x.natAbs
      else Nat.toDigits 10 x.natAbs) = ds at hdig hne hval ⊢
    have hspan : ds.span Char.isDigit = (ds, []) := by simpa using @span_digits ds [] hdig (by simp)
    rw [exponentPart]
    by_cases hx : x < 0
    · simp only [if_pos hx, sign, hspan, true_or, true_and, if_pos hne, hval, ite_true]
      congr 2
      omega
    · simp only [if_neg hx, sign, hspan, true_or, true_and, if_pos hne, hval]
      congr 2
      simp
      omega

/-- A number in its parts, read to the end. -/
theorem number_signed {py : Interpreter} {negative : Bool} {ds whole rest rest' : List Char} {frac : Option (List Char)}
    {exponent : Option Int} (hminus : ds.head? ≠ some '-') (hwhole : wholePart ds = some (whole, rest))
    (hfrac : fractionPart rest = (frac, rest')) (hexp : exponentPart rest' = (exponent, [])) :
    number py (signed negative ds) =
      if frac = none ∧ exponent = none ∧ py.maxDigits < whole.length then .error .digits
      else if frac = none ∧ exponent = none then
        .ok (.int (if negative then -(natOfDigits whole : Int) else natOfDigits whole))
      else .ok (.float (.ofParts negative whole (frac.getD []) (exponent.getD 0))) := by
  cases negative with
  | true => simp [number, signed, hwhole, hfrac, hexp]
  | false =>
    cases ds with
    | nil => simp [wholePart] at hwhole
    | cons d ds =>
      have hd : d ≠ '-' := fun h => hminus (by rw [h]; rfl)
      simp [number, signed, hd, hwhole, hfrac, hexp]

theorem number_intText {py : Interpreter} {n : Int} (h : (Nat.toDigits 10 n.natAbs).length ≤ py.maxDigits) :
    number py (intText n) = .ok (.int n) := by
  have hds := isDigit_toDigits n.natAbs
  have hzero : (Nat.toDigits 10 n.natAbs).head? = some '0' → Nat.toDigits 10 n.natAbs = ['0'] := fun h0 => by
    by_cases hn : n.natAbs = 0
    · rw [hn]
      rfl
    · exact absurd h0 (head?_toDigits hn)
  have hwhole : wholePart (Nat.toDigits 10 n.natAbs) = some (Nat.toDigits 10 n.natAbs, []) := by
    simpa using @wholePart_append _ [] Nat.toDigits_ne_nil hds hzero (by simp)
  have hminus : (Nat.toDigits 10 n.natAbs).head? ≠ some '-' := fun hm =>
    absurd (hds '-' (List.mem_of_head? hm)) (by decide)
  rw [intText, number_signed hminus hwhole rfl rfl, if_neg (by omega), if_pos ⟨rfl, rfl⟩, natOfDigits_toDigits]
  congr 2
  by_cases hn : n < 0
  · rw [decide_eq_true hn, if_pos rfl]
    omega
  · rw [decide_eq_false hn, if_neg Bool.false_ne_true]
    omega

theorem number_literal {py : Interpreter} {negative : Bool} {l : Literal} (h : l.Valid) :
    number py (signed negative l.text) = .ok (.float (.ofParts negative l.whole l.frac (l.exponent.getD 0))) := by
  have hexp : ∀ c ∈ ((l.exponent.map exponentText).getD []).head?, c = 'e' := fun c hc => by
    cases hx : l.exponent with
    | none => simp [hx] at hc
    | some x => simpa [hx, exponentText, eq_comm] using hc
  have hrest : ∀ c ∈ ((if l.frac = [] then [] else '.' :: l.frac) ++ (l.exponent.map exponentText).getD []).head?,
      c.isDigit = false := fun c hc => by
    by_cases hf : l.frac = []
    · rw [if_pos hf, List.nil_append] at hc
      rw [hexp c hc]
      rfl
    · rw [if_neg hf, List.cons_append, List.head?_cons, Option.mem_some_iff] at hc
      rw [← hc]
      rfl
  have hwhole : wholePart l.text = some (l.whole, (if l.frac = [] then [] else '.' :: l.frac) ++
      (l.exponent.map exponentText).getD []) := by
    rw [Literal.text, List.append_assoc]
    exact wholePart_append h.whole_ne h.whole h.zero hrest
  have hfrac := @fractionPart_append l.frac ((l.exponent.map exponentText).getD []) h.frac fun c hc => by
    rw [hexp c hc]
    exact ⟨rfl, by decide⟩
  have hminus : l.text.head? ≠ some '-' := fun hm => by
    rw [Literal.text, List.append_assoc, List.head?_append_of_ne_nil _ h.whole_ne] at hm
    exact absurd (h.whole '-' (List.mem_of_head? hm)) (by decide)
  have hfloat : ¬ ((if l.frac = [] then none else some l.frac) = none ∧ l.exponent = none) := by
    rcases h.float with hf | he
    · simp [hf]
    · exact fun hn => he hn.2
  rw [number_signed hminus hwhole hfrac (exponentPart_text _), if_neg fun hn => hfloat ⟨hn.1, hn.2.1⟩, if_neg hfloat]
  by_cases hf : l.frac = [] <;> simp [hf]

/-! ## Scalars -/

/-- No literal's name begins as a number does. -/
theorem scalar_signed {py : Interpreter} {negative : Bool} {d : Char} {ds : List Char} (hd : d.isDigit = true) :
    scalar py (signed negative (d :: ds)) = number py (signed negative (d :: ds)) := by
  have hne : ∀ w : List Char, w.head?.any Char.isDigit = false →
      (w.head? = some '-' → w.tail.head?.any Char.isDigit = false) → signed negative (d :: ds) ≠ w := by
    rintro w hfirst hsecond rfl
    cases negative with
    | false => simp [signed, hd] at hfirst
    | true => simpa [signed, hd] using hsecond rfl
  rw [scalar, if_neg (hne _ (by decide) (by decide)), if_neg (hne _ (by decide) (by decide)),
    if_neg (hne _ (by decide) (by decide)), if_neg (hne _ (by decide) (by decide)),
    if_neg (hne _ (by decide) (by decide)), if_neg (hne _ (by decide) (by decide))]

theorem isDigit_head_toDigits (n : Nat) : ∃ d ds, Nat.toDigits 10 n = d :: ds ∧ d.isDigit = true := by
  obtain ⟨d, ds, h⟩ := List.exists_cons_of_ne_nil (Nat.toDigits_ne_nil (n := n) (b := 10))
  exact ⟨d, ds, h, isDigit_toDigits n d (by rw [h]; exact List.mem_cons_self)⟩

theorem isDigit_head_text {l : Literal} (h : l.Valid) : ∃ d ds, l.text = d :: ds ∧ d.isDigit = true := by
  obtain ⟨d, ds, hw⟩ := List.exists_cons_of_ne_nil h.whole_ne
  refine ⟨d, _, by rw [Literal.text, hw, List.append_assoc, List.cons_append], h.whole d ?_⟩
  rw [hw]
  exact List.mem_cons_self

theorem scalar_intText {py : Interpreter} {n : Int} (h : (Nat.toDigits 10 n.natAbs).length ≤ py.maxDigits) :
    scalar py (intText n) = .ok (.int n) := by
  obtain ⟨d, ds, hds, hd⟩ := isDigit_head_toDigits n.natAbs
  rw [← number_intText h, intText, hds, scalar_signed hd]

theorem scalar_floatText {py : Interpreter} (x : PyFloat) : scalar py (floatText x) = .ok (.float x.spelled) := by
  cases x with
  | decimal negative m e =>
    obtain ⟨d, ds, hds, hd⟩ := isDigit_head_text (literal_valid m e)
    have hn := @number_literal py negative _ (literal_valid m e)
    rw [hds, ← scalar_signed hd, ← hds] at hn
    exact hn
  | infinity negative => cases negative <;> rfl
  | nan => rfl

theorem isWordChar_signed {negative : Bool} {ds : List Char} (h : ∀ c ∈ ds, isWordChar c = true) :
    ∀ c ∈ signed negative ds, isWordChar c = true := by
  cases negative with
  | false => exact h
  | true => exact List.forall_mem_cons.2 ⟨by decide, h⟩

theorem isWordChar_intText (n : Int) : ∀ c ∈ intText n, isWordChar c = true :=
  isWordChar_signed fun c hc => isWordChar_of_isDigit (isDigit_toDigits _ c hc)

theorem isWordChar_exponentText (x : Int) : ∀ c ∈ exponentText x, isWordChar c = true := by
  have hds : ∀ c ∈ Nat.toDigits 10 x.natAbs, isWordChar c = true := fun c hc =>
    isWordChar_of_isDigit (isDigit_toDigits _ c hc)
  refine List.forall_mem_cons.2 ⟨by decide, List.forall_mem_cons.2 ⟨by split <;> decide, fun c hc => ?_⟩⟩
  split at hc
  · rcases List.mem_cons.1 hc with rfl | hc
    · decide
    · exact hds c hc
  · exact hds c hc

theorem isWordChar_text {l : Literal} (h : l.Valid) : ∀ c ∈ l.text, isWordChar c = true := by
  intro c hc
  rcases List.mem_append.1 hc with hc | hc
  · rcases List.mem_append.1 hc with hc | hc
    · exact isWordChar_of_isDigit (h.whole c hc)
    · split at hc
      · simp at hc
      · rcases List.mem_cons.1 hc with rfl | hc
        · decide
        · exact isWordChar_of_isDigit (h.frac c hc)
  · cases hx : l.exponent with
    | none => simp [hx] at hc
    | some x => exact isWordChar_exponentText x c (by simpa [hx] using hc)

theorem isWordChar_floatText (x : PyFloat) : ∀ c ∈ floatText x, isWordChar c = true := by
  cases x with
  | decimal negative m e => exact isWordChar_signed (isWordChar_text (literal_valid m e))
  | infinity negative => exact isWordChar_signed (List.forall_iff_forall_mem.1 (by decide))
  | nan => exact List.forall_iff_forall_mem.1 (by decide)

theorem signed_ne_nil {negative : Bool} {ds : List Char} (h : ds ≠ []) : signed negative ds ≠ [] := by
  cases negative with
  | false => exact h
  | true => exact List.cons_ne_nil _ _

theorem floatText_ne_nil (x : PyFloat) : floatText x ≠ [] := by
  cases x with
  | decimal negative m e =>
    obtain ⟨d, ds, hds, -⟩ := isDigit_head_text (literal_valid m e)
    exact signed_ne_nil (by rw [hds]; exact List.cons_ne_nil _ _)
  | infinity negative => exact signed_ne_nil (by decide)
  | nan => exact List.cons_ne_nil _ _

/-! ## Values -/

mutual

/-- The tokens of a value's text. -/
def written : Json → List Token
  | .null => [.word "null".toList]
  | .bool true => [.word "true".toList]
  | .bool false => [.word "false".toList]
  | .int n => [.word (intText n)]
  | .float x => [.word (floatText x)]
  | .str s => [.str s]
  | .arr items => .punct '[' :: (itemsWritten true items ++ [Token.punct ']'])
  | .obj fields => .punct '{' :: (fieldsWritten true fields ++ [.punct '}'])

def itemsWritten (first : Bool) : List Json → List Token
  | [] => []
  | v :: items => (if first then [] else [.punct ',']) ++ (written v ++ itemsWritten false items)

def fieldsWritten (first : Bool) : List (PyStr × Json) → List Token
  | [] => []
  | (key, v) :: fields =>
    (if first then [] else [.punct ',']) ++ (.str key :: .punct ':' :: (written v ++ fieldsWritten false fields))

end

theorem tokens_item (seps : Separators) (first : Bool) (rest : List Char) :
    tokens .idle ((if first then [] else seps.item) ++ rest) =
      (if first then [] else [.punct ',']) ++ tokens .idle rest := by
  cases first with
  | true => rfl
  | false =>
    obtain ⟨n, hn⟩ := seps.item_blanks
    rw [if_neg Bool.false_ne_true, if_neg Bool.false_ne_true, hn, List.cons_append, tokens_punct (by simp),
      tokens_blanks]
    rfl

theorem tokens_key (seps : Separators) (rest : List Char) :
    tokens .idle (seps.key ++ rest) = .punct ':' :: tokens .idle rest := by
  obtain ⟨n, hn⟩ := seps.key_blanks
  rw [hn, List.cons_append, tokens_punct (by simp), tokens_blanks]

theorem stops_itemsText (seps : Separators) (items : List Json) {rest : List Char} (hr : Stops rest) :
    Stops (itemsText seps false items ++ rest) := by
  obtain ⟨n, hn⟩ := seps.item_blanks
  cases items with
  | nil => exact hr
  | cons v items =>
    rw [itemsText, if_neg Bool.false_ne_true, hn]
    exact stops_cons (by decide) _

theorem stops_fieldsText (seps : Separators) (fields : List (PyStr × Json)) {rest : List Char} (hr : Stops rest) :
    Stops (fieldsText seps false fields ++ rest) := by
  obtain ⟨n, hn⟩ := seps.item_blanks
  cases fields with
  | nil => exact hr
  | cons p fields =>
    obtain ⟨key, v⟩ := p
    rw [fieldsText, if_neg Bool.false_ne_true, hn]
    exact stops_cons (by decide) _

section

variable {py : Interpreter} (seps : Separators)

mutual

theorem tokens_text : ∀ (v : Json) (rest : List Char), Writable py v → Stops rest →
    tokens .idle (text seps v ++ rest) = written v ++ tokens .idle rest
  | .null, rest, _, hr => by
    rw [text]
    exact tokens_idle_word (by decide) (List.forall_iff_forall_mem.1 (by decide)) hr
  | .bool true, rest, _, hr => by
    rw [text]
    exact tokens_idle_word (by decide) (List.forall_iff_forall_mem.1 (by decide)) hr
  | .bool false, rest, _, hr => by
    rw [text]
    exact tokens_idle_word (by decide) (List.forall_iff_forall_mem.1 (by decide)) hr
  | .int n, rest, _, hr => tokens_idle_word (signed_ne_nil Nat.toDigits_ne_nil) (isWordChar_intText n) hr
  | .float x, rest, _, hr => tokens_idle_word (floatText_ne_nil x) (isWordChar_floatText x) hr
  | .str s, rest, h, _ => tokens_quote h rest
  | .arr items, rest, h, _ => by
    have hclose : Stops (']' :: rest) := stops_cons (by decide) rest
    rw [text, List.cons_append, List.append_assoc, tokens_punct (by simp), List.singleton_append,
      tokens_itemsText true items (']' :: rest) h hclose, tokens_punct (by simp), written]
    simp
  | .obj fields, rest, h, _ => by
    have hclose : Stops ('}' :: rest) := stops_cons (by decide) rest
    rw [text, List.cons_append, List.append_assoc, tokens_punct (by simp), List.singleton_append,
      tokens_fieldsText true fields ('}' :: rest) h.2 hclose, tokens_punct (by simp), written]
    simp

theorem tokens_itemsText : ∀ (first : Bool) (items : List Json) (rest : List Char), ItemsWritable py items →
    Stops rest → tokens .idle (itemsText seps first items ++ rest) = itemsWritten first items ++ tokens .idle rest
  | _, [], _, _, _ => rfl
  | first, v :: items, rest, h, hr => by
    rw [itemsText, List.append_assoc, tokens_item, List.append_assoc,
      tokens_text v _ h.1 (stops_itemsText seps items hr), tokens_itemsText false items rest h.2 hr, itemsWritten]
    simp

theorem tokens_fieldsText : ∀ (first : Bool) (fields : List (PyStr × Json)) (rest : List Char),
    FieldsWritable py fields → Stops rest →
    tokens .idle (fieldsText seps first fields ++ rest) = fieldsWritten first fields ++ tokens .idle rest
  | _, [], _, _, _ => rfl
  | first, (key, v) :: fields, rest, h, hr => by
    rw [fieldsText, List.append_assoc, tokens_item, List.append_assoc, tokens_quote h.1.1, List.append_assoc, tokens_key,
      List.append_assoc, tokens_text v _ h.1.2 (stops_fieldsText seps fields hr),
      tokens_fieldsText false fields rest h.2 hr, fieldsWritten]
    simp

end

end

/-! ## The round trip -/

theorem foldlM_append_ok {α β ε : Type*} {f : β → α → Except ε β} {xs : List α} {s t : β} (h : xs.foldlM f s = .ok t)
    (ys : List α) : (xs ++ ys).foldlM f s = ys.foldlM f t := by
  rw [List.foldlM_append, h]
  rfl

section

variable {py : Interpreter}

mutual

/-- The machine reads a value where it expects one, in whatever containers are open. -/
theorem parse_written : ∀ (v : Json) (stack : List Frame) (first : Bool), Writable py v →
    stack.length + v.depth ≤ py.maxDepth →
    (written v).foldlM (parseStep py) (.value stack first) = .ok (put stack v.spelled)
  | .null, _, _, _, _ => rfl
  | .bool true, _, _, _, _ => rfl
  | .bool false, _, _, _, _ => rfl
  | .int n, stack, first, h, _ => by
    rw [written, List.foldlM_cons, parseStep, scalar_intText h]
    rfl
  | .float x, stack, first, _, _ => by
    rw [written, List.foldlM_cons, parseStep, scalar_floatText]
    rfl
  | .str s, _, _, _, _ => rfl
  | .arr items, stack, first, h, hd => by
    rw [depth] at hd
    have hopen : parseStep py (.value stack first) (.punct '[') = .ok (.value (.arr [] :: stack) true) := by
      rw [parseStep, if_neg (by omega)]
    rw [written, List.foldlM_cons, hopen]
    exact parse_itemsWritten items stack h (by omega)
  | .obj fields, stack, first, h, hd => by
    rw [depth] at hd
    have hopen : parseStep py (.value stack first) (.punct '{') = .ok (.key stack [] true) := by
      rw [parseStep, if_neg (by omega)]
    rw [written, List.foldlM_cons, hopen]
    exact parse_fieldsWritten fields stack h.1 h.2 (by omega)

theorem parse_itemsWritten : ∀ (items : List Json) (stack : List Frame), ItemsWritable py items →
    stack.length + 1 + itemsDepth items ≤ py.maxDepth →
    (itemsWritten true items ++ [Token.punct ']']).foldlM (parseStep py) (.value (.arr [] :: stack) true) =
      .ok (put stack (.arr (itemsSpelled items)))
  | [], _, _, _ => rfl
  | v :: items, stack, h, hd => by
    rw [itemsDepth] at hd
    have hv := parse_written v (.arr [] :: stack) true h.1 (by rw [List.length_cons]; omega)
    rw [itemsWritten, if_pos rfl, List.nil_append, List.append_assoc, foldlM_append_ok hv, itemsSpelled]
    exact parse_moreItems items [v.spelled] stack h.2 (by omega)

theorem parse_moreItems : ∀ (items acc : List Json) (stack : List Frame), ItemsWritable py items →
    stack.length + 1 + itemsDepth items ≤ py.maxDepth →
    (itemsWritten false items ++ [Token.punct ']']).foldlM (parseStep py) (.next (.arr acc) stack) =
      .ok (put stack (.arr (acc ++ itemsSpelled items)))
  | [], acc, stack, _, _ => by
    rw [itemsSpelled, List.append_nil]
    rfl
  | v :: items, acc, stack, h, hd => by
    rw [itemsDepth] at hd
    have hv := parse_written v (.arr acc :: stack) false h.1 (by rw [List.length_cons]; omega)
    have hmore := parse_moreItems items (acc ++ [v.spelled]) stack h.2 (by omega)
    rw [itemsWritten, if_neg Bool.false_ne_true, List.append_assoc, List.singleton_append, List.foldlM_cons,
      List.append_assoc]
    refine (foldlM_append_ok hv _).trans ?_
    rw [List.append_assoc] at hmore
    exact hmore

theorem parse_fieldsWritten : ∀ (fields : List (PyStr × Json)) (stack : List Frame),
    (fields.map Prod.fst).Nodup → FieldsWritable py fields →
    stack.length + 1 + fieldsDepth fields ≤ py.maxDepth →
    (fieldsWritten true fields ++ [Token.punct '}']).foldlM (parseStep py) (.key stack [] true) =
      .ok (put stack (.obj (fieldsSpelled fields)))
  | [], _, _, _, _ => rfl
  | (key, v) :: fields, stack, hnd, h, hd => by
    rw [fieldsDepth] at hd
    rw [List.map_cons, List.nodup_cons] at hnd
    have hv := parse_written v (.obj [] key :: stack) false h.1.2 (by rw [List.length_cons]; omega)
    rw [fieldsWritten, if_pos rfl, List.nil_append, List.cons_append, List.cons_append, List.foldlM_cons,
      List.append_assoc]
    refine (foldlM_append_ok hv _).trans ?_
    rw [fieldsSpelled]
    exact parse_moreFields fields [(key, v.spelled)] key stack (by simpa using hnd) h.2 (by omega)

theorem parse_moreFields : ∀ (fields acc : List (PyStr × Json)) (last : PyStr) (stack : List Frame),
    ((acc ++ fields).map Prod.fst).Nodup → FieldsWritable py fields →
    stack.length + 1 + fieldsDepth fields ≤ py.maxDepth →
    (fieldsWritten false fields ++ [Token.punct '}']).foldlM (parseStep py) (.next (.obj acc last) stack) =
      .ok (put stack (.obj (acc ++ fieldsSpelled fields)))
  | [], acc, _, stack, _, _, _ => by
    rw [fieldsSpelled, List.append_nil]
    rfl
  | (key, v) :: fields, acc, last, stack, hnd, h, hd => by
    rw [fieldsDepth] at hd
    have hv := parse_written v (.obj acc key :: stack) false h.1.2 (by rw [List.length_cons]; omega)
    have hnew : key ∉ acc.map Prod.fst := fun hm => by
      rw [List.map_append, List.map_cons] at hnd
      exact (List.nodup_append.1 hnd).2.2 key hm key List.mem_cons_self rfl
    have hput : put (.obj acc key :: stack) v.spelled = .next (.obj (acc ++ [(key, v.spelled)]) key) stack := by
      rw [put, Dict.place_of_not_mem hnew]
    have hmore := parse_moreFields fields (acc ++ [(key, v.spelled)]) key stack (by simpa using hnd) h.2 (by omega)
    rw [hput] at hv
    rw [fieldsWritten, if_neg Bool.false_ne_true, List.append_assoc, List.singleton_append, List.foldlM_cons,
      List.cons_append, List.cons_append, List.append_assoc]
    refine (foldlM_append_ok hv _).trans ?_
    rw [List.append_assoc] at hmore
    exact hmore

end

/-- **`loads_dumps`**: what `dumps` writes `loads` reads back, whatever separators it was written with. -/
theorem loads_dumps (seps : Separators) {v : Json} (h : Writable py v) (hd : v.depth ≤ py.maxDepth) :
    loads py (dumps seps v) = .ok v.spelled := by
  have htokens : tokens .idle (text seps v) = written v := by
    have ht := tokens_text seps v [] h (fun c hc => by simp at hc)
    rwa [List.append_nil, show tokens .idle [] = [] from rfl, List.append_nil] at ht
  have hparse := parse_written v [] false h (by simpa using hd)
  rw [loads, dumps, String.toList_ofList, htokens, hparse]
  rfl

end

end Json
