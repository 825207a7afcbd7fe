import DialPass.Lib.Text
/-!
# URLs and their queries: urllib.parse

What a server makes of a URL: the fragment is not sent, what follows the first `?` is the query, and its pairs are
unquoted (`parse_qsl`). `unquotePlus_eq_self` says which values may be written unquoted, and `param_eq_iff` which of
them arrive.
-/

namespace Url

open Text

/-! ## UTF-8, as `bytes.decode(errors="replace")` reads it -/

/-- A sequence that has begun: its value so far, how many bytes it needs, and the bounds of the next. -/
structure Sequence where
  value : Nat
  need : Nat
  low : Nat
  high : Nat

def replacement : Char := '\ufffd'

/-- The first byte of a sequence, with the characters that are complete. -/
def first (b : Nat) : Option Sequence × List Char :=
  if b < 0x80 then (none, [Char.ofNat b])
  else if 0xc2 ≤ b ∧ b ≤ 0xdf then (some ⟨b - 0xc0, 1, 0x80, 0xbf⟩, [])
  else if 0xe0 ≤ b ∧ b ≤ 0xef then
    (some ⟨b - 0xe0, 2, if b = 0xe0 then 0xa0 else 0x80, if b = 0xed then 0x9f else 0xbf⟩, [])
  else if 0xf0 ≤ b ∧ b ≤ 0xf4 then
    (some ⟨b - 0xf0, 3, if b = 0xf0 then 0x90 else 0x80, if b = 0xf4 then 0x8f else 0xbf⟩, [])
  else (none, [replacement])

def decodeByte : Option Sequence → Nat → Option Sequence × List Char
  | none, b => first b
  | some s, b =>
    if s.low ≤ b ∧ b ≤ s.high then
      let value := 64 * s.value + (b - 0x80)
      if s.need = 1 then (none, [Char.ofNat value]) else (some ⟨value, s.need - 1, 0x80, 0xbf⟩, [])
    -- what there is of the sequence is one error
    else ((first b).1, replacement :: (first b).2)

/-- Where the bytes end. -/
def flush : Option Sequence → List Char
  | none => []
  | some _ => [replacement]

/-! ## Quoted text -/

/-- `unquote`, after the bytes of a sequence. -/
def unquoteFrom : Option Sequence → List Char → List Char
  | p, '%' :: h :: l :: s =>
    match hexDigit h, hexDigit l with
    | some h', some l' =>
      (decodeByte p (16 * h' + l')).2 ++ unquoteFrom (decodeByte p (16 * h' + l')).1 s
    | _, _ => flush p ++ '%' :: unquoteFrom none (h :: l :: s)
  | p, c :: s => flush p ++ c :: unquoteFrom none s
  | p, [] => flush p

/-- Where a pair is read. -/
def unquotePlus (s : List Char) : List Char := unquoteFrom none (s.map fun c => if c = '+' then ' ' else c)

def hasEscape : List Char → Bool
  | '%' :: h :: l :: s => (hexDigit h).isSome && (hexDigit l).isSome || hasEscape (h :: l :: s)
  | _ :: s => hasEscape s
  | [] => false

theorem length_first (b : Nat) : ((first b).2 ++ flush (first b).1).length ≤ 1 := by
  unfold first
  split_ifs <;> simp [flush]

/-- A byte makes at most one character, at once or later. -/
theorem length_decodeByte (p : Option Sequence) (b : Nat) :
    ((decodeByte p b).2 ++ flush (decodeByte p b).1).length ≤ (flush p).length + 1 := by
  have := length_first b
  cases p with
  | none => simpa [decodeByte, flush] using this
  | some s =>
    simp only [decodeByte]
    split_ifs <;> simp_all [flush]

theorem length_unquoteFrom_le (p : Option Sequence) (s : List Char) :
    (unquoteFrom p s).length ≤ (flush p).length + s.length := by
  fun_induction unquoteFrom p s with
  | case1 p h l s h' l' _ _ ih =>
    have := length_decodeByte p (16 * h' + l')
    simp only [List.length_append, List.length_cons] at *
    omega
  | case2 p h l s _ ih => simpa [flush] using ih
  | case3 p c s _ ih => simpa [flush] using ih
  | case4 p => simp

theorem hasEscape_cons_of_none {h l : Char} {s : List Char}
    (hn : ∀ h' l', hexDigit h = some h' → hexDigit l = some l' → False) :
    hasEscape ('%' :: h :: l :: s) = hasEscape (h :: l :: s) := by
  rw [hasEscape]
  cases hh : hexDigit h with
  | none => rfl
  | some h' =>
    cases hl : hexDigit l with
    | none => rfl
    | some l' => exact absurd hl fun hl => hn h' l' hh hl

/-- An escape is three characters. -/
theorem length_unquoteFrom_lt (p : Option Sequence) {s : List Char} (he : hasEscape s = true) :
    (unquoteFrom p s).length < (flush p).length + s.length := by
  fun_induction unquoteFrom p s with
  | case1 p h l s h' l' _ _ ih =>
    have h₁ := length_decodeByte p (16 * h' + l')
    have h₂ := length_unquoteFrom_le (decodeByte p (16 * h' + l')).1 s
    simp only [List.length_append, List.length_cons] at *
    omega
  | case2 p h l s hn ih =>
    rw [hasEscape_cons_of_none hn] at he
    simpa [flush] using ih he
  | case3 p c s hc ih =>
    rw [hasEscape] at he
    · simpa [flush] using ih he
    · exact hc
  | case4 p => cases he

theorem unquoteFrom_eq_self {p : Option Sequence} {s : List Char} (he : hasEscape s = false) :
    unquoteFrom p s = flush p ++ s := by
  fun_induction unquoteFrom p s with
  | case1 p h l s h' l' hh hl ih => simp [hasEscape, hh, hl] at he
  | case2 p h l s hn ih =>
    rw [hasEscape_cons_of_none hn] at he
    rw [ih he]
    rfl
  | case3 p c s hc ih =>
    rw [hasEscape] at he
    · rw [ih he]
      rfl
    · exact hc
  | case4 p => rw [List.append_nil]

/-- **`unquotePlus_eq_self`**: the texts that are read as they stand. -/
theorem unquotePlus_eq_self {s : List Char} : unquotePlus s = s ↔ '+' ∉ s ∧ hasEscape s = false := by
  constructor
  · intro h
    have hesc : hasEscape (s.map fun c => if c = '+' then ' ' else c) = false := by
      by_contra he
      have := length_unquoteFrom_lt none (Bool.not_eq_false _ ▸ he)
      rw [← unquotePlus, h] at this
      simp [flush] at this
    have hmap : s.map (fun c => if c = '+' then ' ' else c) = s := by
      rwa [unquotePlus, unquoteFrom_eq_self hesc] at h
    refine ⟨fun hp => ?_, hmap ▸ hesc⟩
    rw [← hmap] at hp
    obtain ⟨c, -, hc⟩ := List.mem_map.1 hp
    split_ifs at hc with hplus
    · cases hc
    · exact hplus hc
  · rintro ⟨hp, he⟩
    have hmap : s.map (fun c => if c = '+' then ' ' else c) = s := by
      conv_rhs => rw [← List.map_id s]
      refine List.map_congr_left fun c hc => if_neg ?_
      rintro rfl
      exact hp hc
    rw [unquotePlus, hmap, unquoteFrom_eq_self he]
    rfl

theorem length_unquotePlus_le (s : List Char) : (unquotePlus s).length ≤ s.length := by
  have := length_unquoteFrom_le none (s.map fun c => if c = '+' then ' ' else c)
  rwa [← unquotePlus, List.length_map, flush, List.length_nil, Nat.zero_add] at this

/-! ## Following a link -/

/-- What a request goes to. -/
def target (url : List Char) : List Char := (url.takeWhile (· ≠ '#')).takeWhile (· ≠ '?')

def query (url : List Char) : List Char := ((url.takeWhile (· ≠ '#')).dropWhile (· ≠ '?')).drop 1

/-- `parse_qsl(keep_blank_values=True)`. -/
def parseQsl (qs : List Char) : List (List Char × List Char) :=
  ((qs.splitOn '&').filter (· ≠ [])).map fun piece =>
    (unquotePlus (piece.takeWhile (· ≠ '=')), unquotePlus ((piece.dropWhile (· ≠ '=')).drop 1))

/-- The last value of a parameter. -/
def param (key url : List Char) : Option (List Char) :=
  ((parseQsl (query url)).reverse.find? (·.1 = key)).map Prod.snd

theorem takeWhile_append_of_not_mem {c : Char} {xs : List Char} (h : c ∉ xs) (ys : List Char) :
    (xs ++ ys).takeWhile (· ≠ c) = xs ++ ys.takeWhile (· ≠ c) :=
  List.takeWhile_append_of_pos fun x hx => by simpa using fun he : x = c => h (he ▸ hx)

theorem dropWhile_append_of_not_mem {c : Char} {xs : List Char} (h : c ∉ xs) (ys : List Char) :
    (xs ++ ys).dropWhile (· ≠ c) = ys.dropWhile (· ≠ c) :=
  List.dropWhile_append_of_pos fun x hx => by simpa using fun he : x = c => h (he ▸ hx)

/-- What is sent of a URL with a query. -/
theorem sent_append {a : List Char} (hf : '#' ∉ a) (q : List Char) :
    (a ++ '?' :: q).takeWhile (· ≠ '#') = a ++ '?' :: q.takeWhile (· ≠ '#') := by
  rw [takeWhile_append_of_not_mem hf, List.takeWhile_cons_of_pos (by decide)]

/-- **`target_eq_iff`**: a query may be put at the end of a URL that has none, and no fragment. -/
theorem target_eq_iff {a q : List Char} : target (a ++ '?' :: q) = a ↔ '?' ∉ a ∧ '#' ∉ a := by
  constructor
  · intro h
    have hall : ∀ c ∈ a, c ≠ '?' ∧ c ≠ '#' := fun c hc => by
      rw [← h, target] at hc
      exact ⟨by simpa using List.mem_takeWhile_imp hc,
        by simpa using List.mem_takeWhile_imp ((List.takeWhile_sublist _).subset hc)⟩
    exact ⟨fun hc => (hall _ hc).1 rfl, fun hc => (hall _ hc).2 rfl⟩
  · rintro ⟨hq, hf⟩
    rw [target, sent_append hf, takeWhile_append_of_not_mem hq, List.takeWhile_cons_of_neg (by decide),
      List.append_nil]

theorem query_append {a q : List Char} (hq : '?' ∉ a) (hf : '#' ∉ a) :
    query (a ++ '?' :: q) = q.takeWhile (· ≠ '#') := by
  rw [query, sent_append hf, dropWhile_append_of_not_mem hq, List.dropWhile_cons_of_neg (by decide), List.drop_one,
    List.tail_cons]

/-- A single pair. -/
theorem parseQsl_pair {key v : List Char} (hkey : '=' ∉ key) (hk : '&' ∉ key) (hv : '&' ∉ v) :
    parseQsl (key ++ '=' :: v) = [(unquotePlus key, unquotePlus v)] := by
  have hamp : '&' ∉ key ++ '=' :: v := by simp [hk, hv]
  rw [parseQsl, List.splitOn_eq_singleton hamp, List.filter_cons_of_pos (by simp), List.filter_nil,
    List.map_singleton, takeWhile_append_of_not_mem hkey, dropWhile_append_of_not_mem hkey,
    List.takeWhile_cons_of_neg (by decide), List.dropWhile_cons_of_neg (by decide), List.append_nil, List.drop_one,
    List.tail_cons]

/-- **`param_eq_iff`**: a value without `&` arrives if all of it is sent and it is read as it stands. -/
theorem param_eq_iff {a key v : List Char} (hq : '?' ∉ a) (hf : '#' ∉ a) (hkey : ∀ c ∈ "#&=".toList, c ∉ key)
    (hplain : unquotePlus key = key) (hv : '&' ∉ v) :
    param key (a ++ '?' :: (key ++ '=' :: v)) = some v ↔ '#' ∉ v ∧ '+' ∉ v ∧ hasEscape v = false := by
  have hquery : query (a ++ '?' :: (key ++ '=' :: v)) = key ++ '=' :: v.takeWhile (· ≠ '#') := by
    rw [query_append hq hf, takeWhile_append_of_not_mem (hkey _ (by decide)), List.takeWhile_cons_of_pos (by decide)]
  have hv' : '&' ∉ v.takeWhile (· ≠ '#') := fun h => hv ((List.takeWhile_sublist _).subset h)
  have hparam : param key (a ++ '?' :: (key ++ '=' :: v)) = some (unquotePlus (v.takeWhile (· ≠ '#'))) := by
    rw [param, hquery, parseQsl_pair (hkey _ (by decide)) (hkey _ (by decide)) hv', hplain]
    simp
  rw [hparam, Option.some_inj]
  constructor
  · intro h
    -- nothing of the value is lost
    have hlen : v.length ≤ (v.takeWhile (· ≠ '#')).length := by
      conv_lhs => rw [← h]
      exact length_unquotePlus_le _
    have hsent : v.takeWhile (· ≠ '#') = v := (List.takeWhile_sublist _).eq_of_length_le hlen
    rw [hsent] at h
    refine ⟨fun hc => ?_, unquotePlus_eq_self.1 h⟩
    rw [List.takeWhile_eq_self_iff] at hsent
    simpa using hsent _ hc
  · rintro ⟨hc, h⟩
    have hsent : v.takeWhile (· ≠ '#') = v := by
      simpa using takeWhile_append_of_not_mem hc []
    rw [hsent, unquotePlus_eq_self.2 h]

end Url
