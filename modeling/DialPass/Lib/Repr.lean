import DialPass.Lib.Number
/-!
# How Python writes a number

`float.__repr__` writes the shortest digits that round to the float. Up to fifteen digits of a decimal, zeros at the
end apart, are always those, so this is what it writes for such a decimal. The text need not have the decimal's own
mantissa and exponent: what it does have is its value (`literal_value`).
-/

namespace PyFloat

/-- The same float, though perhaps not the same decimal. -/
def Same : PyFloat → PyFloat → Prop
  | .decimal negative m e, .decimal negative' m' e' => negative = negative' ∧ (m : ℚ) * 10 ^ e = m' * 10 ^ e'
  | x, y => x = y

def zeros (n : Nat) : List Char := List.replicate n '0'

def signed (negative : Bool) (digits : List Char) : List Char := if negative then '-' :: digits else digits

/-- A number's digits before and after the point, and its exponent if one is written. -/
structure Literal where
  whole : List Char
  frac : List Char
  exponent : Option Int

/-- The digits but for the zeros at the end; zero has none. -/
def significant (m : Nat) : List Char := (Nat.toDigits 10 m).rdropWhile (· = '0')

/-- Where the point is: the float is 0.d₁d₂… times ten to this. -/
def pointAt (m : Nat) (e : Int) : Int := if m = 0 then 1 else (Nat.toDigits 10 m).length + e

/-- Positional from 0.0001 up to sixteen digits before the point, else with an exponent. -/
def literal (m : Nat) (e : Int) : Literal :=
  let ds := significant m
  let point := pointAt m e
  if -4 < point ∧ point ≤ 16 then
    if point ≤ 0 then ⟨['0'], zeros (-point).toNat ++ ds, none⟩
    else if ds.length ≤ point.toNat then ⟨ds ++ zeros (point.toNat - ds.length), ['0'], none⟩
    else ⟨ds.take point.toNat, ds.drop point.toNat, none⟩
  else ⟨ds.take 1, ds.drop 1, some (point - 1)⟩

/-- A sign and at least two digits. -/
def exponentText (x : Int) : List Char :=
  let ds := Nat.toDigits 10 x.natAbs
  'e' :: (if x < 0 then '-' else '+') :: (if ds.length < 2 then '0' :: ds else ds)

def Literal.text (l : Literal) : List Char :=
  l.whole ++ (if l.frac = [] then [] else '.' :: l.frac) ++ (l.exponent.map exponentText).getD []

/-- `repr(x)`. -/
def repr : PyFloat → List Char
  | .nan => "nan".toList
  | .infinity negative => signed negative "inf".toList
  | .decimal negative m e => signed negative (literal m e).text

/-- The decimal that the text of a float spells. -/
def spelled : PyFloat → PyFloat
  | .decimal negative m e => .ofParts negative (literal m e).whole (literal m e).frac ((literal m e).exponent.getD 0)
  | x => x

example : repr (.decimal false 1250 (-3)) = "1.25".toList ∧ repr (.decimal true 7 0) = "-7.0".toList ∧
    repr (.decimal false 1 (-5)) = "1e-05".toList ∧ repr (.decimal false 0 0) = "0.0".toList := by decide

/-! ## Digits -/

theorem natOfDigits_eq (ds : List Char) : natOfDigits ds = Nat.ofDigitChars 10 ds 0 := rfl

@[simp] theorem natOfDigits_toDigits (n : Nat) : natOfDigits (Nat.toDigits 10 n) = n := by
  rw [natOfDigits_eq, Nat.ofDigitChars_ten_toDigits]

theorem natOfDigits_append_zeros (ds : List Char) (n : Nat) :
    natOfDigits (ds ++ zeros n) = natOfDigits ds * 10 ^ n := by
  rw [natOfDigits_eq, Nat.ofDigitChars_append, zeros, Nat.ofDigitChars_replicate_zero, natOfDigits_eq, mul_comm]

theorem natOfDigits_zeros_append (n : Nat) (ds : List Char) : natOfDigits (zeros n ++ ds) = natOfDigits ds := by
  rw [natOfDigits_eq, Nat.ofDigitChars_append, zeros, Nat.ofDigitChars_replicate_zero, mul_zero, natOfDigits_eq]

theorem isDigit_toDigits (n : Nat) : ∀ c ∈ Nat.toDigits 10 n, c.isDigit = true := fun _ h =>
  Nat.isDigit_of_mem_toDigits (by decide) (by decide) h

theorem isDigit_zeros (n : Nat) : ∀ c ∈ zeros n, c.isDigit = true := fun _ h => by
  rw [List.eq_of_mem_replicate h]
  rfl

/-- What is dropped of the digits is zeros. -/
theorem toDigits_eq_significant (m : Nat) : ∃ k, Nat.toDigits 10 m = significant m ++ zeros k := by
  obtain ⟨t, ht⟩ := List.rdropWhile_prefix (fun c : Char => decide (c = '0')) (Nat.toDigits 10 m)
  have hall : ∀ c ∈ t, c = '0' := by
    have htake : t = (Nat.toDigits 10 m).rtakeWhile (fun c : Char => decide (c = '0')) := by
      have h := List.rdropWhile_append_rtakeWhile (p := fun c : Char => decide (c = '0')) (l := Nat.toDigits 10 m)
      exact List.append_cancel_left (ht.trans h.symm)
    intro c hc
    rw [htake] at hc
    simpa using List.mem_rtakeWhile_imp hc
  exact ⟨t.length, by rw [significant, zeros, ← List.eq_replicate_of_mem hall, ht]⟩

theorem isDigit_significant (m : Nat) : ∀ c ∈ significant m, c.isDigit = true := fun c h =>
  isDigit_toDigits m c ((List.rdropWhile_prefix _ _).subset h)

/-- A number's digits do not begin with a zero. -/
theorem head?_toDigits {m : Nat} (h : m ≠ 0) : (Nat.toDigits 10 m).head? ≠ some '0' := by
  induction m using Nat.strong_induction_on with
  | _ m ih =>
    rw [Nat.toDigits_eq_if (by decide)]
    split
    · simpa using h
    · rw [List.head?_append_of_ne_nil _ Nat.toDigits_ne_nil]
      exact ih (m / 10) (by omega) (by omega)

theorem significant_ne_nil {m : Nat} (h : m ≠ 0) : significant m ≠ [] := by
  obtain ⟨k, hk⟩ := toDigits_eq_significant m
  intro hs
  refine h ?_
  rw [← natOfDigits_toDigits m, hk, hs, natOfDigits_append_zeros]
  simp [natOfDigits]

theorem head?_significant {m : Nat} (h : m ≠ 0) : (significant m).head? ≠ some '0' := by
  obtain ⟨k, hk⟩ := toDigits_eq_significant m
  have hd := head?_toDigits h
  rwa [hk, List.head?_append_of_ne_nil _ (significant_ne_nil h)] at hd

/-! ## What the text is -/

/-- A text that `json` and `float` take for a float. -/
structure Literal.Valid (l : Literal) : Prop where
  whole_ne : l.whole ≠ []
  whole : ∀ c ∈ l.whole, c.isDigit = true
  /-- a zero before the point stands alone -/
  zero : l.whole.head? = some '0' → l.whole = ['0']
  frac : ∀ c ∈ l.frac, c.isDigit = true
  /-- it is not an integer's -/
  float : l.frac ≠ [] ∨ l.exponent ≠ none

theorem literal_valid (m : Nat) (e : Int) : (literal m e).Valid := by
  have hds := isDigit_significant m
  unfold literal
  dsimp only
  split
  · split
    · refine ⟨by simp, by simp, by simp, fun c hc => ?_, .inl fun hnil => ?_⟩
      · rcases List.mem_append.1 hc with hc | hc
        · exact isDigit_zeros _ c hc
        · exact hds c hc
      · rename_i hpoint
        have hm : m ≠ 0 := fun hm => by simp [pointAt, hm] at hpoint
        exact significant_ne_nil hm (List.append_eq_nil_iff.1 hnil).2
    · rename_i hpoint
      split
      · rename_i hlen
        by_cases hm : m = 0
        · have hz : significant m ++ zeros ((pointAt m e).toNat - (significant m).length) = ['0'] := by
            subst hm
            rw [pointAt, if_pos rfl]
            decide
          rw [hz]
          exact ⟨by simp, by simp, by simp, by simp, .inl (by simp)⟩
        · have hne := significant_ne_nil hm
          refine ⟨by simp [hne], fun c hc => ?_, fun h0 => absurd h0 ?_, by simp, .inl (by simp)⟩
          · rcases List.mem_append.1 hc with hc | hc
            · exact hds c hc
            · exact isDigit_zeros _ c hc
          · rw [List.head?_append_of_ne_nil _ hne]
            exact head?_significant hm
      · rename_i hlen
        have hm : m ≠ 0 := fun hm => by
          subst hm
          exact hlen (by rw [show significant 0 = [] by decide]; exact Nat.zero_le _)
        obtain ⟨n, hn⟩ : ∃ n, (pointAt m e).toNat = n + 1 := ⟨(pointAt m e).toNat - 1, by omega⟩
        have hne := significant_ne_nil hm
        have hhead := head?_significant hm
        refine ⟨?_, fun c hc => hds c (List.mem_of_mem_take hc), fun h0 => absurd h0 ?_,
          fun c hc => hds c (List.mem_of_mem_drop hc), .inl ?_⟩
        · rw [hn]
          simpa using hne
        · rw [hn, List.head?_take, if_neg (Nat.succ_ne_zero n)]
          exact hhead
        · rw [ne_eq, List.drop_eq_nil_iff]
          omega
  · rename_i hpoint
    have hm : m ≠ 0 := fun hm => by simp [pointAt, hm] at hpoint
    have hne := significant_ne_nil hm
    have hhead := head?_significant hm
    refine ⟨by simpa using hne, fun c hc => hds c (List.mem_of_mem_take hc), fun h0 => absurd h0 ?_,
      fun c hc => hds c (List.mem_of_mem_drop hc), .inr (by simp)⟩
    rw [List.head?_take, if_neg (Nat.succ_ne_zero 0)]
    exact hhead

/-- A literal's digits are those of the number, perhaps with zeros at the end, and its exponent makes up for them. -/
theorem literal_digits (m : Nat) (e : Int) : ∃ j : Nat,
    natOfDigits ((literal m e).whole ++ (literal m e).frac) = natOfDigits (significant m) * 10 ^ j ∧
      (literal m e).exponent.getD 0 - (literal m e).frac.length = pointAt m e - (significant m).length - j := by
  unfold literal
  dsimp only
  split
  · split
    · refine ⟨0, ?_, ?_⟩
      · rw [List.singleton_append, pow_zero, mul_one]
        exact natOfDigits_zeros_append (_ + 1) _
      · simp only [Option.getD_none, List.length_append, zeros, List.length_replicate]
        push_cast
        omega
    · split
      · refine ⟨(pointAt m e).toNat - (significant m).length + 1, ?_, ?_⟩
        · rw [List.append_assoc]
          have hz : zeros ((pointAt m e).toNat - (significant m).length) ++ ['0'] =
              zeros ((pointAt m e).toNat - (significant m).length + 1) := List.replicate_succ'.symm
          rw [hz, natOfDigits_append_zeros]
        · simp only [Option.getD_none, List.length_singleton]
          omega
      · refine ⟨0, by rw [List.take_append_drop, pow_zero, mul_one], ?_⟩
        simp only [Option.getD_none, List.length_drop]
        omega
  · rename_i hpoint
    have hm : m ≠ 0 := fun hm => by simp [pointAt, hm] at hpoint
    have hlen := List.length_pos_of_ne_nil (significant_ne_nil hm)
    refine ⟨0, by rw [List.take_append_drop, pow_zero, mul_one], ?_⟩
    simp only [Option.getD_some, List.length_drop]
    omega

/-- **`literal_value`**: the text of a decimal spells its value. -/
theorem literal_value (m : Nat) (e : Int) :
    (natOfDigits ((literal m e).whole ++ (literal m e).frac) : ℚ) *
      10 ^ ((literal m e).exponent.getD 0 - (literal m e).frac.length) = m * 10 ^ e := by
  obtain ⟨j, hdigits, hexp⟩ := literal_digits m e
  obtain ⟨k, hk⟩ := toDigits_eq_significant m
  have hten : (10 : ℚ) ≠ 0 := by norm_num
  have hm : m = natOfDigits (significant m) * 10 ^ k := by
    rw [← natOfDigits_append_zeros, ← hk, natOfDigits_toDigits]
  rw [hdigits, hexp]
  by_cases h0 : m = 0
  · have hs : natOfDigits (significant m) = 0 := by
      subst h0
      decide
    rw [hs, h0]
    simp
  · have hlen : (Nat.toDigits 10 m).length = (significant m).length + k := by rw [hk]; simp [zeros]
    have hpoint : pointAt m e - (significant m).length - j = k + e - j := by
      rw [pointAt, if_neg h0, hlen]
      push_cast
      ring
    rw [hpoint]
    calc ((natOfDigits (significant m) * 10 ^ j : Nat) : ℚ) * 10 ^ ((k : Int) + e - j)
        = natOfDigits (significant m) * (10 ^ (j : Int) * 10 ^ ((k : Int) + e - j)) := by push_cast; rw [zpow_natCast]; ring
      _ = natOfDigits (significant m) * 10 ^ ((k : Int) + e) := by rw [← zpow_add₀ hten]; congr 2; ring
      _ = (natOfDigits (significant m) * 10 ^ k : Nat) * 10 ^ e := by
        rw [zpow_add₀ hten]
        push_cast
        rw [zpow_natCast]
        ring
      _ = m * 10 ^ e := by rw [← hm]

theorem spelled_same (x : PyFloat) : Same x.spelled x := by
  cases x with
  | decimal negative m e => exact ⟨rfl, literal_value m e⟩
  | infinity negative => rfl
  | nan => rfl

end PyFloat
