import Mathlib
/-!
# Base64 (RFC 4648)

`decode_encode` is the round trip: three bytes and the four characters that stand for them are one number.
-/

namespace Base64

def alphabet : List Char :=
  "ABCDEFGHIJKLMNOPQRSTUVWXYZabcdefghijklmnopqrstuvwxyz0123456789+/".toList

/-- The character of a 6-bit group. -/
def digit (n : Nat) : Char := alphabet.getD (n % 64) '='

/-- Three bytes make four characters; a rest of one or two is padded. -/
def encode : List UInt8 → List Char
  | [] => []
  | [a] =>
    let n := a.toNat * 16
    [digit (n / 64), digit n, '=', '=']
  | [a, b] =>
    let n := (a.toNat * 256 + b.toNat) * 4
    [digit (n / 4096), digit (n / 64), digit n, '=']
  | a :: b :: c :: rest =>
    let n := (a.toNat * 256 + b.toNat) * 256 + c.toNat
    digit (n / 262144) :: digit (n / 4096) :: digit (n / 64) :: digit n :: encode rest

/-- The 6-bit group a character stands for. -/
def value (c : Char) : Option Nat := alphabet.findIdx? (· = c)

/-- Padding ends the text. -/
def decode : List Char → Option (List UInt8)
  | [] => some []
  | a :: b :: c :: d :: rest =>
    match value a, value b, value c, value d with
    | some x, some y, some z, some w =>
      let n := ((x * 64 + y) * 64 + z) * 64 + w
      (decode rest).map ([UInt8.ofNat (n / 65536), UInt8.ofNat (n / 256), UInt8.ofNat n] ++ ·)
    | some x, some y, some z, none =>
      let n := (x * 64 + y) * 64 + z
      if d = '=' ∧ rest = [] then some [UInt8.ofNat (n / 1024), UInt8.ofNat (n / 4)] else none
    | some x, some y, none, none =>
      if c = '=' ∧ d = '=' ∧ rest = [] then some [UInt8.ofNat ((x * 64 + y) / 16)] else none
    | _, _, _, _ => none
  | _ => none

@[simp] theorem value_digit (n : Nat) : value (digit n) = some (n % 64) := by
  have h : ∀ i < 64, value (alphabet.getD i '=') = some i := by decide
  exact h _ (Nat.mod_lt _ (by decide))

@[simp] theorem value_pad : value '=' = none := by decide

theorem ofNat_eq {n : Nat} {a : UInt8} (h : n % 256 = a.toNat) : UInt8.ofNat n = a := by
  apply UInt8.toNat_inj.1
  rw [UInt8.toNat_ofNat', h]

theorem decode_encode (bs : List UInt8) : decode (encode bs) = some bs := by
  fun_induction encode bs with
  | case1 => rfl
  | case2 a n =>
    have ha := a.toNat_lt
    simp only [decode, value_digit, value_pad, true_and, if_true]
    rw [ofNat_eq (a := a) (by omega)]
  | case3 a b n =>
    have ha := a.toNat_lt
    have hb := b.toNat_lt
    simp only [decode, value_digit, value_pad, true_and, if_true]
    rw [ofNat_eq (a := a) (by omega), ofNat_eq (a := b) (by omega)]
  | case4 a b c rest n ih =>
    have ha := a.toNat_lt
    have hb := b.toNat_lt
    have hc := c.toNat_lt
    simp only [decode, value_digit, ih, Option.map_some]
    rw [ofNat_eq (a := a) (by omega), ofNat_eq (a := b) (by omega), ofNat_eq (a := c) (by omega)]
    rfl

example : String.ofList (encode [0x4d, 0x61, 0x6e, 0x4d, 0x61]) = "TWFuTWE=" := by decide

/-! ## A lenient reader

`binascii.a2b_base64` without `strict_mode`: what is not of the alphabet is passed over, and the padding ends the text
only where it completes a quad. -/

/-- `pos` groups of the quad under way have been read, with `left` left over of the last one, and `pads` since. -/
def b64decodeFrom (pos left pads : Nat) (out : List UInt8) : List Char → Option (List UInt8)
  | [] => if pos = 0 then some out else none
  | c :: cs =>
    if c = '=' then
      if 2 ≤ pos then if 4 ≤ pos + (pads + 1) then some out else b64decodeFrom pos left (pads + 1) out cs
      else b64decodeFrom pos left pads out cs
    else match value c, pos with
      | none, _ => b64decodeFrom pos left pads out cs
      | some x, 0 => b64decodeFrom 1 x 0 out cs
      | some x, 1 => b64decodeFrom 2 (x % 16) 0 (out ++ [UInt8.ofNat (left * 4 + x / 16)]) cs
      | some x, 2 => b64decodeFrom 3 (x % 4) 0 (out ++ [UInt8.ofNat (left * 16 + x / 4)]) cs
      | some x, _ => b64decodeFrom 0 0 0 (out ++ [UInt8.ofNat (left * 64 + x)]) cs

/-- `base64.b64decode` of a `str`, given by its code points; it takes ASCII only. -/
def b64decode (s : List Nat) : Option (List UInt8) :=
  if s.all (· < 128) then b64decodeFrom 0 0 0 [] (s.map Char.ofNat) else none

theorem digit_ne_pad (n : Nat) : digit n ≠ '=' := by
  intro h
  have hv := value_digit n
  rw [h, value_pad] at hv
  exact absurd hv (by simp)

theorem digit_ascii (n : Nat) : (digit n).toNat < 128 := by
  have h : ∀ i < 64, (alphabet.getD i '=').toNat < 128 := by decide +kernel
  exact h _ (Nat.mod_lt _ (by decide))

theorem encode_ascii (bs : List UInt8) : ∀ c ∈ encode bs, c.toNat < 128 := by
  fun_induction encode bs <;> simp_all [digit_ascii]

theorem b64decodeFrom_encode (bs out : List UInt8) : b64decodeFrom 0 0 0 out (encode bs) = some (out ++ bs) := by
  fun_induction encode bs generalizing out with
  | case1 => simp [b64decodeFrom]
  | case2 a n =>
    have ha := a.toNat_lt
    simp only [b64decodeFrom, value_digit, digit_ne_pad, if_true, if_false]
    rw [ofNat_eq (a := a) (by omega)]
    simp
  | case3 a b n =>
    have ha := a.toNat_lt
    have hb := b.toNat_lt
    simp only [b64decodeFrom, value_digit, digit_ne_pad, if_true, if_false]
    rw [ofNat_eq (a := a) (by omega), ofNat_eq (a := b) (by omega)]
    simp
  | case4 a b c rest n ih =>
    have ha := a.toNat_lt
    have hb := b.toNat_lt
    have hc := c.toNat_lt
    simp only [b64decodeFrom, value_digit, digit_ne_pad, if_false, ih]
    rw [ofNat_eq (a := a) (by omega), ofNat_eq (a := b) (by omega), ofNat_eq (a := c) (by omega)]
    simp

theorem b64decode_encode (bs : List UInt8) : b64decode ((encode bs).map Char.toNat) = some bs := by
  have hascii : ((encode bs).map Char.toNat).all (· < 128) = true := by simpa using encode_ascii bs
  have hback : ((encode bs).map Char.toNat).map Char.ofNat = encode bs := by simp [Function.comp_def]
  rw [b64decode, if_pos hascii, hback, b64decodeFrom_encode, List.nil_append]

example : b64decode ("T=W E=".toList.map Char.toNat) = some [0x4d, 0x61] := by decide +kernel

end Base64
