import Mathlib.Data.Nat.Digits.Lemmas

/- Decimal text as bytes, and the binary32 words behind it. A finite word stands for
   `significand * 2^scale / 2^150` with its sign; everything below is exact Nat arithmetic. -/
namespace Decimal

abbrev Text := List (BitVec 8)

def Plain (text : Text) : Prop := ∀ b ∈ text, 0 < b.toNat ∧ b.toNat < 128

instance (text : Text) : Decidable (Plain text) :=
  inferInstanceAs (Decidable (∀ b ∈ text, 0 < b.toNat ∧ b.toNat < 128))

theorem plain_append {left right : Text} (hl : Plain left) (hr : Plain right) :
    Plain (left ++ right) := by
  intro b mem
  rcases List.mem_append.mp mem with l | r
  · exact hl b l
  · exact hr b r

theorem plain_cons {b : BitVec 8} {text : Text} (low : 0 < b.toNat ∧ b.toNat < 128)
    (tail : Plain text) : Plain (b :: text) := by
  intro c mem
  rcases List.mem_cons.mp mem with first | later
  · exact first ▸ low
  · exact tail c later

def digit (d : Nat) : BitVec 8 := BitVec.ofNat 8 (48 + d)

theorem digit_plain {d : Nat} (small : d < 10) : 0 < (digit d).toNat ∧ (digit d).toNat < 128 := by
  simp only [digit, BitVec.toNat_ofNat]
  omega

def decimal (n : Nat) : Text :=
  if n = 0 then [digit 0] else (Nat.digits 10 n).reverse.map digit

def signed (v : Int) : Text := if v < 0 then 45 :: decimal v.natAbs else decimal v.natAbs

def padded : Nat → Nat → Text
  | 0, _ => []
  | width + 1, n => padded width (n / 10) ++ [digit (n % 10)]

theorem decimal_plain (n : Nat) : Plain (decimal n) := by
  intro b mem
  unfold decimal at mem
  split at mem
  · simp only [List.mem_singleton] at mem
    subst mem
    exact digit_plain (by omega)
  · simp only [List.mem_map, List.mem_reverse] at mem
    obtain ⟨d, hd, eq⟩ := mem
    subst eq
    exact digit_plain (Nat.digits_lt_base (by omega) hd)

theorem decimal_length_le {n k : Nat} (small : n < 10 ^ k) (some_digit : 0 < k) :
    (decimal n).length ≤ k := by
  unfold decimal
  split
  · exact some_digit
  · rw [List.length_map, List.length_reverse]
    exact Nat.digits_length_le_iff (by omega) n |>.mpr small

theorem signed_plain (v : Int) : Plain (signed v) := by
  unfold signed
  split
  · exact plain_cons (by decide) (decimal_plain _)
  · exact decimal_plain _

theorem signed_length_le {v : Int} {k : Nat} (small : v.natAbs < 10 ^ k) (some_digit : 0 < k) :
    (signed v).length ≤ k + 1 := by
  have digits := decimal_length_le small some_digit
  unfold signed
  split
  · exact Nat.succ_le_succ digits
  · exact Nat.le_succ_of_le digits

theorem padded_plain (width n : Nat) : Plain (padded width n) := by
  induction width generalizing n with
  | zero => intro b mem; simp [padded] at mem
  | succ width ih =>
    refine plain_append (ih (n / 10)) ?_
    intro b mem
    simp only [List.mem_singleton] at mem
    subst mem
    exact digit_plain (Nat.mod_lt _ (by omega))

theorem padded_length (width n : Nat) : (padded width n).length = width := by
  induction width generalizing n with
  | zero => rfl
  | succ width ih => simp [padded, ih]

end Decimal

namespace Binary32
open Decimal

abbrev Word := BitVec 32

def negative (x : Word) : Bool := x.msb
def exponent (x : Word) : Nat := x.toNat / 2 ^ 23 % 256
def fraction (x : Word) : Nat := x.toNat % 2 ^ 23
def significand (x : Word) : Nat := if exponent x = 0 then fraction x else 2 ^ 23 + fraction x
def scale (x : Word) : Nat := max (exponent x) 1

/-- Division rounded to the nearest integer, ties to the even one. -/
def nearest (n d : Nat) : Nat :=
  if 2 * (n % d) < d then n / d
  else if d < 2 * (n % d) then n / d + 1
  else if n / d % 2 = 0 then n / d else n / d + 1

def whole (x : Word) : Nat := significand x * 2 ^ scale x / 2 ^ 150
def truncate (x : Word) : Int := if negative x then -(whole x : Int) else whole x

/-- Conversion to a 32-bit integer; what does not fit is the smallest integer, as the
    x86 conversion instruction gives it. -/
def toInt32 (x : Word) : BitVec 32 :=
  if exponent x < 255 ∧ -2 ^ 31 ≤ truncate x ∧ truncate x < 2 ^ 31 then BitVec.ofInt 32 (truncate x)
  else BitVec.intMin 32

/-- Conversion from an integer. The rounded significand carries into the exponent field. -/
def ofInt (v : Int) : Word :=
  if v = 0 then 0
  else
    let k := v.natAbs.log2
    let m := if k ≤ 23 then v.natAbs * 2 ^ (23 - k) else nearest v.natAbs (2 ^ (k - 23))
    BitVec.ofNat 32 ((if v < 0 then 2 ^ 31 else 0) + (k + 126) * 2 ^ 23 + m)

def millionths (x : Word) : Nat := nearest (significand x * 2 ^ scale x * 10 ^ 6) (2 ^ 150)

def fixed (x : Word) : Text :=
  (if negative x then [45] else []) ++
    (if exponent x = 255 then (if fraction x = 0 then [105, 110, 102] else [110, 97, 110])
    else decimal (millionths x / 10 ^ 6) ++ 46 :: padded 6 (millionths x % 10 ^ 6))

theorem significand_lt (x : Word) : significand x < 2 ^ 24 := by
  have small : fraction x < 2 ^ 23 := Nat.mod_lt _ (by decide)
  unfold significand
  split <;> omega

theorem scale_le (x : Word) : scale x ≤ 255 := by
  have small : exponent x < 256 := Nat.mod_lt _ (by decide)
  unfold scale
  omega

theorem nearest_le (n d : Nat) : nearest n d ≤ n / d + 1 := by
  unfold nearest
  split <;> (try split) <;> (try split) <;> omega

theorem millionths_lt (x : Word) : millionths x < 10 ^ 46 := by
  have factor : significand x * 2 ^ scale x ≤ 2 ^ 24 * 2 ^ 255 :=
    Nat.mul_le_mul (Nat.le_of_lt (significand_lt x)) (Nat.pow_le_pow_right (by decide) (scale_le x))
  have quotient : significand x * 2 ^ scale x * 10 ^ 6 / 2 ^ 150 ≤ 2 ^ 24 * 2 ^ 255 * 10 ^ 6 / 2 ^ 150 :=
    Nat.div_le_div_right (Nat.mul_le_mul_right _ factor)
  have bound := nearest_le (significand x * 2 ^ scale x * 10 ^ 6) (2 ^ 150)
  have constant : 2 ^ 24 * 2 ^ 255 * 10 ^ 6 / 2 ^ 150 + 1 < 10 ^ 46 := by norm_num
  unfold millionths
  omega

theorem fixed_plain (x : Word) : Plain (fixed x) := by
  unfold fixed
  apply plain_append
  · split <;> decide
  · split
    · split <;> decide
    · exact plain_append (decimal_plain _) (plain_cons (by decide) (padded_plain 6 _))

theorem fixed_length_le (x : Word) : (fixed x).length ≤ 48 := by
  have small : millionths x / 10 ^ 6 < 10 ^ 40 := by
    have := millionths_lt x
    omega
  have digits := decimal_length_le small (by omega)
  unfold fixed
  split <;> split <;> (try split) <;>
    simp only [List.length_append, List.length_cons, List.length_nil, padded_length] <;> omega

end Binary32
