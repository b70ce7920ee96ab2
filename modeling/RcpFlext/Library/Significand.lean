import RcpFlext.Library.Decimal

/- Which 32-bit integers survive the way through a binary32 word and back: those that are
   24 significant bits and a power of two. -/
namespace Binary32

/-- At most 24 significant bits. -/
def Short (v : Int) : Prop := ∃ m j : Nat, m < 2 ^ 24 ∧ v.natAbs = m * 2 ^ j

theorem nearest_bounds {n d : Nat} (positive : 0 < d) {low high : Nat} (above : low * d ≤ n)
    (below : n < high * d) : low ≤ nearest n d ∧ nearest n d ≤ high := by
  have at_least : low ≤ n / d := (Nat.le_div_iff_mul_le positive).mpr above
  have at_most : n / d < high := (Nat.div_lt_iff_lt_mul positive).mpr below
  unfold nearest
  split
  · omega
  split
  · omega
  split <;> omega

theorem nearest_mul_iff {n d : Nat} (positive : 0 < d) : nearest n d * d = n ↔ d ∣ n := by
  constructor
  · intro same
    exact ⟨nearest n d, by rw [Nat.mul_comm]; exact same.symm⟩
  · intro divides
    have exact_zero : n % d = 0 := Nat.mod_eq_zero_of_dvd divides
    have quotient : nearest n d = n / d := by
      unfold nearest
      rw [exact_zero, if_pos (by omega)]
    rw [quotient]
    exact Nat.div_mul_cancel divides

def rounded (n : Nat) : Nat :=
  if n.log2 ≤ 23 then n * 2 ^ (23 - n.log2) else nearest n (2 ^ (n.log2 - 23))

theorem rounded_bounds {n : Nat} (some_bit : n ≠ 0) :
    2 ^ 23 ≤ rounded n ∧ rounded n ≤ 2 ^ 24 := by
  have low := Nat.log2_self_le some_bit
  have high : n < 2 ^ (n.log2 + 1) := Nat.lt_log2_self
  unfold rounded
  split
  · rename_i few
    have scale : 2 ^ n.log2 * 2 ^ (23 - n.log2) = 2 ^ 23 := by
      rw [← Nat.pow_add]
      congr 1
      omega
    have double : 2 ^ (n.log2 + 1) * 2 ^ (23 - n.log2) = 2 ^ 24 := by
      rw [← Nat.pow_add]
      congr 1
      omega
    constructor
    · rw [← scale]
      exact Nat.mul_le_mul_right _ low
    · rw [← double]
      exact Nat.mul_le_mul_right _ (Nat.le_of_lt high)
  · rename_i many
    apply nearest_bounds (Nat.two_pow_pos _)
    · rw [← Nat.pow_add]
      have : 23 + (n.log2 - 23) = n.log2 := by omega
      rw [this]
      exact low
    · rw [← Nat.pow_add]
      have : 24 + (n.log2 - 23) = n.log2 + 1 := by omega
      rw [this]
      exact high

section
variable {v : Int}

theorem ofInt_eq (some_bit : v ≠ 0) : ofInt v = BitVec.ofNat 32
    ((if v < 0 then 2 ^ 31 else 0) + (v.natAbs.log2 + 126) * 2 ^ 23 + rounded v.natAbs) := by
  rw [ofInt, if_neg some_bit]
  rfl

theorem ofInt_toNat (some_bit : v ≠ 0) (small : v.natAbs.log2 ≤ 31) : (ofInt v).toNat =
    (if v < 0 then 2 ^ 31 else 0) + (v.natAbs.log2 + 126) * 2 ^ 23 + rounded v.natAbs := by
  have bounds := rounded_bounds (Int.natAbs_ne_zero.mpr some_bit)
  rw [ofInt_eq some_bit, BitVec.toNat_ofNat, Nat.mod_eq_of_lt]
  split <;> omega

theorem ofInt_negative (some_bit : v ≠ 0) (small : v.natAbs.log2 ≤ 31) :
    negative (ofInt v) = decide (v < 0) := by
  have bounds := rounded_bounds (Int.natAbs_ne_zero.mpr some_bit)
  rw [negative, BitVec.msb_eq_decide, ofInt_toNat some_bit small]
  by_cases below : v < 0
  · simp only [below, ↓reduceIte, decide_true, decide_eq_true_eq]
    omega
  · simp only [below, ↓reduceIte, decide_false, decide_eq_false_iff_not]
    omega

/-- The value of the stored word, also where the significand has carried. -/
theorem ofInt_product (some_bit : v ≠ 0) (small : v.natAbs.log2 ≤ 31) :
    exponent (ofInt v) < 255 ∧ significand (ofInt v) * 2 ^ scale (ofInt v) =
      rounded v.natAbs * 2 ^ (v.natAbs.log2 + 127) := by
  obtain ⟨low, high⟩ := rounded_bounds (Int.natAbs_ne_zero.mpr some_bit)
  have word := ofInt_toNat some_bit small
  generalize v.natAbs.log2 = k at *
  generalize rounded v.natAbs = m at *
  by_cases carries : m = 2 ^ 24
  · have at_exponent : exponent (ofInt v) = k + 128 := by
      rw [exponent, word]
      split <;> omega
    have at_fraction : fraction (ofInt v) = 0 := by
      rw [fraction, word]
      split <;> omega
    have some_exponent : ¬ k + 128 = 0 := by omega
    have at_scale : max (k + 128) 1 = k + 128 := by omega
    refine ⟨by omega, ?_⟩
    rw [significand, scale, at_exponent, at_fraction, if_neg some_exponent, at_scale, carries]
    rw [← Nat.pow_add, Nat.add_zero, ← Nat.pow_add]
    congr 1
    omega
  · have at_exponent : exponent (ofInt v) = k + 127 := by
      rw [exponent, word]
      split <;> omega
    have at_fraction : fraction (ofInt v) = m - 2 ^ 23 := by
      rw [fraction, word]
      split <;> omega
    have some_exponent : ¬ k + 127 = 0 := by omega
    have at_scale : max (k + 127) 1 = k + 127 := by omega
    have whole_significand : 2 ^ 23 + (m - 2 ^ 23) = m := by omega
    refine ⟨by omega, ?_⟩
    rw [significand, scale, at_exponent, at_fraction, if_neg some_exponent, at_scale,
      whole_significand]

theorem ofInt_whole (some_bit : v ≠ 0) (small : v.natAbs.log2 ≤ 31) : whole (ofInt v) =
    if v.natAbs.log2 ≤ 23 then v.natAbs
    else rounded v.natAbs * 2 ^ (v.natAbs.log2 - 23) := by
  rw [whole, (ofInt_product some_bit small).2]
  apply Nat.div_eq_of_eq_mul_left (Nat.two_pow_pos 150)
  split
  · rename_i few
    have scale : 23 - v.natAbs.log2 + (v.natAbs.log2 + 127) = 150 := by omega
    rw [rounded, if_pos few, Nat.mul_assoc, ← Nat.pow_add, scale]
  · rename_i many
    have scale : v.natAbs.log2 + 127 = v.natAbs.log2 - 23 + 150 := by omega
    rw [Nat.mul_assoc, ← Nat.pow_add, ← scale]

theorem short_iff (some_bit : v ≠ 0) :
    Short v ↔ v.natAbs.log2 ≤ 23 ∨ 2 ^ (v.natAbs.log2 - 23) ∣ v.natAbs := by
  have nonzero := Int.natAbs_ne_zero.mpr some_bit
  have high : v.natAbs < 2 ^ (v.natAbs.log2 + 1) := Nat.lt_log2_self
  constructor
  · intro short
    obtain ⟨m, j, few, eq⟩ := short
    by_cases fits : v.natAbs.log2 ≤ 23
    · exact .inl fits
    · right
      have below : v.natAbs < 2 ^ (24 + j) := by
        rw [eq, Nat.pow_add]
        exact Nat.mul_lt_mul_of_pos_right few (Nat.two_pow_pos j)
      have length : v.natAbs.log2 < 24 + j := (Nat.log2_lt nonzero).mpr below
      have factor : 2 ^ (v.natAbs.log2 - 23) ∣ 2 ^ j := Nat.pow_dvd_pow 2 (by omega)
      rw [eq] at factor ⊢
      exact Nat.dvd_trans factor (Nat.dvd_mul_left _ _)
  · intro bits
    rcases bits with few | divides
    · have below : v.natAbs < 2 ^ 24 :=
        Nat.lt_of_lt_of_le high (Nat.pow_le_pow_right (by decide) (by omega))
      exact ⟨v.natAbs, 0, below, by simp⟩
    · by_cases few : v.natAbs.log2 ≤ 23
      · have below : v.natAbs < 2 ^ 24 :=
          Nat.lt_of_lt_of_le high (Nat.pow_le_pow_right (by decide) (by omega))
        exact ⟨v.natAbs, 0, below, by simp⟩
      · obtain ⟨m, eq⟩ := divides
        refine ⟨m, v.natAbs.log2 - 23, ?_, by rw [Nat.mul_comm]; exact eq⟩
        have split_power : 2 ^ (v.natAbs.log2 + 1) = 2 ^ (v.natAbs.log2 - 23) * 2 ^ 24 := by
          rw [← Nat.pow_add]
          congr 1
          omega
        rw [split_power] at high
        nth_rewrite 1 [eq] at high
        exact Nat.lt_of_mul_lt_mul_left high

theorem truncate_ofInt_iff (small : v.natAbs.log2 ≤ 31) : truncate (ofInt v) = v ↔ Short v := by
  by_cases zero : v = 0
  · subst zero
    exact iff_of_true (by decide) ⟨0, 0, by decide, rfl⟩
  · have sign : truncate (ofInt v) = v ↔ whole (ofInt v) = v.natAbs := by
      rw [truncate, ofInt_negative zero small]
      by_cases below : v < 0
      · simp only [below, decide_true, ↓reduceIte]
        omega
      · simp only [below, decide_false, Bool.false_eq_true, ↓reduceIte]
        omega
    rw [sign, ofInt_whole zero small, short_iff zero]
    by_cases few : v.natAbs.log2 ≤ 23
    · simp only [few, ↓reduceIte, true_or]
    · simp only [few, ↓reduceIte, false_or, rounded]
      exact nearest_mul_iff (Nat.two_pow_pos _)

end

theorem log2_toInt (v : BitVec 32) : v.toInt.natAbs.log2 ≤ 31 := by
  have low := v.le_toInt
  have high := v.toInt_lt
  by_cases zero : v.toInt.natAbs = 0
  · rw [zero]
    decide
  · have below : v.toInt.natAbs < 2 ^ 32 := by omega
    exact Nat.le_of_lt_succ ((Nat.log2_lt zero).mpr below)

theorem ofInt_finite (v : BitVec 32) : exponent (ofInt v.toInt) < 255 := by
  by_cases zero : v.toInt = 0
  · rw [zero]
    decide
  · exact (ofInt_product zero (log2_toInt v)).1

theorem truncate_ofInt_or {v : Int} (small : v.natAbs.log2 ≤ 31) :
    truncate (ofInt v) = v ∨ 2 ^ 24 ≤ v.natAbs ∧ 2 ^ 24 ≤ (truncate (ofInt v)).natAbs := by
  by_cases few : v.natAbs < 2 ^ 24
  · exact .inl ((truncate_ofInt_iff small).mpr ⟨v.natAbs, 0, few, by simp⟩)
  · right
    have zero : v ≠ 0 := by omega
    have many : 24 ≤ v.natAbs.log2 := (Nat.le_log2 (by omega)).mpr (by omega)
    have size : (truncate (ofInt v)).natAbs = whole (ofInt v) := by
      unfold truncate
      split <;> omega
    have low := (rounded_bounds (Int.natAbs_ne_zero.mpr zero)).1
    rw [size, ofInt_whole zero small, if_neg (by omega)]
    refine ⟨by omega, ?_⟩
    calc 2 ^ 24 = 2 ^ 23 * 2 ^ 1 := by decide
      _ ≤ rounded v.natAbs * 2 ^ (v.natAbs.log2 - 23) :=
        Nat.mul_le_mul low (Nat.pow_le_pow_right (by decide) (by omega))

/-- Through a binary32 word and back an int comes through exactly where 24 bits hold it. -/
theorem toInt32_ofInt_iff (v : BitVec 32) : toInt32 (ofInt v.toInt) = v ↔ Short v.toInt := by
  have low := v.le_toInt
  have high := v.toInt_lt
  rw [← truncate_ofInt_iff (log2_toInt v), toInt32]
  have finite := ofInt_finite v
  by_cases fits : -2 ^ 31 ≤ truncate (ofInt v.toInt) ∧ truncate (ofInt v.toInt) < 2 ^ 31
  · rw [if_pos ⟨finite, fits⟩]
    constructor
    · intro same
      have back := congrArg BitVec.toInt same
      rwa [BitVec.toInt_ofInt_eq_self (by decide) (by simpa using fits.1) (by simpa using fits.2)]
        at back
    · intro same
      rw [same, BitVec.ofInt_toInt]
  · rw [if_neg (fun both => fits both.2)]
    constructor
    · intro least
      -- the only int that an overflow turns into is short
      subst least
      exact (truncate_ofInt_iff (log2_toInt _)).mpr ⟨1, 31, by decide, by decide⟩
    · intro same
      rw [same] at fits
      omega

theorem short_of_small {v : Int} (small : v.natAbs < 2 ^ 24) : Short v :=
  ⟨v.natAbs, 0, small, by simp⟩

end Binary32
