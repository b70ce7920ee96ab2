import Mathlib.Algebra.Group.Nat.Defs

/- Big-endian words as bytes. -/
namespace BigEndian

abbrev Byte := BitVec 8

def store16 (v : BitVec 16) : List Byte :=
  [BitVec.ofNat 8 (v.toNat / 2 ^ 8), BitVec.ofNat 8 v.toNat]

def store32 (v : BitVec 32) : List Byte :=
  [BitVec.ofNat 8 (v.toNat / 2 ^ 24), BitVec.ofNat 8 (v.toNat / 2 ^ 16),
    BitVec.ofNat 8 (v.toNat / 2 ^ 8), BitVec.ofNat 8 v.toNat]

def load16 : List Byte → Option (BitVec 16)
  | [a, b] => some (BitVec.ofNat 16 (a.toNat * 2 ^ 8 + b.toNat))
  | _ => none

def load32 : List Byte → Option (BitVec 32)
  | [a, b, c, d] => some (BitVec.ofNat 32
      (a.toNat * 2 ^ 24 + b.toNat * 2 ^ 16 + c.toNat * 2 ^ 8 + d.toNat))
  | _ => none

theorem store16_length (v : BitVec 16) : (store16 v).length = 2 := rfl

theorem store32_length (v : BitVec 32) : (store32 v).length = 4 := rfl

theorem load16_store16 (v : BitVec 16) : load16 (store16 v) = some v := by
  have wide := v.isLt
  simp only [load16, store16, Option.some.injEq]
  apply BitVec.eq_of_toNat_eq
  simp only [BitVec.toNat_ofNat]
  omega

theorem load32_store32 (v : BitVec 32) : load32 (store32 v) = some v := by
  have wide := v.isLt
  simp only [load32, store32, Option.some.injEq]
  apply BitVec.eq_of_toNat_eq
  simp only [BitVec.toNat_ofNat]
  omega

theorem load32_short {bytes : List Byte} (short : bytes.length < 4) : load32 bytes = none := by
  match bytes with
  | [] | [_] | [_, _] | [_, _, _] => rfl
  | _ :: _ :: _ :: _ :: rest =>
    simp only [List.length_cons] at short
    omega

end BigEndian
