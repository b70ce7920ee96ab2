import Mathlib.Data.List.Basic
import RcpFlext.Library.Decimal

/- Pd and Max atoms as flext hands them to a method, and the C conversions between them
   and bytes. Plain char is signed and 8 bits wide, int is 32 bits wide. -/
namespace Atoms

abbrev Char8 := BitVec 8
abbrev CInt := BitVec 32

def text (chars : List Char) : List Char8 := chars.map fun c => BitVec.ofNat 8 c.toNat

/-- The characters of a C string, without its terminating NUL. -/
structure CString where
  bytes : List Char8
  terminated : ∀ b ∈ bytes, b ≠ 0
  deriving DecidableEq

namespace CString

def empty : CString := ⟨[], by simp⟩

def ofBytes (bytes : List Char8) : CString := ⟨bytes.filter (· ≠ 0), by simp⟩

def first (s : CString) : Char8 := s.bytes.headD 0

def isEmpty (s : CString) : Bool := s.bytes.isEmpty

theorem ext {s t : CString} (same : s.bytes = t.bytes) : s = t := by
  cases s; cases t
  simp_all

theorem ofBytes_bytes {bytes : List Char8} (terminated : ∀ b ∈ bytes, b ≠ 0) :
    (ofBytes bytes).bytes = bytes := by
  simp only [ofBytes, List.filter_eq_self]
  intro b mem
  simpa using terminated b mem

theorem isEmpty_iff (s : CString) : s.isEmpty = true ↔ s = empty := by
  constructor
  · intro none
    exact ext (List.isEmpty_iff.mp none)
  · intro eq
    subst eq
    rfl

end CString

inductive Atom where
  | int (v : CInt)
  | float (f : Binary32.Word)
  | symbol (s : CString)
  | pointer
  deriving DecidableEq

def isFloat : Atom → Bool
  | .float _ => true
  | _ => false

def isInt : Atom → Bool
  | .int _ => true
  | _ => false

def isString : Atom → Bool
  | .symbol _ => true
  | _ => false

def canbeInt (a : Atom) : Bool := isInt a || isFloat a
def canbeFloat (a : Atom) : Bool := isInt a || isFloat a

def getString : Atom → CString
  | .symbol s => s
  | _ => .empty

def getAInt (a : Atom) (default : CInt) : CInt :=
  match a with
  | .int v => v
  | .float f => Binary32.toInt32 f
  | _ => default

def getAFloat (a : Atom) : Binary32.Word :=
  match a with
  | .int v => Binary32.ofInt v.toInt
  | .float f => f
  | _ => 0

/-- `SetInt(a, c)` with a plain char -/
def setChar (c : Char8) : Atom := .int (c.signExtend 32)

/-- `SetInt(a, (unsigned char)c)` -/
def setUChar (c : Char8) : Atom := .int (c.setWidth 32)

def toChar (v : CInt) : Char8 := v.setWidth 8

def IsByte : Atom → Prop
  | .int v => 0 ≤ v.toInt ∧ v.toInt ≤ 255
  | _ => False

instance (a : Atom) : Decidable (IsByte a) := by
  cases a <;> simp only [IsByte] <;> infer_instance

theorem isString_getString {a : Atom} (string : isString a = true) : a = .symbol (getString a) := by
  cases a <;> simp_all [isString, getString]

theorem toChar_setUChar (c : Char8) : toChar (c.setWidth 32) = c := by
  simp [toChar]

theorem setUChar_value (c : Char8) : (c.setWidth 32).toInt = c.toNat := by
  have small := c.isLt
  rw [BitVec.toInt_eq_toNat_of_lt] <;> simp only [BitVec.toNat_setWidth] <;> omega

theorem setChar_value (c : Char8) :
    (c.signExtend 32).toInt = if c.toNat < 128 then (c.toNat : Int) else c.toNat - 256 := by
  rw [BitVec.toInt_signExtend_of_le (by omega), BitVec.toInt_eq_toNat_cond]
  split <;> split <;> omega

theorem setUChar_isByte (c : Char8) : IsByte (setUChar c) := by
  have small := c.isLt
  simp only [IsByte, setUChar, setUChar_value]
  omega

theorem setChar_isByte_iff (c : Char8) : IsByte (setChar c) ↔ c.toNat < 128 := by
  have small := c.isLt
  simp only [IsByte, setChar, setChar_value]
  split <;> omega

theorem setChar_eq_setUChar {c : Char8} (low : c.toNat < 128) : setChar c = setUChar c := by
  have value : (c.signExtend 32).toInt = (c.setWidth 32).toInt := by
    rw [setChar_value, setUChar_value, if_pos low]
  simp only [setChar, setUChar, BitVec.eq_of_toInt_eq value]

end Atoms
