import RcpFlext.BytePorts
import RcpFlext.Datatypes
import RcpFlext.Library.BigEndian

/- rcp.format: the id, type and label messages, and the packets the other inputs become.
   Every packet is written into an array of a hand-computed size at hand-computed offsets. -/
namespace Format
open Atoms Cells BigEndian Datatypes

/-- The numbers `rcp.h` gives the datatypes: one byte each, no two alike. -/
structure DatatypeCodes where
  code : Datatype → Byte
  distinct : Function.Injective code

structure RcpFormat where
  m_id : BitVec 16
  m_type : Datatype
  m_label : CString
  labelOption : List Char8
  deriving DecidableEq

def create (argv : List Atom) : Except String RcpFormat :=
  match argv with
  | [] => .ok ⟨1, .invalid, .empty, []⟩
  | a :: _ =>
    if canbeInt a = false then .error "id needs to be integer"
    else
      let id := getAInt a 0
      if id = 0 then .error "id can not be 0"
      else if 32767 < id.toInt then .error "id is too large"
      else if id.toInt < -32768 then .error "id is too small"
      else .ok ⟨id.setWidth 16, .invalid, .empty, []⟩

def mSetId (f : RcpFormat) (id : CInt) : Except String RcpFormat :=
  if id = 0 then .error "id can not be 0"
  else if 32767 < id.toInt then .error "id is too big"
  else if id.toInt < -32768 then .error "id is too small"
  else .ok { f with m_id := id.setWidth 16 }

def setType (f : RcpFormat) (sym : CString) : RcpFormat := { f with m_type := typeOfName sym }

/-- `written` is what `rcp_option_write` stored in the first `size` chars, or its failure. -/
def setLabel (f : RcpFormat) (p : CString) (written : Option (List Char8)) : RcpFormat :=
  match written with
  | some bytes => { f with m_label := p, labelOption := bytes ++ [0, 0] }
  | none => { f with m_label := p, labelOption := [] }

def clearLabel (f : RcpFormat) : RcpFormat := { f with m_label := .empty }

inductive Message where
  | set (v : CInt)
  | type (sym : CString)
  | label (p : CString) (written : Option (List Char8))
  | clearlabel
  deriving DecidableEq

/-- An id out of range throws before anything is assigned. -/
def Message.apply (f : RcpFormat) : Message → RcpFormat
  | .set v =>
    match mSetId f v with
    | .ok next => next
    | .error _ => f
  | .type sym => setType f sym
  | .label p written => setLabel f p written
  | .clearlabel => clearLabel f

def run (f : RcpFormat) (messages : List Message) : RcpFormat := messages.foldl Message.apply f

/-- What an input does: nothing, one list, or a write outside the array, an overflowing
    int or a size that cannot be allocated. -/
inductive Output where
  | silent
  | list (atoms : List Atom)
  | broken
  deriving DecidableEq

def vector (n : Int) : Option (List Atom) :=
  if 0 ≤ n then some (List.replicate n.toNat .pointer) else none

def intSum (a b : Int) : Option Int :=
  if -2 ^ 31 ≤ a + b ∧ a + b < 2 ^ 31 then some (a + b) else none

def toOutList (n : Int) : Option (List Atom) → Output
  | some list => if n < 2 ^ 31 then .list list else .broken
  | none => .broken

def storeIdToList (id : BitVec 16) (list : List Atom) (o : Int) : Option (List Atom) :=
  pokeAll list o ((store16 id).map setUChar)

def store32ToList (v : BitVec 32) (list : List Atom) (o : Int) : Option (List Atom) :=
  pokeAll list o ((store32 v).map setUChar)

def storeChars (chars : List Char8) (list : List Atom) (o : Int) : Option (List Atom) :=
  pokeAll list o (chars.map setChar)

variable (codes : DatatypeCodes)

def setupValuePacket (id : BitVec 16) (type : Datatype) (list : List Atom) :
    Option (List Atom) := do
  let list ← poke list 0 (setUChar 6)
  let list ← storeIdToList id list 1
  poke list 3 (setUChar (codes.code type))

def setupUpdatePacket (id : BitVec 16) (type : Datatype) (list : List Atom) :
    Option (List Atom) := do
  let list ← poke list 0 (setUChar 4)
  let list ← poke list 1 (setUChar 18)
  let list ← storeIdToList id list 2
  let list ← poke list 4 (setUChar (codes.code type))
  let list ← poke list 5 (setUChar 0)
  poke list 6 (setUChar 32)

def mBang (f : RcpFormat) : Output :=
  match f.m_type with
  | .invalid | .bang =>
    if f.m_label.isEmpty then
      toOutList 4 do
        let list ← vector 4
        setupValuePacket codes f.m_id .bang list
    else
      let n : Int := 6 + f.labelOption.length
      toOutList n do
        let list ← vector n
        let list ← setupUpdatePacket codes f.m_id .bang list
        storeChars f.labelOption list 6
  | _ => .silent

def mSymbol (f : RcpFormat) (v : CString) : Output :=
  match f.m_type with
  | .invalid | .string =>
    let str_len := BitVec.ofNat 32 v.bytes.length
    let str := v.bytes.take str_len.toInt.toNat
    if f.m_label.isEmpty then
      match intSum 8 str_len.toInt with
      | some n => toOutList n do
        let list ← vector n
        let list ← setupValuePacket codes f.m_id .string list
        let list ← store32ToList str_len list 4
        storeChars str list 8
      | none => .broken
    else
      match intSum 11 str_len.toInt with
      | some o =>
        let n := o + f.labelOption.length
        toOutList n do
          let list ← vector n
          let list ← setupUpdatePacket codes f.m_id .string list
          let list ← store32ToList str_len list 7
          let list ← storeChars str list 11
          storeChars f.labelOption list o
      | none => .broken
  | _ => .silent

mutual

def mInt (f : RcpFormat) (v : CInt) : Output :=
  match _type : f.m_type with
  | .invalid | .int32 =>
    if f.m_label.isEmpty then
      toOutList 8 do
        let list ← vector 8
        let list ← setupValuePacket codes f.m_id .int32 list
        store32ToList v list 4
    else
      let n : Int := 11 + f.labelOption.length
      toOutList n do
        let list ← vector n
        let list ← setupUpdatePacket codes f.m_id .int32 list
        let list ← store32ToList v list 7
        storeChars f.labelOption list 11
  | .boolean =>
    let value := setUChar (if 0 < v.toInt then 1 else 0)
    if f.m_label.isEmpty then
      toOutList 5 do
        let list ← vector 5
        let list ← setupValuePacket codes f.m_id .boolean list
        poke list 4 value
    else
      let n : Int := 8 + f.labelOption.length
      toOutList n do
        let list ← vector n
        let list ← setupUpdatePacket codes f.m_id .boolean list
        let list ← poke list 7 value
        storeChars f.labelOption list 8
  | .float32 => mFloat f (Binary32.ofInt v.toInt)
  | .string => mSymbol codes f (.ofBytes (Decimal.signed v.toInt))
  | _ => .silent
termination_by if f.m_type = .float32 then 1 else 0
decreasing_by simp [*]

def mFloat (f : RcpFormat) (v : Binary32.Word) : Output :=
  match _type : f.m_type with
  | .invalid | .float32 =>
    if f.m_label.isEmpty then
      toOutList 8 do
        let list ← vector 8
        let list ← setupValuePacket codes f.m_id .float32 list
        store32ToList v list 4
    else
      let n : Int := 11 + f.labelOption.length
      toOutList n do
        let list ← vector n
        let list ← setupUpdatePacket codes f.m_id .float32 list
        let list ← store32ToList v list 7
        storeChars f.labelOption list 11
  | .int32 | .boolean => mInt f (Binary32.toInt32 v)
  | .string => mSymbol codes f (.ofBytes (Binary32.fixed v))
  | _ => .silent
termination_by if f.m_type = .int32 ∨ f.m_type = .boolean then 1 else 0
decreasing_by all_goals simp [*]

end

inductive Input where
  | bang
  | int (v : CInt)
  | float (v : Binary32.Word)
  | symbol (v : CString)
  deriving DecidableEq

def receive (f : RcpFormat) : Input → Output
  | .bang => mBang codes f
  | .int v => mInt codes f v
  | .float v => mFloat codes f v
  | .symbol v => mSymbol codes f v

end Format
