import RcpFlext.Atoms

/- The datatypes the objects know, and the letters that name them in messages. -/
namespace Datatypes
open Atoms

inductive Datatype where
  | invalid
  | boolean
  | int32
  | float32
  | string
  | bang
  | group
  | other
  deriving DecidableEq, Repr

def typeOfName (s : CString) : Datatype :=
  if s.first = 102 ∨ s.first = 70 then .float32
  else if s.first = 105 ∨ s.first = 73 then .int32
  else if s.first = 116 ∨ s.first = 84 then .boolean
  else if s.first = 115 ∨ s.first = 83 then .string
  else if s.first = 98 ∨ s.first = 66 then .bang
  else .invalid

end Datatypes
