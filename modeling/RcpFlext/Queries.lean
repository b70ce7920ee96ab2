import RcpFlext.Reports

/- The replies to `type`, `readonly`, `order`, `value`, `min` and `max`: the word, the path as
   it was sent, and what is said of the parameter there. -/
namespace Queries
open Atoms Datatypes ParameterTree PathLookup Reports

/-- The getters that these read besides those of the reports. The limits are read through
    the parameter here, through its type definition there. -/
structure Getters (S : Type) extends Reports.Getters S where
  readonly : S → Nat → Bool
  order : S → Nat → CInt
  minInt32 : S → Nat → CInt
  maxInt32 : S → Nat → CInt
  minFloat : S → Nat → Binary32.Word
  maxFloat : S → Nat → Binary32.Word

section
variable {S : Type} (rcp : Rcp S) (get : Getters S) (s : S)

def reply (word : List Char) (told : Parameter → Option (List Atom)) (argv : List Atom) :
    Option (List Out) :=
  match getParameter rcp s argv none with
  | some p => (told p).map fun atoms => [.list 3 ([symbol word] ++ argv ++ atoms)]
  | none => some []

def parameterType : List Atom → Option (List Out) :=
  reply rcp s ['t', 'y', 'p', 'e'] fun p => some [typeToString p.type]

def parameterReadonly : List Atom → Option (List Out) :=
  reply rcp s ['r', 'e', 'a', 'd', 'o', 'n', 'l', 'y'] fun p =>
    some [.int (if get.readonly s p.ptr then 1 else 0)]

def parameterOrder : List Atom → Option (List Out) :=
  reply rcp s ['o', 'r', 'd', 'e', 'r'] fun p => some [.int (get.order s p.ptr)]

def parameterValue : List Atom → Option (List Out) :=
  reply rcp s ['v', 'a', 'l', 'u', 'e'] fun p => valueAtoms get.toGetters s p

/-- `parameterMin` and `parameterMax`: nothing is sent for a type definition without the
    option, and a list without a limit where the option is there and the type no number. -/
def limitReply (word : List Char) (has : S → Nat → Bool) (int32 : S → Nat → CInt)
    (float32 : S → Nat → Binary32.Word) (argv : List Atom) : List Out :=
  match getParameter rcp s argv none with
  | some p =>
    if has s p.ptr then
      let limit : List Atom :=
        match p.type with
        | .int32 => [.int (int32 s p.ptr)]
        | .float32 => [.float (float32 s p.ptr)]
        | _ => []
      [.list 3 ([symbol word] ++ argv ++ limit)]
    else []
  | none => []

def parameterMin : List Atom → List Out :=
  limitReply rcp s ['m', 'i', 'n'] get.hasMinimum get.minInt32 get.minFloat

def parameterMax : List Atom → List Out :=
  limitReply rcp s ['m', 'a', 'x'] get.hasMaximum get.maxInt32 get.maxFloat

end
end Queries
