import RcpFlext.Atoms
import RcpFlext.Library.Cells

/- The inlets that turn a list of atoms into bytes and the outlets that turn bytes into a
   list of atoms. Each object keeps its own loop; the loops that agree share a definition. -/
namespace BytePorts
open Atoms Cells

/-- What an inlet does with a list: the bytes go to the code behind it, or the method
    returns (with the text it posts), or it leaves its arrays or calls through a null pointer. -/
inductive Handed where
  | on (data : List Char8)
  | dropped (report : Option String)
  | undefined
  deriving DecidableEq, Repr

/-- `std::vector<char> data(argc)`, the filling loop, and the first `argc - offset` chars. -/
def throughBuffer (judge : Atom → Verdict Char8 String) (argv : List Atom) : Handed :=
  match fill judge argv 0 0 (List.replicate argv.length 0) with
  | .outside => .undefined
  | .aborted why => .dropped (some why)
  | .done cells offset => .on (cells.take ((argv.length : Int) - offset).toNat)

/-- The first value out of range rejects the list, what is no number is left out. -/
def rawByte (a : Atom) : Verdict Char8 String :=
  if canbeInt a then
    let value := getAInt a (-1)
    if value.toInt < 0 ∨ 255 < value.toInt then .abort "invalid data in list"
    else .keep (toChar value)
  else .skip

def strictByte (a : Atom) : Verdict Char8 String :=
  if canbeInt a then
    let di := getAInt a 1000
    if 255 < di.toNat then .abort "invalid data in packet" else .keep (toChar di)
  else .abort "malformed data"

def lenientByte (a : Atom) : Verdict Char8 String :=
  if canbeInt a then
    let id := getAInt a (-1)
    if 0 ≤ id.toInt ∧ id.toInt < 256 then .keep (toChar id) else .skip
  else .skip

namespace ParameterServerClientBase

def dataOut (data : List Char8) : List Atom := data.map setChar

def rawDataList (argv : List Atom) : Handed := throughBuffer rawByte argv

end ParameterServerClientBase

namespace PdWebsocketServer

def received (data : List Char8) : List Atom := data.map setChar

/-- The bytes given to `m_server->send`; the pointer is used without a check. -/
def mList (m_server : Option Unit) (argv : List Atom) : Handed :=
  match throughBuffer strictByte argv with
  | .on data => if m_server.isSome then .on data else .undefined
  | other => other

end PdWebsocketServer

namespace PdWebsocketClient

def received (data : List Char8) : List Atom := data.map setChar

/-- The bytes given to `m_client->send`. The client is null, or open, or not open. -/
def mList (m_client : Option Bool) (argv : List Atom) : Handed :=
  match m_client with
  | none => .dropped none
  | some false => .dropped (some "websocket client is not connected")
  | some true => throughBuffer strictByte argv

end PdWebsocketClient

namespace SPPParser

def mList (argv : List Atom) : Handed := throughBuffer lenientByte argv

def dataOut (data : List Char8) : List Atom := data.map setChar

end SPPParser

namespace SlipEncoder

def mListData (argv : List Atom) : Handed := throughBuffer lenientByte argv

def mListOutput (m_data : List Char8) : List Atom := m_data.map setUChar

end SlipEncoder

namespace SlipDecoder

def mList : List Atom → List Char8
  | [] => []
  | a :: argv =>
    match lenientByte a with
    | .keep c => c :: mList argv
    | _ => mList argv

def dataOut (data : List Char8) : List Atom := data.map setUChar

end SlipDecoder

namespace RcpParse

def mListData (argv : List Atom) : Handed := throughBuffer strictByte argv

end RcpParse

theorem throughBuffer_eq (judge : Atom → Verdict Char8 String) (argv : List Atom) :
    throughBuffer judge argv = match survivors judge argv with
      | .error why => .dropped (some why)
      | .ok data => .on data := by
  have run := fill_exact judge argv 0
  unfold throughBuffer
  cases kept : survivors judge argv with
  | error why =>
    rw [kept] at run
    rw [run]
  | ok data =>
    rw [kept] at run
    obtain ⟨cells, eq, front⟩ := run
    have size : ((argv.length : Int) - (argv.length - data.length)).toNat = data.length := by omega
    rw [eq]
    simp only [size, front]

theorem throughBuffer_on_iff (judge : Atom → Verdict Char8 String) (argv : List Atom)
    (data : List Char8) :
    throughBuffer judge argv = .on data ↔ survivors judge argv = .ok data := by
  rw [throughBuffer_eq]
  cases survivors judge argv <;> simp

/-- An inlet's verdict on integers: bytes go through unchanged, nothing else does. -/
structure KeepsBytes (judge : Atom → Verdict Char8 String) : Prop where
  byte : ∀ c, judge (setUChar c) = .keep c
  other : ∀ v, ¬ IsByte (.int v) → ∀ c, judge (.int v) ≠ .keep c

theorem rawByte_keeps_bytes : KeepsBytes rawByte := by
  constructor
  · intro c
    have small := c.isLt
    have range : ¬ ((c.setWidth 32).toInt < 0 ∨ 255 < (c.setWidth 32).toInt) := by
      rw [setUChar_value]
      omega
    simp only [rawByte, setUChar, canbeInt, isInt, Bool.true_or, ↓reduceIte, getAInt, range,
      toChar_setUChar]
  · intro v out c
    have range : v.toInt < 0 ∨ 255 < v.toInt := by
      simp only [IsByte] at out
      omega
    simp only [rawByte, canbeInt, isInt, Bool.true_or, ↓reduceIte, getAInt, range]
    intro kept
    cases kept

theorem strictByte_keeps_bytes : KeepsBytes strictByte := by
  constructor
  · intro c
    have small := c.isLt
    have range : ¬ 255 < (c.setWidth 32).toNat := by
      simp only [BitVec.toNat_setWidth]
      omega
    simp only [strictByte, setUChar, canbeInt, isInt, Bool.true_or, ↓reduceIte, getAInt, range,
      toChar_setUChar]
  · intro v out c
    have range : 255 < v.toNat := by
      have wide := v.isLt
      simp only [IsByte, BitVec.toInt_eq_toNat_cond] at out
      split at out <;> omega
    simp only [strictByte, canbeInt, isInt, Bool.true_or, ↓reduceIte, getAInt, range]
    intro kept
    cases kept

theorem lenientByte_keeps_bytes : KeepsBytes lenientByte := by
  constructor
  · intro c
    have small := c.isLt
    have range : 0 ≤ (c.setWidth 32).toInt ∧ (c.setWidth 32).toInt < 256 := by
      rw [setUChar_value]
      omega
    simp only [lenientByte, setUChar, canbeInt, isInt, Bool.true_or, ↓reduceIte, getAInt, range,
      and_self, toChar_setUChar]
  · intro v out c
    have range : ¬ (0 ≤ v.toInt ∧ v.toInt < 256) := by
      simp only [IsByte] at out
      omega
    simp only [lenientByte, canbeInt, isInt, Bool.true_or, ↓reduceIte, getAInt, range]
    intro kept
    cases kept

theorem lenientByte_never_aborts (a : Atom) (why : String) : lenientByte a ≠ .abort why := by
  intro aborted
  simp only [lenientByte] at aborted
  split at aborted
  · split at aborted <;> cases aborted
  · cases aborted

section Loops
variable {judge : Atom → Verdict Char8 String} (keeps : KeepsBytes judge)
include keeps

theorem unsigned_survive (data : List Char8) :
    survivors judge (data.map setUChar) = .ok data :=
  survivors_map keeps.byte data

theorem signed_char_kept {c v : Char8} (kept : judge (setChar c) = .keep v) : c.toNat < 128 := by
  by_contra high
  have out : ¬ IsByte (setChar c) := fun byte => high ((setChar_isByte_iff c).mp byte)
  exact keeps.other _ out v kept

theorem signed_survive_iff (data : List Char8) :
    survivors judge (data.map setChar) = .ok data ↔ ∀ c ∈ data, c.toNat < 128 := by
  constructor
  · intro found c mem
    have full := survivors_full found (by simp)
    obtain ⟨v, kept⟩ := full (setChar c) (List.mem_map_of_mem mem)
    exact signed_char_kept keeps kept
  · intro low
    have same : data.map setChar = data.map setUChar :=
      List.map_congr_left fun c mem => setChar_eq_setUChar (low c mem)
    rw [same]
    exact unsigned_survive keeps data

end Loops

theorem slipDecoder_mList_eq (argv : List Atom) :
    survivors lenientByte argv = .ok (SlipDecoder.mList argv) := by
  induction argv with
  | nil => rfl
  | cons a argv ih =>
    cases verdict : lenientByte a with
    | keep c =>
      rw [survivors_keep argv verdict, ih]
      simp only [SlipDecoder.mList, verdict]
      rfl
    | skip =>
      rw [survivors_skip argv verdict, ih]
      simp only [SlipDecoder.mList, verdict]
    | abort why => exact False.elim (lenientByte_never_aborts a why verdict)

end BytePorts
