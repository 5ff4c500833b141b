import Sm83.Json.Record
import Sm83.TestCase

/-!
Test cases as JSON values, in both directions.
-/
namespace Sm83
open Json

namespace Cycle

def ofJson? (v : Value) : Option Cycle := do
  match ← v.array? with
  | [addr,data,label] => return ⟨← addr.word?,← data.byte?,← label.string?⟩
  | _ => none

def toJson (c : Cycle) : Value := .array [.word c.addr,.byte c.data,.text c.label]

end Cycle

namespace CpuState

def cellOfJson? (v : Value) : Option (UInt16 × UInt8) := do
  match ← v.array? with
  | [addr,data] => return (← addr.word?,← data.byte?)
  | _ => none

def cellToJson (cell : UInt16 × UInt8) : Value := .array [.word cell.1,.byte cell.2]

def fieldNames : List String := ["pc","sp","a","b","c","d","e","f","h","l","ime","ie","ram"]

/-- Both `ime` and `ie` may be missing. -/
def ofJson? (v : Value) : Option CpuState := do
  let fields ← v.record? fieldNames
  let byte (name : String) : Option UInt8 := (fields.lookup name).bind Value.byte?
  let word (name : String) : Option UInt16 := (fields.lookup name).bind Value.word?
  return {
    pc := ← word "pc", sp := ← word "sp", a := ← byte "a", b := ← byte "b", c := ← byte "c",
    d := ← byte "d", e := ← byte "e", f := ← byte "f", h := ← byte "h", l := ← byte "l",
    ime := ← match fields.lookup "ime" with
      | none => some 0
      | some v => v.byte?
    ie := ← match fields.lookup "ie" with
      | none => some none
      | some v => v.optional? Value.byte?
    ram := ← (fields.lookup "ram").bind (Value.list? cellOfJson?) }

def toJson (s : CpuState) : Value :=
  .record ([("pc",.word s.pc),("sp",.word s.sp),("a",.byte s.a),("b",.byte s.b),("c",.byte s.c),
    ("d",.byte s.d),("e",.byte s.e),("f",.byte s.f),("h",.byte s.h),("l",.byte s.l),
    ("ime",.byte s.ime)] ++ (s.ie.map fun v => ("ie",Value.byte v)).toList ++
    [("ram",.array (s.ram.map cellToJson))])

end CpuState

namespace TestCase

def fieldNames : List String := ["name","initial","final","cycles"]

def ofJson? (v : Value) : Option TestCase := do
  let fields ← v.record? fieldNames
  return {
    name := ← (fields.lookup "name").bind Value.string?
    initial := ← (fields.lookup "initial").bind CpuState.ofJson?
    expected := ← (fields.lookup "final").bind CpuState.ofJson?
    cycles := ← (fields.lookup "cycles").bind (Value.list? (Value.optional? Cycle.ofJson?)) }

def toJson (t : TestCase) : Value :=
  .record [("name",.text t.name),("initial",t.initial.toJson),("final",t.expected.toJson),
    ("cycles",.array (t.cycles.map fun c => (c.map Cycle.toJson).getD .null))]

def listOfJson? : Value → Option (List TestCase) := Value.list? ofJson?

def print (ts : List TestCase) : List Char := (Value.array (ts.map toJson)).print

end TestCase
end Sm83
