import Sm83.TestCase.Codec
import Sm83.Proofs.Json.Record

/-!
Test cases come back from their JSON values, and from the text that is printed of them:
`listOfJson?_print`.
-/
namespace Sm83
open Json

namespace Cycle

theorem ofJson?_toJson (c : Cycle) : ofJson? c.toJson = some c := by
  simp [ofJson?,toJson,Value.array?]

theorem isTextual_toJson (c : Cycle) : c.toJson.IsTextual := .array (by simp)

end Cycle

namespace CpuState

private theorem cellOfJson?_cellToJson (cell : UInt16 × UInt8) :
    cellOfJson? (cellToJson cell) = some cell := by
  simp [cellOfJson?,cellToJson,Value.array?]

private theorem isTextual_cellToJson (cell : UInt16 × UInt8) :
    (cellToJson cell).IsTextual := .array (by simp)

def fields (s : CpuState) : List (String × Value) :=
  [("pc",.word s.pc),("sp",.word s.sp),("a",.byte s.a),("b",.byte s.b),("c",.byte s.c),
    ("d",.byte s.d),("e",.byte s.e),("f",.byte s.f),("h",.byte s.h),("l",.byte s.l),
    ("ime",.byte s.ime)] ++ (s.ie.map fun v => ("ie",Value.byte v)).toList ++
    [("ram",.array (s.ram.map cellToJson))]

private theorem names_fields (s : CpuState) :
    s.fields.map Prod.fst = fieldNames.filter fun name => name != "ie" || s.ie.isSome := by
  rw [fields]
  cases s.ie <;> rfl

private theorem record?_toJson (s : CpuState) : s.toJson.record? fieldNames = some s.fields := by
  apply Value.record?_record
  · intro f mem
    have name : f.1 ∈ s.fields.map Prod.fst := List.mem_map_of_mem mem
    rw [names_fields] at name
    exact (List.mem_filter.mp name).1
  · have distinct : fieldNames.Nodup := by decide +kernel
    have names : (s.fields.map Prod.fst).Nodup := by
      rw [names_fields]
      exact distinct.filter _
    exact names

theorem ofJson?_toJson (s : CpuState) : ofJson? s.toJson = some s := by
  obtain ⟨pc,sp,a,b,c,d,e,f,h,l,ime,ie,ram⟩ := s
  have cells := Value.list?_map cellOfJson?_cellToJson ram
  apply Value.bind_of_read (record?_toJson _)
  apply Value.bind_of_read (Value.word?_word pc)
  apply Value.bind_of_read (Value.word?_word sp)
  apply Value.bind_of_read (Value.byte?_byte a)
  apply Value.bind_of_read (Value.byte?_byte b)
  apply Value.bind_of_read (Value.byte?_byte c)
  apply Value.bind_of_read (Value.byte?_byte d)
  apply Value.bind_of_read (Value.byte?_byte e)
  apply Value.bind_of_read (Value.byte?_byte f)
  apply Value.bind_of_read (Value.byte?_byte h)
  apply Value.bind_of_read (Value.byte?_byte l)
  apply Value.bind_of_read (Value.byte?_byte ime)
  cases ie with
  | none => exact Value.bind_of_read (a := none) rfl (Value.bind_of_read cells rfl)
  | some ie =>
    have present : (Value.byte ie).optional? Value.byte? = some (some ie) :=
      congrArg (Option.map some) (Value.byte?_byte ie)
    exact Value.bind_of_read present (Value.bind_of_read cells rfl)

theorem isTextual_toJson (s : CpuState) : s.toJson.IsTextual := by
  have cells := Value.isTextual_map isTextual_cellToJson s.ram
  apply Value.isTextual_record
  cases s.ie <;> simp [cells]

end CpuState

namespace TestCase

theorem ofJson?_toJson (t : TestCase) : ofJson? t.toJson = some t := by
  have filled (c : Cycle) : c.toJson ≠ .null := by rw [Cycle.toJson]; exact Value.noConfusion
  have cycles := Value.list?_map (Value.optional?_getD Cycle.ofJson?_toJson filled) t.cycles
  have record : t.toJson.record? fieldNames = some [("name",.text t.name),("initial",t.initial.toJson),
      ("final",t.expected.toJson),("cycles",.array (t.cycles.map fun c => (c.map Cycle.toJson).getD .null))] :=
    Value.record?_record (by simp [fieldNames]) (by simp)
  apply Value.bind_of_read record
  apply Value.bind_of_read (Value.string?_text t.name)
  apply Value.bind_of_read t.initial.ofJson?_toJson
  apply Value.bind_of_read t.expected.ofJson?_toJson
  exact Value.bind_of_read cycles rfl

theorem isTextual_toJson (t : TestCase) : t.toJson.IsTextual := by
  have cycle (c : Option Cycle) : ((c.map Cycle.toJson).getD .null).IsTextual := by
    cases c with
    | none => exact .null
    | some c => exact c.isTextual_toJson
  apply Value.isTextual_record
  simp [CpuState.isTextual_toJson,Value.isTextual_map cycle t.cycles]

theorem listOfJson?_print (ts : List TestCase) :
    (Value.parse? (print ts)).bind listOfJson? = some ts := by
  have textual := Value.isTextual_map isTextual_toJson ts
  rw [print,Value.parse?_print textual,Option.bind_some,listOfJson?,Value.list?_map ofJson?_toJson]

end TestCase
end Sm83
