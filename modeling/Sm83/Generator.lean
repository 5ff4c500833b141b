import Sm83.Instr.Catalogue
import Sm83.TestCase.Codec
import Sm83.TestCase.Generate

/-!
The generator: it writes files of random test cases, one for each opcode that it is asked for.
-/
namespace Sm83

structure Outlet (m : Type → Type) where
  write : String → String → m Unit
  say : String → m Unit
  complain : String → m Unit

namespace Generator

def directory : String := "test_data/sm83/v1"

def casesPerFile : Nat := 1000

def usage : List String :=
  ["Usage: gen_sm83_tests <opcode | \"cb <opcode>\" | all>",
    "Examples:",
    "  gen_sm83_tests 3e        # opcode 0x3E (LD A,n)",
    "  gen_sm83_tests \"cb 7c\"   # opcode 0xCB 0x7C (BIT 7,H)",
    "  gen_sm83_tests all"]

variable {m : Type → Type} [Monad m]

def writeFile (source : RandomSource m) (outlet : Outlet m) (op : Opcode) : m Unit := do
  let (cases,fault) ← TestCase.generateMany source op casesPerFile
  match fault with
  | some fault => outlet.complain s!"{op.text}: {fault.message}"
  | none => pure ()
  let path := s!"{directory}/{op.stem}.json"
  outlet.write path (String.ofList (TestCase.print cases))
  outlet.say s!"Generated {cases.length} tests for {op.text} -> {path}"

def command (source : RandomSource m) (outlet : Outlet m) (arguments : List String) : m Nat := do
  match arguments with
  | ["all"] =>
    for op in Opcode.catalogue do writeFile source outlet op
    outlet.say s!"Generated tests for {Opcode.catalogue.length} opcodes"
    return 0
  | [argument] =>
    match Opcode.parse? argument.toList with
    | none =>
      outlet.complain s!"Invalid hex opcode: {argument}"
      return 1
    | some op =>
      if op.isCatalogued then
        writeFile source outlet op
        return 0
      else
        outlet.complain s!"Opcode {argument} not found in instruction table"
        return 1
  | _ =>
    for line in usage do outlet.complain line
    return 1

end Generator
end Sm83
