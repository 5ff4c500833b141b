import Sm83.Log
import Sm83.Cpu

/-!
What a machine has to tell about its work, and the log record for each event.
-/
namespace Sm83
open Log Text

inductive Event
  /-- An opcode was fetched at `pc`, which left the registers as given. -/
  | fetched (pc : UInt16) (op : UInt8) (regs : Registers)
  /-- The byte after the opcode 0xCB was fetched. -/
  | fetchedBit (pc : UInt16) (op : UInt8)
  | halted (pc : UInt16)
  | haltBug (pc : UInt16)
  | stopped (pc : UInt16)
  | woke (pc : UInt16)
  | dispatched (vector pc : UInt16) (asleep : Bool)
  | faulted (fault : Fault)
  | sent (byte : UInt8)
  | reloaded (tma : UInt8)
  | exhausted (budget : Nat) (pc : UInt16)

namespace Event

private def addr (a : UInt16) : String := s!"0x{upperHex 4 a.toNat}"

private def level : Event → Level
  | fetched .. | fetchedBit .. | sent _ => .trace
  | faulted _ => .warn
  | _ => .debug

private def source : Event → Source
  | sent _ | reloaded _ => .peripherals
  | exhausted .. => .system
  | _ => .processor

private def message : Event → String
  | fetched pc op regs =>
    let mnemonic := (Opcode.primary op).mnemonic.toList.rightpad 14 ' '
    s!"{upperHex 4 pc.toNat}: {upperHex 2 op.toNat} {String.ofList mnemonic} {regs.text}"
  | fetchedBit pc op =>
    s!"{upperHex 4 pc.toNat}: CB {upperHex 2 op.toNat} {(Opcode.prefixed op).mnemonic}"
  | halted pc => s!"HALT at {addr pc}"
  | haltBug pc => s!"HALT bug at {addr pc}"
  | stopped pc => s!"STOP at {addr pc}"
  | woke pc => s!"wake from HALT at {addr pc}"
  | dispatched vector pc asleep =>
    s!"interrupt {addr vector} from {addr pc}" ++ if asleep then " (halted)" else ""
  | faulted fault => s!"CPU fault: {fault.message}"
  | sent byte => s!"serial out 0x{upperHex 2 byte.toNat}"
  | reloaded tma => s!"timer overflow, TIMA reloaded with 0x{upperHex 2 tma.toNat}"
  | exhausted budget pc => s!"cycle budget of {budget} exhausted at PC {addr pc}"

def record (e : Event) : Record := ⟨e.level,e.source,e.message⟩

end Event
end Sm83
