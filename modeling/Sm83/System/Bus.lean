import Sm83.Bus
import Sm83.Timer

/-!
The address space of the test system: memory, and in its last page a timer, a serial line, the
interrupt registers and a display that is always between two frames.
-/
namespace Sm83

namespace Address

@[match_pattern] abbrev serialData : UInt16 := 0xFF01
@[match_pattern] abbrev serialControl : UInt16 := 0xFF02
@[match_pattern] abbrev div : UInt16 := 0xFF04
@[match_pattern] abbrev tima : UInt16 := 0xFF05
@[match_pattern] abbrev tma : UInt16 := 0xFF06
@[match_pattern] abbrev tac : UInt16 := 0xFF07
@[match_pattern] abbrev interruptFlags : UInt16 := 0xFF0F
@[match_pattern] abbrev displayLine : UInt16 := 0xFF44
@[match_pattern] abbrev interruptEnable : UInt16 := 0xFFFF

end Address

/-- The bits of the interrupt registers that the peripherals use. -/
def timerInterrupt : UInt8 := 0x04
def serialInterrupt : UInt8 := 0x08

structure SystemBus where
  memory : Memory := .zero
  timer : Timer := .initial
  interruptEnable : UInt8 := 0
  interruptFlags : UInt8 := 0
  serial : Array UInt8 := #[]
  /-- The bytes sent since a receiver was attached. -/
  sink : Option (Array UInt8) := none
deriving Inhabited

namespace SystemBus

/-- Puts a program into memory, below the registers. What does not fit is dropped. -/
def load (b : SystemBus) (a : UInt16) (data : List UInt8) : SystemBus :=
  {b with memory := b.memory.load a data}

def attachSink (b : SystemBus) : SystemBus := {b with sink := some #[]}

def request (b : SystemBus) (mask : UInt8) : SystemBus :=
  {b with interruptFlags := b.interruptFlags ||| mask &&& 0x1F}

def acknowledge (b : SystemBus) (line : Fin 8) : SystemBus :=
  {b with interruptFlags := b.interruptFlags &&& ~~~(bitMask line)}

def tick (b : SystemBus) (clocks : Nat) : SystemBus :=
  let (timer,fired) := b.timer.tick clocks
  let b := {b with timer := timer}
  if fired then b.request timerInterrupt else b

/-- The value written to the serial control register starts a transfer. -/
def startsTransfer (v : UInt8) : Bool := v &&& 0x81 == 0x81

def send (b : SystemBus) (byte : UInt8) : SystemBus :=
  {b with serial := b.serial.push byte, sink := b.sink.map fun bytes => bytes.push byte}

/-- A transfer completes at once: its byte is sent and its start bit is cleared. -/
def writeSerialControl (b : SystemBus) (v : UInt8) : SystemBus :=
  if startsTransfer v then
    let b := b.send (b.memory.read Address.serialData)
    {b with memory := b.memory.write Address.serialControl (v &&& 0x7F)}.request serialInterrupt
  else {b with memory := b.memory.write Address.serialControl v}

def read (b : SystemBus) : UInt16 → UInt8
  | Address.div => b.timer.div
  | Address.tima => b.timer.tima
  | Address.tma => b.timer.tma
  | Address.tac => b.timer.tac
  | Address.interruptFlags => 0xE0 ||| b.interruptFlags
  | Address.displayLine => 0x90
  | Address.interruptEnable => b.interruptEnable
  | a => b.memory.read a

def write (b : SystemBus) (a : UInt16) (v : UInt8) : SystemBus :=
  match a with
  | Address.serialControl => b.writeSerialControl v
  | Address.div => {b with timer := b.timer.writeDiv}
  | Address.tima => {b with timer := b.timer.writeTima v}
  | Address.tma => {b with timer := b.timer.writeTma v}
  | Address.tac => {b with timer := b.timer.writeTac v}
  | Address.interruptFlags => {b with interruptFlags := v &&& 0x1F}
  | Address.interruptEnable => {b with interruptEnable := v}
  | a => {b with memory := b.memory.write a v}

def interrupts (b : SystemBus) : Interrupts := .ofByte (b.interruptEnable &&& b.interruptFlags)

end SystemBus

instance : Bus SystemBus where
  read b a := (b.read a,b)
  write := SystemBus.write
  interrupts := SystemBus.interrupts

end Sm83
