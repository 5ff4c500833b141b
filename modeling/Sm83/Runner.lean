import Sm83.Files
import Sm83.Log.Filter
import Sm83.Settings.Arguments
import Sm83.Settings.File
import Sm83.System.Narration

/-!
The runner: it loads a program into the test system, lets it run until its serial output tells
whether it passed, and reports the verdict.
-/
namespace Sm83
open Log Text

def Text.occursIn {α : Type} [BEq α] (part : List α) : List α → Bool
  | [] => part.isEmpty
  | a :: rest => part.isPrefixOf (a :: rest) || occursIn part rest

theorem Text.occursIn_iff {α : Type} [BEq α] [LawfulBEq α] (part whole : List α) :
    occursIn part whole ↔ part <:+: whole := by
  induction whole with
  | nil => simp [occursIn]
  | cons a rest ih => simp [occursIn,ih,List.infix_cons_iff]

inductive Verdict
  | passed | failed | timedOut | faulted
deriving DecidableEq

namespace Verdict

def exitCode : Verdict → Nat
  | passed => 0 | failed => 1 | timedOut | faulted => 2

def name : Verdict → String
  | passed => "Passed" | failed => "Failed" | timedOut => "TimedOut" | faulted => "Faulted"

end Verdict

inductive RunnerError
  | unreadable (path : String) (reason : ReadError)
  | invalidConfig
  | emptyImage (path : String)
  | oversizedImage (size : Nat) (address : UInt16)

def RunnerError.message : RunnerError → String
  | unreadable path reason => s!"{path}: {reason.message}"
  | invalidConfig => "invalid config"
  | emptyImage path => s!"bad program image: {path} is empty"
  | oversizedImage size address =>
    s!"bad program image: {size} bytes do not fit at 0x{upperHex 4 address.toNat}"

structure Report where
  exitCode : Nat
  output : List UInt8 := []
  diagnostics : List String := []

namespace Runner

/-- The marker stands in the output. No output holds an empty marker. -/
def contains (output : List UInt8) (marker : String) : Bool :=
  let bytes := marker.toUTF8.data.toList
  !bytes.isEmpty && occursIn bytes output

def checkImage (path : String) (address : UInt16) (image : ByteArray) :
    Except RunnerError (List UInt8) :=
  if image.size = 0 then .error (.emptyImage path)
  else if image.size > Memory.room address then .error (.oversizedImage image.size address)
  else .ok image.data.toList

def start (settings : Settings) (image : List UInt8) : System where
  cpu := if settings.skipBootRom then .postBoot else .powerOn
  bus := (({} : SystemBus).load settings.loadAddress image).attachSink

/-- A marker has been sent. It is looked for only when there are more bytes than were `seen`. -/
def decided (settings : Settings) (s : System) (seen : Nat) : Bool × Nat :=
  if s.bus.serial.size = seen then (false,seen)
  else
    let output := s.bus.serial.toList
    (contains output settings.passMarker || contains output settings.failMarker,s.bus.serial.size)

def verdict (settings : Settings) (result : Except Fault Stop) (s : System) : Verdict :=
  match result with
  | .error _ => .faulted
  | .ok .budget => .timedOut
  | .ok .condition => if contains s.bus.serial.toList settings.failMarker then .failed else .passed

private def loaded (settings : Settings) (image : List UInt8) (s : System) : Record :=
  ⟨.info,.runner,s!"loaded {image.length} bytes at 0x{upperHex 4 settings.loadAddress.toNat}, " ++
    s!"starting at PC 0x{upperHex 4 s.cpu.regs.pc.toNat}"⟩

private def finished (v : Verdict) (s : System) : Record :=
  ⟨.info,.runner,s!"{v.name} after {s.clock} clocks, {s.cpu.total} spent executing"⟩

/-- Runs an image and reports. The serial output is what the program printed. -/
def runImage (settings : Settings) (filter : Filter) (image : List UInt8) : Report :=
  let s := start settings image
  let (result,t,records) :=
    s.runNarrated (!filter.ignoresMachine) settings.maxCycles (decided settings) 0
  let v := verdict settings result t
  let log (rs : List Record) := (rs.filter filter.admits).map Record.text
  let outcome := match result with
    | .error fault => [s!"CPU fault: {fault.message}"]
    | .ok .budget => log [⟨.warn,.runner,s!"no verdict after {settings.maxCycles} cycles"⟩]
    | .ok .condition => []
  {exitCode := v.exitCode
   output := (t.bus.sink.getD #[]).toList ++ [0x0A]
   diagnostics := log [loaded settings image s] ++ log records.toList ++ outcome ++ log [finished v t]}

variable {m : Type → Type} [Monad m]

private def failure (e : RunnerError) : Report := {exitCode := 3, diagnostics := [s!"Error: {e.message}"]}

/-- The changes of a configuration file. The default one may be missing. -/
def loadChanges (files : FileAccess m) (explicit default : Option String) :
    m (Except RunnerError (List Change)) := do
  let path ← match explicit,default with
    | some path,_ => pure (some path)
    | none,some path => pure (if ← files.isFile path then some path else none)
    | none,none => pure none
  match path with
  | none => return .ok []
  | some path =>
    match ← files.read path with
    | .error reason => return .error (.unreadable path reason)
    | .ok bytes =>
      match String.fromUTF8? bytes with
      | none => return .error (.unreadable path .notText)
      | some text =>
        match Change.ofToml? text with
        | some changes => return .ok changes
        | none => return .error .invalidConfig

def filterFor (environment : Option String) (settings : Settings) : Filter :=
  let base := Filter.parse (environment.getD "")
  match settings.logLevel with
  | some level => base.override (.parse level)
  | none => base

def runProgram (files : FileAccess m) (environment defaultConfig : Option String)
    (arguments : Arguments) : m Report := do
  match ← loadChanges files arguments.config defaultConfig with
  | .error e => return failure e
  | .ok changes =>
    let settings := ({} : Settings).applyAll (changes ++ arguments.changes)
    match ← files.read arguments.program with
    | .error reason => return failure (.unreadable arguments.program reason)
    | .ok image =>
      match checkImage arguments.program settings.loadAddress image with
      | .error e => return failure e
      | .ok image => return runImage settings (filterFor environment settings) image

def command (files : FileAccess m) (environment defaultConfig : Option String)
    (arguments : List String) : m Report :=
  match Arguments.parse arguments with
  | .ok arguments => runProgram files environment defaultConfig arguments
  | .error .help => return {exitCode := 0}
  | .error .usage => return {exitCode := 2}

end Runner
end Sm83
