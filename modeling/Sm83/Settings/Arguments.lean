import Sm83.Settings
import Sm83.Settings.Address

/-!
The command line of the runner: one program and options, each at most once. The value of an option
follows as the next argument, where it must not look like an option, or after an equals sign. Two
dashes end the options.
-/
namespace Sm83
open Text

structure Arguments where
  program : String
  /-- A configuration file other than the default one. -/
  config : Option String := none
  changes : List Change := []

inductive Refusal
  | help
  | usage
deriving DecidableEq

namespace Arguments

inductive Flag
  | config | maxCycles | loadAddress | skipBootRom | passMarker | failMarker | logLevel
deriving DecidableEq

def Flag.all : List Flag :=
  [config,maxCycles,loadAddress,skipBootRom,passMarker,failMarker,logLevel]

def Flag.name : Flag → String
  | config => "config"
  | maxCycles => "max-cycles"
  | loadAddress => "load-address"
  | skipBootRom => "skip-boot-rom"
  | passMarker => "pass-marker"
  | failMarker => "fail-marker"
  | logLevel => "log-level"

def Flag.ofName? (name : String) : Option Flag := all.find? fun f => f.name == name

structure Partial where
  program : Option String := none
  config : Option String := none
  changes : List Change := []
  seen : List Flag := []

private def filled? (value : String) : Option String := if value.isEmpty then none else some value

def change? (value : String) : Flag → Option Change
  | .config => none
  | .maxCycles => (readNatural 10 0x10000000000000000 value.toList).toOption.map .maxCycles
  | .loadAddress => (parseAddress value).toOption.map .loadAddress
  | .skipBootRom =>
    if value = "true" then some (.skipBootRom true)
    else if value = "false" then some (.skipBootRom false)
    else none
  | .passMarker => some (.passMarker value)
  | .failMarker => some (.failMarker value)
  | .logLevel => some (.logLevel value)

def Partial.give (p : Partial) (flag : Flag) (value : String) : Except Refusal Partial :=
  if p.seen.contains flag then .error .usage
  else
    let p := {p with seen := flag :: p.seen}
    match flag with
    | .config => match filled? value with
      | some path => .ok {p with config := some path}
      | none => .error .usage
    | _ => match change? value flag with
      | some c => .ok {p with changes := p.changes ++ [c]}
      | none => .error .usage

def Partial.setProgram (p : Partial) (value : String) : Except Refusal Partial :=
  match p.program,filled? value with
  | none,some path => .ok {p with program := some path}
  | _,_ => .error .usage

inductive Shape
  /-- Two dashes and nothing else. -/
  | separator
  /-- Two dashes, a name, and the value after an equals sign. -/
  | long (name : String) (value : Option String)
  /-- One dash and at least one letter. -/
  | short (letter : Char)
  | plain

private def longShape (cs : List Char) : Shape :=
  let name := String.ofList (cs.takeWhile fun c => c ≠ '=')
  match cs.dropWhile fun c => c ≠ '=' with
  | _ :: value => .long name (some (String.ofList value))
  | [] => .long name none

def shape (argument : String) : Shape :=
  match argument.toList with
  | ['-','-'] => .separator
  | '-' :: '-' :: cs => longShape cs
  | '-' :: c :: _ => .short c
  | _ => .plain

/-- A single dash is a value as well. -/
def isValue (argument : String) : Bool := match shape argument with
  | .plain => true
  | _ => false

inductive Word
  | program (path : String)
  | option (name value : String)
  | refused (r : Refusal)

/-- The words that an argument stands for on its own, unless it is an option without its value. -/
def word? (argument : String) : Option Word := match shape argument with
  | .plain => some (.program argument)
  | .long name (some value) => some (.option name value)
  | .long "help" none | .short 'h' => some (.refused .help)
  | .short _ => some (.refused .usage)
  | .separator | .long _ none => none

def words : List String → List Word
  | [] => []
  | [a] => match word? a,shape a with
    | some w,_ => [w]
    | none,.separator => []
    | none,_ => [.refused .usage]
  | a :: b :: rest => match word? a,shape a with
    | some w,_ => w :: words (b :: rest)
    | none,.long name none => if isValue b then .option name b :: words rest else [.refused .usage]
    | none,_ => (b :: rest).map .program

def Partial.take (p : Partial) : Word → Except Refusal Partial
  | .program path => p.setProgram path
  | .option name value => match Flag.ofName? name with
    | some flag => p.give flag value
    | none => .error .usage
  | .refused r => .error r

end Arguments

def Arguments.parse (arguments : List String) : Except Refusal Arguments := do
  let p ← (words arguments).foldlM Partial.take {}
  match p.program with
  | some program => return {program := program, config := p.config, changes := p.changes}
  | none => throw .usage

end Sm83
