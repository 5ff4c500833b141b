/-!
The settings of a run. A configuration file and a command line are both lists of changes to the
defaults; later changes win.
-/
namespace Sm83

structure Settings where
  /-- About a minute at the clock rate of the hardware. -/
  maxCycles : Nat := 250000000
  loadAddress : UInt16 := 0
  skipBootRom : Bool := true
  passMarker : String := "Passed"
  failMarker : String := "Failed"
  logLevel : Option String := none
deriving DecidableEq

inductive Change
  | maxCycles (n : Nat)
  | loadAddress (a : UInt16)
  | skipBootRom (b : Bool)
  | passMarker (s : String)
  | failMarker (s : String)
  | logLevel (s : String)
deriving DecidableEq

namespace Settings

def apply (s : Settings) : Change → Settings
  | .maxCycles n => {s with maxCycles := n}
  | .loadAddress a => {s with loadAddress := a}
  | .skipBootRom b => {s with skipBootRom := b}
  | .passMarker m => {s with passMarker := m}
  | .failMarker m => {s with failMarker := m}
  | .logLevel l => {s with logLevel := some l}

def applyAll (s : Settings) (changes : List Change) : Settings := changes.foldl apply s

end Settings
end Sm83
