import Sm83.Settings
import Sm83.Settings.Toml

/-!
Settings from a configuration file. A key that names no setting, or a value that does not suit its
setting, spoils the whole file.
-/
namespace Sm83
open Toml

private def naturalBelow? (limit : Nat) (n : Int) : Option Nat :=
  if 0 ≤ n && n.toNat < limit then some n.toNat else none

def Change.ofEntry? (key : String) : Scalar → Option Change
  | .integer n =>
    if key = "max_cycles" then (naturalBelow? 0x10000000000000000 n).map .maxCycles
    else if key = "load_address" then (naturalBelow? 0x10000 n).map fun n => .loadAddress (UInt16.ofNat n)
    else none
  | .boolean b => if key = "skip_boot_rom" then some (.skipBootRom b) else none
  | .text s =>
    let s := String.ofList s
    if key = "pass_marker" then some (.passMarker s)
    else if key = "fail_marker" then some (.failMarker s)
    else if key = "log_level" then some (.logLevel s)
    else none

def Change.ofToml? (text : String) : Option (List Change) := do
  let entries ← document text.toList
  entries.mapM fun (key,value) => ofEntry? (String.ofList key) value

def Settings.ofToml? (text : String) : Option Settings :=
  (Change.ofToml? text).map fun changes => ({} : Settings).applyAll changes

end Sm83
