/-!
The names at the end of paths. Slashes at the end and parts that stay in place do not count.
-/
namespace Sm83

/-- A path is any bytes. A text stands for its own in UTF-8. -/
structure Path where
  bytes : List UInt8
deriving DecidableEq

namespace Path

instance : Coe String Path := ⟨fun text => ⟨text.toByteArray.data.toList⟩⟩

def slash : UInt8 := 0x2F

def dot : UInt8 := 0x2E

def staysInPlace (part : List UInt8) : Bool := part == [] || part == [dot]

/-- The last part that leads on, unless it leads upwards. -/
def fileName? (path : Path) : Option (List UInt8) :=
  match ((path.bytes.splitOn slash).filter fun part => !staysInPlace part).getLast? with
  | none => none
  | some name => if name = [dot,dot] then none else some name

/-- What stands after the last dot of a name, unless the name begins with that dot. -/
def nameExtension? (name : List UInt8) : Option (List UInt8) :=
  match name.reverse.span (· ≠ dot) with
  | (after,_ :: _ :: _) => some after.reverse
  | _ => none

def extension? (path : Path) : Option (List UInt8) := path.fileName?.bind nameExtension?

end Path
end Sm83
