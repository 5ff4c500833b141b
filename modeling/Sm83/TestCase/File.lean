import Sm83.Files
import Sm83.Gzip
import Sm83.Path
import Sm83.TestCase.Codec
import Sm83.Text.Utf8

/-!
Files of test cases, as plain text or compressed.
-/
namespace Sm83.TestCase

inductive LoadError
  | unreadable
  | malformed
deriving DecidableEq

def LoadError.message : LoadError → String
  | unreadable => "I/O error"
  | malformed => "malformed test vectors"

/-- Whether the name of a file says that it holds test cases. A name that is not text is read as well
as it can be. -/
def isFileName (path : Path) : Bool :=
  match path.fileName? with
  | none => false
  | some name =>
    let text := (Text.Utf8.lossy name).toList
    ".json".toList.isSuffixOf text || ".json.gz".toList.isSuffixOf text

/-- The name alone decides whether a file counts as compressed. -/
def isCompressed (path : Path) : Bool := path.extension? == some ("gz" : Path).bytes

def ofBytes (compressed : Bool) (content : ByteArray) : Except LoadError (List TestCase) :=
  let text := (if compressed then Gzip.decompress? content else some content).bind String.fromUTF8?
  match text with
  | none => .error .unreadable
  | some text =>
    match (Json.Value.parse? text.toList).bind listOfJson? with
    | none => .error .malformed
    | some ts => .ok ts

def ofFile (path : Path) : Except ReadError ByteArray → Except LoadError (List TestCase)
  | .error _ => .error .unreadable
  | .ok content => ofBytes (isCompressed path) content

def load {m : Type → Type} [Monad m] (files : FileAccess m) (path : String) :
    m (Except LoadError (List TestCase)) := do
  return ofFile path (← files.read path)

end Sm83.TestCase
