/-!
Reading files. A program that reads files takes the means to do so as an argument; a tree of files
in memory is one of them.
-/
namespace Sm83

inductive ReadError
  | notFound
  | isDirectory
  | notDirectory
  | nameTooLong
  | notText
  | other (message : String)
deriving DecidableEq

def ReadError.message : ReadError → String
  | notFound => "No such file or directory (os error 2)"
  | isDirectory => "Is a directory (os error 21)"
  | notDirectory => "Not a directory (os error 20)"
  | nameTooLong => "File name too long (os error 36)"
  | notText => "stream did not contain valid UTF-8"
  | other message => message

structure FileAccess (m : Type → Type) where
  read : String → m (Except ReadError ByteArray)
  isFile : String → m Bool

/-- Bytes of the longest path and of the longest name in it. -/
def maxPath : Nat := 4095

def maxName : Nat := 255

def pathParts (path : String) : List String :=
  let (last,parts) := path.toList.foldr (fun c (part,parts) =>
    if c = '/' then ([],String.ofList part :: parts) else (c :: part,parts)) ([],[])
  String.ofList last :: parts

/-- Files under the paths, in parts, at which they stand. The directories are those on the way. -/
abbrev FileTree := List (List String × ByteArray)

namespace FileTree

inductive Node
  | file (content : ByteArray)
  /-- The directory at a path, or one outside the tree. -/
  | directory (path : Option (List String))

private def child (t : FileTree) (path : List String) : Except ReadError Node :=
  match t.lookup path with
  | some content => .ok (.file content)
  | none => if t.any fun (p,_) => path.isPrefixOf p then .ok (.directory (some path)) else .error .notFound

def enter (t : FileTree) (node : Node) (part : String) : Except ReadError Node :=
  match node,part with
  | .file _,_ => .error .notDirectory
  | node,"" | node,"." => .ok node
  | .directory (some (part :: path)),".." => .ok (.directory (some (part :: path).dropLast))
  | .directory _,".." => .ok (.directory none)
  | .directory path,name =>
    if maxName < name.utf8ByteSize then .error .nameTooLong
    else match path with
      | none => .error .notFound
      | some path => t.child (path ++ [name])

def find (t : FileTree) (path : String) : Except ReadError Node :=
  if maxPath < path.utf8ByteSize then .error .nameTooLong
  else match pathParts path with
    | [""] => .error .notFound
    | "" :: parts => parts.foldlM t.enter (.directory none)
    | parts => parts.foldlM t.enter (.directory (some []))

def read (t : FileTree) (path : String) : Except ReadError ByteArray :=
  match t.find path with
  | .ok (.file content) => .ok content
  | .ok (.directory _) => .error .isDirectory
  | .error e => .error e

def isFile (t : FileTree) (path : String) : Bool := (t.read path).isOk

def access (t : FileTree) : FileAccess Id := ⟨t.read,t.isFile⟩

end FileTree
end Sm83
