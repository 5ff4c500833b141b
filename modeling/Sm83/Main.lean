import Sm83.Generator
import Sm83.Path
import Sm83.Runner

/-!
The commands. Under the generator's name the program generates test cases, under any other name it
runs a program.
-/
namespace Sm83

namespace ReadError

/-- The kinds of file that a reader cannot use, by the system's number, which may come negated. -/
def ofCode (code : UInt32) (message : String) : ReadError :=
  match min code (0 - code) with
  | 20 => notDirectory
  | 21 => isDirectory
  | 36 => nameTooLong
  | _ => other message

def ofIO : IO.Error → ReadError
  | .noFileOrDirectory .. => notFound
  | .permissionDenied .. => other "Permission denied (os error 13)"
  | .inappropriateType _ code details | .invalidArgument _ code details => ofCode code details
  | e => other (toString e)

end ReadError

def readFile (path : String) : IO (Except ReadError ByteArray) := do
  try return .ok (← IO.FS.readBinFile path)
  catch e => return .error (.ofIO e)

def diskAccess : FileAccess IO where
  read := readFile
  isFile path := return (← readFile path).isOk

def configDirectory : IO (Option String) := do
  match ← IO.getEnv "XDG_CONFIG_HOME" with
  | some dir => if dir.startsWith "/" then return some dir
  | none => pure ()
  return (← IO.getEnv "HOME").map fun home => s!"{home}/.config"

def runnerMain (arguments : List String) : IO UInt32 := do
  let config := (← configDirectory).map fun dir => s!"{dir}/lr35902/runner.toml"
  let report ← Runner.command diskAccess (← IO.getEnv "RUST_LOG") config arguments
  (← IO.getStdout).write report.output.toByteArray
  for line in report.diagnostics do IO.eprintln line
  return UInt32.ofNat report.exitCode

def randomSource : RandomSource IO where
  word := return UInt32.ofNat (← IO.rand 0 0xFFFFFFFF)
  memory := do
    let bytes ← IO.getRandomBytes 0x10000
    return .ofFn fun a => bytes[a]?.getD 0
  patience := 64

def diskOutlet : Outlet IO where
  write path text := IO.FS.writeFile path text
  say line := IO.println line
  complain line := IO.eprintln line

def generatorMain (arguments : List String) : IO UInt32 := do
  if arguments.length = 1 then IO.FS.createDirAll Generator.directory
  return UInt32.ofNat (← Generator.command randomSource diskOutlet arguments)

end Sm83

def main (arguments : List String) : IO UInt32 := do
  let program : Sm83.Path := (← IO.appPath).toString
  let generator : Sm83.Path := "gen_sm83_tests"
  if program.fileName? == some generator.bytes then Sm83.generatorMain arguments
  else Sm83.runnerMain arguments
