import Sm83.Log
import Sm83.Text.Blank
import Sm83.Text.Pattern.Parser

/-!
Filters for log records, such as `debug` or `name=trace,warn`. Of the directives whose name begins
the record's target the one with the longest name decides, a later one before an earlier one.
-/
namespace Sm83.Log
open Text

/-- `rank` 0 lets nothing pass, each further one the next level. -/
structure Directive where
  name : Option String
  rank : Nat
deriving DecidableEq

structure Filter where
  directives : List Directive
  pattern : Option Pattern := none

private def splitAt (c : Char) : List Char → List (List Char)
  | [] => [[]]
  | x :: cs =>
    match splitAt c cs with
    | [] => [[x]]
    | first :: rest => if x = c then [] :: first :: rest else (x :: first) :: rest

/-- Level names in either case, and `off`. -/
def rank? (name : List Char) : Option Nat :=
  [("off",0),("error",1),("warn",2),("info",3),("debug",4),("trace",5)].lookup
    (String.ofList (name.map Char.toLower))

/-- A level for all targets, a name for all its levels, or both with an equals sign between. -/
def Directive.parse? (text : List Char) : Option Directive :=
  match splitAt '=' text with
  | [word] => match rank? word with
    | some rank => some ⟨none,rank⟩
    | none => some ⟨some (String.ofList word),5⟩
  | [name,level] =>
    let level := trim level
    if level.isEmpty then some ⟨some (String.ofList name),5⟩
    else (rank? level).map fun rank => ⟨some (String.ofList name),rank⟩
  | _ => none

/-- Takes the place of the directive with the same name, if there is one. -/
def Directive.insert (ds : List Directive) (d : Directive) : List Directive :=
  if ds.any fun e => e.name == d.name then ds.map fun e => if e.name == d.name then d else e
  else ds ++ [d]

/-- Directives between commas. Malformed ones are left out, and so are all beside more than one
slash. One slash parts them from a pattern, which is left out too if it is malformed. -/
def Filter.parse (text : String) : Filter :=
  let directives (cs : List Char) :=
    ((splitAt ',' cs).map trim).filter (fun d => !d.isEmpty) |>.filterMap Directive.parse?
      |>.foldl Directive.insert []
  match splitAt '/' text.toList with
  | [cs] => ⟨directives cs,none⟩
  | [cs,pattern] => ⟨directives cs,Pattern.parse? pattern⟩
  | _ => ⟨[],none⟩

namespace Filter

/-- The directives of both, of which those of `f` win, and the pattern of `f`. -/
def override (base f : Filter) : Filter :=
  ⟨f.directives.foldl Directive.insert base.directives,f.pattern⟩

private def nameLength (d : Directive) : Nat := (d.name.map String.utf8ByteSize).getD 0

/-- Without any directive, errors pass. -/
private def effective (f : Filter) : List Directive :=
  if f.directives.isEmpty then [⟨none,1⟩]
  else f.directives.mergeSort fun a b => nameLength a ≤ nameLength b

private def applies (target : String) (d : Directive) : Bool :=
  (d.name.map fun name => target.startsWith name).getD true

def admitsLevel (f : Filter) (source : Source) (level : Level) : Bool :=
  match f.effective.reverse.find? (applies source.target) with
  | some d => level.rank ≤ d.rank
  | none => false

def admits (f : Filter) (r : Record) : Bool :=
  f.admitsLevel r.source r.level && f.pattern.all fun p => p.occursIn r.message

/-- Nothing that a machine reports passes. -/
def ignoresMachine (f : Filter) : Bool :=
  [Source.processor,.peripherals,.system].all fun s => !f.admitsLevel s .warn

end Filter
end Sm83.Log
