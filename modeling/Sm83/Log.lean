/-!
Log records and the filter that selects them. A filter is a list of directives: the one with the
longest matching name decides.
-/
namespace Sm83.Log

/-- Most urgent first. -/
inductive Level
  | error | warn | info | debug | trace
deriving DecidableEq

def Level.rank : Level → Nat
  | error => 1 | warn => 2 | info => 3 | debug => 4 | trace => 5

def Level.name : Level → String
  | error => "ERROR" | warn => "WARN" | info => "INFO" | debug => "DEBUG" | trace => "TRACE"

inductive Source
  | processor | peripherals | system | runner
deriving DecidableEq

/-- The name by which a filter selects a source. -/
def Source.target : Source → String
  | processor => "lr35902_core::cpu::lr35902"
  | peripherals => "lr35902_machines::io"
  | system => "lr35902_machines::simple_lr35902"
  | runner => "lr35902"

structure Record where
  level : Level
  source : Source
  message : String

def Record.text (r : Record) : String := s!"{r.level.name} {r.message}"

end Sm83.Log
