import BrokerProbe.Text.Decimal
/-!
# Severities

How much an event matters.  A log shows the events of one severity and of all
graver ones.
-/

namespace BrokerProbe

inductive Severity where
  | error
  | warn
  | info
  | debug
  | trace
  deriving DecidableEq, Repr, Inhabited

namespace Severity

def label : Severity -> String
  | error => "ERROR"
  | warn => "WARN"
  | info => "INFO"
  | debug => "DEBUG"
  | trace => "TRACE"

def number : Severity -> Nat
  | error => 1
  | warn => 2
  | info => 3
  | debug => 4
  | trace => 5

def all : List Severity :=
  [error, warn, info, debug, trace]

def shows (log event : Severity) : Bool :=
  event.number <= log.number

/-- Reads a severity's number, or its label in any case of ASCII letters. -/
def parse? (text : String) : Option Severity :=
  match Text.word? text with
  | some number => all.find? fun severity => severity.number == number
  | none => all.find? fun severity => severity.label.toList == text.toList.map Char.toUpper

end Severity

end BrokerProbe
