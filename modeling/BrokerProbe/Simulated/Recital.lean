import BrokerProbe.Metric.Session
import BrokerProbe.Simulated.Journal
/-!
# Recitals

Work inside a session as a list of actions, with a journal as the reporter.
Sessions may be nested, and an action may crash.
-/

namespace BrokerProbe

namespace Simulated

inductive Action where
  | gauge (key : String)
  | report
  | crash
  | failStart (value : Bool)
  | failReport (value : Bool)
  | nested (body : List Action)

namespace Recital

abbrev Desk := Metric.Desk Journal

def note (desk : Desk) (call : String) : Desk :=
  { desk with state := desk.state.note call }

def entered (desk : Desk) : Desk :=
  note desk "body"

def afterNested : Metric.Ended (Option Unit) × Desk -> Metric.Ended Unit × Desk
  | (.crashed, desk) => (.crashed, desk)
  | (.returned (some _), desk) => (.returned (), note desk "nested ran")
  | (.returned none, desk) => (.returned (), note desk "nested skipped")

mutual

def perform : Action -> Desk -> Metric.Ended Unit × Desk
  | .gauge key, desk => (.returned (), { desk with registry := (desk.registry.gauge key).2 })
  | .report, desk => (.returned (), Metric.Session.report Journal.reporter desk)
  | .crash, desk => (.crashed, desk)
  | .failStart value, desk =>
      (.returned (), { desk with state := { desk.state with failStart := value } })
  | .failReport value, desk =>
      (.returned (), { desk with state := { desk.state with failReport := value } })
  | .nested body, desk =>
      afterNested
        (Metric.Session.around Journal.reporter (fun desk => performAll body (entered desk)) desk)

def performAll : List Action -> Desk -> Metric.Ended Unit × Desk
  | [], desk => (.returned (), desk)
  | action :: rest, desk =>
      match perform action desk with
      | (.crashed, desk) => (.crashed, desk)
      | (.returned _, desk) => performAll rest desk

end

def fresh (failStart failReport : Bool) : Desk :=
  { registry := .empty, state := .blank failStart failReport }

def around (body : List Action) (desk : Desk) : Metric.Ended (Option Unit) × Desk :=
  Metric.Session.around Journal.reporter (fun desk => performAll body (entered desk)) desk

def bare (body : List Action) (desk : Desk) :
    Except Metric.ReporterError (Metric.Ended Unit) × Desk :=
  Metric.Session.bare Journal.reporter (fun desk => performAll body (entered desk)) desk

end Recital

end Simulated

end BrokerProbe
