import BrokerProbe.Metric.Reporter
/-!
# Sessions

A session brackets a piece of work: the reporter starts, the work runs, the
registry is reported, the reporter stops.  The stop comes on every way out, also
when the start fails and when the work crashes.
-/

namespace BrokerProbe

namespace Metric

inductive Ended (Value : Type) where
  | returned (value : Value)
  | crashed

structure Desk (State : Type) where
  registry : Registry
  state : State

namespace Session

variable {State Value : Type}

def stop (reporter : Reporter State) (desk : Desk State) : Desk State :=
  { desk with state := reporter.stop desk.state }

/-- Reports the registry; a failure to report is not the session's concern. -/
def report (reporter : Reporter State) (desk : Desk State) : Desk State :=
  { desk with state := (reporter.report desk.registry desk.state).2 }

def bare (reporter : Reporter State)
    (work : Desk State -> Ended Value × Desk State) (desk : Desk State) :
    Except ReporterError (Ended Value) × Desk State :=
  let started := reporter.start desk.state
  let desk := { desk with state := started.2 }
  match started.1 with
  | .error error => (.error error, stop reporter desk)
  | .ok _ =>
      let worked := work desk
      (.ok worked.1, stop reporter worked.2)

/-- Runs work in a session that reports when the work returns; no value if it did not start. -/
def around (reporter : Reporter State)
    (work : Desk State -> Ended Value × Desk State) (desk : Desk State) :
    Ended (Option Value) × Desk State :=
  let reporting (desk : Desk State) :=
    match work desk with
    | (.returned value, desk) => (Ended.returned value, report reporter desk)
    | (.crashed, desk) => (.crashed, desk)
  match bare reporter reporting desk with
  | (.ok (.returned value), desk) => (.returned (some value), desk)
  | (.ok .crashed, desk) => (.crashed, desk)
  | (.error _, desk) => (.returned none, desk)

end Session

end Metric

end BrokerProbe
