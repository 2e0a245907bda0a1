import BrokerProbe.Metric.Reporter
import BrokerProbe.Queue
/-!
# Journals

A reporter that writes down every call and fails on demand.
-/

namespace BrokerProbe

namespace Simulated

structure Journal where
  calls : Queue String
  failStart : Bool
  failReport : Bool
  starts : Nat
  reports : Nat
  stops : Nat
  deriving Repr

namespace Journal

def blank (failStart failReport : Bool) : Journal :=
  { calls := .empty, failStart, failReport, starts := 0, reports := 0, stops := 0 }

def reason : String := "scripted"

def note (journal : Journal) (call : String) : Journal :=
  { journal with calls := journal.calls.push call }

def start (journal : Journal) : Except Metric.ReporterError Unit × Journal :=
  (if journal.failStart then .error (.start reason) else .ok (),
    { journal with starts := journal.starts + 1 }.note "start")

def report (registry : Metric.Registry) (journal : Journal) :
    Except Metric.ReporterError Unit × Journal :=
  (if journal.failReport then .error (.report reason) else .ok (),
    { journal with reports := journal.reports + 1 }.note
      ("report " ++ String.intercalate "," registry.names))

def stop (journal : Journal) : Journal :=
  { journal with stops := journal.stops + 1 }.note "stop"

def reporter : Metric.Reporter Journal where
  start := start
  report := report
  stop := stop

end Journal

end Simulated

end BrokerProbe
