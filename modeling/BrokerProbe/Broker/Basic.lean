import BrokerProbe.Broker.Listing
import BrokerProbe.Fleet
/-!
# Brokers

A broker as a client sees it: a listing of topics, the offsets between which a
partition holds records, and polls for one record.  One read of a partition is
the request for its offsets and, unless it is empty, a poll for its last record.
-/

namespace BrokerProbe

namespace Broker

inductive Polled where
  | record
  | failed (cause : String)
  | nothing
  deriving DecidableEq, Repr

end Broker

structure Broker where
  listing : Except String (List Topic)
  offsets : Partition -> Except String (Int × Int)
  poll : Partition -> Int -> Broker.Polled

namespace Broker

def fetch (broker : Broker) (settings : Settings) : Except ClientError Topology :=
  match broker.listing with
  | .ok listing => .ok (topology settings.includeInternal listing)
  | .error cause => .error (.broker cause)

/-- Reads the last record of a partition; an empty partition need not be polled. -/
def read (broker : Broker) (settings : Settings) (partition : Partition) :
    Except ClientError Unit :=
  match broker.offsets partition with
  | .error cause => .error (.broker cause)
  | .ok (low, high) =>
      if high <= low then .ok ()
      else
        match broker.poll partition (high - 1) with
        | .record => .ok ()
        | .failed cause => .error (.broker cause)
        | .nothing => .error (.timeout "poll" settings.readTimeout)

def surroundings (broker : Broker) (settings : Settings) :
    Round.Surroundings Metric.Logbook where
  fetch logbook := ({ elapsed := 0, value := broker.fetch settings }, logbook)
  close logbook := logbook
  peers logbook := (.error (.unavailable "no directory service"), logbook)
  read partition logbook := (.answered 0 (broker.read settings partition), logbook)
  tell event logbook := logbook.write event

def environment (broker : Broker) (settings : Settings) : Environment Metric.Logbook where
  surroundings := broker.surroundings settings
  reporter := Metric.Logbook.reporter

/-- Clients that are there at once; the instances are those that the settings list. -/
def clients : Clients Metric.Logbook where
  topology logbook := (.ok (), logbook)
  reader logbook := (.ok (), logbook)
  directory roster := .fixed roster

end Broker

end BrokerProbe
