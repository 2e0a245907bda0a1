import BrokerProbe.CommandLine.Render
import BrokerProbe.Main
import BrokerProbe.Simulated.Broker
import BrokerProbe.Simulated.Factory
import BrokerProbe.Simulated.Recital
import BrokerProbe.Simulated.Rehearsal
import BrokerProbe.Proofs.Barrier.Invariant
import BrokerProbe.Proofs.Barrier.Hold
import BrokerProbe.Proofs.Worker.Step
import BrokerProbe.Proofs.Crew.Record
import BrokerProbe.Proofs.Crew.Account
import BrokerProbe.Proofs.Crew.LockStep
import BrokerProbe.Proofs.Crew.Progress
import BrokerProbe.Proofs.Crew.Muster
import BrokerProbe.Proofs.Worker.Limit
import BrokerProbe.Proofs.Crew.Completion
import BrokerProbe.Proofs.Crew.Shutdown
import BrokerProbe.Proofs.Crew.Inquiry
import BrokerProbe.Proofs.Crew.Session
import BrokerProbe.Proofs.Crew.Reporting
import BrokerProbe.Proofs.Crew.Bracketing
import BrokerProbe.Proofs.Barrier.Awaiting
import BrokerProbe.Proofs.Barrier.Membership
import BrokerProbe.Proofs.Dialogue.Conversation
import BrokerProbe.Proofs.Text.Spelling
import BrokerProbe.Proofs.Text.Quoted
import BrokerProbe.Proofs.Json.Grammar
import BrokerProbe.Proofs.Json.Unambiguous
import BrokerProbe.Proofs.Text.Numeral
import BrokerProbe.Proofs.Metric.Key
import BrokerProbe.Proofs.Metric.Traffic
import BrokerProbe.Proofs.Metric.Window
import BrokerProbe.Proofs.Metric.Tally
import BrokerProbe.Proofs.Metric.Handles
import BrokerProbe.Proofs.Metric.Turnover
import BrokerProbe.Proofs.Round.Transcript
import BrokerProbe.Proofs.Round.Sweep
import BrokerProbe.Proofs.Round.Survey
import BrokerProbe.Proofs.Round.Scene
import BrokerProbe.Proofs.Topology.Shard
import BrokerProbe.Proofs.Round.Coverage
import BrokerProbe.Proofs.Round.Turnover
import BrokerProbe.Proofs.Round.Protocol
import BrokerProbe.Proofs.Round.Series
import BrokerProbe.Proofs.Round.Availability
import BrokerProbe.Proofs.Round.Outcome
import BrokerProbe.Proofs.Round.Enrolled
import BrokerProbe.Proofs.Settings.Validity
import BrokerProbe.Proofs.Fleet.Startup
import BrokerProbe.Proofs.Fleet.Disbanding
import BrokerProbe.Proofs.Fleet.Completion
import BrokerProbe.Proofs.Text.Bytes
import BrokerProbe.Proofs.Metric.Registry
import BrokerProbe.Proofs.Metric.Pool
import BrokerProbe.Proofs.Metric.Clients
import BrokerProbe.Proofs.Metric.Hall
import BrokerProbe.Proofs.Dialogue.Ensures
import BrokerProbe.Proofs.Metric.Locality
import BrokerProbe.Proofs.Round.Locality
import BrokerProbe.Proofs.Round.Duo
import BrokerProbe.Proofs.Dialogue.InStep
import BrokerProbe.Proofs.Metric.InStep
import BrokerProbe.Proofs.Metric.Filtering
import BrokerProbe.Proofs.Round.InStep
import BrokerProbe.Proofs.Round.Filtering
import BrokerProbe.Proofs.Metric.Growth
import BrokerProbe.Proofs.Metric.Foreign
import BrokerProbe.Proofs.Topology.Distinct
import BrokerProbe.Proofs.Round.KeySet
import BrokerProbe.Proofs.Round.Foreign
import BrokerProbe.Proofs.Settings.Skipping
import BrokerProbe.Proofs.Settings.Reading
import BrokerProbe.Proofs.Settings.Meaning
import BrokerProbe.Proofs.Settings.Rendering
import BrokerProbe.Proofs.Metric.KeyText
import BrokerProbe.Proofs.Topology.Ownership
import BrokerProbe.Proofs.Barrier.Turns
import BrokerProbe.Proofs.Metric.Retention
import BrokerProbe.Proofs.Metric.Quantile
import BrokerProbe.Proofs.Metric.Levels
import BrokerProbe.Proofs.Broker.Listing
import BrokerProbe.Proofs.CommandLine.RoundTrip
