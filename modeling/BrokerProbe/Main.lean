import BrokerProbe.Broker.Basic
import BrokerProbe.Program
/-!
# The command

Reads the file of switches, calls the program and prints its report.  No broker
client is built in, so a fleet ends where its first client would be made.
-/

namespace BrokerProbe

namespace Command

def noClient : ClientError :=
  .unavailable "no broker client is built in"

def refusing : Broker where
  listing := .error noClient.message
  offsets _ := .error noClient.message
  poll _ _ := .failed noClient.message

def connection : Program.Connection where
  clients := {
    topology := fun logbook => (.error noClient, logbook)
    reader := fun logbook => (.error noClient, logbook)
    directory := fun roster => .fixed roster }
  environment := refusing.environment

def defect : IO.Error -> Settings.FileDefect
  | .inappropriateType _ _ _ => .directory
  | _ => .missing

def readText (path : String) : IO (Except Settings.FileDefect String) := do
  try
    return Settings.decodeText (<- IO.FS.readBinFile path)
  catch error =>
    return .error (defect error)

def namedFile (arguments : List String) : IO Settings.Files := do
  match CommandLine.parse arguments with
  | .ok { appProperties := some path, .. } =>
      let content <- readText path
      return fun asked => if asked = path then content else .error .missing
  | _ => return fun _ => .error .missing

end Command

end BrokerProbe

open BrokerProbe in
def main (arguments : List String) : IO UInt32 := do
  let report := Program.run Command.connection (<- Command.namedFile arguments) arguments
  IO.print report.output
  for event in report.log do
    IO.eprintln event.line
  IO.eprint report.complaint
  return report.exitCode.toUInt32
