import BrokerProbe.Settings.Basic
import BrokerProbe.Severity
/-!
# Command line options

The options of the program, the values they take, and the settings that a full
set of them amounts to.
-/

namespace BrokerProbe

namespace CommandLine

inductive Parameter where
  | clusterName
  | bootstrapServers
  | peer
  | serviceAddress
  | appProperties
  | role
  | roundInterval
  | maxRounds
  | metadataTimeout
  | readTimeout
  | logLevel
  deriving DecidableEq, Repr

inductive Toggle where
  | internalTopics
  | help
  | version
  deriving DecidableEq, Repr

namespace Parameter

def name : Parameter -> String
  | clusterName => "cluster-name"
  | bootstrapServers => "bootstrap-servers"
  | peer => "peer"
  | serviceAddress => "service-address"
  | appProperties => "app-properties"
  | role => "role"
  | roundInterval => "round-interval-ms"
  | maxRounds => "max-rounds"
  | metadataTimeout => "metadata-timeout-ms"
  | readTimeout => "read-timeout-ms"
  | logLevel => "log-level"

def all : List Parameter :=
  [clusterName, bootstrapServers, peer, serviceAddress, appProperties, role, roundInterval,
    maxRounds, metadataTimeout, readTimeout, logLevel]

def flag (parameter : Parameter) : String :=
  "--" ++ parameter.name

end Parameter

namespace Toggle

def name : Toggle -> String
  | internalTopics => "include-internal-topics"
  | help => "help"
  | version => "version"

def all : List Toggle :=
  [internalTopics, help, version]

def flag (toggle : Toggle) : String :=
  "--" ++ toggle.name

end Toggle

/-- Why there is nothing to run: the first error, or a request for information. -/
inductive Refusal where
  | help
  | version
  | unknown (token : String)
  | missingValue (option : String)
  | badValue (option : String)
  | repeated (option : String)
  | needlessValue (option : String)
  deriving DecidableEq, Repr

def Refusal.exitCode : Refusal -> Nat
  | .help => 0
  | .version => 0
  | _ => 2

structure Arguments where
  clusterName : Option String
  bootstrapServers : Option String
  peers : List String
  serviceAddress : Option String
  appProperties : Option String
  roles : List Role
  roundInterval : Option Nat
  maxRounds : Option Nat
  metadataTimeout : Option Nat
  readTimeout : Option Nat
  logLevel : Option Severity
  internalTopics : Bool
  deriving DecidableEq, Repr

namespace Arguments

def none : Arguments :=
  { clusterName := .none
    bootstrapServers := .none
    peers := []
    serviceAddress := .none
    appProperties := .none
    roles := []
    roundInterval := .none
    maxRounds := .none
    metadataTimeout := .none
    readTimeout := .none
    logLevel := .none
    internalTopics := false }

def has (arguments : Arguments) : Parameter -> Bool
  | .clusterName => arguments.clusterName.isSome
  | .bootstrapServers => arguments.bootstrapServers.isSome
  | .peer => false
  | .serviceAddress => arguments.serviceAddress.isSome
  | .appProperties => arguments.appProperties.isSome
  | .role => false
  | .roundInterval => arguments.roundInterval.isSome
  | .maxRounds => arguments.maxRounds.isSome
  | .metadataTimeout => arguments.metadataTimeout.isSome
  | .readTimeout => arguments.readTimeout.isSome
  | .logLevel => arguments.logLevel.isSome

def severity (arguments : Arguments) : Severity :=
  arguments.logLevel.getD .info

def assemble (arguments : Arguments) (switches : Settings.Switches) : Settings :=
  { cluster := arguments.clusterName.getD "kafka-cluster"
    servers := arguments.bootstrapServers.getD "localhost:9092"
    roster := { addresses := arguments.peers }
    address := arguments.serviceAddress.getD "localhost:8080"
    roles := if arguments.roles.isEmpty then [.consumer] else arguments.roles
    switches
    metadataTimeout := arguments.metadataTimeout.getD 10000
    readTimeout := arguments.readTimeout.getD 5000
    roundInterval := arguments.roundInterval.getD 1000
    maxRounds := arguments.maxRounds
    includeInternal := arguments.internalTopics }

def switches (arguments : Arguments) (files : Settings.Files) :
    Except Settings.Error Settings.Switches :=
  match arguments.appProperties with
  | some path => Settings.Switches.load files path
  | .none => .ok .default

def settings (arguments : Arguments) (files : Settings.Files) :
    Except Settings.Error Settings := do
  let switches <- arguments.switches files
  let settings := arguments.assemble switches
  settings.validate
  return settings

end Arguments

end CommandLine

end BrokerProbe
