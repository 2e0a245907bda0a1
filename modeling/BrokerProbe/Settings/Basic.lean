import BrokerProbe.Settings.Reader
import BrokerProbe.Text.Blank
import BrokerProbe.Topology.Roster
/-!
# Settings

Everything an instance is told before it starts, and the checks that it has to
pass.
-/

namespace BrokerProbe

structure Settings where
  cluster : String
  servers : String
  roster : Roster
  address : String
  roles : List Role
  switches : Settings.Switches
  metadataTimeout : Nat
  readTimeout : Nat
  roundInterval : Nat
  maxRounds : Option Nat
  includeInternal : Bool
  deriving DecidableEq, Repr

namespace Settings

/-!
# Errors
-/

inductive FileDefect where
  | missing
  | directory
  | notText
  deriving DecidableEq, Repr

def FileDefect.message : FileDefect -> String
  | missing => "No such file or directory (os error 2)"
  | directory => "Is a directory (os error 21)"
  | notText => "stream did not contain valid UTF-8"

inductive Invalidity where
  | blankCluster
  | blankServers
  | noRole
  | producer
  | repeatedRole
  | zeroTimeout
  | zeroRounds
  | repeatedPeer (address : String)
  | notInRoster (address : String) (size : Nat)
  deriving DecidableEq, Repr

def Invalidity.reason : Invalidity -> String
  | blankCluster => "cluster name must not be empty"
  | blankServers => "bootstrap servers must not be empty"
  | noRole => "at least one role is required"
  | producer => "the producer role is not supported"
  | repeatedRole => "each role may be given once"
  | zeroTimeout => "client timeouts must be non-zero"
  | zeroRounds => "max rounds must be at least 1"
  | repeatedPeer address => "peer " ++ address ++ " is listed more than once"
  | notInRoster address size =>
      "service address " ++ address ++ " is not in the peer list of " ++ toString size ++
        " instances"

inductive Error where
  | unreadable (path : String) (defect : FileDefect)
  | illWritten (defect : Defect)
  | invalid (invalidity : Invalidity)
  deriving DecidableEq, Repr

namespace Error

def readFailure (path reason : String) : String :=
  "failed to read " ++ path ++ ": " ++ reason

def invalidSettings (reason : String) : String :=
  "invalid configuration: " ++ reason

def defectText : Defect -> String
  | .cutShort => "the text ends too early"
  | .wrongType => "a value has the wrong type or a member is repeated"
  | .malformed => "the text is malformed"

def message : Error -> String
  | unreadable path defect => readFailure path defect.message
  | illWritten defect => "failed to parse app properties: " ++ defectText defect
  | invalid invalidity => invalidSettings invalidity.reason

end Error

/-!
# Switches from files
-/

abbrev Files := String -> Except FileDefect String

def decodeText (bytes : ByteArray) : Except FileDefect String :=
  match String.fromUTF8? bytes with
  | some text => .ok text
  | none => .error .notText

def Switches.load (files : Files) (path : String) : Except Error Switches :=
  match files path with
  | .error defect => .error (.unreadable path defect)
  | .ok text => (Switches.parse text).mapError .illWritten

/-!
# Settings and their checks
-/

def ofNames (cluster servers address : String) : Settings :=
  { cluster
    servers
    roster := { addresses := [] }
    address
    roles := [.consumer]
    switches := .default
    metadataTimeout := 10000
    readTimeout := 5000
    roundInterval := 1000
    maxRounds := none
    includeInternal := false }

def invalidity? (settings : Settings) : Option Invalidity :=
  if Text.isBlank settings.cluster then some .blankCluster
  else if Text.isBlank settings.servers then some .blankServers
  else if settings.roles.isEmpty then some .noRole
  else if settings.roles.contains .producer then some .producer
  else if (firstRepeat? settings.roles).isSome then some .repeatedRole
  else if settings.metadataTimeout = 0 || settings.readTimeout = 0 then some .zeroTimeout
  else if settings.maxRounds = some 0 then some .zeroRounds
  else
    match settings.roster.firstDuplicate? with
    | some address => some (.repeatedPeer address)
    | none =>
        if settings.roster.isEmpty || settings.roster.contains settings.address then none
        else some (.notInRoster settings.address settings.roster.size)

def validate (settings : Settings) : Except Error Unit :=
  match settings.invalidity? with
  | some invalidity => .error (.invalid invalidity)
  | none => .ok ()

def group (settings : Settings) : String :=
  "vigil-" ++ settings.cluster

def label (settings : Settings) : String :=
  match settings.switches.environment with
  | some environment => environment ++ "." ++ settings.cluster
  | none => settings.cluster

end Settings

end BrokerProbe
