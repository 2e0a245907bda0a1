import BrokerProbe.CommandLine.Basic
/-!
# Reading the command line

Arguments are read from left to right, and the first refusal is the answer.  The
value of an option is attached to it by an equals sign, or follows it and does
not look like an option.  A value that follows is looked at when the next option
is taken in, or at the end; an argument that means nothing is refused at once.
-/

namespace BrokerProbe

namespace CommandLine

inductive Token where
  | separator
  | long (name : String) (attached : Option String)
  | short (letter : Char)
  | plain (text : String)
  deriving DecidableEq, Repr

namespace Token

def attached? : List Char -> Option String
  | [] => none
  | _ :: rest => some (String.ofList rest)

def ofChars : List Char -> Token
  | ['-', '-'] => separator
  | '-' :: '-' :: rest =>
      long (String.ofList (rest.takeWhile (· != '=')))
        (attached? (rest.dropWhile (· != '=')))
  | '-' :: letter :: _ => short letter
  | cs => plain (String.ofList cs)

def ofString (argument : String) : Token :=
  ofChars argument.toList

end Token

def parameter? (name : String) : Option Parameter :=
  Parameter.all.find? fun parameter => parameter.name == name

def toggle? (name : String) : Option Toggle :=
  Toggle.all.find? fun toggle => toggle.name == name

def shortToggle? : Char -> Option Toggle
  | 'h' => some .help
  | 'V' => some .version
  | _ => none

def role? (text : String) : Option Role :=
  match Role.parse text with
  | .ok .producer => none
  | .ok role => some role
  | .error _ => none

def required {Value : Type} (parameter : Parameter) (value : Option Value) :
    Except Refusal Value :=
  match value with
  | some value => .ok value
  | none => .error (.badValue parameter.flag)

def assign (arguments : Arguments) (parameter : Parameter) (text : String) :
    Except Refusal Arguments := do
  if arguments.has parameter then .error (.repeated parameter.flag)
  else
    match parameter with
    | .clusterName => return { arguments with clusterName := some text }
    | .bootstrapServers => return { arguments with bootstrapServers := some text }
    | .peer => return { arguments with peers := arguments.peers ++ [text] }
    | .serviceAddress => return { arguments with serviceAddress := some text }
    | .appProperties =>
        if text.isEmpty then .error (.missingValue parameter.flag)
        else return { arguments with appProperties := some text }
    | .role =>
        let role <- required parameter (role? text)
        return { arguments with roles := arguments.roles ++ [role] }
    | .roundInterval =>
        let value <- required parameter (Text.word? text)
        return { arguments with roundInterval := some value }
    | .maxRounds =>
        let value <- required parameter (Text.word? text)
        return { arguments with maxRounds := some value }
    | .metadataTimeout =>
        let value <- required parameter (Text.word? text)
        return { arguments with metadataTimeout := some value }
    | .readTimeout =>
        let value <- required parameter (Text.word? text)
        return { arguments with readTimeout := some value }
    | .logLevel =>
        let severity <- required parameter (Severity.parse? text)
        return { arguments with logLevel := some severity }

def switchOn (arguments : Arguments) : Toggle -> Except Refusal Arguments
  | .help => .error .help
  | .version => .error .version
  | .internalTopics =>
      if arguments.internalTopics then .error (.repeated Toggle.internalTopics.flag)
      else .ok { arguments with internalTopics := true }

/-!
# Reading argument by argument
-/

/-- An option without a value attached, and the value that has followed it. -/
structure Pending where
  parameter : Parameter
  value : Option String
  deriving DecidableEq, Repr

structure Progress where
  arguments : Arguments
  pending : Option Pending
  deriving DecidableEq, Repr

namespace Progress

def start : Progress :=
  { arguments := .none, pending := none }

def settle (progress : Progress) : Except Refusal Arguments :=
  match progress.pending with
  | none => .ok progress.arguments
  | some pending =>
      match pending.value with
      | some text => assign progress.arguments pending.parameter text
      | none => .error (.missingValue pending.parameter.flag)

def assign (progress : Progress) (parameter : Parameter) (text : String) :
    Except Refusal Progress := do
  let arguments <- progress.settle
  return { arguments := <- CommandLine.assign arguments parameter text, pending := none }

def await (progress : Progress) (parameter : Parameter) : Except Refusal Progress := do
  return { arguments := <- progress.settle, pending := some { parameter, value := none } }

def switchOn (progress : Progress) (toggle : Toggle) : Except Refusal Progress := do
  let arguments <- progress.settle
  return { arguments := <- CommandLine.switchOn arguments toggle, pending := none }

def takeLong (progress : Progress) (name : String) (attached : Option String) :
    Except Refusal Progress :=
  match parameter? name, toggle? name, attached with
  | some parameter, _, some text => progress.assign parameter text
  | some parameter, _, none => progress.await parameter
  | none, some toggle, none => progress.switchOn toggle
  | none, some toggle, some _ => .error (.needlessValue toggle.flag)
  | none, none, _ => .error (.unknown ("--" ++ name))

def takeShort (progress : Progress) (letter : Char) : Except Refusal Progress :=
  match shortToggle? letter with
  | some toggle => progress.switchOn toggle
  | none => .error (.unknown ("-" ++ String.singleton letter))

def takePlain (progress : Progress) (text : String) : Except Refusal Progress :=
  match progress.pending with
  | some { parameter, value := none } =>
      .ok { progress with pending := some { parameter, value := some text } }
  | _ => .error (.unknown text)

def readAll (progress : Progress) : List String -> Except Refusal Arguments
  | [] => progress.settle
  | argument :: rest =>
      match Token.ofString argument with
      | .long name attached => do (<- progress.takeLong name attached).readAll rest
      | .short letter => do (<- progress.takeShort letter).readAll rest
      | .plain text => do (<- progress.takePlain text).readAll rest
      | .separator =>
          match rest with
          | [] => progress.settle
          | next :: _ => .error (.unknown next)

end Progress

def parse (arguments : List String) : Except Refusal Arguments :=
  Progress.start.readAll arguments

end CommandLine

end BrokerProbe
