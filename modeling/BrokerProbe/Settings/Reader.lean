import BrokerProbe.Settings.Skipping
import BrokerProbe.Settings.Switches
/-!
# Reading switches

Switches are read from an object with any of the members in any order, or from a
list of the first few values in the order of writing.  What is not mentioned
keeps its default, and unknown members are passed over.  The text is read from
left to right, one character at a time, and the first defect is the answer.
-/

namespace BrokerProbe

namespace Settings

namespace Reader

inductive Holder where
  | member
  | element (count : Nat)
  deriving DecidableEq, Repr

/-- What a complete literal or string means where it stands. -/
inductive Meaning where
  | switch (switch : Switch) (value : Bool)
  | environment (name : Option String)
  | unfit
  deriving DecidableEq, Repr

inductive Place where
  | start
  | firstKey
  | nextKey
  | key (scan : Text.Scan)
  | colon (member : Option Member)
  | value (member : Member)
  | word (left : List Char) (meaning : Meaning) (holder : Holder)
  | text (scan : Text.Scan) (fits : Bool) (holder : Holder)
  | numeral (spot : Text.NumeralSpot) (magnitude : Text.Magnitude)
  | skip (skip : Skip)
  | afterMember
  | firstElement
  | nextElement (count : Nat)
  | afterElement (count : Nat)
  | finished
  deriving DecidableEq, Repr

end Reader

structure Reader where
  switches : Switches
  met : List Member
  place : Reader.Place
  deriving DecidableEq, Repr

namespace Reader

def start : Reader :=
  { switches := .default, met := [], place := .start }

def move (reader : Reader) (place : Place) : Except Defect Reader :=
  .ok { reader with place }

def afterValue : Holder -> Place
  | .member => .afterMember
  | .element count => .afterElement count

def accept (reader : Reader) (meaning : Meaning) (holder : Holder) : Except Defect Reader :=
  match meaning with
  | .switch switch value =>
      .ok { reader with
        switches := reader.switches.set switch value
        place := afterValue holder }
  | .environment name =>
      .ok { reader with
        switches := { reader.switches with environment := name }
        place := afterValue holder }
  | .unfit => .error .wrongType

def literalMeaning (member : Member) (letter : Char) : Meaning :=
  match member, letter with
  | .switch switch, 't' => .switch switch true
  | .switch switch, 'f' => .switch switch false
  | .environment, 'n' => .environment none
  | _, _ => .unfit

def stepToken
    (reader : Reader) (meaning : Meaning) (fits : Bool) (holder : Holder) (c : Char) :
    Except Defect Reader :=
  if c = '"' then reader.move (.text .opened fits holder)
  else
    match literalRest? c, Text.NumeralSpot.first? c with
    | some left, _ => reader.move (.word left meaning holder)
    | none, some spot => reader.move (.numeral spot (Text.Magnitude.zero.take spot c))
    | none, none => .error .malformed

def stepKnown (reader : Reader) (member : Member) (holder : Holder) (c : Char) :
    Except Defect Reader :=
  if isJsonBlank c then .ok reader
  else if c = '[' || c = '{' then .error .wrongType
  else reader.stepToken (literalMeaning member c) (member == .environment) holder c

def stepAfterMember (reader : Reader) (c : Char) : Except Defect Reader :=
  if isJsonBlank c then .ok reader
  else if c = ',' then reader.move .nextKey
  else if c = '}' then reader.move .finished
  else .error .malformed

def stepSkip (reader : Reader) (skip : Skip) (c : Char) : Except Defect Reader :=
  match skip.step c with
  | .more skip => reader.move (.skip skip)
  | .ended => reader.move .afterMember
  | .endedBefore => stepAfterMember { reader with place := .afterMember } c
  | .failed defect => .error defect

def closeKey (reader : Reader) (name : List Char) : Except Defect Reader :=
  match Member.ofName? (String.ofList name) with
  | none => reader.move (.colon none)
  | some member =>
      if reader.met.contains member then .error .wrongType
      else .ok { reader with met := member :: reader.met, place := .colon (some member) }

def stepElement (reader : Reader) (count : Nat) (c : Char) : Except Defect Reader :=
  match Member.all[count]? with
  | some member => reader.stepKnown member (.element (count + 1)) c
  | none => .error .malformed

/-- What a numeral is in the place of a switch: unfit, and malformed if it is too large. -/
def numeralDefect (magnitude : Text.Magnitude) : Defect :=
  if magnitude.overflows then .malformed else .wrongType

def step (reader : Reader) (c : Char) : Except Defect Reader :=
  match reader.place with
  | .start =>
      if isJsonBlank c then .ok reader
      else if c = '{' then reader.move .firstKey
      else if c = '[' then reader.move .firstElement
      else reader.stepToken .unfit false .member c
  | .firstKey =>
      if isJsonBlank c then .ok reader
      else if c = '}' then reader.move .finished
      else if c = '"' then reader.move (.key .opened)
      else .error .malformed
  | .nextKey =>
      if isJsonBlank c then .ok reader
      else if c = '"' then reader.move (.key .opened)
      else .error .malformed
  | .key scan =>
      match scan.step .kept c with
      | .more scan => reader.move (.key scan)
      | .closed name => reader.closeKey name
      | .malformed => .error .malformed
  | .colon member =>
      if isJsonBlank c then .ok reader
      else if c = ':' then
        match member with
        | some member => reader.move (.value member)
        | none => reader.move (.skip .start)
      else .error .malformed
  | .value member => reader.stepKnown member .member c
  | .word [] _ _ => .error .malformed
  | .word (expected :: left) meaning holder =>
      if c ≠ expected then .error .malformed
      else if left.isEmpty then reader.accept meaning holder
      else reader.move (.word left meaning holder)
  | .text scan fits holder =>
      match scan.step .kept c with
      | .more scan => reader.move (.text scan fits holder)
      | .closed content =>
          reader.accept
            (if fits then .environment (some (String.ofList content)) else .unfit) holder
      | .malformed => .error .malformed
  | .numeral spot magnitude =>
      match spot.step c with
      | .more spot => reader.move (.numeral spot (magnitude.take spot c))
      | .malformed => .error .malformed
      | .ended => .error (numeralDefect magnitude)
  | .skip skip => reader.stepSkip skip c
  | .afterMember => reader.stepAfterMember c
  | .firstElement =>
      if isJsonBlank c then .ok reader
      else if c = ']' then reader.move .finished
      else reader.stepElement 0 c
  | .nextElement count =>
      if isJsonBlank c then .ok reader
      else reader.stepElement count c
  | .afterElement count =>
      if isJsonBlank c then .ok reader
      else if c = ']' then reader.move .finished
      else if c = ',' && count < Member.all.length then reader.move (.nextElement count)
      else .error .malformed
  | .finished => if isJsonBlank c then .ok reader else .error .malformed

def finish (reader : Reader) : Except Defect Switches :=
  match reader.place with
  | .finished => .ok reader.switches
  | .numeral spot magnitude =>
      if spot.isComplete then .error (numeralDefect magnitude) else .error .cutShort
  | .skip skip => .error skip.defectAtEnd
  | _ => .error .cutShort

def run (reader : Reader) (cs : List Char) : Except Defect Reader :=
  cs.foldlM step reader

theorem run_cons (reader : Reader) (c : Char) (cs : List Char) :
    reader.run (c :: cs) = reader.step c >>= fun next => next.run cs := by
  simp [run, List.foldlM_cons]

end Reader

namespace Switches

def parseChars (cs : List Char) : Except Defect Switches :=
  Reader.start.run cs >>= Reader.finish

def parse (text : String) : Except Defect Switches :=
  parseChars text.toList

end Switches

end Settings

end BrokerProbe
