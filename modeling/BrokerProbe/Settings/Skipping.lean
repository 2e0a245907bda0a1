import BrokerProbe.Text.Numeral
import BrokerProbe.Text.Quoted
/-!
# Values that are passed over

A JSON value of no interest is read one character at a time and forgotten.  Its
grammar is enforced in full, at any depth; only the size of numbers and the
pairing of surrogates do not matter.
-/

namespace BrokerProbe

namespace Settings

inductive Defect where
  | cutShort
  | wrongType
  | malformed
  deriving DecidableEq, Repr

def isJsonBlank (c : Char) : Bool :=
  c == ' ' || c == '\t' || c == '\n' || c == '\r'

inductive Frame where
  | list
  | object
  deriving DecidableEq, Repr

def Frame.closing : Frame -> Char
  | list => ']'
  | object => '}'

inductive SkipPlace where
  | value
  | opened
  | after
  | key
  | keyText (scan : Text.Scan)
  | colon
  | word (left : List Char)
  | text (scan : Text.Scan)
  | numeral (spot : Text.NumeralSpot)
  deriving DecidableEq, Repr

structure Skip where
  place : SkipPlace
  frames : List Frame
  deriving DecidableEq, Repr

inductive SkipStep where
  | more (skip : Skip)
  | ended
  | endedBefore
  | failed (defect : Defect)
  deriving DecidableEq, Repr

def literalRest? : Char -> Option (List Char)
  | 't' => some ['r', 'u', 'e']
  | 'f' => some ['a', 'l', 's', 'e']
  | 'n' => some ['u', 'l', 'l']
  | _ => none

namespace Skip

def start : Skip :=
  { place := .value, frames := [] }

def move (skip : Skip) (place : SkipPlace) : SkipStep :=
  .more { skip with place }

/-- An inner value ended; without an open frame, so did the whole. -/
def finish (skip : Skip) : SkipStep :=
  if skip.frames.isEmpty then .ended else skip.move .after

def stepValue (skip : Skip) (c : Char) : SkipStep :=
  if isJsonBlank c then .more skip
  else if c = '"' then skip.move (.text .opened)
  else if c = '[' then .more { place := .opened, frames := .list :: skip.frames }
  else if c = '{' then .more { place := .opened, frames := .object :: skip.frames }
  else
    match literalRest? c, Text.NumeralSpot.first? c with
    | some left, _ => skip.move (.word left)
    | none, some spot => skip.move (.numeral spot)
    | none, none => .failed .malformed

def stepKey (skip : Skip) (c : Char) : SkipStep :=
  if isJsonBlank c then .more skip
  else if c = '"' then skip.move (.keyText .opened)
  else .failed .malformed

def stepAfter (frame : Frame) (outer : List Frame) (skip : Skip) (c : Char) : SkipStep :=
  if isJsonBlank c then .more skip
  else if c = ',' then
    match frame with
    | .list => skip.move .value
    | .object => skip.move .key
  else if c = frame.closing then finish { skip with frames := outer }
  else .failed .malformed

def stepOpened (frame : Frame) (outer : List Frame) (skip : Skip) (c : Char) : SkipStep :=
  if isJsonBlank c then .more skip
  else if c = frame.closing then finish { skip with frames := outer }
  else
    match frame with
    | .list => skip.stepValue c
    | .object => skip.stepKey c

def step (skip : Skip) (c : Char) : SkipStep :=
  match skip.place, skip.frames with
  | .value, _ => skip.stepValue c
  | .key, _ => skip.stepKey c
  | .opened, frame :: outer => skip.stepOpened frame outer c
  | .opened, [] => .failed .malformed
  | .after, frame :: outer => skip.stepAfter frame outer c
  | .after, [] => .endedBefore
  | .keyText scan, _ =>
      match scan.step .skipped c with
      | .more scan => skip.move (.keyText scan)
      | .closed _ => skip.move .colon
      | .malformed => .failed .malformed
  | .colon, _ =>
      if isJsonBlank c then .more skip
      else if c = ':' then skip.move .value
      else .failed .malformed
  | .word [], _ => .failed .malformed
  | .word (expected :: left), _ =>
      if c ≠ expected then .failed .malformed
      else if left.isEmpty then skip.finish
      else skip.move (.word left)
  | .text scan, _ =>
      match scan.step .skipped c with
      | .more scan => skip.move (.text scan)
      | .closed _ => skip.finish
      | .malformed => .failed .malformed
  | .numeral spot, frames =>
      match spot.step c with
      | .more spot => skip.move (.numeral spot)
      | .malformed => .failed .malformed
      | .ended =>
          match frames with
          | [] => .endedBefore
          | frame :: outer => stepAfter frame outer { skip with place := .after } c

def defectAtEnd (skip : Skip) : Defect :=
  match skip.place with
  | .numeral spot => if spot.isComplete then .cutShort else .malformed
  | _ => .cutShort

end Skip

end Settings

end BrokerProbe
