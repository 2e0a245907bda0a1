/-!
# Quoted text

Strings between double quotes, as JSON writes them.  Writing escapes quotes,
backslashes and control characters; reading goes one character at a time, so
that a reader of a larger text can hand each character on.
-/

namespace BrokerProbe

namespace Text

/-!
# Writing
-/

def hexDigit (digit : Nat) : Char :=
  if digit < 10 then Char.ofNat (48 + digit) else Char.ofNat (87 + digit)

def escapeByNumber (c : Char) : List Char :=
  ['\\', 'u', '0', '0', hexDigit (c.toNat / 16), hexDigit (c.toNat % 16)]

def escape (c : Char) : List Char :=
  match c with
  | '"' => ['\\', '"']
  | '\\' => ['\\', '\\']
  | '\x08' => ['\\', 'b']
  | '\x0c' => ['\\', 'f']
  | '\n' => ['\\', 'n']
  | '\r' => ['\\', 'r']
  | '\t' => ['\\', 't']
  | c => if c.toNat < 32 then escapeByNumber c else [c]

def quoteChars (cs : List Char) : List Char :=
  '"' :: cs.flatMap escape ++ ['"']

def quote (text : String) : String :=
  String.ofList (quoteChars text.toList)

/-!
# Reading
-/

def hexValue? (c : Char) : Option Nat :=
  if '0' <= c && c <= '9' then some (c.toNat - 48)
  else if 'a' <= c && c <= 'f' then some (c.toNat - 87)
  else if 'A' <= c && c <= 'F' then some (c.toNat - 55)
  else none

def hexWord? : List Char -> Option Nat
  | [a, b, c, d] => do
      let a <- hexValue? a
      let b <- hexValue? b
      let c <- hexValue? c
      let d <- hexValue? d
      return ((a * 16 + b) * 16 + c) * 16 + d
  | _ => none

def unescape? : Char -> Option Char
  | '"' => some '"'
  | '\\' => some '\\'
  | '/' => some '/'
  | 'b' => some '\x08'
  | 'f' => some '\x0c'
  | 'n' => some '\n'
  | 'r' => some '\r'
  | 't' => some '\t'
  | _ => none

def isLeadSurrogate (value : Nat) : Bool :=
  0xD800 <= value && value <= 0xDBFF

def isTrailSurrogate (value : Nat) : Bool :=
  0xDC00 <= value && value <= 0xDFFF

def joinSurrogates (lead trail : Nat) : Char :=
  Char.ofNat (0x10000 + (lead - 0xD800) * 1024 + (trail - 0xDC00))

/--
Where a reader stands inside a string: between two characters, after a
backslash, among the digits of a number (perhaps the second of a pair), or
after the first number of a pair.
-/
inductive Spot where
  | between
  | escaped
  | number (lead : Option Nat) (seen : List Char)
  | paired (lead : Nat)
  | pairedEscaped (lead : Nat)
  deriving DecidableEq, Repr

structure Scan where
  spot : Spot
  taken : List Char
  deriving DecidableEq, Repr

inductive ScanStep where
  | more (scan : Scan)
  | closed (content : List Char)
  | malformed
  deriving DecidableEq, Repr

/--
How strictly strings are read.  Strings that are only passed over need four
digits in a number but no proper pairs of surrogates.
-/
inductive Care where
  | kept
  | skipped
  deriving DecidableEq, Repr

namespace Scan

def opened : Scan :=
  { spot := .between, taken := [] }

def take (scan : Scan) (c : Char) : ScanStep :=
  .more { spot := .between, taken := c :: scan.taken }

def move (scan : Scan) (spot : Spot) : ScanStep :=
  .more { scan with spot }

def settle (scan : Scan) (care : Care) (lead : Option Nat) (value : Nat) : ScanStep :=
  match care, lead with
  | .skipped, _ => scan.move .between
  | .kept, none =>
      if isTrailSurrogate value then .malformed
      else if isLeadSurrogate value then scan.move (.paired value)
      else scan.take (Char.ofNat value)
  | .kept, some lead =>
      if isTrailSurrogate value then scan.take (joinSurrogates lead value) else .malformed

def byteCount (cs : List Char) : Nat :=
  (cs.map Char.utf8Size).foldr (· + ·) 0

def step (care : Care) (scan : Scan) (c : Char) : ScanStep :=
  match scan.spot with
  | .between =>
      if c = '"' then .closed scan.taken.reverse
      else if c = '\\' then scan.move .escaped
      else if c.toNat < 32 then .malformed
      else scan.take c
  | .escaped =>
      if c = 'u' then scan.move (.number none [])
      else
        match unescape? c with
        | some plain => scan.take plain
        | none => .malformed
  | .number lead seen =>
      let seen := seen ++ [c]
      if byteCount seen < 4 then scan.move (.number lead seen)
      else
        match hexWord? seen with
        | some value => scan.settle care lead value
        | none => .malformed
  | .paired lead =>
      if c = '\\' then scan.move (.pairedEscaped lead) else .malformed
  | .pairedEscaped lead =>
      if c = 'u' then scan.move (.number (some lead) []) else .malformed

def run? (care : Care) (scan : Scan) : List Char -> Option (List Char × List Char)
  | [] => none
  | c :: rest =>
      match scan.step care c with
      | .more next => run? care next rest
      | .closed content => some (content, rest)
      | .malformed => none

end Scan

def unquote? : List Char -> Option (List Char × List Char)
  | '"' :: rest => Scan.opened.run? .kept rest
  | _ => none

end Text

end BrokerProbe
