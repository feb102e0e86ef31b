import PodSizing.Decimal.Reader
import PodSizing.Text.Basic
import PodSizing.Text.Bytes
import PodSizing.Text.Pattern

/-!
# Log directives

A directive gives a level to records of a target, to those inside a span of a name or with certain
fields, or to all records. It is read character by character, and its parts are cut from the text at
the marks between them. Marks are counted from the first character that is no blank, but parts are
cut from the whole text: blanks in front shift every part to the left.
-/
namespace PodSizing

/-- The value that a field of a span must have. A text is what it can be read as first. -/
inductive FieldValue where
  | truth (b : Bool)
  | natural (n : Nat)
  | integer (n : Int)
  | floating (x : FloatingNumber)
  | pattern (text : List Char)
  deriving DecidableEq, Repr

namespace FieldValue

def text : FieldValue → String
  | .truth b => if b then "true" else "false"
  | .natural n => String.ofList (Text.numeral n)
  | .integer n => String.ofList (Text.signedNumeral n)
  | .floating x => x.text
  | .pattern text => String.ofList text

def isSame : (a b : FieldValue) → Bool
  | .floating x, .floating y => x.isSame y
  | a, b => a = b

def readTruth? (cs : List Char) : Option Bool :=
  if cs = ['t', 'r', 'u', 'e'] then some true
  else if cs = ['f', 'a', 'l', 's', 'e'] then some false
  else none

def readNatural? (cs : List Char) : Option Nat := (Text.readNatural Text.maxNat64 cs).toOption

/-- The value that a text stands for, unless it is none but an ill-formed pattern. -/
def read? (cs : List Char) : Option FieldValue :=
  ((readTruth? cs).map truth).or <|
    ((readNatural? cs).map natural).or <|
    ((Text.readInteger? Text.maxInt64 cs).map integer).or <|
    ((FloatingNumber.read? cs).map floating).or <|
    if Text.Pattern.isValid cs then some (.pattern cs) else none

end FieldValue

inductive LogLevel where
  | off
  | error
  | warn
  | info
  | debug
  | trace
  deriving DecidableEq, Repr

namespace LogLevel

def all : List LogLevel := [.off, .error, .warn, .info, .debug, .trace]

def text : LogLevel → String
  | .off => "off"
  | .error => "error"
  | .warn => "warn"
  | .info => "info"
  | .debug => "debug"
  | .trace => "trace"

def ofWord? (cs : List Char) : Option LogLevel :=
  all.find? fun l => l.text.toList = cs.map Char.toLower

/-- A level by its number or its name. -/
def ofText? (cs : List Char) : Option LogLevel :=
  match Text.readNatural Text.maxNat64 cs with
  | .ok n => all[n]?
  | .error _ => ofWord? cs

end LogLevel

/-- A field that a span must have, with a value or with any. -/
structure FieldMatch where
  name : List Char
  value : Option FieldValue := none
  deriving DecidableEq, Repr

namespace FieldMatch

def text (f : FieldMatch) : String :=
  String.ofList f.name ++
    match f.value with
    | some value => "=" ++ value.text
    | none => ""

def isSame (a b : FieldMatch) : Bool :=
  a.name = b.name &&
    match a.value, b.value with
    | some v, some w => v.isSame w
    | none, none => true
    | _, _ => false

/-- A name, and a value between the first two equality signs behind it. -/
def read? (cs : List Char) : Option FieldMatch :=
  match Text.splitAt '=' cs with
  | name :: value :: _ => (FieldValue.read? value).map fun value => ⟨name, some value⟩
  | [name] => some ⟨name, none⟩
  | [] => none

end FieldMatch

/-- Which records a directive is about. -/
structure LogScope where
  target : Option (List Char) := none
  span : Option (List Char) := none
  fields : List FieldMatch := []
  deriving DecidableEq, Repr

namespace LogScope

/-- Whether only a span in progress can tell if a record is meant. -/
def isDynamic (s : LogScope) : Bool := s.span.isSome || !s.fields.isEmpty

/-- Whether a record alone can tell if it may be meant. -/
def isStatic (s : LogScope) : Bool := s.span.isNone && s.fields.all (·.value.isNone)

def text (s : LogScope) : String :=
  let fields :=
    if s.fields.isEmpty then ""
    else "\x7b" ++ ",".intercalate (s.fields.map (·.text)) ++ "\x7d"
  String.ofList (s.target.getD []) ++
    if s.isDynamic then "[" ++ String.ofList (s.span.getD []) ++ fields ++ "]" else ""

def isSame (a b : LogScope) : Bool :=
  a.target = b.target && a.span = b.span && a.fields.length = b.fields.length &&
    (a.fields.zip b.fields).all fun p => p.1.isSame p.2

end LogScope

inductive LogFilterError where
  | illFormed
  | cut (error : Text.CutError)
  deriving DecidableEq, Repr

structure LogDirective where
  scope : LogScope := {}
  level : LogLevel := .trace
  deriving DecidableEq, Repr

namespace LogDirective

def text (d : LogDirective) : String :=
  (if d.scope.target.isSome || d.scope.isDynamic then d.scope.text ++ "=" else "") ++ d.level.text

/-- Where in a directive a mark may stand, with the position at which the part under way begins. -/
inductive Place where
  | start
  | word
  | span (first : Nat)
  | field (first : Nat)
  | afterField
  | afterSpan
  | level (first : Nat)
  deriving DecidableEq, Repr

abbrev Reading := Except LogFilterError

def cut (text : List Char) (lower upper : Nat) : Reading (List Char) :=
  (Text.slice lower upper text).mapError .cut

def orIllFormed {α : Type} : Option α → Reading α
  | some a => .ok a
  | none => .error .illFormed

def mayStart (c : Char) : Bool := c = '-' || c = ':' || c = '_' || Text.isAlphanumeric c

def addField (d : LogDirective) (part : List Char) : Reading LogDirective :=
  if part.isEmpty then .error .illFormed
  else
    (orIllFormed (FieldMatch.read? part)).map fun f =>
      { d with scope := { d.scope with fields := d.scope.fields ++ [f] } }

/-- What a character of the text leads to, at its position. -/
def step (text : List Char) (position : Nat) (c : Char) (d : LogDirective) :
    Place → Reading (LogDirective × Place)
  | .start =>
    if c = '[' then .ok (d, .span (position + 1))
    else if mayStart c then .ok (d, .word)
    else .error .illFormed
  | .word =>
    if c = '=' || c = '[' then do
      let target ← cut text 0 position
      let next := if c = '=' then Place.level (position + 1) else .span (position + 1)
      return ({ d with scope := { d.scope with target := some target } }, next)
    else .ok (d, .word)
  | .span first =>
    if c = ']' || c = '\x7b' then do
      let name ← cut text first position
      let span := if c = '\x7b' && name.isEmpty then none else some name
      let next := if c = ']' then Place.afterSpan else .field (position + 1)
      return ({ d with scope := { d.scope with span } }, next)
    else .ok (d, .span first)
  | .field first =>
    if c = '\x7d' then do
      return (← addField d (← cut text first position), .afterField)
    else .ok (d, .field first)
  | .afterField => if c = ']' then .ok (d, .afterSpan) else .error .illFormed
  | .afterSpan => if c = '=' then .ok (d, .level (position + 1)) else .error .illFormed
  | .level first => .ok (d, .level first)

/-- Reads on to the end of the characters, from a position on. -/
def readFrom (text : List Char) : (position : Nat) → List Char → LogDirective → Place →
    Reading (LogDirective × Place)
  | _, [], d, place => .ok (d, place)
  | position, c :: cs, d, place => do
    let (d, place) ← step text position c d place
    readFrom text (position + c.utf8Size) cs d place

/-- The directive that a text gives when it ends at a place. A word alone is a level or a target. -/
def finish (text : List Char) (d : LogDirective) : Place → Reading LogDirective
  | .word =>
    match LogLevel.ofText? text with
    | some level => .ok { d with level }
    | none => .ok { d with scope := { d.scope with target := some text } }
  | .level first => do
    let part ← cut text first (Text.byteLength text)
    if part.isEmpty then return d
    else return { d with level := ← orIllFormed (LogLevel.ofText? part) }
  | .afterSpan => .ok d
  | .start | .span _ | .field _ | .afterField => .error .illFormed

def read (text : List Char) : Reading LogDirective := do
  let (d, place) ← readFrom text 0 (Text.trimChars text) {} .start
  finish text d place

end LogDirective
end PodSizing
