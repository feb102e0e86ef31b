import PodSizing.Text.Alphanumeric
import PodSizing.Text.Basic

/-!
# Patterns

Which texts are regular expressions: alternatives of elements that may be repeated, with groups,
classes of characters, places between characters, and modes that hold to the end of their group. The
texts are ones without closing braces, so a count or a name in braces is never complete. Places that
depend on which characters make up words are known for ASCII only.
-/
namespace PodSizing.Text.Pattern

/-- How what follows is read. -/
structure Modes where
  /-- Whether blanks and comments mean nothing. -/
  spaced : Bool := false
  /-- Whether elements match characters, and not bytes. -/
  unicode : Bool := true
  deriving DecidableEq, Repr

def skipSpace (inComment : Bool) : List Char → List Char
  | [] => []
  | c :: cs =>
    if inComment then skipSpace (c ≠ '\n') cs
    else if isBlank c then skipSpace false cs
    else if c = '#' then skipSpace true cs
    else c :: cs

def Modes.skip (m : Modes) (cs : List Char) : List Char :=
  if m.spaced then skipSpace false cs else cs

/-- What an element matches: a character, one of several, or a place between two. -/
inductive Element where
  | character (code : Nat)
  | several
  | place
  deriving DecidableEq, Repr

/-- Whether a backslash before a character only takes its meaning away. -/
def isEscapable (c : Char) : Bool :=
  c.toNat < 128 && !c.isAlphanum && c ≠ '<' && c ≠ '>'

/-- A number of so many hexadecimal digits. -/
def readHex (m : Modes) : (digits value : Nat) → List Char → Option (Nat × List Char)
  | 0, value, cs => some (value, cs)
  | digits + 1, value, cs =>
    match m.skip cs with
    | [] => none
    | c :: rest => (hexValue? c).bind fun d => readHex m digits (value * 16 + d) rest

/-- A character by its number. -/
def readCode (m : Modes) (digits : Nat) (cs : List Char) : Option (Element × List Char) :=
  (readHex m digits 0 cs).bind fun (code, rest) =>
    if !code.isValidChar || (!m.unicode && digits = 2 && 128 ≤ code) then none
    else some (.character code, rest)

/-- The general categories that have a letter of their own. -/
def categories : List Char := ['c', 'l', 'm', 'n', 'p', 's', 'z']

def readCategory (m : Modes) (cs : List Char) : Option (Element × List Char) :=
  match m.skip cs with
  | [] => none
  | c :: rest => if m.unicode && categories.contains c.toLower then some (.several, rest) else none

/-- The element that a backslash begins. -/
def readEscape (m : Modes) : List Char → Option (Element × List Char)
  | [] => none
  | c :: rest =>
    match c with
    | 'x' => readCode m 2 rest
    | 'u' => readCode m 4 rest
    | 'U' => readCode m 8 rest
    | 'p' | 'P' => readCategory m rest
    | 'd' | 's' | 'w' => some (.several, rest)
    | 'D' | 'S' | 'W' => if m.unicode then some (.several, rest) else none
    | 'a' => some (.character 0x07, rest)
    | 't' => some (.character 0x09, rest)
    | 'n' => some (.character 0x0A, rest)
    | 'v' => some (.character 0x0B, rest)
    | 'f' => some (.character 0x0C, rest)
    | 'r' => some (.character 0x0D, rest)
    | 'A' | 'z' => some (.place, rest)
    | 'b' | 'B' | '<' | '>' => if m.unicode then none else some (.place, rest)
    | _ => if isEscapable c then some (.character c.toNat, rest) else none

/-- The named classes of ASCII characters. -/
def namedClasses : List String :=
  ["alnum", "alpha", "ascii", "blank", "cntrl", "digit", "graph", "lower", "print", "punct",
   "space", "upper", "word", "xdigit"]

/-- What follows a named class, from behind its bracket. -/
def namedClass? (m : Modes) : List Char → Option (List Char)
  | ':' :: cs =>
    let (negated, cs) := match cs with
      | '^' :: rest => (true, rest)
      | rest => (false, rest)
    let name := cs.takeWhile (· ≠ ':')
    match cs.drop name.length with
    | ':' :: ']' :: rest =>
      if namedClasses.contains (String.ofList name) && (m.unicode || !negated) then some rest
      else none
    | _ => none
  | _ => none

/-- What follows hyphens or a closing bracket that stand first in a class, and so for themselves. -/
def skipFirst : List Char → List Char
  | ']' :: rest => rest
  | cs => cs.dropWhile (· = '-')

/-- What follows the start of a class, from behind its bracket. -/
def openClass (m : Modes) (cs : List Char) : Option (List Char) :=
  match m.skip cs with
  | '^' :: rest => if m.unicode then some (skipFirst (m.skip rest)) else none
  | rest => some (skipFirst rest)

def readClassElement (m : Modes) : List Char → Option (Element × List Char)
  | [] => none
  | '\\' :: rest => readEscape m rest
  | c :: rest => if m.unicode || c.toNat < 128 then some (.character c.toNat, rest) else none

/-- What follows an element of a class or a range of characters in it. -/
def readClassItem (m : Modes) (cs : List Char) : Option (List Char) := do
  let (first, rest) ← readClassElement m cs
  let single (rest : List Char) := if first = .place then none else some rest
  match m.skip rest with
  | '-' :: more =>
    match m.skip more with
    | [] => none
    | ']' :: _ | '-' :: _ => single ('-' :: more)
    | more => do
      let (last, rest) ← readClassElement m more
      match first, last with
      | .character a, .character b => if a ≤ b then some rest else none
      | _, _ => none
  | rest => single rest

/-- What follows a class, from behind its start, with so many classes open inside it. -/
def readClass (m : Modes) : (fuel depth : Nat) → List Char → Option (List Char)
  | 0, _, _ => none
  | fuel + 1, depth, cs =>
    match m.skip cs with
    | [] => none
    | '[' :: rest =>
      match namedClass? m rest with
      | some rest => readClass m fuel depth rest
      | none => (openClass m rest).bind (readClass m fuel (depth + 1))
    | ']' :: rest => if depth = 0 then some rest else readClass m fuel (depth - 1) rest
    | '&' :: '&' :: rest | '-' :: '-' :: rest | '~' :: '~' :: rest => readClass m fuel depth rest
    | rest => (readClassItem m rest).bind (readClass m fuel depth)

structure Scan where
  modes : Modes := {}
  /-- The modes around each open group, the innermost first. -/
  outer : List Modes := []
  /-- Whether there is something before that may be repeated. -/
  repeatable : Bool := false
  /-- The names of groups so far. -/
  names : List (List Char) := []
  deriving DecidableEq, Repr

namespace Scan

def opened (s : Scan) : Scan := { s with outer := s.modes :: s.outer, repeatable := false }

def element (s : Scan) : Scan := { s with repeatable := true }

end Scan

def isNameChar (c : Char) : Bool := isAlphanumeric c || ['_', '.', '[', ']'].contains c

def isName : List Char → Bool
  | [] => false
  | c :: cs => (c = '_' || isAlphabetic c) && cs.all isNameChar

/-- Opens a group from before its name on. -/
def openNamed (s : Scan) (cs : List Char) : Option (Scan × List Char) :=
  let name := cs.takeWhile (· ≠ '>')
  match cs.drop name.length with
  | [] => none
  | _ :: rest =>
    if isName name && !s.names.contains name then
      some ({ s.opened with names := name :: s.names }, rest)
    else none

/-- Each mode at most once, and something behind the hyphen if there is one. -/
def areModes (letters : List Char) : Bool :=
  letters.all (['i', 'm', 's', 'U', 'u', 'R', 'x', '-'].contains ·) && decide letters.Nodup
    && letters.getLast? ≠ some '-'

/-- Switches on the modes before the hyphen and off the ones behind it. -/
def Modes.switch (m : Modes) (letters : List Char) : Modes :=
  let on := letters.takeWhile (· ≠ '-')
  let set (letter : Char) (old : Bool) : Bool :=
    if on.contains letter then true else if letters.contains letter then false else old
  { spaced := set 'x' m.spaced, unicode := set 'u' m.unicode }

/-- Switches modes, for a group or for what follows. -/
def openModes (s : Scan) (cs : List Char) : Option (Scan × List Char) :=
  let letters := cs.takeWhile fun c => c ≠ ':' && c ≠ ')'
  if !areModes letters then none
  else
    match cs.drop letters.length with
    | ':' :: rest => some ({ s.opened with modes := s.modes.switch letters }, rest)
    | _ :: rest =>
      if letters.isEmpty then none
      else some ({ s with modes := s.modes.switch letters, repeatable := false }, rest)
    | [] => none

/-- Opens a group, from behind its parenthesis. -/
def openGroup (s : Scan) (cs : List Char) : Option (Scan × List Char) :=
  match s.modes.skip cs with
  | '?' :: 'P' :: '<' :: rest | '?' :: '<' :: rest => openNamed s rest
  | '?' :: rest => openModes s rest
  | rest => some (s.opened, rest)

def closeGroup (s : Scan) (cs : List Char) : Option (Scan × List Char) :=
  match s.outer with
  | [] => none
  | modes :: outer => some ({ s with modes, outer, repeatable := true }, cs)

/-- What follows a repetition, which may ask for as little as possible. -/
def repeated (s : Scan) (cs : List Char) : Option (Scan × List Char) :=
  if !s.repeatable then none
  else
    match cs with
    | '?' :: rest => some (s, rest)
    | rest => some (s, rest)

/-- Reads what a character begins. -/
def step (s : Scan) (c : Char) (rest : List Char) : Option (Scan × List Char) :=
  match c with
  | '(' => openGroup s rest
  | ')' => closeGroup s rest
  | '|' => some ({ s with repeatable := false }, rest)
  | '[' =>
    ((openClass s.modes rest).bind (readClass s.modes (rest.length + 1) 0)).map (s.element, ·)
  | '?' | '*' | '+' => repeated s rest
  | '\x7b' => none
  | '.' => if s.modes.unicode then some (s.element, rest) else none
  | '\\' => (readEscape s.modes rest).map fun (_, rest) => (s.element, rest)
  | _ => some (s.element, rest)

def run : (fuel : Nat) → Scan → List Char → Bool
  | 0, _, _ => false
  | fuel + 1, s, cs =>
    match s.modes.skip cs with
    | [] => s.outer.isEmpty
    | c :: rest =>
      match step s c rest with
      | some (s, rest) => run fuel s rest
      | none => false

/-- Whether a text is a regular expression. -/
def isValid (cs : List Char) : Bool := run (cs.length + 1) {} cs

end PodSizing.Text.Pattern
