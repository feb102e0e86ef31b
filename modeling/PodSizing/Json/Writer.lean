import PodSizing.Json.Basic
import PodSizing.Text.Basic

/-!
# Writing JSON

Compact text without blanks. Only the quote, the backslash and control characters are escaped.
-/
namespace PodSizing.Json

def hexDigit (n : Nat) : Char := Nat.digitChar (n % 16)

def escapeChar (c : Char) : List Char :=
  match c with
  | '"' => ['\\', '"']
  | '\\' => ['\\', '\\']
  | '\x08' => ['\\', 'b']
  | '\x0c' => ['\\', 'f']
  | '\n' => ['\\', 'n']
  | '\r' => ['\\', 'r']
  | '\t' => ['\\', 't']
  | c =>
    if c.toNat < 0x20 then ['\\', 'u', '0', '0', hexDigit (c.toNat / 16), hexDigit c.toNat]
    else [c]

/-- Text between quotes; text that stands for no characters is written as half of a pair. -/
def writeText : Option String → List Char
  | some s => '"' :: (s.toList.flatMap escapeChar ++ ['"'])
  | none => ['"', '\\', 'u', 'd', '8', '0', '0', '"']

def writeNumber : Number → List Char
  | .whole n => Text.signedNumeral n
  | .real digits exponent => Text.signedNumeral digits ++ 'e' :: Text.signedNumeral exponent

mutual

def write : Json → List Char
  | .null => ['n', 'u', 'l', 'l']
  | .bool true => ['t', 'r', 'u', 'e']
  | .bool false => ['f', 'a', 'l', 's', 'e']
  | .num n => writeNumber n
  | .str text => writeText text
  | .arr items => '[' :: writeItems items
  | .obj members => '{' :: writeMembers members

/-- The items of a list and its closing bracket. -/
def writeItems : List Json → List Char
  | [] => [']']
  | [item] => write item ++ [']']
  | item :: items => write item ++ ',' :: writeItems items

/-- The members of a record and its closing brace. -/
def writeMembers : List (Option String × Json) → List Char
  | [] => ['}']
  | [(name, value)] => writeText name ++ ':' :: (write value ++ ['}'])
  | (name, value) :: members => writeText name ++ ':' :: (write value ++ ',' :: writeMembers members)

end

def compact (value : Json) : String := String.ofList (write value)

end PodSizing.Json
