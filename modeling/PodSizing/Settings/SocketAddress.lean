import PodSizing.Text.Basic

/-!
# Socket addresses

A numeric address and a port: four decimal parts with points between them, or eight hexadecimal
groups in brackets with colons between them, of which two colons may stand for a run of zeros.
-/
namespace PodSizing.Settings

def isDecimalPart (cs : List Char) : Bool :=
  cs.all Char.isDigit && Text.numeralValue cs ≤ 255 && (cs.length = 1 ||
    (cs.length = 2 || cs.length = 3) && cs.head? ≠ some '0')

def isAddress4 (cs : List Char) : Bool :=
  let parts := Text.splitAt '.' cs
  parts.length = 4 && parts.all isDecimalPart

def isGroup (cs : List Char) : Bool :=
  1 ≤ cs.length && cs.length ≤ 4 && cs.all fun c => (Text.hexValue? c).isSome

/-- How many groups a text has between colons, none in an empty one; nothing if one is no group. -/
def groupCount? (cs : List Char) : Option Nat :=
  if cs.isEmpty then some 0
  else
    let groups := Text.splitAt ':' cs
    if groups.all isGroup then some groups.length else none

/-- What stands before and behind the first two colons in a row. -/
def aroundRun? : List Char → Option (List Char × List Char)
  | ':' :: ':' :: cs => some ([], cs)
  | c :: cs => (aroundRun? cs).map fun p => (c :: p.1, p.2)
  | [] => none

def isAddress6 (cs : List Char) : Bool :=
  match aroundRun? cs with
  | none => groupCount? cs = some 8
  | some (front, back) =>
    match groupCount? front, groupCount? back with
    | some m, some n => m + n ≤ 7
    | _, _ => false

def isPort (cs : List Char) : Bool :=
  !cs.isEmpty && cs.all Char.isDigit && Text.numeralValue cs ≤ Text.maxNat16

def isSocketAddress (cs : List Char) : Bool :=
  match cs with
  | '[' :: rest =>
    let host := rest.takeWhile (· ≠ ']')
    match rest.drop host.length with
    | ']' :: ':' :: port => isAddress6 host && isPort port
    | _ => false
  | _ =>
    let host := cs.takeWhile (· ≠ ':')
    match cs.drop host.length with
    | ':' :: port => isAddress4 host && isPort port
    | _ => false

end PodSizing.Settings
