/-!
# Command lines

Flags with two dashes in front, each with a value behind an equals sign or in the next word, or bare.
What a command line leaves out is taken from the environment, and from the defaults after that.
-/
namespace PodSizing

/-- Why a text is no value of a flag. -/
inductive ValueError where
  | unreadable
  | notBoolean
  | empty
  deriving DecidableEq, Repr

inductive CommandLineError where
  | value (flag text : String) (error : ValueError)
  | valueExpected (flag : String)
  | valueUnwanted (flag text : String)
  | repeated (flag : String)
  | unknown (word : String)
  deriving DecidableEq, Repr

def CommandLineError.message : CommandLineError → String
  | .value flag text .unreadable => "invalid value '" ++ text ++ "' for '--" ++ flag ++ "'"
  | .value flag text .notBoolean =>
    "invalid value '" ++ text ++ "' for '--" ++ flag ++ "': neither true nor false"
  | .value flag _ .empty => "an empty value for '--" ++ flag ++ "'"
  | .valueExpected flag => "a value is required for '--" ++ flag ++ "'"
  | .valueUnwanted flag text => "unexpected value '" ++ text ++ "' for '--" ++ flag ++ "'"
  | .repeated flag => "'--" ++ flag ++ "' is given more than once"
  | .unknown word => "unexpected argument '" ++ word ++ "'"

/-- A flag that changes settings of type `σ`. -/
structure Flag (σ : Type) where
  name : String
  /-- The variable of the environment that stands in for the flag. -/
  standIn : Option String := none
  takesValue : Bool := true
  mayRepeat : Bool := false
  /-- Takes a value over into the settings; a bare flag has the value `true`. -/
  set : String → σ → Except ValueError σ

namespace CommandLine
variable {σ : Type}

/-- A word of a command line by its shape. -/
inductive Word where
  | flag (name : String) (value : Option String)
  /-- The two dashes after which no word is a flag. -/
  | separator
  | short
  | plain
  deriving DecidableEq, Repr

def Word.ofText (s : String) : Word :=
  match s.toList with
  | ['-', '-'] => .separator
  | '-' :: '-' :: cs =>
    let name := cs.takeWhile (· ≠ '=')
    .flag (String.ofList name) ((cs.drop name.length).tail?.map String.ofList)
  | '-' :: _ :: _ => .short
  | _ => .plain

/-- The settings so far and the flags that they come from. -/
structure Progress (σ : Type) where
  settings : σ
  given : List String := []

def give (f : Flag σ) (value : String) (p : Progress σ) : Except CommandLineError (Progress σ) :=
  if p.given.contains f.name && !f.mayRepeat then .error (.repeated f.name)
  else
    match f.set value p.settings with
    | .ok settings => .ok ⟨settings, f.name :: p.given⟩
    | .error e => .error (.value f.name value e)

/-- A flag that still lacks its value fails. -/
def complete : Option (Flag σ) → Except CommandLineError Unit
  | none => .ok ()
  | some f => .error (.valueExpected f.name)

/-- What a flag makes of its word: it is given, or waits for its value in the next word. -/
def giveWord (f : Flag σ) (value : Option String) (p : Progress σ) :
    Except CommandLineError (Option (Flag σ) × Progress σ) :=
  match f.takesValue, value with
  | true, some v => (give f v p).map fun p => (none, p)
  | true, none => .ok (some f, p)
  | false, _ => (give f "true" p).map fun p => (none, p)

/-- Reads words, where a flag may wait for its value. An unknown word, or a value that is not wanted,
counts before a value that is missing. -/
def readWords (flags : List (Flag σ)) :
    List String → Option (Flag σ) → Progress σ → Except CommandLineError (Progress σ)
  | [], waiting, p => do
    complete waiting
    return p
  | s :: rest, waiting, p =>
    match Word.ofText s with
    | .separator =>
      match rest with
      | [] => do
        complete waiting
        return p
      | word :: _ => .error (.unknown word)
    | .short => .error (.unknown s)
    | .plain =>
      match waiting with
      | some f => do readWords flags rest none (← give f s p)
      | none => .error (.unknown s)
    | .flag name value =>
      match flags.find? (·.name = name) with
      | none => .error (.unknown s)
      | some f =>
        match f.takesValue, value with
        | false, some v => .error (.valueUnwanted name v)
        | _, _ => do
          complete waiting
          let (waiting, p) ← giveWord f value p
          readWords flags rest waiting p

/-- Takes over from the environment what the command line leaves out. -/
def readEnvironment (environment : String → Option String) :
    List (Flag σ) → Progress σ → Except CommandLineError (Progress σ)
  | [], p => .ok p
  | f :: rest, p =>
    match if p.given.contains f.name then none else f.standIn.bind environment with
    | some value => do readEnvironment environment rest (← give f value p)
    | none => readEnvironment environment rest p

/-- The settings that a command line and an environment make of the defaults. -/
def parse (flags : List (Flag σ)) (defaults : σ) (words : List String)
    (environment : String → Option String) : Except CommandLineError σ := do
  let p ← readWords flags words none { settings := defaults }
  let p ← readEnvironment environment flags p
  return p.settings

end CommandLine
end PodSizing
