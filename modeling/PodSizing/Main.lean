import PodSizing.Json.Writer
import PodSizing.Settings

/-!
Checks a command line: prints the settings that it makes together with the environment, or what is
wrong with it.
-/
namespace PodSizing

/-- The variables that are set, of those that stand in for flags. -/
def readVariables : List (Flag Settings) → IO (List (String × String))
  | [] => return []
  | f :: rest => do
    let others ← readVariables rest
    match f.standIn with
    | none => return others
    | some name =>
      match ← IO.getEnv name with
      | some value => return (name, value) :: others
      | none => return others

end PodSizing

open PodSizing in
def main (words : List String) : IO UInt32 := do
  let environment ← readVariables Settings.flags
  match Settings.parse words (fun name => environment.lookup name) with
  | .ok settings =>
    IO.println settings.toJson.compact
    return 0
  | .error e =>
    IO.eprintln ("error: " ++ e.message)
    return 2
