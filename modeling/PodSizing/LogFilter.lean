import PodSizing.LogFilter.Directive

/-!
# Log filters

Which records are logged: a list of directives. Of directives for the same records the last one
holds.
-/
namespace PodSizing

/-- The directives of a filter, each scope once. -/
structure LogFilter where
  directives : List LogDirective
  deriving DecidableEq, Repr

namespace LogFilter

/-- Adds a directive, which takes the place of one with the same scope. -/
def add (l : List LogDirective) (d : LogDirective) : List LogDirective :=
  l.filter (fun e => !e.scope.isSame d.scope) ++ [d]

/-- Reads the directives between commas. -/
def parse (s : String) : Except LogFilterError LogFilter := do
  let parts := (Text.splitAt ',' s.toList).filter fun part => !part.isEmpty
  return ⟨(← parts.mapM LogDirective.read).foldl add []⟩

/-- The directives that a record alone decides. -/
def statics (f : LogFilter) : List LogDirective := f.directives.filter (·.scope.isStatic)

/-- The directives that depend on the spans in progress. -/
def dynamics (f : LogFilter) : List LogDirective := f.directives.filter (·.scope.isDynamic)

/-- The directives as they are applied; one that a record alone may decide counts in both ways. -/
def text (f : LogFilter) : String := ",".intercalate ((f.statics ++ f.dynamics).map (·.text))

/-- The filter that a verbosity stands for, unless there is a filter of its own. -/
def directivesText (filter : Option String) (verbosity : Nat) : String :=
  filter.getD
    ("startup_scaler_controller="
      ++ (match verbosity with | 0 => "info" | 1 => "debug" | _ => "trace") ++ ",warn")

end LogFilter
end PodSizing
