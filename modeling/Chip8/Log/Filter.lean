import Chip8.Log

/-! # Log filters

A filter is a list of directives, each of which sets the least important level to show, for all
targets or for those that begin with a name.  The directive with the longest fitting name decides,
and of two with the same name the later one.  A target that no directive fits is not shown.
-/

namespace Chip8

/-- The least important level to show, or `none` to show nothing. -/
abbrev Threshold := Option Level

/-- Whether a threshold lets a level through. -/
def Threshold.admits (t : Threshold) (l : Level) : Bool :=
  match t with
  | none => false
  | some least => decide (l.rank ≤ least.rank)

/-- The threshold that a word names, in any mixture of cases. -/
def Threshold.ofWord? (word : String) : Option Threshold :=
  match word.toLower with
  | "off" => some none
  | "error" => some (some .error)
  | "warn" => some (some .warn)
  | "info" => some (some .info)
  | "debug" => some (some .debug)
  | "trace" => some (some .trace)
  | _ => none

/-- A threshold for the targets that begin with a name. -/
structure Directive where
  target : String
  threshold : Threshold
  deriving DecidableEq, Repr, Inhabited

namespace Directive

/-- Whether a directive speaks about a target. -/
def fits (d : Directive) (target : String) : Bool :=
  d.target.toList.isPrefixOf target.toList

/-- The directive that one part of a filter's text stands for: a threshold for all targets, a name
    to show at every level, or a name and a threshold with `=` between them.  Any other part stands
    for nothing. -/
def ofPart? (part : String) : Option Directive :=
  match part.splitOn "=" with
  | [word] =>
    match Threshold.ofWord? word with
    | some threshold => some { target := "", threshold }
    | none => some { target := word, threshold := some .trace }
  | [name, word] =>
    if word.trimAscii.isEmpty then some { target := name, threshold := some .trace }
    else
      (Threshold.ofWord? word.trimAscii.toString).map fun threshold => { target := name, threshold }
  | _ => none

end Directive

/-- Which records are shown. -/
structure Filter where
  directives : List Directive
  deriving DecidableEq, Repr, Inhabited

namespace Filter

/-- The filter that holds when none is asked for: the program's own records from `info` up. -/
def standard : Filter :=
  ⟨[{ target := "emuchip", threshold := some .info }]⟩

/-- The filter of a text, whose parts are separated by commas.  A text without any directive shows
    errors only. -/
def ofText (text : String) : Filter :=
  let parts := (text.splitOn ",").map fun part => part.trimAscii.toString
  match (parts.filter (· ≠ "")).filterMap Directive.ofPart? with
  | [] => ⟨[{ target := "", threshold := some .error }]⟩
  | directives => ⟨directives⟩

/-- Of two directives for one target, the one that decides: the longer name, or the later one. -/
def prefer (best : Option Directive) (next : Directive) : Option Directive :=
  match best with
  | none => some next
  | some held => if held.target.length ≤ next.target.length then some next else some held

/-- The directive that decides about a target. -/
def deciding (f : Filter) (target : String) : Option Directive :=
  (f.directives.filter (·.fits target)).foldl prefer none

/-- Whether a record is shown. -/
def admits (f : Filter) (n : Notice) : Bool :=
  match f.deciding n.target with
  | none => false
  | some directive => directive.threshold.admits n.level

end Filter

end Chip8
