import Sm83.Log
import Sm83.Pattern
import Sm83.Text.Blank

/-!
# Log filters

Which records a log shows is set by a text of directives, separated by commas.  A directive is a
threshold, which holds for all sources, or `name=threshold`, which holds for the sources whose names
start in this way; of those that hold for a source, the one with the longest name decides.  A name
alone asks for everything from its sources.

Behind a slash stands a pattern that messages have to contain.

What cannot be read is passed over, with a warning.
-/

namespace Sm83.Log

/-- The threshold that a name stands for, in letters of either case.  No record is important enough
for some of them. -/
def threshold? (name : String) : Option (Option Level) :=
  match name.toLower with
  | "off" | "error" | "warn" => some none
  | "info" => some (some .info)
  | "debug" => some (some .debug)
  | "trace" => some (some .trace)
  | _ => none

/-! ## Directives -/

/-- How much to show of some sources. -/
structure Directive where
  /-- How the names of these sources start; they may have any names if this is missing. -/
  name : Option String
  threshold : Option Level
  deriving DecidableEq, Repr

namespace Directive

/-- Whether a directive holds for a source. -/
def holds (d : Directive) (source : Source) : Bool :=
  d.name.all fun name => name.toList.isPrefixOf source.name.toList

/-- How closely a directive says for which sources it holds. -/
def precision (d : Directive) : Nat := (d.name.getD "").length

/-- Add a directive to others.  Of two for one name, the later one takes the place of the earlier. -/
def insert (d : Directive) : List Directive → List Directive
  | [] => [d]
  | e :: rest => if e.name = d.name then d :: rest else e :: insert d rest

/-- The most precise directive and, of several, the last. -/
def mostPrecise : List Directive → Option Directive
  | [] => none
  | d :: rest =>
    match mostPrecise rest with
    | none => some d
    | some e => if e.precision < d.precision then some d else some e

end Directive

/-- What is wrong with the text of a filter. -/
inductive FilterError
  /-- This is no directive, or no threshold. -/
  | malformed (text : String)
  /-- The whole text has more than one slash. -/
  | tooManySlashes (text : String)
  /-- What stands behind the slash is no pattern. -/
  | noPattern (refusal : Pattern.Refusal)

/-- The warning that is given. -/
def FilterError.warning : FilterError → String
  | .malformed text => "warning: invalid logging spec '" ++ text ++ "', ignoring it"
  | .tooManySlashes text =>
    "warning: invalid logging spec '" ++ text ++ "' (too many '/'s), ignoring it"
  | .noPattern refusal => "warning: invalid regex filter - " ++ refusal.message ++ ", ignoring it"

/-- Read a directive. -/
def Directive.ofString (s : String) : Except FilterError Directive :=
  match s.splitOn "=" with
  | [part] =>
    match threshold? part with
    | some threshold => .ok ⟨none, threshold⟩
    | none => .ok ⟨some part, some .trace⟩
  | [name, part] =>
    let part := Text.trimmed part
    if part = "" then .ok ⟨some name, some .trace⟩
    else
      match threshold? part with
      | some threshold => .ok ⟨some name, threshold⟩
      | none => .error (.malformed part)
  | _ => .error (.malformed s)

/-- Read directives, adding them to earlier ones, and note what cannot be read. -/
def readDirectives (directives : List Directive) :
    List String → List Directive × List FilterError
  | [] => (directives, [])
  | s :: rest =>
    match Directive.ofString s with
    | .ok d => readDirectives (d.insert directives) rest
    | .error e =>
      let (directives, errors) := readDirectives directives rest
      (directives, e :: errors)

/-! ## Filters -/

/-- Which records a log shows. -/
structure Filter where
  /-- Sets for each source from which level up its records are shown. -/
  directives : List Directive
  /-- What the messages have to contain, if anything. -/
  content : Option Pattern

namespace Filter

/-- The filter that lets no record pass. -/
def closed : Filter := ⟨[], none⟩

/-- The threshold for a source. -/
def thresholdFor (f : Filter) (source : Source) : Option Level :=
  (Directive.mostPrecise (f.directives.filter (·.holds source))).bind Directive.threshold

/-- The threshold below which no record is shown, whatever its source. -/
def threshold (f : Filter) : Option Level :=
  (Source.all.map f.thresholdFor).foldr lower none

/-- Read the directives of a filter, and note what cannot be read. -/
def ofDirectives (s : String) : Filter × List FilterError :=
  let parts := ((s.splitOn ",").map Text.trimmed).filter (· ≠ "")
  let (directives, errors) := readDirectives [] parts
  (⟨directives, none⟩, errors)

/-- Read a filter, and note what cannot be read. -/
def ofString (s : String) : Filter × List FilterError :=
  match s.splitOn "/" with
  | [] => (closed, [])
  | [directives] => ofDirectives directives
  | [directives, content] =>
    let (filter, errors) := ofDirectives directives
    match Pattern.ofString content with
    | .ok pattern => ({ filter with content := some pattern }, errors)
    | .error refusal => (filter, errors ++ [.noPattern refusal])
  | _ => (closed, [.tooManySlashes s])

/-- Whether a log with this filter shows a record. -/
def passes (f : Filter) (r : Record) : Bool :=
  shows (f.thresholdFor r.source) r.level && f.content.all (·.occursIn r.message)

end Filter

end Sm83.Log
