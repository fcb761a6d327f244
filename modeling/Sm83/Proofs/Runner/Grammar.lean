import Mathlib.Data.List.Induction
import Mathlib.Tactic.Common
import Sm83.CommandLine
import Sm83.Proofs.Runner.Counts

/-!
# The grammar of the arguments

Arguments come in groups: a flag, an option with its value, or a path.  `readArguments` is a loop over
them with a state; here the grammar is given by itself, and what a list of groups asks for is read off
the list as a whole.

* `Group` — the groups, which carry the proof that they can be read as such.
* `Asks` — what groups ask for: the last path and the last budget, and a color model if its flag is
  among them.
* `Outcome` — what comes of arguments: a configuration, if they are groups with a path among them;
  else the error of the first argument that begins no group, or of the missing path.
* `readArguments_spelled` — groups are read one by one, whatever follows them.
* `splits` — any arguments are groups up to their end or up to such an argument.
* `parse_eq_iff` — so `parse` finds exactly what comes of the arguments.
-/

namespace Sm83

/-- There are two models. -/
theorem Model.eq_of_cgb_iff {model model' : Model} (same : model = .cgb ↔ model' = .cgb) :
    model = model' := by
  cases model with
  | cgb => exact (same.1 rfl).symm
  | dmg =>
    cases model' with
    | dmg => rfl
    | cgb => exact same.2 rfl

namespace CommandLine

open Text.Count (Judged)

/-! ## The grammar -/

/-- A text that names a file.  It may be empty, and may start with a single hyphen. -/
structure Names (text : String) : Prop where
  noHelp : text ≠ "-h"
  noOption : ¬ "--".toList <+: text.toList

/-- Arguments that are read together. -/
inductive Group
  | color
  /-- The value of this option is whatever comes next. -/
  | budget (text : String) (cycles : Nat) (count : Judged text (.ok cycles))
  | path (text : String) (names : Names text)

namespace Group

/-- How a group is written. -/
def arguments : Group → List String
  | color => ["--cgb"]
  | budget text _ _ => ["--max-cycles", text]
  | path text _ => [text]

def path? : Group → Option String
  | path text _ => some text
  | _ => none

def budget? : Group → Option Nat
  | budget _ cycles _ => some cycles
  | _ => none

end Group

/-- How groups are written one after another. -/
def spelled (groups : List Group) : List String := groups.flatMap Group.arguments

/-- What groups ask for: of repeated ones the last counts. -/
structure Asks (groups : List Group) (config : RunConfig) : Prop where
  path : (groups.filterMap Group.path?).getLast? = some config.path
  model : config.model = .cgb ↔ Group.color ∈ groups
  budget : config.budget = (groups.filterMap Group.budget?).getLast?.getD 100000000

/-- Arguments of which already the first begins no group, and the error for it. -/
inductive Misfit : List String → ArgumentError → Prop
  | help {name : String} (rest : List String) (asked : name = "-h" ∨ name = "--help") :
      Misfit (name :: rest) .usage
  | missing : Misfit ["--max-cycles"] .missingBudget
  | bad {text : String} {cause : Text.Count.Refusal} (rest : List String)
      (refused : Judged text (.error cause)) :
      Misfit ("--max-cycles" :: text :: rest) (.badBudget text cause)
  | unknown {name : String} (rest : List String) (option : "--".toList <+: name.toList)
      (other : name ∉ ["--cgb", "--max-cycles", "--help"]) :
      Misfit (name :: rest) (.unknownOption name)

/-- What comes of arguments. -/
inductive Outcome (arguments : List String) : Except ArgumentError RunConfig → Prop
  | accepted {groups : List Group} {config : RunConfig} (fit : arguments = spelled groups)
      (asks : Asks groups config) : Outcome arguments (.ok config)
  | pathless {groups : List Group} (fit : arguments = spelled groups)
      (pathless : groups.filterMap Group.path? = []) : Outcome arguments (.error .usage)
  | refused {groups : List Group} {rest : List String} {e : ArgumentError}
      (split : arguments = spelled groups ++ rest) (misfit : Misfit rest e) :
      Outcome arguments (.error e)

/-! ## Reading groups -/

/-- What is known once a group is read. -/
def Given.add (given : Given) : Group → Given
  | .color => { given with model := .cgb }
  | .budget _ cycles _ => { given with budget := some cycles }
  | .path text _ => { given with path := some text }

/-- What groups say, from the first to the last. -/
def said (groups : List Group) : Given := groups.foldl Given.add ⟨.dmg, none, none⟩

section Reading

variable {text : String} {rest : List String}

theorem Names.ne_option (names : Names text) {option : String}
    (hyphens : "--".toList <+: option.toList) : text ≠ option := by
  rintro rfl
  exact names.noOption hyphens

/-- A group is read as what it is, whatever follows. -/
theorem readArguments_group (given : Given) (group : Group) (rest : List String) :
    readArguments given (group.arguments ++ rest) = readArguments (given.add group) rest := by
  cases group with
  | color =>
    rw [Group.arguments, List.singleton_append, readArguments.eq_def]
    exact if_pos rfl
  | budget text cycles count =>
    rw [Group.arguments, List.cons_append, List.singleton_append, readArguments.eq_def]
    dsimp only
    rw [if_neg (by decide), if_pos rfl, count.ofString_eq]
    rfl
  | path text names =>
    have noOption : text.startsWith "--" = false :=
      String.startsWith_string_eq_false_iff.2 names.noOption
    have noHelp : ¬ (text = "-h" ∨ text = "--help") := by
      rintro (help | help)
      · exact names.noHelp help
      · exact names.ne_option (by decide) help
    rw [Group.arguments, List.singleton_append, readArguments.eq_def]
    dsimp only
    rw [if_neg (names.ne_option (by decide)), if_neg (names.ne_option (by decide)), if_neg noHelp,
      if_neg (by rw [noOption]; decide)]
    rfl

theorem readArguments_spelled (given : Given) (groups : List Group) (rest : List String) :
    readArguments given (spelled groups ++ rest)
      = readArguments (groups.foldl Given.add given) rest := by
  induction groups generalizing given with
  | nil => rfl
  | cons group groups ih =>
    rw [spelled, List.flatMap_cons, List.append_assoc, readArguments_group, List.foldl_cons]
    exact ih _

/-- What begins no group ends the reading, with its error. -/
theorem Misfit.readArguments_eq {e : ArgumentError} (misfit : Misfit rest e) (given : Given) :
    readArguments given rest = .error e := by
  cases misfit with
  | help rest asked =>
    rw [readArguments.eq_def]
    rcases asked with rfl | rfl <;> simp
  | missing => rfl
  | bad rest refused =>
    rw [readArguments.eq_def]
    dsimp only
    rw [if_neg (by decide), if_pos rfl, refused.ofString_eq]
  | unknown rest option other =>
    rename_i name
    simp only [List.mem_cons, List.not_mem_nil, or_false, not_or] at other
    have noHelp : ¬ (name = "-h" ∨ name = "--help") := by
      rintro (rfl | help)
      · exact absurd option (by decide)
      · exact other.2.2 help
    rw [readArguments.eq_def]
    dsimp only
    rw [if_neg other.1, if_neg other.2.1, if_neg noHelp,
      if_pos (String.startsWith_string_iff.2 option)]

/-- Arguments are groups up to their end, or up to one that begins none. -/
def Splits (arguments : List String) : Prop :=
  ∃ groups rest, arguments = spelled groups ++ rest ∧ (rest = [] ∨ ∃ e, Misfit rest e)

/-- One more group in front. -/
theorem Splits.cons (group : Group) (splits : Splits rest) : Splits (group.arguments ++ rest) := by
  obtain ⟨groups, rest', rfl, ends⟩ := splits
  refine ⟨group :: groups, rest', ?_, ends⟩
  rw [spelled, spelled, List.flatMap_cons, List.append_assoc]

theorem Misfit.splits {e : ArgumentError} (misfit : Misfit rest e) : Splits rest :=
  ⟨[], rest, rfl, .inr ⟨e, misfit⟩⟩

/-- So do any arguments. -/
theorem splits (given : Given) (arguments : List String) : Splits arguments := by
  -- the cases of the reader are those of the grammar; what it has been given does not matter
  fun_induction readArguments given arguments with
  | case1 => exact ⟨[], [], rfl, .inl rfl⟩
  | case2 given rest ih => exact ih.cons .color
  | case3 => exact Misfit.missing.splits
  | case4 given text rest cause refused =>
    exact (Misfit.bad rest (Text.Count.ofString_eq_iff.1 refused)).splits
  | case5 given text rest budget count _ ih =>
    exact ih.cons (.budget text budget (Text.Count.ofString_eq_iff.1 count))
  | case6 given text rest _ _ help => exact (Misfit.help rest help).splits
  | case7 given text rest noColor noBudget noHelp option =>
    rw [not_or] at noHelp
    refine (Misfit.unknown rest (String.startsWith_string_iff.1 option) ?_).splits
    simp only [List.mem_cons, List.not_mem_nil, or_false, not_or]
    exact ⟨noColor, noBudget, noHelp.2⟩
  | case8 given text rest _ _ noHelp noOption ih =>
    rw [not_or] at noHelp
    exact ih.cons (.path text ⟨noHelp.1, mt String.startsWith_string_iff.2 noOption⟩)

end Reading

/-! ## What groups say -/

section Said

variable (groups : List Group)

/-- Of what groups tell on one matter the last counts. -/
theorem said_last {α : Type} (tells : Group → Option α) (known : Given → Option α)
    (nothing : known ⟨.dmg, none, none⟩ = none)
    (step : ∀ given group, known (given.add group) = (tells group).or (known given)) :
    known (said groups) = (groups.filterMap tells).getLast? := by
  rw [said]
  induction groups using List.reverseRecOn with
  | nil => exact nothing
  | append_singleton groups group ih =>
    rw [List.foldl_append, List.foldl_cons, List.foldl_nil, step, ih, List.filterMap_append,
      List.getLast?_append, List.filterMap_cons, List.filterMap_nil]
    cases tells group <;> rfl

theorem said_path : (said groups).path = (groups.filterMap Group.path?).getLast? :=
  said_last groups Group.path? Given.path rfl fun given group => by cases group <;> rfl

theorem said_budget : (said groups).budget = (groups.filterMap Group.budget?).getLast? :=
  said_last groups Group.budget? Given.budget rfl fun given group => by cases group <;> rfl

theorem said_model : (said groups).model = .cgb ↔ Group.color ∈ groups := by
  rw [said]
  induction groups using List.reverseRecOn with
  | nil => simp
  | append_singleton groups group ih =>
    rw [List.foldl_append, List.foldl_cons, List.foldl_nil, List.mem_append, ← ih,
      List.mem_singleton]
    cases group <;> simp [Given.add]

/-- What groups ask for is what they say, with the usual budget where they say nothing of one. -/
theorem asks_said {groups : List Group} {path : String} (named : (said groups).path = some path) :
    Asks groups ⟨path, (said groups).model, (said groups).budget.getD defaultBudget⟩ where
  path := (said_path groups).symm.trans named
  model := said_model groups
  budget := by
    rw [said_budget]
    rfl

/-- Groups ask for one thing only. -/
theorem Asks.unique {groups : List Group} {config config' : RunConfig} (asks : Asks groups config)
    (asks' : Asks groups config') : config = config' := by
  obtain ⟨path, model, budget⟩ := config
  obtain ⟨path', model', budget'⟩ := config'
  obtain rfl : path = path' := Option.some.inj (asks.path.symm.trans asks'.path)
  obtain rfl : budget = budget' := asks.budget.trans asks'.budget.symm
  obtain rfl : model = model' := Model.eq_of_cgb_iff (asks.model.trans asks'.model.symm)
  rfl

end Said

/-! ## The parser and the grammar -/

section Parse

variable {arguments rest : List String} {groups : List Group}
  {result : Except ArgumentError RunConfig}

theorem parse_spelled (groups : List Group) :
    parse (spelled groups) = match (said groups).path with
      | none => .error .usage
      | some path => .ok ⟨path, (said groups).model, (said groups).budget.getD defaultBudget⟩ := by
  have read := readArguments_spelled ⟨.dmg, none, none⟩ groups []
  rw [List.append_nil, ← said, readArguments] at read
  rw [parse, read]
  rfl

theorem parse_spelled_of_named {path : String} (named : (said groups).path = some path) :
    parse (spelled groups)
      = .ok ⟨path, (said groups).model, (said groups).budget.getD defaultBudget⟩ := by
  rw [parse_spelled, named]

theorem parse_spelled_of_pathless (pathless : (said groups).path = none) :
    parse (spelled groups) = .error .usage := by
  rw [parse_spelled, pathless]

theorem parse_misfit {e : ArgumentError} (groups : List Group) (misfit : Misfit rest e) :
    parse (spelled groups ++ rest) = .error e := by
  rw [parse, readArguments_spelled, misfit.readArguments_eq]
  rfl

theorem said_path_eq_none_iff :
    (said groups).path = none ↔ groups.filterMap Group.path? = [] := by
  rw [said_path, List.getLast?_eq_none_iff]

theorem Outcome.parse_eq (outcome : Outcome arguments result) : parse arguments = result := by
  cases outcome with
  | accepted fit asks =>
    have named := (said_path _).trans asks.path
    rw [fit, parse_spelled_of_named named, (asks_said named).unique asks]
  | pathless fit pathless => rw [fit, parse_spelled_of_pathless (said_path_eq_none_iff.2 pathless)]
  | refused split misfit => rw [split, parse_misfit _ misfit]

theorem outcome_parse (arguments : List String) : Outcome arguments (parse arguments) := by
  obtain ⟨groups, rest, split, rfl | ⟨e, misfit⟩⟩ := splits ⟨.dmg, none, none⟩ arguments
  · rw [List.append_nil] at split
    cases named : (said groups).path with
    | none =>
      rw [split, parse_spelled_of_pathless named]
      exact .pathless rfl (said_path_eq_none_iff.1 named)
    | some path =>
      rw [split, parse_spelled_of_named named]
      exact .accepted rfl (asks_said named)
  · rw [split, parse_misfit groups misfit]
    exact .refused rfl misfit

theorem parse_eq_iff : parse arguments = result ↔ Outcome arguments result :=
  ⟨fun answer => answer ▸ outcome_parse arguments, Outcome.parse_eq⟩

end Parse

end CommandLine

end Sm83
