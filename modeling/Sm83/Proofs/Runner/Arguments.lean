import Sm83.Proofs.Runner.ExitCode

/-!
# What the arguments say

The parser goes by the grammar, and the process by the parser: what cannot be understood is reported
with the argument that it is about, and ends the process as a failure.

* `Reordered.said_eq` — the order of groups counts for no more than which path and which budget are the
  last ones.
* `run_reports` — how a process ends that reports an error in its arguments.
* `parse_understands` — what the parser accepts, what it finds there, and what becomes of all else.
-/

namespace Sm83

namespace CommandLine

/-! ## Groups in another order -/

/-- Groups in another order, with paths and budgets in the same order among themselves. -/
structure Reordered (groups groups' : List Group) : Prop where
  perm : groups.Perm groups'
  paths : groups.filterMap Group.path? = groups'.filterMap Group.path?
  budgets : groups.filterMap Group.budget? = groups'.filterMap Group.budget?

/-- The order of groups does not count beyond that of paths and that of budgets. -/
theorem Reordered.said_eq {groups groups' : List Group} (reordered : Reordered groups groups') :
    said groups' = said groups := by
  have path : (said groups').path = (said groups).path := by
    rw [said_path, said_path, reordered.paths]
  have budget : (said groups').budget = (said groups).budget := by
    rw [said_budget, said_budget, reordered.budgets]
  have models : (said groups').model = .cgb ↔ (said groups).model = .cgb := by
    rw [said_model, said_model, reordered.perm.mem_iff]
  have model := Model.eq_of_cgb_iff models
  calc said groups' = ⟨(said groups').model, (said groups').budget, (said groups').path⟩ := rfl
    _ = said groups := by rw [model, budget, path]

/-! ## What the process does about an error -/

/-- The argument that an error is about. -/
def ArgumentError.subject? : ArgumentError → Option String
  | .usage | .missingBudget => none
  | .badBudget text _ => some text
  | .unknownOption name => some name

/-- How a process ends that reports an error in its arguments.  Only warnings about the filter come
before the report. -/
structure Reports (e : ArgumentError) (exit : Exit) : Prop where
  code : exit.code = 1
  written : ∃ warnings, exit.written = [(.error, warnings), (.error, linesText e.lines)]

theorem run_reports {arguments : List String} {e : ArgumentError}
    (refused : parse arguments = .error e) (read : FileReader) (filter : Option String) :
    Reports e (run read filter arguments) := by
  obtain ⟨chosen, warnings, run_eq⟩ := exists_run_eq read arguments filter
  have exit : runWith read chosen arguments = ⟨failureCode, [(.error, linesText e.lines)]⟩ := by
    rw [runWith, refused]
  rw [run_eq, exit]
  exact ⟨rfl, warnings, rfl⟩

/-- The report quotes the argument that it is about. -/
theorem ArgumentError.quotes_subject {e : ArgumentError} {name : String}
    (subject : e.subject? = some name) :
    ∃ line ∈ e.lines, ("'" ++ name ++ "'").toList <:+: line.toList := by
  cases e with
  | usage | missingBudget => cases subject
  | badBudget text cause =>
    cases subject
    refine ⟨_, List.mem_cons_self, "Error: invalid cycle count ".toList, [], ?_⟩
    simp [String.toList_append]
  | unknownOption option =>
    cases subject
    refine ⟨_, List.mem_cons_self, "Error: unknown flag ".toList, [], ?_⟩
    simp [String.toList_append]

/-! ## The promise -/

/-- What is promised of arguments. -/
structure Understands (arguments : List String) : Prop where
  /-- A configuration is found exactly if there are groups and nothing else, a path among them. -/
  accepts : (∃ config, parse arguments = .ok config)
    ↔ ∃ groups, arguments = spelled groups ∧ ∃ text names, Group.path text names ∈ groups
  /-- Which one that is, and which error it is otherwise. -/
  outcome : ∀ result, parse arguments = result ↔ Outcome arguments result
  reordered : ∀ groups groups', arguments = spelled groups → Reordered groups groups' →
    parse (spelled groups') = parse arguments
  reports : ∀ e, parse arguments = .error e →
    ∀ read filter, Reports e (run read filter arguments)
  quotes : ∀ e name, parse arguments = .error e → e.subject? = some name →
    ∃ line ∈ e.lines, ("'" ++ name ++ "'").toList <:+: line.toList

/-- The parser understands its grammar: it accepts what can be read by it, for what it says, and else
reports the first argument that cannot. -/
theorem parse_understands (arguments : List String) : Understands arguments where
  outcome result := parse_eq_iff
  accepts := by
    constructor
    · rintro ⟨config, accepted⟩
      cases parse_eq_iff.1 accepted with
      | accepted fit asks =>
        rename_i groups
        obtain ⟨group, member, named⟩ := List.mem_filterMap.1 (List.mem_of_getLast? asks.path)
        cases group with
        | path text names => exact ⟨groups, fit, text, names, member⟩
        | color | budget => cases named
    · rintro ⟨groups, rfl, text, names, member⟩
      have named : text ∈ groups.filterMap Group.path? := List.mem_filterMap.2 ⟨_, member, rfl⟩
      cases none : (said groups).path with
      | none => exact absurd (said_path_eq_none_iff.1 none) (List.ne_nil_of_mem named)
      | some path => exact ⟨_, parse_spelled_of_named none⟩
  reordered groups groups' fit reordered := by
    rw [fit, parse_spelled, parse_spelled, reordered.said_eq]
  reports e refused := run_reports refused
  quotes e name _ subject := ArgumentError.quotes_subject subject

/-- The value of an option is taken as it comes, and what follows a wrong one is not looked at. -/
example : parse ["--cgb", "a.gb", "--max-cycles", "--cgb", "--speed"]
    = .error (.badBudget "--cgb" .notADigit) := by cbv

end CommandLine

end Sm83
