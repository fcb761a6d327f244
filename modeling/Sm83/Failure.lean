/-!
# Failures and their causes

A failure that ends a program says what could not be done and, where something else is to blame, what
that was.  It is shown on one line or as a paragraph with the cause set apart.
-/

namespace Sm83

/-- What went wrong, and because of what. -/
structure Failure where
  message : String
  cause : Option String
  deriving DecidableEq, Repr

namespace Failure

/-- Message and cause on one line. -/
def line (f : Failure) : String :=
  match f.cause with
  | none => f.message
  | some cause => f.message ++ ": " ++ cause

/-- Message and cause as the lines of a paragraph. -/
def paragraph (f : Failure) : List String :=
  match f.cause with
  | none => ["Error: " ++ f.message]
  | some cause => ["Error: " ++ f.message, "", "Caused by:", "    " ++ cause]

end Failure

end Sm83
