/-!
# The report of a run

A run reports its progress in lines: a heading when it begins and when it is done, and lines about
every definition in between. A heading is filled up with equals signs to a fixed width, counted in
characters; a longer one is left as it is.
-/

namespace SqlAccess.Report

/-- The width of a heading. -/
def width : Nat := 65

/-- A heading. -/
def heading (message : String) : String :=
  let text := "== " ++ message ++ " "
  text ++ String.ofList (List.replicate (width - text.length) '=')

/-- The line that stands for a run without definitions. -/
def nothingToDo : String := "Nothing to do."

/-- The line of a definition that is carried out. -/
def done (description : String) : String :=
  "-- " ++ description

/-- The line of a time that was taken, in seconds. -/
def timing (seconds : String) : String :=
  "   -> " ++ seconds ++ " sec"

end SqlAccess.Report
