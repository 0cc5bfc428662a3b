import SqlAccess.Dialect.Basic
import SqlAccess.Text.Blank
import SqlAccess.Text.Keyword
import SqlAccess.Text.Word

/-!
# Statements that write

A statement writes when its first word is one of the keywords of `mutatingKeywords`, in any case. A
longer word that begins like a keyword is a different word.
-/

namespace SqlAccess.Dialect

open SqlAccess.Text

/-- The keywords that a writing statement starts with. -/
def mutatingKeywords : List String :=
  ["INSERT", "UPDATE", "DELETE", "BEGIN", "COMMIT", "CREATE", "DROP", "ALTER", "GRANT", "TRUNCATE"]

/-- Does a text start with a keyword as a whole word? -/
def startsWithKeyword (keyword text : List Char) : Bool :=
  (afterKeyword keyword text).any atWordEnd

/-- Does the statement write, judging by its first word? -/
def isMutating (_ : Dialect) (sql : String) : Bool :=
  let text := sql.toList.dropWhile isBlank
  mutatingKeywords.any fun keyword => startsWithKeyword keyword.toList text

end SqlAccess.Dialect
