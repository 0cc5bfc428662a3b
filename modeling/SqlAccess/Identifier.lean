import SqlAccess.Text.Split

/-!
# Quoted identifiers

A name is a path of parts with dots between them, as in `table.column`. Each part is quoted by
itself, so that a dotted name still reads as a path, and a quote character inside a part is written
twice, so that no part can end its own quotes. A part that is a lone star stands for all columns and
stays bare.

Nothing is lost in quoting: the parts are the pieces of the name, in order, and each quoted part
decodes to its piece.
-/

namespace SqlAccess.Identifier

open SqlAccess.Text

/-- One part of a name in the given quotes. -/
def part (quote : Char) (piece : List Char) : List Char :=
  if piece = ['*'] then piece else quote :: doubled quote piece ++ [quote]

/-- A name in the given quotes, part by part. -/
def encode (quote : Char) (name : List Char) : List Char :=
  ['.'].intercalate ((name.splitOn '.').map (part quote))

end SqlAccess.Identifier
