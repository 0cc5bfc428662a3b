import SqlAccess.Dialect.Basic
import SqlAccess.Text.Uppercase

/-!
# Column types

A column has a logical type and, where the type takes one, a length. Each dialect has a native type
for every logical one, a reading of native types back, and a length for types that need one and were
given none. `ColumnType.other` carries a native type that no logical type stands for.

Reading back is not the inverse of writing in every case: two logical types may share a native one,
and a dialect may read native types that it never writes.
-/

namespace SqlAccess

/-- The logical type of a column. -/
inductive ColumnType where
  | string
  | text
  /-- One of a fixed list of texts. -/
  | list
  | integer
  | bigInteger
  | boolean
  | float
  | double
  | decimal
  | date
  | dateTime
  | timestamp
  | time
  | blob
  /-- A native type. -/
  | other (native : String)
  deriving DecidableEq, Repr

/-- The argument of a column type. -/
inductive Length where
  | size (n : UInt32)
  | precision (digits scale : UInt32)
  /-- The texts of a list type. -/
  | values (texts : List String)
  deriving DecidableEq

namespace ColumnType

/-- The name of a logical type, or the native type itself. -/
def name : ColumnType → String
  | .string => "string"
  | .text => "text"
  | .list => "list"
  | .integer => "integer"
  | .bigInteger => "biginteger"
  | .boolean => "boolean"
  | .float => "float"
  | .double => "double"
  | .decimal => "decimal"
  | .date => "date"
  | .dateTime => "datetime"
  | .timestamp => "timestamp"
  | .time => "time"
  | .blob => "blob"
  | .other native => native

/-- The logical types, those that are native aside. -/
def logical : List ColumnType :=
  [.string, .text, .list, .integer, .bigInteger, .boolean, .float, .double, .decimal, .date,
    .dateTime, .timestamp, .time, .blob]

/-- The type of the given name; a name that no logical type has is a native type. -/
def ofName (name : String) : ColumnType :=
  (logical.find? (·.name == name)).getD (.other name)

end ColumnType

namespace Dialect

/-- The native type of a column type. One that is native already is written in capitals. -/
def nativeType : Dialect → ColumnType → String
  | _, .other native => Text.uppercase native
  | .generic, .string | .generic, .list => "VARCHAR"
  | .generic, .text => "TEXT"
  | .generic, .integer => "INTEGER"
  | .generic, .bigInteger => "BIGINT"
  | .generic, .boolean => "BOOLEAN"
  | .generic, .float => "REAL"
  | .generic, .double => "DOUBLE PRECISION"
  | .generic, .decimal => "DECIMAL"
  | .generic, .date => "DATE"
  | .generic, .dateTime | .generic, .timestamp => "TIMESTAMP"
  | .generic, .time => "TIME"
  | .generic, .blob => "BLOB"
  | .mysql, .string => "VARCHAR"
  | .mysql, .list => "ENUM"
  | .mysql, .text => "TEXT"
  | .mysql, .integer => "INT"
  | .mysql, .bigInteger => "BIGINT"
  | .mysql, .boolean => "TINYINT"
  | .mysql, .float => "FLOAT"
  | .mysql, .double => "DOUBLE"
  | .mysql, .decimal => "DECIMAL"
  | .mysql, .date => "DATE"
  | .mysql, .dateTime => "DATETIME"
  | .mysql, .timestamp => "TIMESTAMP"
  | .mysql, .time => "TIME"
  | .mysql, .blob => "BLOB"

/-- The native types that a dialect reads as logical ones, in capitals. -/
def typeReadings : Dialect → List (String × ColumnType)
  | .generic =>
    [("VARCHAR", .string), ("CHARACTER VARYING", .string), ("TEXT", .text),
      ("INTEGER", .integer), ("INT", .integer), ("BIGINT", .bigInteger), ("BOOLEAN", .boolean),
      ("BOOL", .boolean), ("REAL", .float), ("FLOAT", .float), ("DOUBLE PRECISION", .double),
      ("DOUBLE", .double), ("DECIMAL", .decimal), ("NUMERIC", .decimal), ("DATE", .date),
      ("TIMESTAMP", .timestamp), ("TIME", .time), ("BLOB", .blob)]
  | .mysql =>
    [("VARCHAR", .string), ("ENUM", .list), ("TEXT", .text), ("INT", .integer),
      ("INTEGER", .integer), ("BIGINT", .bigInteger), ("FLOAT", .float), ("DOUBLE", .double),
      ("DECIMAL", .decimal), ("DATE", .date), ("DATETIME", .dateTime), ("TIMESTAMP", .timestamp),
      ("TIME", .time), ("BLOB", .blob)]

/-- The column type of a native one, the case of ASCII letters aside. In MySQL a `TINYINT` of
length one is a Boolean; one of any other length is native. -/
def columnType (d : Dialect) (native : String) (length : Option Length) : ColumnType :=
  let capitals := String.ofList (Text.asciiUppercase native.toList)
  if d = .mysql ∧ capitals = "TINYINT" ∧ length = some (.size 1) then .boolean
  else (d.typeReadings.lookup capitals).getD (.other capitals)

/-- The length that a type has when it is given none. -/
def defaultLength : Dialect → ColumnType → Option Length
  | _, .string => some (.size 255)
  | .generic, .list => some (.size 255)
  | .mysql, .integer => some (.size 11)
  | .mysql, .bigInteger => some (.size 20)
  | .mysql, .boolean => some (.size 1)
  | _, _ => none

/-- A length as it stands behind a native type. -/
def lengthSql (d : Dialect) : Length → String
  | .size n => "(" ++ toString n ++ ")"
  | .precision digits scale => "(" ++ toString digits ++ "," ++ toString scale ++ ")"
  | .values texts => "(" ++ Text.joined "," (texts.map fun text => d.literal (.text text)) ++ ")"

/-- A native type with its length. -/
def typeSql (d : Dialect) (type : ColumnType) (length : Option Length) : String :=
  d.nativeType type ++ (length.map d.lengthSql).getD ""

end Dialect

end SqlAccess
