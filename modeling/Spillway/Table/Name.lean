import Spillway.Fault

/-!
# Table names

A table name is a plain identifier: ASCII letters, digits and underscores, no digit in front.
Some plain identifiers are words of the query language and can still name no table.
-/

namespace Spillway.TableName

/-- ASCII letters and the underscore. -/
def isStart (c : Char) : Bool := c.isAlpha || c == '_'

/-- ASCII letters, digits and the underscore. -/
def isPart (c : Char) : Bool := c.isAlphanum || c == '_'

/-- Whether a name is a plain identifier. -/
def isPlain (name : String) : Bool :=
  name.toList.head?.any isStart && name.toList.all isPart

/-- Refuse names that are no plain identifiers. -/
def check (name : String) : Except Fault Unit :=
  if isPlain name then .ok () else .error (.tableName name)

/-- Words of the query language that cannot stand where a table name stands. -/
def keywords : List String := [
  "add", "all", "alter", "and", "as", "autoincrement", "between", "case", "check", "collate",
  "commit", "constraint", "create", "default", "deferrable", "delete", "distinct", "drop", "else",
  "escape", "except", "exists", "foreign", "from", "group", "having", "if", "in", "index",
  "insert", "intersect", "into", "is", "isnull", "join", "limit", "not", "nothing", "notnull",
  "null", "on", "or", "order", "primary", "references", "returning", "select", "set", "table",
  "then", "to", "transaction", "union", "unique", "update", "using", "values", "when", "where"]

/-- Whether no table can be made under a name, in whatever case it is written. -/
def isReserved (name : String) : Bool :=
  let lower := String.ofList (name.toList.map Char.toLower)
  keywords.contains lower || "sqlite_".toList.isPrefixOf lower.toList

/-- Name of the table where none is configured. -/
def standard : String := "queue_entries"

end Spillway.TableName
