import SqlTidy.Text.Upper

/-!
# Vocabulary

The words that the formatter knows, all in upper case.  A word is looked up by its upper-case form.
The first two lists are the vocabularies of §3 of the specification, the others stand in the
dispatch rules of §4.4.

## Main definitions

* `reservedWords`, `functionNames` — the words that are cased in a way of their own.
* `WordClass`, `classify` — reserved word, function name, or the name of some object.
* `clauseOpeners`, `joinWords`, `selectModifiers` — the words that govern the layout.
-/

namespace SqlTidy

/-- Words that belong to the language. -/
def reservedWords : List Text :=
  ["SELECT", "FROM", "WHERE", "JOIN", "INNER", "LEFT", "RIGHT", "FULL", "OUTER", "ON", "AND", "OR",
    "NOT", "IN", "EXISTS", "BETWEEN", "LIKE", "IS", "NULL", "INSERT", "INTO", "VALUES", "UPDATE",
    "SET", "DELETE", "CREATE", "TABLE", "ALTER", "DROP", "INDEX", "VIEW", "DISTINCT", "ORDER",
    "BY", "GROUP", "HAVING", "LIMIT", "OFFSET", "UNION", "ALL", "AS", "CASE", "WHEN", "THEN",
    "ELSE", "END", "IF", "WITH", "RECURSIVE", "WINDOW", "OVER", "PARTITION", "PRIMARY", "KEY",
    "FOREIGN", "REFERENCES", "UNIQUE", "CHECK", "DEFAULT", "CONSTRAINT", "DATABASE", "SCHEMA",
    "GRANT", "REVOKE", "COMMIT", "ROLLBACK", "TRANSACTION", "BEGIN", "START", "SAVEPOINT",
    "RELEASE"].map String.toList

/-- Names of built-in functions. -/
def functionNames : List Text :=
  ["COUNT", "SUM", "AVG", "MIN", "MAX", "COALESCE", "NULLIF", "GREATEST", "LEAST", "CONCAT",
    "LENGTH", "SUBSTR", "SUBSTRING", "UPPER", "LOWER", "TRIM", "LTRIM", "RTRIM", "REPLACE",
    "SPLIT_PART", "POSITION", "NOW", "CURRENT_DATE", "CURRENT_TIME", "CURRENT_TIMESTAMP",
    "EXTRACT", "DATE_PART", "AGE", "TO_CHAR", "TO_DATE", "TO_TIMESTAMP", "CAST", "CONVERT",
    "ROUND", "CEIL", "FLOOR", "ABS", "POWER", "SQRT", "MOD", "RANDOM",
    "GENERATE_SERIES"].map String.toList

/-- Words that open a clause: each starts a line at the current depth.  These are the major keywords
of §4.4. -/
def clauseOpeners : List Text :=
  ["SELECT", "FROM", "WHERE", "GROUP", "ORDER", "HAVING", "INSERT", "UPDATE", "DELETE", "CREATE",
    "ALTER", "DROP", "WITH", "UNION", "EXCEPT", "INTERSECT"].map String.toList

/-- Words that start a join: each starts a line one level deeper.  These are the join keywords of
§4.4. -/
def joinWords : List Text :=
  ["JOIN", "INNER", "LEFT", "RIGHT", "FULL", "CROSS"].map String.toList

/-- Words that stay on the line of their `SELECT` and do not begin the select list. -/
def selectModifiers : List Text :=
  ["DISTINCT", "ALL"].map String.toList

/-- What a word is to the formatter. -/
inductive WordClass
  /-- A word of the language. -/
  | reserved
  /-- The name of a built-in function. -/
  | function
  /-- Any other word: the name of a table, a column and so on. -/
  | object
  deriving DecidableEq, Repr, Inhabited

/-- The class of a word, whatever its case. -/
def classify (word : Text) : WordClass :=
  if Text.upper word ∈ reservedWords then .reserved
  else if Text.upper word ∈ functionNames then .function
  else .object

end SqlTidy
