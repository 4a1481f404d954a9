/-!
# Values of a settings file

* `Toml` — a value: a scalar, an array, or a table with its keys in the order of the file;
* `Toml.get?` — the value of a key in a table.
-/

namespace PackExchange

/-- A value of a settings file.  Numbers with a fraction and points in time are kept as they are
written: nothing is computed with them. -/
inductive Toml where
  | text (s : String)
  | integer (n : Int)
  | float (literal : String)
  | boolean (b : Bool)
  | moment (literal : String)
  | array (items : List Toml)
  | table (entries : List (String × Toml))
  deriving Repr, Inhabited

namespace Toml

/-- The value of a key in the entries of a table. -/
def get? (entries : List (String × Toml)) (key : String) : Option Toml := entries.lookup key

end Toml

end PackExchange
