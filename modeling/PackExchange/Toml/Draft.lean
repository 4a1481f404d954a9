import PackExchange.Toml.Value

/-!
# Tables under construction

While a file is read its tables are open: later lines may add to them, as long as no table is
defined twice.

* `Draft` — a value, an open table, or a list of tables;
* `Draft.assign?` — a line that gives a key its value;
* `Draft.define?` and `Draft.append?` — the header of a table, and of one more table in a list;
* `Draft.freeze` — the finished value.

A table comes from a header, from a longer header, or from dotted keys.  Only a table that merely
comes from longer headers may still get a header of its own, and dotted keys reach only tables
without a header.
-/

namespace PackExchange.Toml

/-- Where an open table comes from. -/
inductive Origin where
  /-- It has a header of its own, or is the whole file or an inline table. -/
  | header
  /-- A longer header names it on the way. -/
  | implied
  /-- Dotted keys name it on the way. -/
  | dotted
  deriving DecidableEq, Repr

/-- Part of a file under construction. -/
inductive Draft where
  | leaf (value : Toml)
  | table (origin : Origin) (entries : List (String × Draft))
  /-- A list of tables, the latest first. -/
  | tables (items : List (List (String × Draft)))
  deriving Repr, Inhabited

namespace Draft

/-- The entries of an open table. -/
abbrev Entries := List (String × Draft)

/-- Changes the entry of a key, or adds one. -/
def alter? (key : String) (change : Option Draft → Option Draft) : Entries → Option Entries
  | [] => (change none).map fun d => [(key, d)]
  | (k, d) :: rest =>
    if k = key then (change (some d)).map fun d => (k, d) :: rest
    else (alter? key change rest).map fun rest => (k, d) :: rest

/-- Acts on the table at the end of a path; tables that are missing on the way are made.  Of a list
of tables the latest counts. -/
def within? (dotted : Bool) (act : Origin → Entries → Option Entries) :
    List String → Origin → Entries → Option Entries
  | [], origin, entries => act origin entries
  | key :: path, _, entries =>
    let made : Origin := if dotted then .dotted else .implied
    alter? key (fun
      | none => (within? dotted act path made []).map (.table made)
      | some (.leaf _) => none
      | some (.tables []) => none
      | some (.tables (latest :: earlier)) =>
        (within? dotted act path .header latest).map fun latest => .tables (latest :: earlier)
      | some (.table origin inner) =>
        if dotted && origin = .header then none
        else (within? dotted act path origin inner).map (.table origin)) entries

/-- Gives a key its value, in the table that dotted keys lead to. -/
def assign? (path : List String) (key : String) (value : Draft) (origin : Origin)
    (entries : Entries) : Option Entries :=
  within? true (fun origin entries =>
    if (origin == .dotted) == path.isEmpty then none
    else alter? key (fun old => if old.isSome then none else some value) entries) path origin entries

/-- The header of a table. -/
def define? (path : List String) (key : String) (root : Entries) : Option Entries :=
  within? false (fun _ entries =>
    alter? key (fun
      | none => some (.table .header [])
      | some (.table .implied inner) => some (.table .header inner)
      | some _ => none) entries) path .header root

/-- The header of one more table in a list. -/
def append? (path : List String) (key : String) (root : Entries) : Option Entries :=
  within? false (fun _ entries =>
    alter? key (fun
      | none => some (.tables [[]])
      | some (.tables items) => some (.tables ([] :: items))
      | some _ => none) entries) path .header root

/-! ### Finished values -/

mutual

/-- The finished value. -/
def freeze : Draft → Toml
  | .leaf value => value
  | .table _ entries => .table (freezeEntries entries)
  | .tables items => .array (freezeTables items [])

/-- The finished entries of a table. -/
def freezeEntries : List (String × Draft) → List (String × Toml)
  | [] => []
  | (key, d) :: rest => (key, d.freeze) :: freezeEntries rest

/-- The finished tables of a list, in front of those already finished. -/
def freezeTables : List (List (String × Draft)) → List Toml → List Toml
  | [], done => done
  | entries :: rest, done => freezeTables rest (.table (freezeEntries entries) :: done)

end

end Draft

end PackExchange.Toml
