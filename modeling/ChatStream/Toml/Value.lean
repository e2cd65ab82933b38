import ChatStream.Decimal.Binary

/-!
# TOML values and tables

A value is what a key may be given. A document is a table whose entries remember how they came to
be, since TOML lets some tables be extended and others not: a table that exists only because a
longer name mentions it may still be defined, a table made by a dotted key may be extended by
further dotted keys, and a table or array written out as a value is closed.
-/

namespace ChatStream.Toml

open Decimal

/-- A TOML value. -/
inductive Value
  | text (s : String)
  | integer (n : Int)
  | float (x : Double)
  | truth (b : Bool)
  /-- A date or a time, of which nothing is kept. -/
  | moment
  | array (items : List Value)
  | table (members : List (String × Value))
  deriving Repr

instance : Inhabited Value := ⟨.moment⟩

/-- How a table came to be. -/
inductive Origin
  /-- By a header of its own, or as the document. -/
  | defined
  /-- By being mentioned in a longer header. -/
  | mentioned
  /-- By a dotted key. -/
  | dotted
  deriving DecidableEq, Repr

/-- What a name stands for while a document is read. -/
inductive Entry
  | value (v : Value)
  | table (origin : Origin) (members : List (String × Entry))
  /-- An array of tables, the last one first. -/
  | tables (items : List (List (String × Entry)))
  deriving Repr

instance : Inhabited Entry := ⟨.table .defined []⟩

/-- The entries of a table. -/
abbrev Members := List (String × Entry)

/-- The entry called `name`. -/
def find? (ms : Members) (name : String) : Option Entry := (ms.find? (·.1 = name)).map (·.2)

/-- Puts an entry in place of the one of the same name, or at the end. -/
def put (name : String) (e : Entry) : Members → Members
  | [] => [(name, e)]
  | (k, old) :: rest => if k = name then (k, e) :: rest else (k, old) :: put name e rest

/-- Changes the table at the end of `path`, making the tables on the way that are not there. A
dotted path passes only through tables that were made on the way; a header also passes through
defined tables. Both enter the last table of an array of tables. -/
def descend (dotted : Bool) (change : Origin → Members → Option (Origin × Members)) :
    (path : List String) → Origin → Members → Option (Origin × Members)
  | [], origin, ms => change origin ms
  | name :: path, origin, ms =>
    match find? ms name with
    | none => do
      let (o, inner) ← descend dotted change path (if dotted then .dotted else .mentioned) []
      return (origin, put name (.table o inner) ms)
    | some (.value _) => none
    | some (.table o inner) =>
      if dotted && o = .defined then none
      else do
        let (o, inner) ← descend dotted change path o inner
        return (origin, put name (.table o inner) ms)
    | some (.tables []) => none
    | some (.tables (last :: older)) => do
      let (_, last) ← descend dotted change path .defined last
      return (origin, put name (.tables (last :: older)) ms)

/-- Gives a value to the dotted key `path.name` in a table. The table reached by a path must have
been made by dotted keys, and the name must be free. -/
def assign (path : List String) (name : String) (v : Value) :
    Origin → Members → Option (Origin × Members) :=
  descend true (fun origin ms ↦
    if (origin = .dotted) = path.isEmpty then none
    else if (find? ms name).isSome then none
    else some (origin, put name (.value v) ms)) path

/-- Defines the table `path.name`, which may have been mentioned before. -/
def defineTable (path : List String) (name : String) :
    Origin → Members → Option (Origin × Members) :=
  descend false (fun origin ms ↦
    match find? ms name with
    | none => some (origin, put name (.table .defined []) ms)
    | some (.table .mentioned inner) => some (origin, put name (.table .defined inner) ms)
    | some _ => none) path

/-- Adds a table to the array of tables `path.name`. -/
def appendTable (path : List String) (name : String) :
    Origin → Members → Option (Origin × Members) :=
  descend false (fun origin ms ↦
    match find? ms name with
    | none => some (origin, put name (.tables [[]]) ms)
    | some (.tables items) => some (origin, put name (.tables ([] :: items)) ms)
    | some _ => none) path

mutual

/-- The value of a finished entry. -/
def Entry.toValue : Entry → Value
  | .value v => v
  | .table _ ms => .table (memberValues ms)
  | .tables items => .array (tableValues items).reverse

/-- The values of the entries of a table. -/
def memberValues : List (String × Entry) → List (String × Value)
  | [] => []
  | (k, e) :: rest => (k, e.toValue) :: memberValues rest

/-- The values of the tables of an array. -/
def tableValues : List (List (String × Entry)) → List Value
  | [] => []
  | ms :: rest => .table (memberValues ms) :: tableValues rest

end

end ChatStream.Toml
