import WatTypes.Decimal.Binary64

/-!
# Values of TOML documents

A document holds values by their keys, in the order in which they were written. Arrays and tables
that are written as values are closed. Those that headers and dotted keys make are open, and what
may still be added to such a table depends on its standing (`Standing`).
-/

set_option autoImplicit false
set_option relaxedAutoImplicit false

namespace WatTypes.Toml

/-- Why a text is not read as a document. -/
inductive Fault where
  /-- It breaks a rule of the format. -/
  | malformed
  /-- It has a decimal integer of more digits than are read. -/
  | integerTooLong
  /-- Its arrays and tables are nested deeper than is read. -/
  | nestedTooDeep
deriving DecidableEq, Repr

/-- How a table came to be. -/
inductive Standing where
  /-- It was written as a value, and nothing can be added. -/
  | closed
  /-- A header named it on the way to another table. -/
  | implied
  /-- A section defined it, by its header or by a dotted key; sections are numbered. -/
  | definedIn (owner : Nat)
deriving DecidableEq, Repr

/-- A value of a document. -/
inductive Value where
  /-- A string. -/
  | string (text : String)
  /-- An integer. -/
  | integer (value : Int)
  /-- A floating-point number. -/
  | float (value : Binary64)
  /-- A truth value. -/
  | boolean (value : Bool)
  /-- A date, a time or both, as it was written. -/
  | moment (text : String)
  /-- An array; headers can add tables to an open one. -/
  | array (isOpen : Bool) (items : List Value)
  /-- A table, with the values of its keys. -/
  | table (standing : Standing) (entries : List (String × Value))
deriving Repr

/-- The values of a table by their keys. -/
abbrev Entries : Type := List (String × Value)

/-- A key with the keys of the tables that lead to it. -/
structure Key where
  /-- The keys of the tables. -/
  parents : List String
  /-- The key itself. -/
  last : String
deriving DecidableEq, Repr

namespace Key

/-- The key that dotted parts spell. -/
def ofParts (first : String) : List String → Key
  | [] => ⟨[], first⟩
  | part :: parts =>
    let key := ofParts part parts
    ⟨first :: key.parents, key.last⟩

/-- The parts of a key. -/
def parts (key : Key) : List String := key.parents ++ [key.last]

end Key

namespace Entries

/-- Changes what stands behind a key. What is new comes last. -/
def alter (change : Option Value → Except Fault Value) (name : String) :
    Entries → Except Fault Entries
  | [] => do return [(name, ← change none)]
  | (other, value) :: entries =>
    if other = name then do return (other, ← change (some value)) :: entries
    else do return (other, value) :: (← alter change name entries)

/-- Adds a value behind a key that is not there yet. -/
def insert (name : String) (value : Value) : Entries → Except Fault Entries :=
  alter (fun
    | none => .ok value
    | some _ => .error .malformed) name

/-- Changes the table behind the last of the keys of headers: missing tables are made on the way,
and of an open array the last table is taken. -/
def withinHeader (change : Entries → Except Fault Entries) :
    List String → Entries → Except Fault Entries
  | [], entries => change entries
  | name :: names, entries =>
    alter (fun
      | none => do return .table .implied (← withinHeader change names [])
      | some (.table standing inner) =>
        if standing = .closed then .error .malformed
        else do return .table standing (← withinHeader change names inner)
      | some (.array true items) =>
        match items.getLast? with
        | some (.table standing inner) => do
          return .array true
            (items.dropLast ++ [.table standing (← withinHeader change names inner)])
        | _ => .error .malformed
      | some _ => .error .malformed) name entries

/-- Changes the table behind the last of the parents of a dotted key. The tables on the way belong
to the section of the key: it makes the missing ones, takes over those that headers only implied,
and cannot enter the tables of others. -/
def withinDotted (owner : Nat) (change : Entries → Except Fault Entries) :
    List String → Entries → Except Fault Entries
  | [], entries => change entries
  | name :: names, entries =>
    alter (fun
      | none => do return .table (.definedIn owner) (← withinDotted owner change names [])
      | some (.table .implied inner) => do
        return .table (.definedIn owner) (← withinDotted owner change names inner)
      | some (.table (.definedIn other) inner) =>
        if other = owner then do
          return .table (.definedIn owner) (← withinDotted owner change names inner)
        else .error .malformed
      | some _ => .error .malformed) name entries

/-- Adds a value behind a dotted key of a section. -/
def insertDotted (owner : Nat) (key : Key) (value : Value) : Entries → Except Fault Entries :=
  withinDotted owner (insert key.last value) key.parents

/-- Defines the table of a header, which no section may have defined before. -/
def defineTable (owner : Nat) (key : Key) : Entries → Except Fault Entries :=
  withinHeader
    (alter (fun
      | none => .ok (.table (.definedIn owner) [])
      | some (.table .implied inner) => .ok (.table (.definedIn owner) inner)
      | some _ => .error .malformed) key.last)
    key.parents

/-- Adds a table to the open array of a header. -/
def appendTable (owner : Nat) (key : Key) : Entries → Except Fault Entries :=
  withinHeader
    (alter (fun
      | none => .ok (.array true [.table (.definedIn owner) []])
      | some (.array true items) => .ok (.array true (items ++ [.table (.definedIn owner) []]))
      | some _ => .error .malformed) key.last)
    key.parents

end Entries

end WatTypes.Toml
