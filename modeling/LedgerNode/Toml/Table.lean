/-!
TOML values, and tables as a document builds them up: which tables may be added to, and by what, is
kept with each table.
-/
namespace LedgerNode.Toml

/-- How a table came to be: by its own header, on the way to another header, by a dotted key, or in
one piece as a value. -/
inductive TableKind where
  | declared
  | implied
  | dotted
  | inline
  deriving DecidableEq, Repr

inductive Value where
  | text (s : String)
  | integer (n : Int)
  | real
  | boolean (b : Bool)
  | time
  | array (items : List Value)
  | table (kind : TableKind) (entries : List (String × Value))
  /-- Tables under one header in double brackets, in order. -/
  | tables (items : List (List (String × Value)))
  deriving Inhabited

/-- The entries of a table in order. -/
abbrev Entries := List (String × Value)

namespace Entries

def find? (key : String) (es : Entries) : Option Value := es.lookup key

/-- Puts a value in place of the one of this key. -/
def replace (key : String) (v : Value) (es : Entries) : Entries :=
  es.map fun e => if e.1 = key then (key, v) else e

def erase (key : String) (es : Entries) : Entries := es.filter (·.1 != key)

end Entries

/-- The way to a table by the keys of a header, or by those of a dotted key. -/
inductive Route where
  | header
  | dotted
  deriving DecidableEq

/-- What a table is that is made on the way. -/
def Route.made : Route → TableKind
  | header => .implied
  | dotted => .dotted

/-- A dotted key does not lead into a table that has its own header, and no way leads into a table
that is a value. -/
def Route.passes : Route → TableKind → Bool
  | _, .inline => false
  | dotted, .declared => false
  | _, _ => true

/-- Changes the table at the end of a path.  Tables that are missing on the way are made; of tables in
double brackets the last is meant. -/
def Entries.update (route : Route) (change : TableKind → Entries → Option Entries)
    (kind : TableKind) (es : Entries) : (path : List String) → Option Entries
  | [] => change kind es
  | key :: path =>
    match es.find? key with
    | none => do
      let sub ← Entries.update route change route.made [] path
      return es ++ [(key, .table route.made sub)]
    | some (.table kind sub) =>
      if route.passes kind then do
        let sub ← Entries.update route change kind sub path
        return es.replace key (.table kind sub)
      else none
    | some (.tables items) => do
      let last ← items.getLast?
      let last ← Entries.update route change .declared last path
      return es.replace key (.tables (items.dropLast ++ [last]))
    | some _ => none

/-- Gives a key its value.  A path of dotted keys must end in a table that such a path made. -/
def Entries.define (kind : TableKind) (es : Entries) (path : List String) (key : String) (v : Value) :
    Option Entries :=
  es.update .dotted (fun kind es =>
    if (!path.isEmpty && kind != .dotted) || (es.find? key).isSome then none
    else some (es ++ [(key, v)])) kind path

/-- A table that has its own header from now on.  It may have been on the way to another before, and
then moves behind all others. -/
def Entries.declare (es : Entries) (path : List String) (key : String) : Option Entries :=
  es.update .header (fun _ es =>
    match es.find? key with
    | none => some (es ++ [(key, .table .declared [])])
    | some (.table .implied sub) => some (es.erase key ++ [(key, .table .declared sub)])
    | some _ => none) .declared path

/-- One more table under a header in double brackets. -/
def Entries.declareNext (es : Entries) (path : List String) (key : String) : Option Entries :=
  es.update .header (fun _ es =>
    match es.find? key with
    | none => some (es ++ [(key, .tables [[]])])
    | some (.tables items) => some (es.replace key (.tables (items ++ [[]])))
    | some _ => none) .declared path

end LedgerNode.Toml
