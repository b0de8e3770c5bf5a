/-
Tables of a TOML document while it is read.

A table comes into being by a header of its own, as a step on the way to another table's header, or by a dotted key;
which of these it was decides who may still add to it (`Kind`). Values never change once they are there, and that
includes inline tables and arrays. The elements of an array of tables are added at its end, and all that follows goes
into the last one.
-/
import RoutingReplay.Value

namespace RoutingReplay.Toml

/-- how a table came into being -/
inductive Kind where
  /-- by its header, or as the root -/
  | declared
  /-- by the header of a table inside of it -/
  | implied
  /-- by a dotted key -/
  | dotted
  deriving DecidableEq

/-- what a key stands for -/
inductive Node where
  | value (v : Value)
  | table (kind : Kind) (fields : List (String × Node))
  /-- an array of tables, each with its fields, the last one first -/
  | tables (elements : List (List (String × Node)))

/-- a table with its kind -/
structure Table where
  kind : Kind
  fields : List (String × Node)

namespace Table

/-- the root of a document, or an inline table -/
def root : Table := ⟨.declared, []⟩

def find? (t : Table) (key : String) : Option Node := (t.fields.find? fun f => f.1 = key).map Prod.snd

/-- the table with another node for a key that it has, or with one more key -/
def set (t : Table) (key : String) (node : Node) : Table :=
  if t.fields.any fun f => f.1 = key then
    { t with fields := t.fields.map fun f => if f.1 = key then (key, node) else f }
  else { t with fields := t.fields ++ [(key, node)] }

/-- the table in which the table at the end of a path has been changed. Tables on the way that are missing are made: by
a dotted key or as implied by a header. A dotted key does not lead into a table that has a header of its own. -/
def changeAt? (dotted : Bool) (change : Table → Option Table) : List String → Table → Option Table
  | [], t => change t
  | key :: path, t =>
    match t.find? key with
    | none =>
      (changeAt? dotted change path ⟨if dotted then .dotted else .implied, []⟩).map fun inner =>
        t.set key (.table inner.kind inner.fields)
    | some (.table kind fields) =>
      if dotted && kind = .declared then none
      else (changeAt? dotted change path ⟨kind, fields⟩).map fun inner => t.set key (.table inner.kind inner.fields)
    | some (.tables (last :: others)) =>
      (changeAt? dotted change path ⟨.declared, last⟩).map fun inner => t.set key (.tables (inner.fields :: others))
    | some (.tables []) | some (.value _) => none

/-- a new key with a value, below a path of dotted keys. A table takes keys either directly or as dotted keys from
outside, never both. -/
def assign? (path : List String) (key : String) (v : Value) : Table → Option Table :=
  changeAt? true (fun t =>
    if t.kind = .dotted ↔ path = [] then none
    else if (t.find? key).isSome then none
    else some (t.set key (.value v))) path

/-- the header of a table: it may stand once, and for a table that nothing but inner headers have brought about -/
def declare? (path : List String) (key : String) : Table → Option Table :=
  changeAt? false (fun t =>
    match t.find? key with
    | none => some (t.set key (.table .declared []))
    | some (.table .implied fields) => some (t.set key (.table .declared fields))
    | some _ => none) path

/-- the header of an element of an array of tables -/
def append? (path : List String) (key : String) : Table → Option Table :=
  changeAt? false (fun t =>
    match t.find? key with
    | none => some (t.set key (.tables [[]]))
    | some (.tables elements) => some (t.set key (.tables ([] :: elements)))
    | some _ => none) path

end Table

/-! ## Tables as values -/

mutual

def Node.toValue : Node → Value
  | .value v => v
  | .table _ fields => .record (fieldValues fields)
  | .tables elements => .list (elementValues elements).reverse

def fieldValues : List (String × Node) → List (String × Value)
  | [] => []
  | (key, node) :: rest => (key, node.toValue) :: fieldValues rest

def elementValues : List (List (String × Node)) → List Value
  | [] => []
  | fields :: rest => .record (fieldValues fields) :: elementValues rest

end

def Table.toValue (t : Table) : Value := .record (fieldValues t.fields)

end RoutingReplay.Toml
