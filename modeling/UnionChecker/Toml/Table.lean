import UnionChecker.Toml.Value
/-!
# TOML tables

A table is filled by key-value pairs and by headers. No name may be given twice, and what a header
or braces have defined is not extended by dotted keys. A table that is only named on the way to
another one has its place where it is named first.
-/

namespace UnionChecker.Toml

/-- Replace the value of an entry. -/
def replaceEntry (name : String) (value : Nat × Value) (entries : Entries) : Entries :=
  entries.map fun entry => if entry.1 == name then (name, value) else entry

/-- Change the table at a path, given a change of its entries. Tables on the path are made when they
are missing. A dotted key may not reach into a table that has a header of its own, and nothing may
reach into a table in braces. None when the path leads nowhere or the change fails. -/
def within (dotted : Bool) (change : TableKind → Entries → Option Entries) :
    (path : List KeyPart) → TableKind → Entries → Option Entries
  | [], kind, entries => change kind entries
  | part :: path, _, entries =>
    match entries.lookup part.name with
    | none =>
      let kind := if dotted then .dotted else .parent
      (within dotted change path kind []).map fun inner =>
        entries ++ [(part.name, part.place, .table kind inner)]
    | some (start, .table kind inner) =>
      if kind == .inline || (dotted && kind == .header) then none
      else
        (within dotted change path kind inner).map fun inner =>
          replaceEntry part.name (start, .table kind inner) entries
    | some (start, .tables elements) =>
      match elements.getLast? with
      | none => none
      | some (lastPlace, last) =>
        (within dotted change path .header last).map fun last =>
          replaceEntry part.name (start, .tables (elements.dropLast ++ [(lastPlace, last)])) entries
    | some _ => none

/-- Add an entry to a table, if the name is new. -/
def addEntry (name : String) (value : Nat × Value) (entries : Entries) : Option Entries :=
  if (entries.lookup name).isSome then none else some (entries ++ [(name, value)])

/-- Add a key-value pair to a table. All but the last name of the key lead to a table below it,
which dotted keys have made. -/
def addPair (key : List KeyPart) (value : Nat × Value) (kind : TableKind) (entries : Entries) :
    Option Entries :=
  match key.getLast? with
  | none => none
  | some part =>
    let path := key.dropLast
    within true
      (fun kind entries =>
        if !path.isEmpty && kind != .dotted then none else addEntry part.name value entries)
      path kind entries

/-- Open the table under a header at a place. -/
def openTable (place : Nat) (key : List KeyPart) (root : Entries) : Option Entries :=
  match key.getLast? with
  | none => none
  | some part =>
    within false
      (fun _ entries =>
        match entries.lookup part.name with
        | none => some (entries ++ [(part.name, place, .table .header [])])
        | some (_, .table .parent inner) =>
          some (entries.filter (fun entry => entry.1 != part.name)
            ++ [(part.name, place, .table .header inner)])
        | some _ => none)
      key.dropLast .header root

/-- Open one more table under a doubled header at a place. -/
def openElement (place : Nat) (key : List KeyPart) (root : Entries) : Option Entries :=
  match key.getLast? with
  | none => none
  | some part =>
    within false
      (fun _ entries =>
        match entries.lookup part.name with
        | none => some (entries ++ [(part.name, place, .tables [(place, [])])])
        | some (start, .tables elements) =>
          some (replaceEntry part.name (start, .tables (elements ++ [(place, [])])) entries)
        | some _ => none)
      key.dropLast .header root

end UnionChecker.Toml
