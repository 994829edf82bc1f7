/-! # Tables of a TOML document

    A document defines its tables piece by piece: by headers, by the elements of
    arrays of tables, and by keys with dots.  What may be added to a table later
    depends on how it was defined.

    * `Item` is an entry of a table under construction.
    * `openTable`, `openElement` and `setValue` are the three definitions; each
      fails where it would define something again.
    * `Value.ofItems` is the finished table. -/

namespace BillOfMaterials.Toml

/-- A value.  Numbers, booleans and dates are told from texts, but not from each
    other. -/
inductive Value where
  | text (value : String)
  | scalar
  | list (items : List Value)
  | table (entries : List (String × Value))

/-- How a table has come about so far. -/
inductive Origin where
  /-- Named only as a part of longer headers. -/
  | implied
  /-- By a header of its own. -/
  | header
  /-- By keys with dots. -/
  | dotted
  deriving DecidableEq

/-- An entry of a table under construction. -/
inductive Item where
  /-- A value, which nothing can be added to. -/
  | value (value : Value)
  | table (origin : Origin) (items : List (String × Item))
  /-- An array of tables: all elements but the last, and the last. -/
  | tables (earlier : List (List (String × Item))) (last : List (String × Item))

/-- The entries of a table under construction. -/
abbrev Items := List (String × Item)

/-! ## Definitions -/

/-- Changes the entry of a name, where `f` decides what comes of it. -/
def alter (name : String) (f : Option Item → Option Item) (items : Items) : Option Items :=
  if items.any (·.1 == name) then
    items.mapM fun entry =>
      if entry.1 = name then (f (some entry.2)).map (entry.1, ·) else some entry
  else do return items ++ [(name, ← f none)]

/-- Goes along the names of a header, through the last elements of arrays, and
    changes the table there. -/
def alterHeader (change : Items → Option Items) : List String → Items → Option Items
  | [], items => change items
  | name :: rest, items => alter name (fun
    | none => do return .table .implied (← alterHeader change rest [])
    | some (.table origin inner) => do return .table origin (← alterHeader change rest inner)
    | some (.tables earlier last) => do return .tables earlier (← alterHeader change rest last)
    | some (.value _) => none) items

/-- Defines a table by a header. -/
def openTable (above : List String) (name : String) : Items → Option Items :=
  alterHeader (alter name fun
    | none => some (.table .header [])
    | some (.table .implied inner) => some (.table .header inner)
    | some _ => none) above

/-- Adds an element to an array of tables. -/
def openElement (above : List String) (name : String) : Items → Option Items :=
  alterHeader (alter name fun
    | none => some (.tables [] [])
    | some (.tables earlier last) => some (.tables (earlier ++ [last]) [])
    | some _ => none) above

/-- Sets a value under a key with dots.  The table that gets the value must be
    one that only such keys define. -/
def setDotted (value : Value) : List String → Items → Option Items
  | [], _ => none
  | [name], items =>
    alter name (fun
      | none => some (.value value)
      | some _ => none) items
  | name :: rest, items => alter name (fun
    | none => do return .table .dotted (← setDotted value rest [])
    | some (.table .dotted inner) => do
      return .table .dotted (← setDotted value rest inner)
    | some (.table .implied inner) =>
      if rest.length = 1 then none
      else do return .table .implied (← setDotted value rest inner)
    | some _ => none) items

/-- Sets a value under a key in the table of a header. -/
def setValue (header key : List String) (value : Value) : Items → Option Items :=
  alterHeader (setDotted value key) header

/-! ## Finished tables -/

mutual

def Value.ofItem : Item → Value
  | .value value => value
  | .table _ items => .table (Value.ofItems items)
  | .tables earlier last => .list (Value.ofElements earlier ++ [.table (Value.ofItems last)])

def Value.ofItems : List (String × Item) → List (String × Value)
  | [] => []
  | (name, item) :: rest => (name, Value.ofItem item) :: Value.ofItems rest

def Value.ofElements : List (List (String × Item)) → List Value
  | [] => []
  | items :: rest => .table (Value.ofItems items) :: Value.ofElements rest

end

end BillOfMaterials.Toml
