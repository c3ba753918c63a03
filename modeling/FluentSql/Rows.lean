import FluentSql.Keyword
import FluentSql.Failure

/-!
Shapes of fetched rows. A row is a list of cells under column names; a shaped row is a map by name,
a tuple, a map by name and position, or the first cell. Grouping collects the rows under their first
cell, in order of first appearance.
-/

namespace FluentSql.Rows

/-- Cells by column name; a name that occurs twice takes the later cell. -/
def byName (keys : List String) (row : List Value) : List (Value × Value) :=
  Entries.ofPairs ((keys.zip row).map fun (key, cell) => (.text key, cell))

/-- Cells by position, added to a map. -/
def byPosition (entries : List (Value × Value)) (row : List Value) : List (Value × Value) :=
  row.zipIdx.foldl (fun entries (cell, i) => Entries.insert entries (.ofNat i) cell) entries

/-- The complaint about a row without a first cell. -/
def noFirstCell : Error := .raised (.indexError "tuple index out of range")

/-- A single row in a style. -/
def shapeOne (keys : List String) (row : List Value) : FetchStyle → Except Error Value
  | .assoc => .ok (.map (byName keys row))
  | .num => .ok (.tuple row)
  | .both => .ok (.map (byPosition (byName keys row) row))
  | .column =>
    match row with
    | cell :: _ => .ok cell
    | [] => .error noFirstCell
  | .group =>
    .error (.raised (.valueError "Fetch style FetchStyle.GROUP cannot shape a single row"))

/-- Adds a row to the list under its key. -/
def addTo (groups : List (Value × List Value)) (key row : Value) : List (Value × List Value) :=
  match groups with
  | [] => [(key, [row])]
  | (k, rows) :: rest =>
    if k.sameKey key then (k, rows ++ [row]) :: rest else (k, rows) :: addTo rest key row

/-- Groups by the first cell, which has to be usable as a key. -/
def groupFrom (keys : List String) (groups : List (Value × List Value)) :
    List (List Value) → Except Error (List (Value × List Value))
  | [] => .ok groups
  | [] :: _ => .error noFirstCell
  | (cell :: cells) :: rest =>
    if cell.hashable then groupFrom keys (addTo groups cell (.map (byName keys.tail cells))) rest
    else .error (.raised (.typeError s!"unhashable type: '{cell.typeName}'"))

/-- All rows of a result in a style. -/
def shape (keys : List String) (rows : List (List Value)) (style : FetchStyle) :
    Except Error Value :=
  match style with
  | .group => do
    let groups ← groupFrom keys [] rows
    .ok (.map (groups.map fun (key, rows) => (key, .list rows)))
  | _ => do .ok (.list (← rows.mapM fun row => shapeOne keys row style))

/-- The style that a value names exactly. -/
def readStyle (v : Value) : Except Error FetchStyle :=
  match v with
  | .text s =>
    match FetchStyle.ofText? s with
    | some style => .ok style
    | none => unknown
  | _ => unknown
where
  unknown : Except Error FetchStyle :=
    .error (.raised (if v.isWritable then .valueError s!"{v.display} is not a valid FetchStyle"
      else .tooManyDigits))

end FluentSql.Rows
