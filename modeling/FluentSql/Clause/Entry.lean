import FluentSql.Clause.Node

/-!
Entries of GROUP BY and ORDER BY. An entry is a column or a raw text, exactly one of the two; only a
raw text may bring parameters. An entry of ORDER BY also has a direction.
-/

namespace FluentSql

inductive Source where
  | column (name : String)
  | raw (sql : String)
deriving DecidableEq, Repr

structure Entry where
  source : Source
  params : Option FragmentParams := none
deriving BEq, Repr

structure OrderEntry extends Entry where
  direction : Direction := .ascending
deriving BEq, Repr

namespace Entry

def isRaw (e : Entry) : Bool :=
  match e.source with
  | .raw _ => true
  | .column _ => false

/-- The parameters of a raw entry, empty when there are none. -/
def hasParams : Option FragmentParams → Bool
  | some params => !params.isEmpty
  | none => false

def checkColumn : Value → Except Error (Option String)
  | .none => .ok none
  | v => do .ok (some (← Identifier.check "column" v))

/-- The text of a raw entry of a clause, which must not be blank. -/
def checkRaw (clause : String) : Value → Except Error (Option String)
  | .none => .ok none
  | .text s =>
    if (Text.trim s).isEmpty then refuse (.emptyClause clause) else .ok (some (Text.trim s))
  | _ => refuse (.emptyClause clause)

/-- An entry out of its parts; `entry` is what a report calls it. -/
def ofParts (entry : String) (column raw : Option String) (params : Option FragmentParams) :
    Except Error Entry :=
  match column, raw with
  | some name, none =>
    if hasParams params then refuse .columnWithParams else .ok ⟨.column name, params⟩
  | none, some sql => .ok ⟨.raw sql, params⟩
  | _, _ => refuse (.entryForm entry)

/-- The parts of an entry out of plain data. -/
def partsOfFields (clause : String) (data : List (String × Value)) :
    Checked (Option String × Option String × Option FragmentParams) :=
  (((checkField data "column" (.ok none) fun v => .ofExcept (checkColumn v)).map
      fun column raw params => (column, raw, params)).app
    (checkField data "raw" (.ok none) fun v => .ofExcept (checkRaw clause v))).app
    (checkField data "params" (.ok none) Node.checkParams)

end Entry

namespace GroupEntry

def entryName : String := "GroupItem"

def clause : String := "group_by"

def ofFields (data : List (String × Value)) : Checked Entry :=
  (Entry.partsOfFields clause data).andThen fun (column, raw, params) =>
    .ofExcept (Entry.ofParts entryName column raw params)

def ofColumn (column : Value) : Except Error Entry := do
  Entry.ofParts entryName (← Entry.checkColumn column) none none

def ofRaw (sql params : Value) : Except Error Entry :=
  (ofFields [("raw", sql), ("params", params)]).toExcept

def check : Value → Checked Entry
  | .map entries => ofFields (Value.namedEntries entries)
  | _ => .invalid [""]

end GroupEntry

namespace OrderEntry

def entryName : String := "OrderItem"

def clause : String := "order_by"

/-- The direction that a value gives, in any case and with blanks around it. -/
def checkDirection : Value → Except Error Direction
  | .text s =>
    match Direction.ofText? (Text.upper (Text.trim s)) with
    | some direction => .ok direction
    | none => refuse (.unknownDirection (.text s))
  | v => refuse (.unknownDirection v)

def ofFields (data : List (String × Value)) : Checked OrderEntry :=
  (((Entry.partsOfFields clause data).map fun parts direction => (parts, direction)).app
    (checkField data "direction" (.ok .ascending) fun v => .ofExcept (checkDirection v))).andThen
    fun ((column, raw, params), direction) =>
      (Checked.ofExcept (Entry.ofParts entryName column raw params)).map
        fun entry => ⟨entry, direction⟩

def ofColumn (column direction : Value) : Except Error OrderEntry :=
  (ofFields [("column", column), ("direction", direction)]).toExcept

def ofRaw (sql params : Value) : Except Error OrderEntry :=
  (ofFields [("raw", sql), ("params", params)]).toExcept

def check : Value → Checked OrderEntry
  | .map entries => ofFields (Value.namedEntries entries)
  | _ => .invalid [""]

end OrderEntry
end FluentSql
