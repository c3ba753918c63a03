import FluentSql.Compile.Token

/-!
The grammar of conditions. A level is a row of units joined by connectors, and a unit is an atom or
a level in parentheses. A tree that is read from tokens is a list of nodes, one for each unit of the
level with the connector before it; the first unit of a level is given AND. The grammar is
unambiguous, because a machine with a stack of open levels finds the tree of any tokens that have
one.
-/

namespace FluentSql

/-- The node of an atom. -/
def Atom.node (c : Connector) : Atom → Node
  | .leaf field operator operand => .leaf field operator operand c
  | .fragment sql params => .raw sql params c
  | .stray v => .stray v

namespace Grammar

mutual

/-- Tokens of a unit after a connector. -/
inductive IsUnit : Connector → List Token → Node → Prop
  | atom (c : Connector) (a : Atom) : IsUnit c [.atom a] (a.node c)
  | group (c : Connector) {tokens : List Token} {nodes : List Node} (level : IsLevel tokens nodes) :
      IsUnit c (.opening :: tokens ++ [.closing]) (.group nodes c)

/-- Tokens of a level. -/
inductive IsLevel : List Token → List Node → Prop
  | one {tokens : List Token} {node : Node} (unit : IsUnit .and tokens node) :
      IsLevel tokens [node]
  | more (c : Connector) {tokens after : List Token} {nodes : List Node} {node : Node}
      (level : IsLevel tokens nodes) (unit : IsUnit c after node) :
      IsLevel (tokens ++ .connector c :: after) (nodes ++ [node])

end

/-- An open level: the units read so far, and the connector of the next unit when one is due. -/
structure Frame where
  nodes : List Node := []
  due : Option Connector := some .and

def step : Token → List Frame → Option (List Frame)
  | .atom a, ⟨nodes, some c⟩ :: frames => some (⟨nodes ++ [a.node c], none⟩ :: frames)
  | .connector c, ⟨nodes, none⟩ :: frames => some (⟨nodes, some c⟩ :: frames)
  | .opening, ⟨nodes, some c⟩ :: frames => some ({} :: ⟨nodes, some c⟩ :: frames)
  | .closing, ⟨items, none⟩ :: ⟨nodes, some c⟩ :: frames =>
    some (⟨nodes ++ [.group items c], none⟩ :: frames)
  | _, _ => none

def run : List Token → List Frame → Option (List Frame)
  | [], frames => some frames
  | t :: tokens, frames => (step t frames).bind (run tokens)

/-- The tree of a level, when the tokens have one. -/
def parse (tokens : List Token) : Option (List Node) :=
  match run tokens [{}] with
  | some [⟨nodes, none⟩] => some nodes
  | _ => none

mutual

/-- A unit is read onto an open level where one is due. -/
theorem run_unit (rest : List Token) (nodes : List Node) (frames : List Frame) :
    ∀ {c : Connector} {tokens : List Token} {node : Node}, IsUnit c tokens node →
      run (tokens ++ rest) (⟨nodes, some c⟩ :: frames) =
        run rest (⟨nodes ++ [node], none⟩ :: frames)
  | _, _, _, .atom c a => rfl
  | _, _, _, .group c level => by
      rw [List.cons_append, List.cons_append, List.append_assoc]
      exact run_level _ _ level

/-- A level is read onto a new frame. -/
theorem run_level (rest : List Token) (frames : List Frame) :
    ∀ {tokens : List Token} {nodes : List Node}, IsLevel tokens nodes →
      run (tokens ++ rest) ({} :: frames) = run rest (⟨nodes, none⟩ :: frames)
  | _, _, .one unit => run_unit rest [] frames unit
  | _, _, .more c level unit => by
      rw [List.append_assoc, run_level _ _ level]
      exact run_unit rest _ frames unit

end

theorem parse_of_isLevel {tokens : List Token} {nodes : List Node} (h : IsLevel tokens nodes) :
    parse tokens = some nodes := by
  have read := run_level [] [] h
  rw [List.append_nil] at read
  simp only [parse, read, run]

/-- Tokens have at most one tree. -/
theorem isLevel_unique {tokens : List Token} {nodes nodes' : List Node}
    (h : IsLevel tokens nodes) (h' : IsLevel tokens nodes') : nodes' = nodes := by
  have same := (parse_of_isLevel h').symm.trans (parse_of_isLevel h)
  exact Option.some.inj same

end Grammar
end FluentSql
