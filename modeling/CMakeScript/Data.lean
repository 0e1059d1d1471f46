import CMakeScript.Record

/-!
# Untyped data

The data that a description file holds before it is read as a description.
-/

namespace CMakeScript

/-- A piece of untyped data. -/
inductive Data where
  | null
  /-- A truth value or a number. No part of a description is one. -/
  | other
  | text (text : String)
  | list (items : List Data)
  /-- A mapping. Its entries are in the order of a record, whatever the order of the pairs. -/
  | map (pairs : List (String × Data))
  deriving Repr

/-- A reader of texts as data. For a text that it cannot read it gives the reason. -/
abbrev DataReader := List Char → Except String Data

namespace Data

def entries? : Data → Option (List (String × Data))
  | map pairs => some (Record.arrange pairs)
  | _ => none

def field? (entries : List (String × Data)) (name : String) : Option Data :=
  (entries.find? (·.1 = name)).map (·.2)

def texts (items : List String) : Data :=
  list (items.map text)

end Data

end CMakeScript
