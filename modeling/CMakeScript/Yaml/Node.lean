import CMakeScript.Data
import CMakeScript.Text.Fields

/-!
# Nodes

A YAML document is a tree of nodes. An alias stands for the last node before it that has the anchor
of its name. `Node.data?` replaces aliases by what they stand for.
-/

namespace CMakeScript.Yaml

/-- A node of a document. -/
inductive Node where
  | absent
  /-- A scalar, and how it is written where it stands in the text of a key. -/
  | text (value source : String)
  /-- What the last anchor of a name before it stands for. -/
  | aliasOf (name : String)
  | list (items : List Node)
  | map (entries : List (Node × Node))
  | anchored (name : String) (node : Node)

namespace Node

def empty : Node := text "" ""

def withAnchor (anchor : Option String) (node : Node) : Node :=
  match anchor with
  | some name => anchored name node
  | none => node

def scalar? : Node → Option String
  | text value _ => some value
  | anchored _ node => scalar? node
  | _ => none

mutual

def mentions (name : String) : Node → Bool
  | aliasOf other => other == name
  | list items => mentionsList name items
  | map entries => mentionsMap name entries
  | anchored _ node => mentions name node
  | _ => false

def mentionsList (name : String) : List Node → Bool
  | [] => false
  | node :: rest => mentions name node || mentionsList name rest

def mentionsMap (name : String) : List (Node × Node) → Bool
  | [] => false
  | (key, value) :: rest => mentions name key || mentions name value || mentionsMap name rest

end

mutual

/-- How a node is written as the key of a mapping. -/
def keyText : Node → String
  | absent => ""
  | text _ source => source
  | aliasOf name => "*" ++ name
  | list [] => "[]"
  | list items => "[ " ++ ", ".intercalate (keyTexts items) ++ " ]"
  | map [] => "\x7b\x7d"
  | map entries => "\x7b " ++ ", ".intercalate (entryTexts entries) ++ " \x7d"
  | anchored name node => "&" ++ name ++ " " ++ keyText node

def keyTexts : List Node → List String
  | [] => []
  | node :: rest => keyText node :: keyTexts rest

def entryTexts : List (Node × Node) → List String
  | [] => []
  | (key, absent) :: rest => keyText key :: entryTexts rest
  | (key, value) :: rest => (keyText key ++ ": " ++ keyText value) :: entryTexts rest

end

/-- An anchor that has been passed, and what an alias makes of it. -/
structure Anchor where
  name : String
  node : Node
  data : Data := .null
  /-- One more than the number of aliases so far. -/
  uses : Nat := 1
  /-- How many values an alias stands for, other aliases resolved; zero as long as it is unknown. -/
  weight : Nat := 0

/-- The anchors passed so far, the last one first. -/
abbrev Anchors := List Anchor

/-- The greatest number of values for which the aliases of one anchor may stand. -/
def useLimit : Nat := 100

mutual

/-- How many values a node stands for, seen as a nesting of aliases. -/
def weigh (anchors : Anchors) : Node → Nat
  | absent => 0
  | text _ _ => 1
  | aliasOf name =>
    match anchors.find? (·.name == name) with
    | some anchor => anchor.uses * anchor.weight
    | none => 0
  | list items => weighList anchors items
  | map entries => weighMap anchors entries
  | anchored _ node => weigh anchors node

def weighList (anchors : Anchors) : List Node → Nat
  | [] => 0
  | node :: rest => max (weigh anchors node) (weighList anchors rest)

def weighMap (anchors : Anchors) : List (Node × Node) → Nat
  | [] => 0
  | (key, value) :: rest =>
    max (max (weigh anchors key) (weigh anchors value)) (weighMap anchors rest)

end

/-- What an alias stands for. It has to follow its anchor, and must not stand for too much. -/
def resolve? (name : String) : Anchors → Anchors → Option (Data × Anchors)
  | _, [] => none
  | all, anchor :: older =>
    if anchor.name == name then
      let uses := anchor.uses + 1
      let weight := if anchor.weight = 0 then weigh all anchor.node else anchor.weight
      if uses * weight > useLimit then none
      else some (anchor.data, { anchor with uses, weight } :: older)
    else (resolve? name all older).map fun found => (found.1, anchor :: found.2)

/-- Records the data of the anchor that was passed after `older` others. -/
def settle (older : Nat) (data : Data) (anchors : Anchors) : Anchors :=
  anchors.modify (anchors.length - 1 - older) fun anchor => { anchor with data }

/-- How often a collection that contains itself is unfolded. No part of a description lies that
deep. -/
def unfoldings : Nat := 6

/-- What `eval` makes of a node that contains itself: evaluated again and again, an alias standing
for the value before. -/
def unfold (eval : Data → Option (Data × Anchors)) : Nat → Data → Option (Data × Anchors)
  | 0, data => eval data
  | n + 1, data => do unfold eval n (← eval data).1

mutual

/-- The data of a node, and the anchors passed after it. -/
def eval (anchors : Anchors) : Node → Option (Data × Anchors)
  | absent => some (.null, anchors)
  | text value _ => some (.text value, anchors)
  | aliasOf name => resolve? name anchors anchors
  | list items => (evalList anchors items).map fun found => (.list found.1, found.2)
  | map entries => (evalMap anchors entries).map fun found => (.map found.1, found.2)
  | anchored name node => do
    let start (data : Data) : Option (Data × Anchors) :=
      eval ({ name, node, data } :: anchors) node
    let (data, after) ← unfold start (if mentions name node then unfoldings else 0) .null
    return (data, settle anchors.length data after)

def evalList (anchors : Anchors) : List Node → Option (List Data × Anchors)
  | [] => some ([], anchors)
  | node :: rest => do
    let (data, anchors) ← eval anchors node
    let (more, anchors) ← evalList anchors rest
    return (data :: more, anchors)

def evalMap (anchors : Anchors) : List (Node × Node) → Option (List (String × Data) × Anchors)
  | [] => some ([], anchors)
  | (key, value) :: rest => do
    let (name, anchors) ← eval anchors key
    let (data, anchors) ← eval anchors value
    let (more, anchors) ← evalMap anchors rest
    let name := match name with
      | .text name => name
      | _ => keyText key
    return ((name, data) :: more, anchors)

end

/-- The data of a document. There is none if an alias does not follow its anchor. -/
def data? (node : Node) : Option Data :=
  (eval [] node).map (·.1)

end Node

end CMakeScript.Yaml
