import CMakeScript.Proofs.Lexer

/-!
# Statements of a script

The directives of a script are grouped into statements: conditional blocks between `if` and `endif`,
loops between `foreach` and `endforeach`, and directives that stand alone. `nest_directives` says
that statements are found again in their directives.
-/

namespace CMakeScript

inductive Statement where
  | directive (d : Directive)
  | conditional (condition : List String) (body : List Statement)
  | loop (header : List String) (body : List Statement) (footer : List String)
  deriving Repr

namespace Statement

/-- A directive that opens or closes a block. -/
def isBlockName (name : String) : Bool :=
  name == "if" || name == "endif" || name == "foreach" || name == "endforeach"

mutual

def directives : Statement → List Directive
  | directive d => [d]
  | conditional condition body => ⟨"if", condition⟩ :: (directivesOf body ++ [⟨"endif", []⟩])
  | loop header body footer =>
    ⟨"foreach", header⟩ :: (directivesOf body ++ [⟨"endforeach", footer⟩])

def directivesOf : List Statement → List Directive
  | [] => []
  | s :: rest => directives s ++ directivesOf rest

end

mutual

/-- No directive of the statement that stands alone opens or closes a block. -/
def isPlain : Statement → Bool
  | directive d => !isBlockName d.name
  | conditional _ body => arePlain body
  | loop _ body _ => arePlain body

def arePlain : List Statement → Bool
  | [] => true
  | s :: rest => isPlain s && arePlain rest

end

/-- A block that has not been closed yet: the statements before it and its first directive. -/
structure Frame where
  before : List Statement
  opening : Directive

/-- The block between two directives, if they belong together. -/
def close? (opening : Directive) (body : List Statement) (closing : Directive) :
    Option Statement :=
  if opening.name = "if" ∧ closing = ⟨"endif", []⟩ then some (conditional opening.arguments body)
  else if opening.name = "foreach" ∧ closing.name = "endforeach" then
    some (loop opening.arguments body closing.arguments)
  else none

/-- The open blocks and the statements of the innermost one, once a block has been closed. -/
def leave? (body : List Statement) (closing : Directive) :
    List Frame → Option (List Frame × List Statement)
  | [] => none
  | frame :: outer =>
    (close? frame.opening body closing).map fun block => (outer, frame.before ++ [block])

/-- Groups directives, given the open blocks and the statements of the innermost one so far. -/
def nest (frames : List Frame) (body : List Statement) :
    List Directive → Option (List Statement)
  | [] => if frames.isEmpty then some body else none
  | d :: rest =>
    if d.name = "if" ∨ d.name = "foreach" then nest (⟨body, d⟩ :: frames) [] rest
    else if d.name = "endif" ∨ d.name = "endforeach" then
      (leave? body d frames).bind fun outer => nest outer.1 outer.2 rest
    else nest frames (body ++ [directive d]) rest

/-- The statements of a script. -/
def parse (script : String) : Option (List Statement) :=
  (Lexer.read script).bind (nest [] [])

@[simp] theorem directivesOf_append (first second : List Statement) :
    directivesOf (first ++ second) = directivesOf first ++ directivesOf second := by
  induction first with
  | nil => rfl
  | cons s rest ih => simp [directivesOf, ih]

@[simp] theorem arePlain_append (first second : List Statement) :
    arePlain (first ++ second) = (arePlain first && arePlain second) := by
  induction first with
  | nil => rfl
  | cons s rest ih => simp [arePlain, ih, Bool.and_assoc]

theorem directivesOf_flatMap {α : Type} (items : List α) (f : α → List Statement) :
    directivesOf (items.flatMap f) = items.flatMap fun item => directivesOf (f item) := by
  induction items with
  | nil => rfl
  | cons item rest ih => simp [ih]

theorem directivesOf_map {α : Type} (items : List α) (f : α → Statement) :
    directivesOf (items.map f) = items.flatMap fun item => directivesOf [f item] := by
  rw [List.map_eq_flatMap, directivesOf_flatMap]

theorem arePlain_iff {statements : List Statement} :
    arePlain statements = true ↔ ∀ s ∈ statements, isPlain s = true := by
  induction statements with
  | nil => simp [arePlain]
  | cons s rest ih => simp [arePlain, ih]

mutual

/-- Grouping goes through the directives of a statement and adds it to the innermost block. -/
theorem nest_statement (s : Statement) (plain : isPlain s = true) (frames : List Frame)
    (body : List Statement) (rest : List Directive) :
    nest frames body (directives s ++ rest) = nest frames (body ++ [s]) rest := by
  match s with
  | directive d =>
    simp only [isPlain, isBlockName, Bool.not_eq_true', Bool.or_eq_false_iff, beq_eq_false_iff_ne,
      ne_eq] at plain
    obtain ⟨⟨⟨hif, hendif⟩, hforeach⟩, hendforeach⟩ := plain
    simp [directives, nest, hif, hendif, hforeach, hendforeach]
  | conditional condition inner =>
    -- The directives inside leave the frame of the block on top, and the last one takes it off.
    have within := nest_directivesOf inner (by simpa [isPlain] using plain)
      (⟨body, ⟨"if", condition⟩⟩ :: frames) [] (⟨"endif", []⟩ :: rest)
    simp only [directives, List.cons_append, List.append_assoc, List.nil_append] at within ⊢
    rw [nest, if_pos (Or.inl rfl), within, nest]
    simp [leave?, close?]
  | loop header inner footer =>
    have within := nest_directivesOf inner (by simpa [isPlain] using plain)
      (⟨body, ⟨"foreach", header⟩⟩ :: frames) [] (⟨"endforeach", footer⟩ :: rest)
    simp only [directives, List.cons_append, List.append_assoc, List.nil_append] at within ⊢
    rw [nest, if_pos (Or.inr rfl), within, nest]
    simp [leave?, close?]

theorem nest_directivesOf (statements : List Statement) (plain : arePlain statements = true)
    (frames : List Frame) (body : List Statement) (rest : List Directive) :
    nest frames body (directivesOf statements ++ rest) = nest frames (body ++ statements) rest := by
  match statements with
  | [] => simp [directivesOf]
  | s :: more =>
    simp only [arePlain, Bool.and_eq_true] at plain
    rw [directivesOf, List.append_assoc, nest_statement s plain.1 frames body,
      nest_directivesOf more plain.2, List.append_assoc]
    rfl

end

theorem nest_directives (statements : List Statement) (plain : arePlain statements = true) :
    nest [] [] (directivesOf statements) = some statements := by
  have h := nest_directivesOf statements plain [] [] []
  rw [List.append_nil] at h
  simpa [nest] using h

/-- A script whose directives are those of the statements consists of the statements. -/
theorem parse_of_read {script : String} {statements : List Statement}
    (plain : arePlain statements = true)
    (h : Lexer.read script = some (directivesOf statements)) : parse script = some statements := by
  rw [parse, h, Option.bind_some, nest_directives statements plain]

end Statement

end CMakeScript
