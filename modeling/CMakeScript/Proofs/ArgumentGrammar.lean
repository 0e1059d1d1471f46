import CMakeScript.Argument
import Mathlib.Data.List.Basic

/-!
# How a text is cut into arguments

A grammar says which characters stand between arguments, in them and behind a backslash. In CMake
there are also bracket arguments, such as `[=[text]=]`. A list of arguments that has been written is
read back by every grammar that what is written fits, except for an item that is written bare and
taken for the beginning of a bracket argument: `read_renderList_iff`.
-/

namespace CMakeScript

structure Grammar where
  /-- Stands between arguments. -/
  separates : Char → Bool
  /-- There may be several separators in a row, and there may be some at both ends. -/
  loose : Bool
  /-- Stands in an argument without quotes. -/
  isBare : Char → Bool
  /-- Stands for itself between quotes. -/
  isLiteral : Char → Bool
  /-- Stands for itself behind a backslash between quotes. -/
  escapable : Char → Bool
  /-- There are bracket arguments. -/
  brackets : Bool

namespace Grammar

/-- What the next character continues. -/
inductive Mode where
  | start
  /-- Behind a separator. -/
  | gap
  | bare (text : List Char)
  | quoted (text : List Char)
  | escaped (text : List Char)
  /-- Behind an opening bracket and some equals signs. -/
  | opened (signs : Nat)
  | bracket (signs : Nat) (text : List Char)
  /-- Behind a quoted argument or a bracket argument. -/
  | closed (text : List Char)
  deriving DecidableEq, Repr

def opening (signs : Nat) : List Char := '[' :: List.replicate signs '='

def closing (signs : Nat) : List Char := ']' :: (List.replicate signs '=' ++ [']'])

namespace Mode

/-- The argument that ends here if nothing more belongs to it. -/
def held? : Mode → Option (List Char)
  | bare text | closed text => some text
  | opened signs => some (opening signs)
  | _ => none

/-- What has been read of a bracket argument, up to its closing bracket if it is there. -/
def inBracket (signs : Nat) (text : List Char) : Mode :=
  if (closing signs).isSuffixOf text then closed (text.take (text.length - (closing signs).length))
  else bracket signs text

end Mode

variable (g : Grammar)

/-- Between two arguments, and before the first. -/
def between (m : Mode) (c : Char) : Option (Mode × Option String) :=
  if g.separates c then (if g.loose then some (m, none) else none)
  else if c = '"' then some (.quoted [], none)
  else if c = '[' ∧ g.brackets then some (.opened 0, none)
  else if g.isBare c then some (.bare [c], none)
  else none

/-- A whole argument must be followed by a separator. -/
def separate (text : List Char) (c : Char) : Option (Mode × Option String) :=
  if g.separates c then some (.gap, some (String.ofList text)) else none

def continueBare (text : List Char) (c : Char) : Option (Mode × Option String) :=
  if g.isBare c then some (.bare (text ++ [c]), none) else g.separate text c

/-- One character read, with the argument that ends before it. -/
def step : Mode → Char → Option (Mode × Option String)
  | .start, c => g.between .start c
  | .gap, c => g.between .gap c
  | .bare text, c => g.continueBare text c
  | .quoted text, c =>
    if c = '"' then some (.closed text, none)
    else if c = '\\' then some (.escaped text, none)
    else if g.isLiteral c then some (.quoted (text ++ [c]), none)
    else none
  | .escaped text, c => if g.escapable c then some (.quoted (text ++ [c]), none) else none
  | .opened signs, c =>
    if c = '[' then some (.bracket signs [], none)
    else if c = '=' then some (.opened (signs + 1), none)
    else g.continueBare (opening signs) c
  | .bracket signs text, c => some (.inBracket signs (text ++ [c]), none)
  | .closed text, c => g.separate text c

def finish (m : Mode) : Option (List String) :=
  match m.held? with
  | some text => some [String.ofList text]
  | none => if m = .start ∨ m = .gap ∧ g.loose then some [] else none

def readFrom : Mode → List Char → Option (List String)
  | m, [] => g.finish m
  | m, c :: rest =>
    match g.step m c with
    | none => none
    | some (next, argument?) => (readFrom next rest).map (argument?.toList ++ ·)

/-- The arguments in a text. -/
def read (text : String) : Option (List String) := g.readFrom .start text.toList

/-! ### What fits a grammar -/

/-- What is written by `Argument.render` keeps to the grammar, brackets left aside. -/
structure Fits : Prop where
  space : g.separates ' ' = true ∧ g.isBare ' ' = false
  quote : g.separates '"' = false
  bare {c : Char} : Argument.needsQuotes c = false → g.separates c = false ∧ g.isBare c = true
  isLiteral {c : Char} : c ≠ '\\' → c ≠ '"' → c ≠ '$' → g.isLiteral c = true
  escapable {c : Char} : c = '\\' ∨ c = '"' ∨ c = '$' → g.escapable c = true

/-- The item is written bare and looks like the beginning of a bracket argument. -/
def BeginsBracket (item : String) : Prop :=
  item.toList.any Argument.needsQuotes = false ∧
    ∃ signs rest, item.toList = opening signs ++ '[' :: rest

def IsFresh (m : Mode) : Prop := m = .start ∨ m = .gap

variable {g} {m n : Mode} {c : Char} {text rest : List Char}

theorem readFrom_silent (h : g.step m c = some (n, none)) :
    g.readFrom m (c :: rest) = g.readFrom n rest := by
  rw [readFrom, h]
  simp

theorem finish_held (held : m.held? = some text) : g.finish m = some [String.ofList text] := by
  rw [finish, held]

theorem readFrom_held (fits : g.Fits) (held : m.held? = some text) :
    g.readFrom m (' ' :: rest) = (g.readFrom .gap rest).map (String.ofList text :: ·) := by
  obtain ⟨separates, notBare⟩ := fits.space
  have next : g.step m ' ' = some (.gap, some (String.ofList text)) := by
    cases m with
    | start | gap | quoted | escaped | bracket => cases held
    | bare | opened | closed =>
      cases held
      simp [step, continueBare, separate, separates, notBare]
  rw [readFrom, next]
  rfl

/-! ### Items that are written bare -/

theorem readFrom_bare (fits : g.Fits) (plain : text.any Argument.needsQuotes = false)
    (before : List Char) :
    g.readFrom (.bare before) (text ++ rest) = g.readFrom (.bare (before ++ text)) rest := by
  induction text generalizing before with
  | nil => rw [List.append_nil, List.nil_append]
  | cons c more ih =>
    simp only [List.any_cons, Bool.or_eq_false_iff] at plain
    have next : g.step (.bare before) c = some (.bare (before ++ [c]), none) := by
      simp [step, continueBare, (fits.bare plain.1).2]
    rw [List.cons_append, readFrom_silent next, ih plain.2, List.append_assoc]
    rfl

theorem opening_succ (signs : Nat) : opening (signs + 1) = opening signs ++ ['='] := by
  simp [opening, List.replicate_succ']

/-- Unless a second opening bracket follows, what begins with an opening bracket is read as bare. -/
theorem readFrom_opened (fits : g.Fits) (plain : text.any Argument.needsQuotes = false)
    (signs : Nat) (single : ∀ more tail, text ≠ List.replicate more '=' ++ '[' :: tail) :
    ∃ m : Mode, m.held? = some (opening signs ++ text) ∧
      ∀ rest, g.readFrom (.opened signs) (text ++ rest) = g.readFrom m rest := by
  induction text generalizing signs with
  | nil => exact ⟨.opened signs, by simp [Mode.held?], fun _ => rfl⟩
  | cons c more ih =>
    simp only [List.any_cons, Bool.or_eq_false_iff] at plain
    have noBracket : c ≠ '[' := by
      rintro rfl
      exact single 0 more rfl
    by_cases sign : c = '='
    · subst sign
      have later : ∀ k tail, more ≠ List.replicate k '=' ++ '[' :: tail := by
        rintro k tail rfl
        exact single (k + 1) tail (by simp [List.replicate_succ])
      obtain ⟨m, held, reads⟩ := ih plain.2 (signs + 1) later
      refine ⟨m, ?_, fun rest => ?_⟩
      · rw [held, opening_succ, List.append_assoc]
        rfl
      · have next : g.step (.opened signs) '=' = some (.opened (signs + 1), none) := rfl
        rw [List.cons_append, readFrom_silent next, reads]
    · have next : g.step (.opened signs) c = some (.bare (opening signs ++ [c]), none) := by
        simp [step, continueBare, noBracket, sign, (fits.bare plain.1).2]
      refine ⟨.bare (opening signs ++ c :: more), rfl, fun rest => ?_⟩
      rw [List.cons_append, readFrom_silent next, readFrom_bare fits plain.2, List.append_assoc]
      rfl

/-- The first character of an item that is written bare. -/
theorem step_fresh (fits : g.Fits) (fresh : IsFresh m) (plain : Argument.needsQuotes c = false) :
    g.step m c = some (if c = '[' ∧ g.brackets then .opened 0 else .bare [c], none) := by
  obtain ⟨inside, bare⟩ := fits.bare plain
  have noQuote : c ≠ '"' := by
    rintro rfl
    exact absurd plain (by decide)
  rcases fresh with rfl | rfl <;>
    · simp only [step, between, inside, bare, noQuote, if_true, if_false, Bool.false_eq_true]
      split <;> rfl

theorem readFrom_plain (fits : g.Fits) (fresh : IsFresh m) {item : String} (ne : item.toList ≠ [])
    (plain : item.toList.any Argument.needsQuotes = false)
    (clear : ¬(g.brackets = true ∧ BeginsBracket item)) :
    ∃ n : Mode, n.held? = some item.toList ∧
      ∀ rest, g.readFrom m (item.toList ++ rest) = g.readFrom n rest := by
  obtain ⟨c, more, cut⟩ := List.exists_cons_of_ne_nil ne
  have plains := plain
  rw [cut, List.any_cons, Bool.or_eq_false_iff] at plains
  have first := step_fresh fits fresh plains.1
  by_cases bracket : c = '[' ∧ g.brackets = true
  · rw [if_pos bracket] at first
    have single : ∀ k tail, more ≠ List.replicate k '=' ++ '[' :: tail := by
      rintro k tail rfl
      exact clear ⟨bracket.2, plain, k, tail, by rw [cut, bracket.1]; rfl⟩
    obtain ⟨n, held, reads⟩ := readFrom_opened fits plains.2 0 single
    refine ⟨n, ?_, fun rest => ?_⟩
    · rw [held, cut, bracket.1]
      rfl
    · rw [cut, List.cons_append, readFrom_silent first, reads]
  · rw [if_neg bracket] at first
    refine ⟨.bare item.toList, rfl, fun rest => ?_⟩
    rw [cut, List.cons_append, readFrom_silent first, readFrom_bare fits plains.2]
    rfl

/-! ### Items that are written between quotes -/

theorem readFrom_escape (fits : g.Fits) (before : List Char) :
    g.readFrom (.quoted before) (text.flatMap Argument.escapeChar ++ rest) =
      g.readFrom (.quoted (before ++ text)) rest := by
  induction text generalizing before with
  | nil => rw [List.append_nil, List.flatMap_nil, List.nil_append]
  | cons c more ih =>
    have later := ih (before ++ [c])
    rw [List.append_assoc] at later
    rw [List.flatMap_cons, List.append_assoc]
    unfold Argument.escapeChar
    split
    next special =>
      -- Whatever is behind the backslash, it does not end the argument.
      have backslash : g.step (.quoted before) '\\' = some (.escaped before, none) := rfl
      have character : g.step (.escaped before) c = some (.quoted (before ++ [c]), none) := by
        simp [step, fits.escapable special]
      exact (readFrom_silent backslash).trans ((readFrom_silent character).trans later)
    next plain =>
      simp only [not_or] at plain
      obtain ⟨backslash, quote, dollar⟩ := plain
      have character : g.step (.quoted before) c = some (.quoted (before ++ [c]), none) := by
        simp [step, backslash, quote, fits.isLiteral backslash quote dollar]
      exact (readFrom_silent character).trans later

theorem readFrom_quote (fits : g.Fits) (fresh : IsFresh m) (value : String) :
    g.readFrom m ((Argument.quote value).toList ++ rest) =
      g.readFrom (.closed value.toList) rest := by
  have first : g.step m '"' = some (.quoted [], none) := by
    rcases fresh with rfl | rfl <;> simp [step, between, fits.quote]
  have last : g.step (.quoted value.toList) '"' = some (.closed value.toList, none) := rfl
  rw [Argument.toList_quote, List.cons_append, readFrom_silent first, List.append_assoc,
    readFrom_escape fits, List.nil_append, List.singleton_append, readFrom_silent last]

theorem readFrom_render (fits : g.Fits) (fresh : IsFresh m) {item : String}
    (clear : ¬(g.brackets = true ∧ BeginsBracket item)) :
    ∃ n : Mode, n.held? = some item.toList ∧
      ∀ rest, g.readFrom m ((Argument.render item).toList ++ rest) = g.readFrom n rest := by
  unfold Argument.render
  split
  · exact ⟨.closed item.toList, rfl, fun rest => readFrom_quote fits fresh item⟩
  next plain =>
    rw [Bool.not_eq_true, Bool.or_eq_false_iff] at plain
    have ne : item.toList ≠ [] := by
      simpa [String.isEmpty_iff] using plain.1
    exact readFrom_plain fits fresh ne plain.2 clear

/-! ### Items that are taken for bracket arguments -/

theorem eq_of_readFrom_closed {a : String} {more : List String}
    (h : g.readFrom (.closed text) rest = some (a :: more)) : a.toList = text := by
  suffices String.ofList text = a by rw [← this, String.toList_ofList]
  cases rest with
  | nil => exact (List.cons.inj (Option.some.inj h)).1
  | cons c rest =>
    rw [readFrom] at h
    simp only [step, separate] at h
    split at h
    next => cases h
    next next argument? ended =>
      split at ended
      · cases ended
        obtain ⟨later, -, same⟩ := Option.map_eq_some_iff.mp h
        exact (List.cons.inj same).1
      · cases ended

/-- The argument that is read ends where its closing bracket begins. -/
theorem prefix_of_readFrom_bracket {signs : Nat} {before : List Char} {a : String}
    {more : List String} (h : g.readFrom (.bracket signs before) text = some (a :: more)) :
    a.toList ++ closing signs <+: before ++ text := by
  induction text generalizing before with
  | nil => cases h
  | cons c rest ih =>
    have next : g.step (.bracket signs before) c =
        some (.inBracket signs (before ++ [c]), none) := rfl
    rw [readFrom_silent next] at h
    unfold Mode.inBracket at h
    split at h
    next ends =>
      obtain ⟨content, whole⟩ := List.isSuffixOf_iff_suffix.mp ends
      have kept : (before ++ [c]).take ((before ++ [c]).length - (closing signs).length) =
          content := by
        rw [← whole, List.length_append, Nat.add_sub_cancel, List.take_left]
      rw [kept] at h
      refine ⟨rest, ?_⟩
      rw [eq_of_readFrom_closed h, whole, List.append_assoc]
      rfl
    next =>
      have inside := ih h
      rwa [List.append_assoc] at inside

theorem readFrom_signs (signs more : Nat) :
    g.readFrom (.opened signs) (List.replicate more '=' ++ '[' :: rest) =
      g.readFrom (.bracket (signs + more) []) rest := by
  induction more generalizing signs with
  | zero => exact readFrom_silent rfl
  | succ more ih =>
    have next : g.step (.opened signs) '=' = some (.opened (signs + 1), none) := rfl
    rw [List.replicate_succ, List.cons_append, readFrom_silent next, ih, Nat.add_right_comm,
      Nat.add_assoc]

theorem not_prefix_of_longer {item inner tail : List Char} (longer : inner.length < item.length)
    (noSpace : ' ' ∉ item) (behind : ∀ c ∈ tail.head?, c = ' ') : ¬item <+: inner ++ tail := by
  rintro ⟨rest, whole⟩
  obtain ⟨more, split, -⟩ | ⟨more, split, goesOn⟩ := List.append_eq_append_iff.mp whole
  · rw [split, List.length_append] at longer
    omega
  · cases more with
    | nil =>
      rw [split, List.append_nil] at longer
      omega
    | cons c more =>
      have space : c = ' ' := behind c (by rw [goesOn]; rfl)
      rw [split, space] at noSpace
      exact noSpace (List.mem_append_right _ List.mem_cons_self)

/-- An item that begins a bracket argument is never what is read: it is longer than its content, and
unlike an argument that goes on behind it, it has no space. -/
theorem readFrom_beginsBracket (fits : g.Fits) (fresh : IsFresh m) (brackets : g.brackets = true)
    {item : String} (begins : BeginsBracket item) {tail : List Char}
    (behind : ∀ c ∈ tail.head?, c = ' ') (more : List String) :
    g.readFrom m ((Argument.render item).toList ++ tail) ≠ some (item :: more) := by
  intro h
  obtain ⟨plain, signs, inner, cut⟩ := begins
  have longer : inner.length < item.toList.length := by
    rw [cut, List.length_append, List.length_cons]
    omega
  have filled : item.isEmpty = false := by
    rw [Bool.eq_false_iff, Ne, String.isEmpty_iff]
    rintro rfl
    exact Nat.not_lt_zero _ longer
  have written : Argument.render item = item := by
    rw [Argument.render, filled, plain]
    rfl
  have noSpace : ' ' ∉ item.toList := by
    intro mem
    rw [List.any_eq_false] at plain
    exact plain ' ' mem (by decide)
  have start : Argument.needsQuotes '[' = false := by decide
  have first := step_fresh fits fresh start
  rw [if_pos ⟨rfl, brackets⟩] at first
  rw [written, cut, opening, List.cons_append, List.cons_append, List.append_assoc,
    readFrom_silent first, List.cons_append, readFrom_signs, Nat.zero_add] at h
  have inside := prefix_of_readFrom_bracket h
  exact not_prefix_of_longer longer noSpace behind ((List.prefix_append _ _).trans inside)

/-! ### Lists -/

theorem readFrom_renderList_iff (fits : g.Fits) (fresh : IsFresh m) {items : List String}
    (ne : items ≠ []) :
    g.readFrom m (Argument.renderList items).toList = some items ↔
      ∀ item ∈ items, ¬(g.brackets = true ∧ BeginsBracket item) := by
  induction items generalizing m with
  | nil => exact absurd rfl ne
  | cons item rest ih =>
    rw [List.forall_mem_cons]
    by_cases clear : g.brackets = true ∧ BeginsBracket item
    · refine iff_of_false ?_ fun all => all.1 clear
      cases rest with
      | nil =>
        rw [Argument.renderList_singleton, ← List.append_nil (Argument.render item).toList]
        exact readFrom_beginsBracket fits fresh clear.1 clear.2 (by simp) []
      | cons next more =>
        rw [Argument.toList_renderList_cons]
        exact readFrom_beginsBracket fits fresh clear.1 clear.2 (by simp) (next :: more)
    · obtain ⟨n, held, reads⟩ := readFrom_render fits fresh clear
      rw [and_iff_right clear]
      cases rest with
      | nil =>
        have whole := reads []
        rw [List.append_nil] at whole
        rw [Argument.renderList_singleton, whole, readFrom, finish_held held, String.ofList_toList]
        simp
      | cons next more =>
        have later := ih (m := .gap) (.inr rfl) (List.cons_ne_nil next more)
        rw [Argument.toList_renderList_cons, reads, readFrom_held fits held, String.ofList_toList,
          ← later]
        simp

/-- A list that has been written is read back exactly if no item is taken for the beginning of a
bracket argument. -/
theorem read_renderList_iff (fits : g.Fits) (items : List String) :
    g.read (Argument.renderList items) = some items ↔
      ∀ item ∈ items, ¬(g.brackets = true ∧ BeginsBracket item) := by
  cases items with
  | nil => exact iff_of_true rfl nofun
  | cons item rest =>
    exact readFrom_renderList_iff fits (.inl rfl) (List.cons_ne_nil item rest)

end Grammar

end CMakeScript
