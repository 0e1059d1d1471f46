import CMakeScript.Proofs.Invariants
import CMakeScript.Proofs.ScriptEnd

/-!
# The blocks that a configuration is written as

A section with blocks has no other text, and each of its blocks has a condition made of tokens and a
body that is not empty. `perform_sound` says so of whatever has been done to a configuration,
together with what the configuration holds.
-/

namespace CMakeScript

/-- A condition made of tokens of the platforms, negated or not. -/
def Combines (platforms : List Platform) (condition : String) : Prop :=
  ∃ literals : List (Bool × Platform), literals ≠ [] ∧ (∀ l ∈ literals, l.2 ∈ platforms) ∧
    condition = " AND ".intercalate
      (literals.map fun l => if l.1 then l.2.token else "NOT " ++ l.2.token)

/-- A text of blocks that have such conditions and bodies that are not empty. -/
def RendersBlocks (platforms : List Platform) (text : String) : Prop :=
  ∃ blocks : List (String × String),
    text = String.join (blocks.map fun block => conditional block.1 block.2) ∧
    blocks? text = some blocks ∧ ∀ block ∈ blocks, Combines platforms block.1 ∧ block.2 ≠ ""

theorem combines_token {platforms : List Platform} {p : Platform} (mem : p ∈ platforms) :
    Combines platforms p.token :=
  ⟨[(true, p)], List.cons_ne_nil _ _, by simpa using mem, by simp⟩

theorem combines_noneOf {platforms : List Platform} (ne : platforms ≠ []) :
    Combines platforms (Section.noneOf platforms) := by
  refine ⟨platforms.map (false, ·), by simpa using ne, ?_, ?_⟩
  · intro l mem
    obtain ⟨p, inside, rfl⟩ := List.mem_map.mp mem
    exact inside
  · simp [Section.noneOf, Function.comp_def]

theorem Combines.not_newline {platforms : List Platform} {condition : String}
    (h : Combines platforms condition) : '\n' ∉ condition.toList := by
  obtain ⟨literals, -, -, rfl⟩ := h
  intro mem
  obtain between | ⟨literal, inside, found⟩ := Text.mem_of_mem_intercalate mem
  · exact absurd between (by decide)
  · obtain ⟨l, -, rfl⟩ := List.mem_map.mp inside
    split at found <;> simp [not_newline_token] at found

theorem rendersBlocks_join {platforms : List Platform} {blocks : List (String × String)}
    (each : ∀ block ∈ blocks, Combines platforms block.1 ∧ EndsClosed block.2) :
    RendersBlocks platforms
      (String.join (blocks.map fun block => conditional block.1 block.2)) := by
  refine ⟨blocks, rfl, blocks?_join fun block mem => (each block mem).1.not_newline, ?_⟩
  intro block mem
  obtain ⟨condition, body, closed⟩ := each block mem
  refine ⟨condition, ?_⟩
  rintro empty
  rw [empty] at closed
  simp at closed

theorem rendersBlocks_exclusions (platforms : List Platform) :
    RendersBlocks platforms (Section.exclusions platforms) := by
  have each : ∀ block ∈ platforms.map fun p => (p.token, fatalError
      "Unsupported platform (your platform was explicitly marked as not supported)"),
      Combines platforms block.1 ∧ EndsClosed block.2 := by
    intro block mem
    obtain ⟨p, inside, rfl⟩ := List.mem_map.mp mem
    exact ⟨combines_token inside, endsClosed_fatalError _⟩
  have blocks := rendersBlocks_join each
  rw [List.map_map] at blocks
  exact blocks

theorem rendersBlocks_restriction (platforms : List Platform) :
    RendersBlocks platforms (Section.restriction platforms) := by
  unfold Section.restriction
  split
  next =>
    have none : ∀ block ∈ ([] : List (String × String)),
        Combines platforms block.1 ∧ EndsClosed block.2 := fun _ mem => absurd mem List.not_mem_nil
    exact rendersBlocks_join none
  next filled =>
    have ne : platforms ≠ [] := by
      rintro rfl
      exact filled rfl
    have each : ∀ block ∈ [(Section.noneOf platforms, fatalError
        "Unsupported platform (your platform is not in list of supported platforms)")],
        Combines platforms block.1 ∧ EndsClosed block.2 := by
      intro block mem
      rw [List.mem_singleton.mp mem]
      exact ⟨combines_noneOf ne, endsClosed_fatalError _⟩
    have blocks := rendersBlocks_join each
    rwa [List.map_singleton, String.join_cons, String.join_nil, String.append_empty] at blocks

/-- A platform without lines has no block, also if all its lines have been left out. -/
theorem rendersBlocks_platformBlocks {α : Type} (separator : String) {lines : α → List String}
    (closed : ∀ a, ∀ line ∈ lines a, EndsClosed line) (entries : List (Platform × α)) :
    RendersBlocks (entries.map (·.1)) (Section.platformBlocks separator lines entries) := by
  rw [platformBlocks_eq_join]
  refine rendersBlocks_join fun block mem => ?_
  obtain ⟨entry, inside, rfl⟩ := List.mem_map.mp mem
  obtain ⟨listed, filled⟩ := List.mem_filter.mp inside
  have ne : lines entry.2 ≠ [] := by simpa using filled
  exact ⟨combines_token (List.mem_map_of_mem listed),
    endsClosed_intercalate separator ne fun line last =>
      closed entry.2 line (List.mem_of_getLast? last)⟩

namespace Configuration

/-- Every section of the script that has blocks at all. -/
structure RendersConditions (c : Configuration) : Prop where
  exclusions : RendersBlocks c.excluded (Section.exclusions c.excluded)
  restriction : RendersBlocks c.supported (Section.restriction c.supported)
  platformBindings : RendersBlocks c.platformBindings.keys
    (Section.platformBindings (c.platformBindings.entries.map fun e => (e.1, e.2.entries)))
  platformScripts : RendersBlocks c.platformScripts.keys
    (Section.platformScripts c.platformScripts.entries c.scripts)
  platformNatives : RendersBlocks c.platformNatives.keys
    (Section.platformNatives c.platformNatives.entries c.natives)

theorem rendersConditions (c : Configuration) : c.RendersConditions where
  exclusions := rendersBlocks_exclusions c.excluded
  restriction := rendersBlocks_restriction c.supported
  platformBindings := by
    have commands (bindings : List (String × String)) :
        ∀ line ∈ Section.setCommands bindings, EndsClosed line := by
      intro line mem
      obtain ⟨entry, -, rfl⟩ := List.mem_map.mp mem
      exact endsClosed_append _
    have blocks := rendersBlocks_platformBlocks "\n" commands
      (c.platformBindings.entries.map fun e => (e.1, e.2.entries))
    rwa [List.map_map] at blocks
  platformScripts := by
    refine rendersBlocks_platformBlocks "\n" (fun names line mem => ?_) _
    obtain ⟨name, -, rfl⟩ := List.mem_map.mp mem
    exact endsClosed_append _
  platformNatives := by
    refine rendersBlocks_platformBlocks "\n\n" (fun names line mem => ?_) _
    obtain ⟨name, -, rfl⟩ := List.mem_map.mp mem
    exact endsClosed_nativeLibrary name

/-- Whatever is done to a fresh configuration, it holds just the listed ones of the platforms that
are named, it repeats no key and has nothing empty for a platform, and its blocks have conditions
made of the tokens of these platforms and bodies that are not empty. -/
theorem perform_sound (package : String) (actions : List Action) :
    (({ package } : Configuration).perform actions).HoldsListed (actions.flatMap Action.calls) ∧
    (({ package } : Configuration).perform actions).Sound ∧
    (({ package } : Configuration).perform actions).RendersConditions := by
  refine ⟨?_, sound_perform (sound_fresh package) actions, rendersConditions _⟩
  rw [perform_eq_run]
  exact holdsListed_run package _

/-- A platform that lists default modules only has no block. -/
example : Section.platformScripts [(.linux, ["m", "m"])] ["m"] = "" := by decide

end Configuration

end CMakeScript
