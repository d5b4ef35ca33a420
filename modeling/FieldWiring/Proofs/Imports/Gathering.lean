import FieldWiring.Proofs.Imports.Capture
import FieldWiring.Proofs.Walks.Comparing

/-!
# The imports of a walk

A walk gathers its imports in two passes: each unit on the chain gives its statements once, and of
those of all units each is kept once. Several directives may be repeated by one statement, and
several levels of a chain may stand in one unit. None of that shows: the first occurrence of a
statement in one pass over all directives is what both passes keep, in the order of those
occurrences.

Results:
* `dedupe_append`: what a second list adds to the first occurrences of a list.
* `dedupe_flatMap`: first occurrences in parts of a list need no care of their own.
* `pairwise_dedupe`: first occurrences stand in the order of their places.
* `walk_imports_once`: the imports of a walk are the statements of its units, each once and in
  order.
-/

namespace FieldWiring

/-! ## First occurrences -/

section

variable {α : Type} [DecidableEq α]

/-- Puts an element at the end of a list that does not have it. -/
def keepNew (kept : List α) (a : α) : List α := if a ∈ kept then kept else kept ++ [a]

theorem dedupe_eq_self {l : List α} (h : l.Nodup) : dedupe l = l := by
  induction l with
  | nil => rfl
  | cons a l ih =>
    obtain ⟨ha, hl⟩ := List.nodup_cons.mp h
    rw [dedupe, ih hl, List.filter_eq_self.mpr]
    exact fun b hb => decide_eq_true fun heq => ha (heq ▸ hb)

/-- Elements that are kept one after the other go behind those that were kept before. -/
theorem foldl_keepNew (kept l : List α) :
    l.foldl keepNew kept = kept ++ (dedupe l).filter fun a => decide (a ∉ kept) := by
  induction l generalizing kept with
  | nil => simp [dedupe]
  | cons a l ih =>
    rw [List.foldl_cons, ih, keepNew, dedupe, List.filter_cons, List.filter_filter]
    by_cases ha : a ∈ kept
    · rw [if_pos ha, if_neg (by simpa using ha)]
      congr 1
      refine List.filter_congr fun b _ => ?_
      by_cases hb : b ∈ kept
      · simp [hb]
      · have hne : b ≠ a := fun heq => hb (heq ▸ ha)
        simp [hb, hne]
    · rw [if_neg ha, if_pos (by simpa using ha), List.append_assoc, List.singleton_append]
      congr 2
      refine List.filter_congr fun b _ => ?_
      simp [not_or]

/-- The first occurrences are kept one after the other. -/
theorem dedupe_eq_foldl (l : List α) : dedupe l = l.foldl keepNew [] := by
  simp [foldl_keepNew]

/-- A second list adds its first occurrences of what the first one does not have. -/
theorem dedupe_append (l m : List α) :
    dedupe (l ++ m) = dedupe l ++ (dedupe m).filter fun a => decide (a ∉ l) := by
  rw [dedupe_eq_foldl, List.foldl_append, ← dedupe_eq_foldl, foldl_keepNew]
  simp only [mem_dedupe]

/-- First occurrences in the parts of a list need no care of their own. -/
theorem dedupe_flatMap {β : Type} (f : β → List α) (bs : List β) :
    dedupe (bs.flatMap fun b => dedupe (f b)) = dedupe (bs.flatMap f) := by
  induction bs with
  | nil => rfl
  | cons b bs ih =>
    rw [List.flatMap_cons, List.flatMap_cons, dedupe_append, dedupe_append, ih,
      dedupe_eq_self (nodup_dedupe _)]
    simp only [mem_dedupe]

/-- First occurrences stand in the order of their places. -/
theorem pairwise_dedupe (l : List α) : (dedupe l).Pairwise fun a b => l.idxOf a < l.idxOf b := by
  induction l with
  | nil => exact List.Pairwise.nil
  | cons a l ih =>
    have hbehind : ∀ {b : α}, b ≠ a → (a :: l).idxOf b = l.idxOf b + 1 :=
      fun hb => List.idxOf_cons_ne l hb.symm
    refine List.pairwise_cons.mpr ⟨fun b hb => ?_, ?_⟩
    · rw [List.idxOf_cons_self, hbehind (of_decide_eq_true (List.mem_filter.mp hb).2)]
      exact Nat.succ_pos _
    · refine (ih.filter _).imp_of_mem fun {b c} hb hc hlt => ?_
      rw [hbehind (of_decide_eq_true (List.mem_filter.mp hb).2),
        hbehind (of_decide_eq_true (List.mem_filter.mp hc).2)]
      exact Nat.succ_lt_succ hlt

end

/-! ## Statements of units -/

namespace Corpus

/-- The statements that repeat the directives of a declaration's unit, one for each that is not
global. -/
def statementsFor (c : Corpus) (d : TypeDeclaration) : List String :=
  (c.unitFor d).imports.filterMap c.importStatement

/-- The imports of a declaration are its statements, each kept when it is met first. -/
theorem importsFor_eq_foldl (c : Corpus) (d : TypeDeclaration) :
    c.importsFor d = (c.statementsFor d).foldl keepNew [] := dedupe_eq_foldl _

theorem mem_statementsFor {c : Corpus} {d : TypeDeclaration} {s : String} : s ∈ c.statementsFor d ↔
    ∃ i ∈ (c.unitFor d).imports, i.isGlobal = false ∧ c.importStatement i = some s := by
  rw [statementsFor, List.mem_filterMap]
  refine exists_congr fun i => and_congr_right fun _ => ⟨fun h => ⟨?_, h⟩, And.right⟩
  rw [← Bool.not_eq_true]
  intro hglobal
  rw [importStatement, if_pos hglobal] at h
  cases h

end Corpus

/-! ## Statements of walks -/

/-- **The imports of a walk are the statements of its units, each once.** They are the first
occurrences in one pass over the directives of all levels, from the candidate upwards and in the
order of the units, whatever directives share a statement and whatever levels share a unit. -/
theorem walk_imports_once {c : Corpus} {g : Generator} {R : SymbolResolver}
    {candidate : TypeDeclaration} {w : Walk} (h : walkHierarchy c g R candidate = .ok w) :
    let statements := w.chain.flatMap c.statementsFor
    w.chain = (climb R [] candidate).levels ∧
    w.imports.Nodup ∧
    (∀ s, s ∈ w.imports ↔ ∃ d ∈ w.chain, ∃ i ∈ (c.unitFor d).imports,
      i.isGlobal = false ∧ c.importStatement i = some s) ∧
    w.imports.Pairwise (fun s t => statements.idxOf s < statements.idxOf t) ∧
    w.imports = dedupe statements := by
  intro statements
  have hchain := walkHierarchy_chain h
  have hone : w.imports = dedupe statements := by
    rw [walkHierarchy_imports h, ← hchain]
    exact dedupe_flatMap c.statementsFor w.chain
  refine ⟨hchain, hone ▸ nodup_dedupe _, fun s => ?_, hone ▸ pairwise_dedupe _, hone⟩
  rw [hone, mem_dedupe, List.mem_flatMap]
  exact exists_congr fun d => and_congr_right fun _ => Corpus.mem_statementsFor

/-- The sailor of a ship. -/
def sailor : TypeDeclaration where
  name := "Sailor"
  unitPath := "sailor.cs"
  namespaceName := some "Ship"
  baseTypes := [⟨"Mate"⟩]

/-- A mate, in the unit of the sailor. -/
def mate : TypeDeclaration where
  name := "Mate"
  unitPath := "sailor.cs"
  namespaceName := some "Ship"
  baseTypes := [⟨"Hand"⟩]

/-- A hand, in a unit of its own. -/
def hand : TypeDeclaration where
  name := "Hand"
  unitPath := "hand.cs"
  namespaceName := some "Ship"

/-- The first unit imports `Ship.Tools` under two names, and the second one repeats an import of
it. -/
def shipCorpus : Corpus where
  units :=
    [⟨"sailor.cs", [{ text := "using Tools;", target := "Tools", scope := "Ship" },
        { text := "using  Godot ;", target := "Godot" },
        { text := "using Ship.Tools;", target := "Ship.Tools" },
        { text := "global using System;", target := "System", isGlobal := true }], ["Ship"]⟩,
      ⟨"hand.cs", [{ text := "using System.Linq;", target := "System.Linq" },
        { text := "using Godot ;", target := "Godot" }], ["Ship.Tools"]⟩]
  declarations := [sailor, mate, hand]

theorem sailor_climb :
    climb shipCorpus.symbols [] sailor = ⟨[sailor, mate, hand], .noBase⟩ := by
  have hmate : shipCorpus.symbols.resolve ⟨"Mate"⟩ sailor = some mate := by
    rw [Corpus.symbols_resolve]
    decide +kernel
  have hhand : shipCorpus.symbols.resolve ⟨"Hand"⟩ mate = some hand := by
    rw [Corpus.symbols_resolve]
    decide +kernel
  rw [climb_further rfl hmate rfl (by decide +kernel),
    climb_further rfl hhand rfl (by decide +kernel), climb_noBase rfl]

theorem sailor_imports_once : ∃ w,
    walkHierarchy shipCorpus (.ofKind .dependency) shipCorpus.symbols sailor = .ok w ∧
      w.chain = [sailor, mate, hand] ∧
      w.chain.flatMap shipCorpus.statementsFor =
        ["using Ship.Tools;", "using Godot ;", "using Ship.Tools;", "using Ship.Tools;",
          "using Godot ;", "using Ship.Tools;", "using System.Linq;", "using Godot ;"] ∧
      w.imports = ["using Ship.Tools;", "using Godot ;", "using System.Linq;"] := by
  have hwalk : ∃ w, walkHierarchy shipCorpus (.ofKind .dependency) shipCorpus.symbols sailor =
      .ok w := by
    unfold walkHierarchy
    rw [sailor_climb]
    exact ⟨_, rfl⟩
  obtain ⟨w, hw⟩ := hwalk
  obtain ⟨hchain, -, -, -, hone⟩ := walk_imports_once hw
  rw [sailor_climb] at hchain
  refine ⟨w, hw, hchain, ?_, ?_⟩
  · rw [hchain]
    decide +kernel
  · rw [hone, hchain]
    decide +kernel

end FieldWiring
