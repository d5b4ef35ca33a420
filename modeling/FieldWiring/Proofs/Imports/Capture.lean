import FieldWiring.Proofs.Template.Layout
import FieldWiring.Proofs.Text.Leading

/-!
# Imports that are captured

A unit repeats the imports of every level of its chain as absolute names, but it repeats them inside
the namespace of the candidate, where a name is read from the innermost scope outwards. An import of
`Util` that is repeated inside `Game` therefore brings in `Game.Util` when the corpus has such a
namespace. This module tells exactly when an import keeps its meaning.

Results:
* `enclosingScopes_inner`: around a place, only the outermost scopes have no name.
* `resolveNamespace_repeated_iff`: a repeated import means the same iff no scope captures it.
* `import_captured_iff`: so do the imports that a unit repeats, wherever on the chain they stand.
-/

namespace FieldWiring

/-! ## Scopes around a place -/

/-- Around a place, only the outermost scopes have no name. -/
theorem enclosingScopes_inner (scope : String) :
    ∃ inner : List String, (∀ s ∈ inner, s ≠ "") ∧ (∀ s ∈ leadingNames scope, s ≠ "" → s ∈ inner) ∧
      (∀ s ∈ inner, s ∈ leadingNames scope) ∧
      ∃ outer, enclosingScopes scope = inner ++ outer ++ [""] ∧ ∀ s ∈ outer, s = "" := by
  unfold enclosingScopes leadingNames
  rcases segments scope with _ | ⟨first, others⟩
  · exact ⟨[], by simp, by simp [beginnings], by simp, [], rfl, by simp⟩
  · -- every leading name but the first has a dot
    have hlong : ∀ s ∈ ((beginnings others).map (first :: ·)).map dotted, s ≠ "" := by
      intro s hs
      obtain ⟨l, hl, rfl⟩ := List.mem_map.mp hs
      obtain ⟨m, hm, rfl⟩ := List.mem_map.mp hl
      cases others with
      | nil => cases hm
      | cons b rest =>
        rcases List.mem_cons.mp hm with rfl | hm
        · exact dotted_ne_empty first b []
        · obtain ⟨m', -, rfl⟩ := List.mem_map.mp hm
          exact dotted_ne_empty first b m'
    have hfirst : dotted [first] = first := String.intercalate_singleton
    simp only [beginnings, List.map_cons, hfirst, List.reverse_cons]
    by_cases h : first = ""
    · refine ⟨(((beginnings others).map (first :: ·)).map dotted).reverse, ?_, ?_, ?_, [first], rfl,
        by simp [h]⟩
      · exact fun s hs => hlong s (List.mem_reverse.mp hs)
      · intro s hs hne
        rcases List.mem_cons.mp hs with rfl | hs
        · exact absurd h hne
        · exact List.mem_reverse.mpr hs
      · exact fun s hs => List.mem_cons_of_mem _ (List.mem_reverse.mp hs)
    · refine ⟨(((beginnings others).map (first :: ·)).map dotted).reverse ++ [first],
        ?_, ?_, ?_, [], by rw [List.append_nil], by simp⟩
      · intro s hs
        rcases List.mem_append.mp hs with hs | hs
        · exact hlong s (List.mem_reverse.mp hs)
        · exact List.mem_singleton.mp hs ▸ h
      · intro s hs _
        rcases List.mem_cons.mp hs with rfl | hs
        · exact List.mem_append_right _ List.mem_cons_self
        · exact List.mem_append_left _ (List.mem_reverse.mpr hs)
      · intro s hs
        rcases List.mem_append.mp hs with hs | hs
        · exact List.mem_cons_of_mem _ (List.mem_reverse.mp hs)
        · exact List.mem_singleton.mp hs ▸ List.mem_cons_self

/-! ## Repeated imports -/

/-- The import of a namespace, as it is repeated in `scope`. -/
def repeatedImport (n scope : String) : ImportDirective :=
  { text := "using " ++ n ++ ";", target := n, scope := scope }

/-- A scope around the place has a namespace under the name that is imported. -/
def Captured (c : Corpus) (n scope : String) : Prop :=
  ∃ s ∈ leadingNames scope, s ≠ "" ∧ c.isNamespace (qualify s n) = true

theorem qualify_ne {s : String} (h : s ≠ "") (n : String) : qualify s n ≠ n := by
  unfold qualify
  rw [if_neg h]
  intro heq
  have hlen := congrArg String.length heq
  have hdot : ".".length = 1 := by decide
  simp only [String.length_append] at hlen
  omega

theorem isNamespace_of_resolveNamespace {c : Corpus} {i : ImportDirective} {n : String}
    (h : c.resolveNamespace i = some n) : c.isNamespace n = true := by
  unfold Corpus.resolveNamespace at h
  cases hk : i.kind <;> rw [hk] at h
  · exact List.find?_some h
  · cases h
  · cases h
  · cases h

/-- The namespace that a repeated import brings in: the innermost one that captures it, or else the
one that is meant. -/
theorem resolveNamespace_repeated {c : Corpus} {n : String} (hn : c.isNamespace n = true)
    (scope : String) :
    (¬ Captured c n scope ∧ c.resolveNamespace (repeatedImport n scope) = some n) ∨
      ∃ s ∈ leadingNames scope, s ≠ "" ∧ c.isNamespace (qualify s n) = true ∧
        c.resolveNamespace (repeatedImport n scope) = some (qualify s n) := by
  obtain ⟨inner, hne, hall, hmem, outer, heq, hempty⟩ := enclosingScopes_inner scope
  have hfind : c.resolveNamespace (repeatedImport n scope) =
      ((inner ++ outer ++ [""]).map (qualify · n)).find? c.isNamespace := by
    rw [← heq]
    rfl
  rw [hfind, List.append_assoc, List.map_append, List.find?_append]
  cases hinner : (inner.map (qualify · n)).find? c.isNamespace with
  | none =>
    left
    constructor
    · rintro ⟨s, hs, hs', hc⟩
      exact absurd hc (List.find?_eq_none.mp hinner _ (List.mem_map.mpr ⟨s, hall s hs hs', rfl⟩))
    · -- outside of the scopes with a name, the import is read as it stands
      have hout : ∀ l : List String, (∀ s ∈ l, s = "") →
          ((l ++ [""]).map (qualify · n)).find? c.isNamespace = some n := by
        intro l hl
        cases l with
        | nil => simp [hn]
        | cons s l => simp [hl s List.mem_cons_self, hn]
      rw [Option.none_or]
      exact hout outer hempty
  | some m =>
    right
    obtain ⟨s, hs, rfl⟩ := List.mem_map.mp (List.mem_of_find?_eq_some hinner)
    exact ⟨s, hmem s hs, hne s hs, List.find?_some hinner, rfl⟩

/-- **A repeated import means the same iff no scope captures it.** -/
theorem resolveNamespace_repeated_iff {c : Corpus} {n : String} (hn : c.isNamespace n = true)
    (scope : String) :
    c.resolveNamespace (repeatedImport n scope) = some n ↔ ¬ Captured c n scope := by
  rcases resolveNamespace_repeated hn scope with ⟨hfree, heq⟩ | ⟨s, hs, hne, hc, heq⟩
  · exact ⟨fun _ => hfree, fun _ => heq⟩
  · rw [heq]
    constructor
    · intro h
      exact absurd (Option.some.inj h) (qualify_ne hne n)
    · intro hfree
      exact absurd ⟨s, hs, hne, hc⟩ hfree

/-! ## Where units repeat them -/

theorem walkHierarchy_imports {c : Corpus} {g : Generator} {R : SymbolResolver}
    {candidate : TypeDeclaration} {w : Walk} (h : walkHierarchy c g R candidate = .ok w) :
    w.imports = dedupe ((climb R [] candidate).levels.flatMap c.importsFor) := by
  obtain ⟨fields, -, rfl⟩ := gather_ok (walkHierarchy_ok h)
  rfl

/-- A walk gathers the statements of every level. -/
theorem mem_walk_imports {c : Corpus} {g : Generator} {R : SymbolResolver}
    {candidate d : TypeDeclaration} {w : Walk} (h : walkHierarchy c g R candidate = .ok w)
    (hd : d ∈ (climb R [] candidate).levels) {i : ImportDirective} (hi : i ∈ (c.unitFor d).imports)
    {statement : String} (hs : c.importStatement i = some statement) : statement ∈ w.imports := by
  rw [walkHierarchy_imports h, mem_dedupe, List.mem_flatMap]
  refine ⟨d, hd, ?_⟩
  unfold Corpus.importsFor
  rw [mem_dedupe, List.mem_filterMap]
  exact ⟨i, hi, hs⟩

/-- The imports of a unit follow the statement that opens the candidate's namespace. -/
theorem unitText_imports (g : Generator) (d : TypeDeclaration) (w : Walk) (assigned : List String) :
    ∃ before after, Template.unitText g d w assigned =
      before ++ Template.namespaceText d ++ Template.linesText "" w.imports ++ after := by
  have hjoin : ∀ (a b e m n : String) (rest : List String),
      String.join (a :: b :: e :: m :: n :: rest) = a ++ b ++ e ++ m ++ n ++ String.join rest := by
    intro a b e m n rest
    simp only [String.join_cons, String.append_assoc]
  exact ⟨_, _, hjoin _ _ _ _ _ _⟩

/-- **A unit keeps the meaning of an import iff no scope of its namespace captures it.** An import
of names on the chain of a candidate that brings in the namespace `n` is repeated as `using n;`. The
standard templates write it behind the candidate's namespace, and there it brings in a namespace
still: `n` itself exactly when no scope around it has a namespace of that name. -/
theorem import_captured_iff (c : Corpus) (g : Generator) (R : SymbolResolver)
    (candidate d : TypeDeclaration) (hd : d ∈ (climb R [] candidate).levels) (i : ImportDirective)
    (hi : i ∈ (c.unitFor d).imports) (hg : i.isGlobal = false) (n : String)
    (hn : c.resolveNamespace i = some n) :
    c.importStatement i = some (repeatedImport n candidate.scope).text ∧
    (∀ w, walkHierarchy c g R candidate = .ok w →
      (repeatedImport n candidate.scope).text ∈ w.imports ∧
      ∀ text, resolverText .standard g candidate w = .ok text → ∃ before after,
        text = before ++ Template.namespaceText candidate ++ Template.linesText "" w.imports ++
          after) ∧
    (∃ m, c.resolveNamespace (repeatedImport n candidate.scope) = some m) ∧
    (c.resolveNamespace (repeatedImport n candidate.scope) = some n ↔
      ¬ Captured c n candidate.scope) := by
  have hspace := isNamespace_of_resolveNamespace hn
  have hstatement : c.importStatement i = some (repeatedImport n candidate.scope).text := by
    unfold Corpus.importStatement
    rw [hg, hn]
    rfl
  refine ⟨hstatement, ?_, ?_, resolveNamespace_repeated_iff hspace candidate.scope⟩
  · intro w hw
    refine ⟨mem_walk_imports hw hd hi hstatement, ?_⟩
    intro text ht
    rcases resolverText_standard g candidate w with ⟨f, hf⟩ | hok
    · rw [hf] at ht
      cases ht
    · rw [hok] at ht
      cases ht
      exact unitText_imports g candidate w _
  · rcases resolveNamespace_repeated hspace candidate.scope with ⟨-, h⟩ | ⟨s, -, -, -, h⟩
    · exact ⟨n, h⟩
    · exact ⟨_, h⟩

/-- The player of a game imports `Util`, and there is a `Game.Util` as well. -/
def player : TypeDeclaration where
  name := "Player"
  unitPath := "a.cs"
  namespaceName := some "Game"
  modifiers := ["partial"]
  fields := [⟨"Foo", "foo", [⟨"InjectDependency", []⟩], 1⟩]

/-- The import at the head of the player's unit. -/
def playerImport : ImportDirective := { text := "using Util;", target := "Util" }

/-- The units of the player and of both namespaces. -/
def gameCorpus : Corpus :=
  .ofSources [⟨"a.cs", [playerImport], ["Game"]⟩, ⟨"b.cs", [], ["Util", "Game.Util"]⟩] [player]

theorem player_import_captured :
    gameCorpus.resolveNamespace playerImport = some "Util" ∧
      gameCorpus.importStatement playerImport = some "using Util;" ∧
      gameCorpus.resolveNamespace (repeatedImport "Util" player.scope) ≠ some "Util" := by
  have hmeant : gameCorpus.resolveNamespace playerImport = some "Util" := by decide +kernel
  have hcaptured : Captured gameCorpus "Util" player.scope := by
    refine ⟨"Game", ?_, ?_, ?_⟩ <;> decide +kernel
  have hchain : player ∈ (climb gameCorpus.symbols [] player).levels := by
    obtain ⟨rest, hrest⟩ := climb_head gameCorpus.symbols [] player
    rw [hrest]
    exact List.mem_cons_self
  obtain ⟨hstatement, -, -, hiff⟩ := import_captured_iff gameCorpus (.ofKind .dependency)
    gameCorpus.symbols player player hchain playerImport (by decide +kernel) rfl "Util" hmeant
  refine ⟨hmeant, ?_, fun h => hiff.mp h hcaptured⟩
  rw [hstatement]
  decide +kernel

end FieldWiring
