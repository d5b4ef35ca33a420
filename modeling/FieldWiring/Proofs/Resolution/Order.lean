import FieldWiring.Corpus
import FieldWiring.Proofs.Resolution.Ranks
import FieldWiring.Proofs.Text.Leading

/-!
# The order in which names are tried

A reference stands for several names, and it denotes the first of them that is declared. `Tries`
lists these names with their ranks: members of the types around the reference before what the scopes
around it hold, inner ones before outer ones, and in each scope its own names before those of its
renamings and these before those of its imports. At the root the imports of the whole corpus follow
those of the unit.

Results:
* `getElem?_enclosingScopes`: the scopes around a place, by their distance.
* `ranked_importsAt`: the imports that hold at a scope, by their places in the sources.
* `ranked_searchNames`: a reference with a name stands for what `Tries` lists, in that order.
* `resolve_in_order`: it denotes the first declaration of the name with the lowest rank.
-/

namespace FieldWiring

/-! ## Scopes by their distance -/

/-- The number of scopes around a place in a namespace, without the root. -/
def scopeDepth (namespaceName : String) : Nat := (segments namespaceName).length

/-- The scope around a place in a namespace that is `i` segments further out. -/
def scopeAround (namespaceName : String) (i : Nat) : String :=
  dotted ((segments namespaceName).take (scopeDepth namespaceName - i))

theorem dotted_segments (name : String) : dotted (segments name) = name := by
  have hdot : ".".toList = ['.'] := String.toList_ofList
  unfold segments
  by_cases h : name = ""
  · rw [if_pos h, h]
    rfl
  · rw [if_neg h, ← String.toList_inj, dotted, Text.splitAt, String.toList_intercalate, hdot,
      List.map_map]
    simp [Function.comp_def, Text.intercalate_pieces]

/-- The scope of a place itself. -/
theorem scopeAround_zero (namespaceName : String) :
    scopeAround namespaceName 0 = namespaceName := by
  rw [scopeAround, scopeDepth, Nat.sub_zero, List.take_length, dotted_segments]

theorem beginnings_eq {α : Type} (l : List α) :
    beginnings l = (List.range l.length).map fun n => l.take (n + 1) := by
  induction l with
  | nil => rfl
  | cons a l ih =>
    rw [beginnings, ih, List.length_cons, List.range_succ_eq_map, List.map_cons, List.map_map,
      List.map_map]
    rfl

/-- The beginnings of a list, longest first. -/
theorem getElem?_reverse_beginnings {α : Type} {l b : List α} {i : Nat} :
    (beginnings l).reverse[i]? = some b ↔ i < l.length ∧ b = l.take (l.length - i) := by
  rw [beginnings_eq]
  by_cases hi : i < l.length
  · have hlast : l.length - 1 - i + 1 = l.length - i := by omega
    rw [List.getElem?_reverse (by simpa using hi), List.length_map, List.length_range,
      List.getElem?_map, List.getElem?_range (by omega), Option.map_some, hlast, Option.some_inj]
    exact ⟨fun h => ⟨hi, h.symm⟩, fun h => h.2.symm⟩
  · rw [List.getElem?_eq_none (by simpa using hi)]
    exact iff_of_false (by simp) fun h => hi h.1

theorem getElem?_enclosingScopes {n s : String} {i : Nat} :
    (enclosingScopes n)[i]? = some s ↔ i ≤ scopeDepth n ∧ s = scopeAround n i := by
  have hlength : ((leadingNames n).reverse).length = scopeDepth n := by
    simp [leadingNames, beginnings_eq, scopeDepth]
  have hinner : (leadingNames n).reverse = (beginnings (segments n)).reverse.map dotted :=
    List.map_reverse.symm
  unfold enclosingScopes
  rcases Nat.lt_trichotomy i (scopeDepth n) with hi | rfl | hi
  · rw [List.getElem?_append_left (by omega), hinner, List.getElem?_map, Option.map_eq_some_iff]
    simp only [getElem?_reverse_beginnings]
    constructor
    · rintro ⟨b, ⟨-, rfl⟩, rfl⟩
      exact ⟨hi.le, rfl⟩
    · rintro ⟨-, rfl⟩
      exact ⟨_, ⟨hi, rfl⟩, rfl⟩
  · have hroot : scopeAround n (scopeDepth n) = "" := by
      rw [scopeAround, Nat.sub_self, List.take_zero]
      rfl
    rw [List.getElem?_append_right (by omega), hlength, Nat.sub_self, hroot]
    exact ⟨fun h => ⟨Nat.le_refl _, (Option.some.inj h).symm⟩, fun h => h.2 ▸ rfl⟩
  · have hlong : ((leadingNames n).reverse ++ [""]).length ≤ i := by
      rw [List.length_append, hlength]
      exact hi
    rw [List.getElem?_eq_none hlong]
    exact iff_of_false (by simp) fun h => absurd h.1 (Nat.not_le.mpr hi)

/-! ## Imports by their places -/

/-- The imports that hold at a scope of a unit: those that the unit has there, by their places in
it, and behind them, at the root, the global ones of the corpus by the places of their units. -/
inductive HoldsAt (c : Corpus) (u : SourceUnit) (scope : String) : List Nat → ImportDirective → Prop
  | own {i : Nat} {d : ImportDirective} : u.imports[i]? = some d → d.scope = scope →
      d.isGlobal = false → HoldsAt c u scope [0, i] d
  | everywhere {i j : Nat} {v : SourceUnit} {d : ImportDirective} : scope = "" →
      c.units[i]? = some v → v.imports[j]? = some d → d.isGlobal = true →
      HoldsAt c u scope [1, i, j] d

/-- What the imports at a scope lead to is ranked by their places first. -/
theorem ranked_importsAt (c : Corpus) (u : SourceUnit) (scope : String) {β : Type}
    {f : ImportDirective → List β} {Q : ImportDirective → List Nat → β → Prop}
    (h : ∀ d, Ranked (Q d) (f d)) :
    Ranked (fun rank b => ∃ place rest d, rank = place ++ rest ∧
      HoldsAt c u scope place d ∧ Q d rest b)
      ((c.importsAt u scope).flatMap f) := by
  have hown := (Ranked.filter_flatMap h (fun d => decide (d.scope = scope) && !d.isGlobal)
    u.imports).under 0
  have hglobal : Ranked
      (fun rank b => ∃ i j rest v d, rank = 1 :: i :: j :: rest ∧ scope = "" ∧
        c.units[i]? = some v ∧
        v.imports[j]? = some d ∧ d.isGlobal = true ∧ Q d rest b)
      ((if scope = "" then c.globalImports else []).flatMap f) := by
    by_cases hroot : scope = ""
    · rw [if_pos hroot, Corpus.globalImports, List.filter_flatMap, List.flatMap_assoc]
      refine ((Ranked.flatMap fun v _ =>
        Ranked.filter_flatMap h (·.isGlobal) v.imports).under 1).congr fun rank b => ?_
      constructor
      · rintro ⟨_, rfl, i, _, v, rfl, hv, j, rest, d, rfl, hd, hg, hb⟩
        exact ⟨i, j, rest, v, d, rfl, hroot, hv, hd, hg, hb⟩
      · rintro ⟨i, j, rest, v, d, rfl, -, hv, hd, hg, hb⟩
        exact ⟨_, rfl, i, _, v, rfl, hv, j, rest, d, rfl, hd, hg, hb⟩
    · rw [if_neg hroot]
      exact Ranked.nil fun rank b ⟨_, _, _, _, _, _, h, _⟩ => hroot h
  unfold Corpus.importsAt
  rw [List.flatMap_append]
  refine (hown.append hglobal ?_).congr fun rank b => ?_
  · rintro _ x _ y ⟨rest, rfl, -⟩ ⟨i, j, rest', v, d, rfl, -⟩
    exact List.cons_lt_cons_iff.mpr (.inl Nat.zero_lt_one)
  · constructor
    · rintro (⟨_, rfl, i, rest, d, rfl, hd, hp, hb⟩ |
        ⟨i, j, rest, v, d, rfl, hroot, hv, hd, hg, hb⟩)
      · simp only [Bool.and_eq_true, decide_eq_true_eq, Bool.not_eq_true'] at hp
        exact ⟨[0, i], rest, d, rfl, .own hd hp.1 hp.2, hb⟩
      · exact ⟨[1, i, j], rest, d, rfl, .everywhere hroot hv hd hg, hb⟩
    · rintro ⟨place, rest, d, rfl, hplace, hb⟩
      cases hplace with
      | own hd hscope hlocal =>
        exact .inl ⟨_, rfl, _, rest, d, rfl, hd, by simp [hscope, hlocal], hb⟩
      | everywhere hroot hv hd hg => exact .inr ⟨_, _, rest, _, d, rfl, hroot, hv, hd, hg, hb⟩

/-! ## Names at a scope -/

/-- What a renaming makes of a name that begins with the new name and goes on with `rest`. -/
def ImportDirective.meant (d : ImportDirective) (rest : List String) : String :=
  if dotted rest = "" then d.target else qualify d.target (dotted rest)

/-- The names that `name` stands for at a scope of a unit: the scope's own, what its renamings make
of it, looked for in the scopes around, and the members of what its imports bring in. -/
inductive NamesAt (c : Corpus) (u : SourceUnit) (name scope : String) : List Nat → String → Prop
  | own : NamesAt c u name scope [0] (qualify scope name)
  | renamed {place : List Nat} {d : ImportDirective} {rest : List String} {i : Nat} :
      HoldsAt c u scope place d → d.kind = .renamed → Text.splitAt '.' name = d.newName :: rest →
      i ≤ scopeDepth scope →
      NamesAt c u name scope (1 :: (place ++ [i])) (qualify (scopeAround scope i) (d.meant rest))
  | imported {place : List Nat} {d : ImportDirective} : HoldsAt c u scope place d →
      d.kind = .names →
      NamesAt c u name scope (2 :: place) (qualify ((c.resolveNamespace d).getD d.target) name)

/-- The first segment of a name is what stands before its first dot. -/
theorem splitAt_eq_cut (name : String) : ∃ rest,
    Text.splitAt '.' name = (Text.cutAt '.' name).1 :: rest ∧
      dotted rest = (Text.cutAt '.' name).2 := by
  have hpieces : ∀ s : List Char, ∃ rest : List (List Char),
      Text.pieces (· == '.') s = s.takeWhile (· != '.') :: rest ∧
        ['.'].intercalate rest = (s.dropWhile (· != '.')).drop 1 := by
    intro s
    induction s with
    | nil => exact ⟨[], rfl, rfl⟩
    | cons c s ih =>
      obtain ⟨rest, hrest, hdrop⟩ := ih
      by_cases hc : c = '.'
      · subst hc
        exact ⟨Text.pieces (· == '.') s, rfl, Text.intercalate_pieces '.' s⟩
      · refine ⟨rest, ?_, ?_⟩
        · simp [Text.pieces, hc, hrest]
        · simpa [hc] using hdrop
  obtain ⟨rest, hrest, hdrop⟩ := hpieces name.toList
  have hdot : ".".toList = ['.'] := String.toList_ofList
  refine ⟨rest.map String.ofList, by rw [Text.splitAt, hrest]; rfl, ?_⟩
  rw [← String.toList_inj, dotted, String.toList_intercalate, List.map_map, hdot, Text.cutAt,
    String.toList_ofList, ← hdrop]
  simp [Function.comp_def]

theorem ranked_renamedNames (scope name : String) (d : ImportDirective) :
    Ranked (fun rank n => d.kind = .renamed ∧ ∃ rest i, Text.splitAt '.' name = d.newName :: rest ∧
      i ≤ scopeDepth scope ∧ rank = [i] ∧ n = qualify (scopeAround scope i) (d.meant rest))
      (Corpus.renamedNames scope name d) := by
  obtain ⟨rest, hsplit, hrest⟩ := splitAt_eq_cut name
  unfold Corpus.renamedNames
  simp only
  by_cases h : d.kind = .renamed ∧ d.newName = (Text.cutAt '.' name).1
  · rw [if_pos h, ← hrest]
    refine (Ranked.map _ _).congr fun rank n => ?_
    constructor
    · rintro ⟨i, s, rfl, hs, rfl⟩
      obtain ⟨hi, rfl⟩ := getElem?_enclosingScopes.mp hs
      exact ⟨h.1, rest, i, h.2 ▸ hsplit, hi, rfl, rfl⟩
    · rintro ⟨-, rest', i, hsplit', hi, rfl, rfl⟩
      obtain ⟨-, rfl⟩ := List.cons.inj (hsplit.symm.trans hsplit')
      exact ⟨i, _, rfl, getElem?_enclosingScopes.mpr ⟨hi, rfl⟩, rfl⟩
  · rw [if_neg h]
    refine Ranked.nil fun rank n hn => h ⟨hn.1, ?_⟩
    obtain ⟨-, rest', i, hsplit', -⟩ := hn
    exact (List.cons.inj (hsplit.symm.trans hsplit')).1.symm

theorem ranked_importedNames (c : Corpus) (name : String) (d : ImportDirective) :
    Ranked (fun rank n => d.kind = .names ∧ rank = [] ∧
      n = qualify ((c.resolveNamespace d).getD d.target) name) (c.importedNames name d) := by
  unfold Corpus.importedNames
  cases hkind : d.kind with
  | names => exact (Ranked.singleton _).congr fun rank n => (and_iff_right rfl).symm
  | statics | renamed | other => exact Ranked.nil fun rank n hn => nomatch hn.1

/-- A name stands for what `NamesAt` lists at a scope, in that order. -/
theorem ranked_namesAt (c : Corpus) (u : SourceUnit) (name scope : String) :
    Ranked (NamesAt c u name scope) (c.namesAt u name scope) := by
  have hown := (Ranked.singleton (qualify scope name)).under 0
  have hrenamed := (ranked_importsAt c u scope
    (ranked_renamedNames scope name)).under 1
  have himported := (ranked_importsAt c u scope
    (ranked_importedNames c name)).under 2
  have hbehind := hrenamed.append himported ?_
  · have hall := hown.append hbehind ?_
    · refine hall.congr fun rank n => ⟨?_, fun hn => ?_⟩
      · rintro (⟨_, rfl, rfl, rfl⟩ |
          ⟨_, rfl, place, _, d, rfl, hd, hkind, rest, i, hsplit, hi, rfl, rfl⟩ |
          ⟨_, rfl, place, _, d, rfl, hd, hkind, rfl, rfl⟩)
        · exact .own
        · exact .renamed hd hkind hsplit hi
        · rw [List.append_nil]
          exact .imported hd hkind
      · cases hn with
        | own => exact .inl ⟨[], rfl, rfl, rfl⟩
        | renamed hd hkind hsplit hi =>
          exact .inr (.inl ⟨_, rfl, _, _, _, rfl, hd, hkind, _, _, hsplit, hi, rfl, rfl⟩)
        | imported hd hkind =>
          exact .inr (.inr ⟨_, rfl, _, [], _, (List.append_nil _).symm, hd, hkind, rfl, rfl⟩)
    · rintro _ x _ y ⟨rest, rfl, -⟩ (⟨rest', rfl, -⟩ | ⟨rest', rfl, -⟩)
      · exact List.cons_lt_cons_iff.mpr (.inl (by decide))
      · exact List.cons_lt_cons_iff.mpr (.inl (by decide))
  · rintro _ x _ y ⟨rest, rfl, -⟩ ⟨rest', rfl, -⟩
    exact List.cons_lt_cons_iff.mpr (.inl (by decide))

/-! ## The whole search -/

/-- The names that a reference stands for in a declaration, each with its rank: its name alone when
it is rooted. Otherwise it is first a member of the types around, from the innermost outwards, and
then what it stands for at the scopes around, from the namespace of the declaration to the root. -/
inductive Tries (c : Corpus) (r : TypeReference) (context : TypeDeclaration) :
    List Nat → String → Prop
  | rooted : r.isRooted = true → Tries c r context [] r.name
  | member {i : Nat} : r.isRooted = false → i < context.containingTypes.length →
      Tries c r context [0, i] (qualify (qualify context.scope
        (dotted (context.containingTypes.take (context.containingTypes.length - i)))) r.name)
  | seen {i : Nat} {rank : List Nat} {name : String} : r.isRooted = false →
      i ≤ scopeDepth context.scope →
      NamesAt c (c.unitFor context) r.name (scopeAround context.scope i) rank name →
      Tries c r context (1 :: i :: rank) name

/-- A reference with a name stands for what `Tries` lists, in that order. -/
theorem ranked_searchNames (c : Corpus) (r : TypeReference) (context : TypeDeclaration)
    (h : r.name ≠ "") : Ranked (Tries c r context) (c.searchNames r context) := by
  unfold Corpus.searchNames
  rw [if_neg h]
  cases hrooted : r.isRooted with
  | true =>
    refine (Ranked.singleton r.name).congr fun rank name => ⟨?_, fun hn => ?_⟩
    · rintro ⟨rfl, rfl⟩
      exact .rooted hrooted
    · cases hn with
      | rooted _ => exact ⟨rfl, rfl⟩
      | member hfree | seen hfree => exact absurd (hrooted.symm.trans hfree) (by decide)
  | false =>
    have hmembers := (Ranked.map (fun outer =>
      qualify (qualify context.scope (dotted outer)) r.name)
        (beginnings context.containingTypes).reverse).under 0
    have hscopes := (Ranked.flatMap (l := enclosingScopes context.scope) fun scope _ =>
      ranked_namesAt c (c.unitFor context) r.name scope).under 1
    refine (hmembers.append hscopes ?_).congr fun rank name => ⟨?_, fun hn => ?_⟩
    · rintro _ x _ y ⟨rest, rfl, -⟩ ⟨rest', rfl, -⟩
      exact List.cons_lt_cons_iff.mpr (.inl (by decide))
    · rintro (⟨_, rfl, i, outer, rfl, houter, rfl⟩ | ⟨_, rfl, i, rest, scope, rfl, hscope, hn⟩)
      · obtain ⟨hi, rfl⟩ := getElem?_reverse_beginnings.mp houter
        exact .member hrooted hi
      · obtain ⟨hi, rfl⟩ := getElem?_enclosingScopes.mp hscope
        exact .seen hrooted hi hn
    · cases hn with
      | rooted htrue => exact absurd (htrue.symm.trans hrooted) (by decide)
      | member _ hi =>
        exact .inl ⟨_, rfl, _, _, rfl, getElem?_reverse_beginnings.mpr ⟨hi, rfl⟩, rfl⟩
      | seen _ hi hn =>
        exact .inr ⟨_, rfl, _, _, _, rfl, getElem?_enclosingScopes.mpr ⟨hi, rfl⟩, hn⟩

/-! ## What a reference denotes -/

/-- No declaration of a corpus has a key. -/
def Corpus.LacksKey (c : Corpus) (k : TypeKey) : Prop := ∀ d ∈ c.declarations, d.key ≠ k

/-- The first declaration of a corpus with a key. -/
def Corpus.IsFirst (c : Corpus) (k : TypeKey) (d : TypeDeclaration) : Prop :=
  d.key = k ∧ ∃ before behind, c.declarations = before ++ d :: behind ∧ ∀ e ∈ before, e.key ≠ k

theorem lookup_eq_some_iff_isFirst {c : Corpus} {name : String} {arity : Nat}
    {d : TypeDeclaration} :
    c.lookup name arity = some d ↔ c.IsFirst ⟨name, arity⟩ d := by
  unfold Corpus.lookup Corpus.IsFirst
  rw [List.find?_eq_some_iff_append]
  simp only [decide_eq_true_eq, Bool.not_eq_true', decide_eq_false_iff_not, ne_eq]

theorem lookup_eq_none_iff {c : Corpus} {name : String} {arity : Nat} :
    c.lookup name arity = none ↔ c.LacksKey ⟨name, arity⟩ := by
  unfold Corpus.lookup Corpus.LacksKey
  rw [List.find?_eq_none]
  simp only [decide_eq_true_eq, ne_eq]

/-- The declaration is the first one of the name with the lowest rank of those that are declared
with as many type parameters as the reference has arguments. -/
def Denotes (c : Corpus) (r : TypeReference) (context d : TypeDeclaration) : Prop :=
  ∃ rank name, Tries c r context rank name ∧ c.IsFirst ⟨name, r.arity⟩ d ∧
    ∀ rank' name', rank' < rank → Tries c r context rank' name' → c.LacksKey ⟨name', r.arity⟩

/-- **A reference denotes the first hit of one search order.** Each rank belongs to one name. A
reference that has a name denotes the first declaration of the name with the lowest rank that is
declared at all with its arity, and nothing iff none is; a reference without a name denotes
nothing. -/
theorem resolve_in_order (c : Corpus) (r : TypeReference) (context : TypeDeclaration) :
    (r.name ≠ "" → (∀ d, c.resolve r context = some d ↔ Denotes c r context d) ∧
      (c.resolve r context = none ↔
        ∀ rank name, Tries c r context rank name → c.LacksKey ⟨name, r.arity⟩) ∧
      ∀ rank name name', Tries c r context rank name → Tries c r context rank name' →
        name = name') ∧
    (r.name = "" → c.resolve r context = none) := by
  refine ⟨fun h => ?_, fun h => ?_⟩
  · have hranked := ranked_searchNames c r context h
    refine ⟨fun d => ?_, ?_, fun rank name name' => hranked.unique⟩
    · unfold Corpus.resolve Denotes
      rw [hranked.findSome?_eq_some_iff]
      simp only [lookup_eq_some_iff_isFirst, lookup_eq_none_iff]
    · unfold Corpus.resolve
      rw [hranked.findSome?_eq_none_iff]
      simp only [lookup_eq_none_iff]
  · unfold Corpus.resolve Corpus.searchNames
    rw [if_pos h]
    rfl

/-- The type that a renaming leads to. -/
def frame : TypeDeclaration := { name := "Frame", unitPath := "b.cs", namespaceName := some "Yard" }

/-- The type whose unit renames `Hull`. -/
def ferry : TypeDeclaration := { name := "Ferry", unitPath := "a.cs", namespaceName := some "Port" }

/-- A unit that imports a namespace with a `Hull` and renames another type to that behind it. -/
def harbour : Corpus :=
  { units := [
      { path := "a.cs"
        imports := [
          { text := "using Dock;", target := "Dock" },
          { text := "using Hull = Yard.Frame;", target := "Yard.Frame", kind := .renamed,
            newName := "Hull" }] }]
    declarations := [
      { name := "Hull", unitPath := "c.cs", namespaceName := some "Dock" }, frame, ferry] }

/-- The renaming comes before the import. -/
theorem hull_denotes_frame :
    (⟨"Hull"⟩ : TypeReference).name ≠ "" ∧ Denotes harbour ⟨"Hull"⟩ ferry frame := by
  have hname : (⟨"Hull"⟩ : TypeReference).name ≠ "" := by decide +kernel
  have hresolve : harbour.resolve ⟨"Hull"⟩ ferry = some frame := by decide +kernel
  exact ⟨hname, (((resolve_in_order harbour ⟨"Hull"⟩ ferry).1 hname).1 frame).mp hresolve⟩

/-! ## A declaration without a name -/

/-- A declaration whose name is empty. -/
def blank : TypeDeclaration := { name := "", unitPath := "a.cs" }

/-- The corpus of the declaration without a name. -/
def unnamed : Corpus := { declarations := [blank] }

/-- The search order leads from a bare root word to the declaration without a name, and yet the
reference denotes nothing. -/
theorem unnamed_unresolved :
    Denotes unnamed ⟨"global::"⟩ blank blank ∧ unnamed.resolve ⟨"global::"⟩ blank = none := by
  refine ⟨⟨[], _, .rooted (by decide +kernel), ⟨by decide +kernel, [], [], rfl, ?_⟩, ?_⟩,
    by decide +kernel⟩
  · exact fun e he => absurd he List.not_mem_nil
  · exact fun rank _ hlower => absurd hlower (List.not_lt_nil rank)

end FieldWiring
