import FieldWiring.Proofs.Resolution.Order
import FieldWiring.Proofs.Resolution.TypeNames
import FieldWiring.Proofs.Text.Trimming

/-!
# References as they are spelled

A reference that spells the name of a type, with blanks anywhere, and what it is taken for: the name
and the arity that it looks up, and the declaration that it denotes in its own namespace. Blanks do
not matter, but for one between the root word and its colons.

Results:
* `spells_text`: every name is spelled by a reference.
* `name_read`, `arity_read`: the name and the arity of a reference that spells a name.
* `arity_read_eq_iff`: when the arity is the number of arguments.
* `resolve_own`: a reference denotes what its namespace declares under its name.
* `reference_read`: when a reference denotes the declaration with as many type parameters as it has
  arguments.
-/

namespace FieldWiring

/-! ## Blanks -/

theorem countArguments_filter (depth : Int) (s : List Char) :
    TypeReference.countArguments depth (s.filter fun c => !Text.isBlank c) =
      TypeReference.countArguments depth s := by
  induction s generalizing depth with
  | nil => rfl
  | cons c s ih =>
    by_cases hblank : Text.isBlank c = true
    · have hopen : c ≠ '<' := by rintro rfl; exact absurd hblank (by decide)
      have hclose : c ≠ '>' := by rintro rfl; exact absurd hblank (by decide)
      have hcomma : c ≠ ',' := by rintro rfl; exact absurd hblank (by decide)
      rw [List.filter_cons_of_neg (by simp [hblank]), ih, TypeReference.countArguments,
        if_neg hopen, if_neg hclose, if_neg (fun h => hcomma h.1), Nat.zero_add]
    · rw [List.filter_cons_of_pos (by simp [hblank])]
      simp only [TypeReference.countArguments, ih]

theorem outerChars_filter (depth : Int) (s : List Char) :
    TypeReference.outerChars depth (s.filter fun c => !Text.isBlank c) =
      TypeReference.outerChars depth s := by
  induction s generalizing depth with
  | nil => rfl
  | cons c s ih =>
    by_cases hblank : Text.isBlank c = true
    · have hopen : c ≠ '<' := by rintro rfl; exact absurd hblank (by decide)
      have hclose : c ≠ '>' := by rintro rfl; exact absurd hblank (by decide)
      rw [List.filter_cons_of_neg (by simp [hblank]), ih, TypeReference.outerChars, if_neg hopen,
        if_neg hclose, if_neg (fun h => absurd (h.2.symm.trans hblank) (by decide))]
    · rw [List.filter_cons_of_pos (by simp [hblank])]
      simp only [TypeReference.outerChars, ih]

theorem filter_trimChars (s : List Char) :
    (Text.trimChars s).filter (fun c => !Text.isBlank c) = s.filter fun c => !Text.isBlank c := by
  obtain ⟨lead, trail, hlead, htrail, hs⟩ := Text.exists_trimChars s
  have hnone : ∀ t : List Char, (∀ c ∈ t, Text.isBlank c = true) →
      t.filter (fun c => !Text.isBlank c) = [] := by
    intro t ht
    exact List.filter_eq_nil_iff.mpr fun c hc => by simp [ht c hc]
  conv_rhs => rw [hs]
  rw [List.filter_append, List.filter_append, hnone lead hlead, hnone trail htrail, List.nil_append,
    List.append_nil]

/-! ## Names and arities of references -/

section Spelled

variable {t : TypeName} {r : TypeReference}

/-- A reference that spells a name, with blanks anywhere. -/
def Spells (r : TypeReference) (t : TypeName) : Prop := Text.squeeze r.text = t.text

instance : Decidable (Spells r t) := inferInstanceAs (Decidable (Text.squeeze r.text = t.text))

/-- The text of a name without blanks spells it. -/
theorem spells_text (t : TypeName) : Spells ⟨t.text⟩ t := by
  have hsolid := (TypeExpr.named t.isRooted t.outer t.name t.arguments).inside.solid
  rw [Spells, Text.squeeze, TypeName.text, String.toList_ofList, List.filter_eq_self.mpr]
  exact fun c hc => by rw [hsolid c hc, Bool.not_false]

theorem Spells.filter (h : Spells r t) : r.text.toList.filter (fun c => !Text.isBlank c) =
    (if t.isRooted then globalLead else []) ++ t.body := by
  rw [← t.toList_text, ← h, Text.squeeze, String.toList_ofList]

/-- Only a name that is rooted is read as such. -/
theorem Spells.rooted (h : Spells r t) (hr : r.isRooted = true) : t.isRooted = true ∧
    ∃ rest, Text.trimChars r.text.toList = globalLead ++ rest ∧
      rest.filter (fun c => !Text.isBlank c) = t.body := by
  obtain ⟨rest, hrest⟩ := List.isPrefixOf_iff_prefix.mp hr
  have hlead : globalLead.filter (fun c => !Text.isBlank c) = globalLead := by decide +kernel
  have hfilter := h.filter
  rw [← filter_trimChars, ← hrest, List.filter_append, hlead] at hfilter
  by_cases ht : t.isRooted = true
  · rw [if_pos ht] at hfilter
    exact ⟨ht, rest, hrest.symm, List.append_cancel_left hfilter⟩
  · rw [if_neg ht, List.nil_append] at hfilter
    exact absurd ⟨_, hfilter⟩ t.not_prefix_body

/-- A name ends with its last identifier, and so with no sign of a nullable type. -/
theorem trimEnd_dottedName (lead : List Char) (t : TypeName) :
    Text.trimEnd (· == '?') (lead ++ t.dottedName.toList) = lead ++ t.dottedName.toList := by
  rcases List.eq_nil_or_concat' t.name.text.toList with hnil | ⟨front, c, hname⟩
  · exact absurd hnil t.name.text_ne_nil
  · have hc : c ≠ '?' := t.name.ne_of_mem (by rw [hname]; simp) (by decide) (by decide)
    rw [t.toList_dottedName, hname, ← List.append_assoc, ← List.append_assoc, Text.trimEnd_concat,
      if_neg (by simpa using hc)]

/-- The name of a reference: that of the written one, unless a blank keeps its root word in it. -/
theorem name_read (h : Spells r t) :
    r.name = (if t.isRooted && !r.isRooted then "global::" else "") ++ t.dottedName := by
  have hbody : TypeReference.outerChars 0 t.body = t.dottedName.toList := by
    have hread := (t.reads_body []).2
    rwa [List.append_nil, TypeReference.outerChars, List.append_nil] at hread
  rw [TypeReference.name, ← String.toList_inj, String.toList_ofList, String.toList_append]
  cases hr : r.isRooted with
  | true =>
    obtain ⟨ht, rest, htrim, hrest⟩ := h.rooted hr
    have hdrop : dropGlobal (Text.trimChars r.text.toList) = rest := by
      have hlead : globalLead.isPrefixOf (Text.trimChars r.text.toList) = true := hr
      rw [dropGlobal, Text.dropLead?, if_pos hlead, htrim, List.drop_left, Option.getD_some]
    rw [hdrop, ← outerChars_filter, hrest, hbody, Bool.not_true, Bool.and_false]
    exact trimEnd_dottedName [] t
  | false =>
    have hdrop : dropGlobal (Text.trimChars r.text.toList) = Text.trimChars r.text.toList := by
      have hlead : globalLead.isPrefixOf (Text.trimChars r.text.toList) = false := hr
      rw [dropGlobal, Text.dropLead?, hlead, if_neg (by decide), Option.getD_none]
    rw [hdrop, ← outerChars_filter, filter_trimChars, h.filter, Bool.not_false, Bool.and_true]
    cases t.isRooted with
    | true =>
      have hlead := (outside_globalLead t.body).2
      rw [if_pos rfl, hlead, hbody]
      exact trimEnd_dottedName globalLead t
    | false =>
      rw [if_neg (by decide), List.nil_append, hbody]
      exact trimEnd_dottedName [] t

/-- The arity of a reference counts the arguments of all segments and the loose commas in them. -/
theorem arity_read (h : Spells r t) :
    r.arity = argumentCount (t.outer.flatMap (·.2) ++ t.arguments) := by
  have hbody := (t.reads_body []).1
  rw [List.append_nil, TypeReference.countArguments, Nat.add_zero] at hbody
  rw [TypeReference.arity, ← countArguments_filter, h.filter]
  cases t.isRooted with
  | true =>
    have hlead := (outside_globalLead t.body).1
    rw [if_pos rfl, hlead, hbody, Nat.zero_add]
  | false => rw [if_neg (by decide), List.nil_append, hbody]

theorem length_le_argumentCount (l : List TypeExpr) : l.length ≤ argumentCount l := by
  induction l with
  | nil => exact Nat.le_refl 0
  | cons type l ih =>
    rw [List.length_cons, argumentCount]
    omega

/-- A list counts as many arguments as it has iff there are no loose commas in them. -/
theorem argumentCount_eq_length_iff (l : List TypeExpr) :
    argumentCount l = l.length ↔ ∀ type ∈ l, type.looseCommas = 0 := by
  induction l with
  | nil => exact iff_of_true rfl fun type htype => absurd htype List.not_mem_nil
  | cons type l ih =>
    have hle := length_le_argumentCount l
    rw [List.forall_mem_cons, ← ih, argumentCount, List.length_cons]
    omega

theorem arity_read_eq_iff (h : Spells r t) : r.arity = t.arguments.length ↔ t.IsPlain := by
  have houter : (t.outer.flatMap (·.2)).length = 0 ↔ ∀ segment ∈ t.outer, segment.2 = [] := by
    rw [List.length_eq_zero_iff, List.flatMap_eq_nil_iff]
  have hle := length_le_argumentCount (t.outer.flatMap (·.2))
  have hle' := length_le_argumentCount t.arguments
  rw [arity_read h, argumentCount_append, TypeName.IsPlain, ← houter, ← argumentCount_eq_length_iff]
  constructor
  · intro harity
    exact ⟨by omega, by omega⟩
  · rintro ⟨hfree, hplain⟩
    rw [List.length_eq_zero_iff.mp hfree, argumentCount, Nat.zero_add, hplain]

end Spelled

/-! ## What a reference denotes in its namespace -/

theorem enclosingScopes_cons (namespaceName : String) :
    ∃ outer, enclosingScopes namespaceName = namespaceName :: outer := by
  have hfirst := getElem?_enclosingScopes.mpr
    ⟨Nat.zero_le _, (scopeAround_zero namespaceName).symm⟩
  rw [← List.head?_eq_getElem?, List.head?_eq_some_iff] at hfirst
  exact hfirst

/-- A reference denotes what its namespace declares under its name, if no member of the types around
stands before it. -/
theorem resolve_own {c : Corpus} {r : TypeReference} {context d : TypeDeclaration}
    (hrooted : r.isRooted = false) (hname : r.name ≠ "")
    (hmembers : ∀ n ∈ Corpus.memberNames context r.name, c.LacksKey ⟨n, r.arity⟩)
    (hd : c.IsFirst ⟨qualify context.scope r.name, r.arity⟩ d) : c.resolve r context = some d := by
  obtain ⟨outer, hscopes⟩ := enclosingScopes_cons context.scope
  have hnone : (Corpus.memberNames context r.name).findSome? (c.lookup · r.arity) = none :=
    List.findSome?_eq_none_iff.mpr fun n hn => lookup_eq_none_iff.mpr (hmembers n hn)
  rw [Corpus.resolve, Corpus.searchNames, if_neg hname, hrooted, if_neg (by decide), hscopes,
    List.flatMap_cons, Corpus.namesAt, List.findSome?_append, hnone, Option.none_or,
    List.cons_append, List.findSome?_cons, lookup_eq_some_iff_isFirst.mpr hd]

/-- **A reference counts its arguments by their commas.** However a name is spaced, its reference
has the identifiers for a name, behind the root word if a blank parts this from its colons. The
arity is the number of arguments of the last segment iff no other segment has some and no argument
has a comma outside of angle brackets; and iff that is so does the reference denote the declaration
with this name and as many type parameters in its namespace, when no member of the types around it
stands before that. -/
theorem reference_read {t : TypeName} {r : TypeReference} (h : Spells r t) :
    r.name = (if t.isRooted && !r.isRooted then "global::" else "") ++ t.dottedName ∧
    r.arity = argumentCount (t.outer.flatMap (·.2) ++ t.arguments) ∧
    (r.arity = t.arguments.length ↔ t.IsPlain) ∧
    ∀ (c : Corpus) (context d : TypeDeclaration), t.isRooted = false →
      c.IsFirst ⟨qualify context.scope t.dottedName, t.arguments.length⟩ d →
      (∀ n ∈ Corpus.memberNames context t.dottedName, c.LacksKey ⟨n, t.arguments.length⟩) →
      (c.resolve r context = some d ↔ t.IsPlain) := by
  refine ⟨name_read h, arity_read h, arity_read_eq_iff h, fun c context d ht hd hmembers => ?_⟩
  have hname : r.name = t.dottedName := by
    rw [name_read h, ht, Bool.false_and, if_neg (by decide), String.empty_append]
  have hrooted : r.isRooted = false :=
    Bool.eq_false_iff.mpr fun hr => absurd ((h.rooted hr).1.symm.trans ht) (by decide)
  rw [← arity_read_eq_iff h]
  constructor
  · intro hresolve
    rw [← Corpus.resolve_arity hresolve]
    exact congrArg TypeKey.arity hd.1
  · intro harity
    rw [← hname, ← harity] at hd hmembers
    exact resolve_own hrooted (hname ▸ t.dottedName_ne_empty) hmembers hd

/-! ## A pair among the arguments -/

/-- The type of `Pool<(int, Dictionary<string, int[,]>)>`: its one argument is a pair, the second
element of which has commas of its own in angle brackets. -/
def poolOfPairs : TypeName :=
  let ints := TypeExpr.named false [] ⟨"int", by decide +kernel⟩ []
  let strings := TypeExpr.named false [] ⟨"string", by decide +kernel⟩ []
  let tables := TypeExpr.named false [] ⟨"Dictionary", by decide +kernel⟩ [strings, .array ints 1]
  { name := ⟨"Pool", by decide +kernel⟩, arguments := [.tuple (ints, none) (tables, none) []] }

/-- A pool of anything, declared beside the base list that names it. -/
def pool : TypeDeclaration :=
  { name := "Pool", unitPath := "Pool.cs", namespaceName := some "Game", typeParameters := ["T"] }

/-- The type whose base list names a pool. -/
def queue : TypeDeclaration :=
  { name := "Queue", unitPath := "Queue.cs", namespaceName := some "Game" }

/-- The comma of the pair counts, and so the pool is not found. -/
theorem pool_of_pairs_read :
    let r : TypeReference := ⟨"Pool< (int, Dictionary<string, int[,]>) >"⟩
    r.name = "Pool" ∧ r.arity = 2 ∧ poolOfPairs.arguments.length = 1 ∧
      (⟨[], [queue, pool]⟩ : Corpus).resolve r queue ≠ some pool := by
  intro r
  obtain ⟨hname, harity, -, hresolve⟩ :=
    reference_read (t := poolOfPairs) (r := r) (by decide +kernel)
  have hloose : ¬ poolOfPairs.IsPlain := fun h => absurd (h.2 _ List.mem_cons_self) (by decide)
  refine ⟨hname.trans (by decide +kernel), harity, rfl, fun hfound => hloose ?_⟩
  refine (hresolve ⟨[], [queue, pool]⟩ queue pool rfl ?_ ?_).mp hfound
  · exact ⟨by decide +kernel, [queue], [], rfl, by decide +kernel⟩
  · exact fun n hn => absurd hn List.not_mem_nil

end FieldWiring
