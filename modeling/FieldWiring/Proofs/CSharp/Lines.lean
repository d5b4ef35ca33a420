import FieldWiring.CSharp.Reader
import Mathlib.Data.List.Flatten

/-!
# Lines of declarations

A declaration begins on the line of its first token. Every step from the source to the declarations
keeps the order of what it keeps: conditional code is one lexeme on the line of its first, a token
has the line of a lexeme, brackets keep all tokens, and a member begins at a token of its run. So
the lines of the declared types are a part of the lines of the lexemes, and these never fall.

Results:
* `lines_lexemes`, `lines_tokens`: the lines of lexemes and tokens never fall.
* `lines_readUnit`: the types of a unit begin at tokens of the source, in their order.
* `lines_parseSource`: the lines of the declared types never fall.
-/

namespace FieldWiring.CSharp

/-! ## Lexemes -/

theorem lines_lexemesFuel (fuel line : Nat) (s : List Char) :
    ((lexemesFuel fuel line s).map (·.line)).Pairwise (· ≤ ·) ∧
      ∀ x ∈ lexemesFuel fuel line s, line ≤ x.line := by
  induction fuel generalizing line s with
  | zero => simp [lexemesFuel]
  | succ fuel ih =>
    cases s with
    | nil => simp [lexemesFuel]
    | cons c cs =>
      simp only [lexemesFuel, List.map_cons, List.pairwise_cons, List.forall_mem_cons]
      obtain ⟨hsorted, hlater⟩ := ih (line + lineEnds ((c :: cs).take (max 1 (scan (c :: cs)).2)))
        ((c :: cs).drop (max 1 (scan (c :: cs)).2))
      refine ⟨⟨?_, hsorted⟩, Nat.le_refl _, fun x hx => ?_⟩
      · intro n hn
        obtain ⟨x, hx, rfl⟩ := List.mem_map.mp hn
        have := hlater x hx
        omega
      · have := hlater x hx
        omega

/-- The lines of lexemes never fall. -/
theorem lines_lexemes (source : List Char) :
    ((lexemes source).map (·.line)).Pairwise (· ≤ ·) := (lines_lexemesFuel _ _ _).1

theorem lines_closeConditional (inside : List Lexeme) (x : Lexeme) :
    ((closeConditional inside x).map (·.line)).Sublist ((inside.reverse ++ [x]).map (·.line)) := by
  unfold closeConditional
  cases inside.reverse with
  | nil => exact .refl _
  | cons first rest =>
    simp only [List.cons_append, List.map_cons, List.map_append, List.map_nil, conditional]
    exact (List.sublist_append_right _ _).cons_cons _

/-- Conditional code is put together on the line of its first lexeme. -/
theorem lines_joinConditional (depth : Nat) (inside xs : List Lexeme) :
    ((joinConditional depth inside xs).map (·.line)).Sublist
      ((inside.reverse ++ xs).map (·.line)) := by
  fun_induction joinConditional depth inside xs with
  | case1 => simp
  | case2 depth inside x xs hempty _ ih =>
    obtain rfl := List.isEmpty_iff.mp hempty
    exact ih
  | case3 depth inside x xs hempty _ ih =>
    obtain rfl := List.isEmpty_iff.mp hempty
    exact ih.cons_cons _
  | case4 depth inside x xs _ _ ih => simpa using ih
  | case5 inside x xs _ _ _ ih =>
    have hsplit : inside.reverse ++ x :: xs = (inside.reverse ++ [x]) ++ xs := by simp
    rw [hsplit, List.map_append, List.map_append]
    exact (lines_closeConditional inside x).append ih
  | case6 inside x xs _ _ depth _ ih => simpa using ih
  | case7 depth inside x xs _ _ _ ih => simpa using ih

/-! ## Tokens -/

/-- What is carried through a list is carried from the start or taken from an item, if each step
keeps it or takes it from its item. -/
theorem mem_of_foldl {α β : Type} {f : Option β → α → Option β} {g : α → β}
    (hf : ∀ carried a b, f carried a = some b → carried = some b ∨ b = g a) {as : List α}
    {carried : Option β} {b : β} (h : as.foldl f carried = some b) :
    carried = some b ∨ b ∈ as.map g := by
  induction as generalizing carried with
  | nil => exact .inl h
  | cons a as ih =>
    rw [List.foldl_cons] at h
    rw [List.map_cons, List.mem_cons]
    rcases ih h with hstep | hmem
    · exact (hf carried a b hstep).imp_right .inl
    · exact .inr (.inr hmem)

/-- The line of a token is that of a lexeme before it, or its own. -/
theorem line_token (t : Token) :
    [t.line].Sublist ((t.before ++ [t.lexeme]).map (·.line)) := by
  rw [List.singleton_sublist, List.map_append, List.mem_append]
  unfold Token.line
  simp only
  generalize hfold : t.before.foldl _ none = lead
  cases lead with
  | none => exact .inr List.mem_cons_self
  | some line =>
    refine .inl
      ((mem_of_foldl (fun carried x line h => ?_) hfold).resolve_left (fun h => nomatch h))
    split at h
    · cases carried with
      | none => exact .inr (Option.some.inj h).symm
      | some l => exact .inl h
    · cases h
    · exact .inl h

theorem lines_tokensFrom (brackets : List (List Char)) (before xs : List Lexeme) :
    ((tokensFrom brackets before xs).map (·.line)).Sublist
      ((before.reverse ++ xs).map (·.line)) := by
  induction xs generalizing brackets before with
  | nil => exact List.nil_sublist _
  | cons x xs ih =>
    have hsplit : before.reverse ++ x :: xs = (before.reverse ++ [x]) ++ xs := by simp
    rw [tokensFrom]
    split
    · rw [hsplit, List.map_append, List.map_cons]
      exact (line_token ⟨before.reverse, x⟩).append (ih _ [])
    · rw [hsplit, ← List.reverse_cons]
      exact ih brackets (x :: before)

/-- The lines of tokens never fall. -/
theorem lines_tokens (source : List Char) : ((tokens source).map (·.line)).Pairwise (· ≤ ·) :=
  (lines_lexemes source).sublist
    ((lines_tokensFrom [] [] _).trans (lines_joinConditional 0 [] (lexemes source)))

theorem flatten_trees (source : List Char) : flatten (trees source) = tokens source :=
  flatten_grow [] [] (tokens source)

/-! ## Members -/

mutual
/-- The lines on which the types of a member begin, in source order. -/
def Member.lines : Member → List Nat
  | .block _ ms => linesOf ms
  | .type head ms => head.line :: linesOf ms
  | _ => []
/-- The lines on which the types of members begin, in source order. -/
def linesOf : List Member → List Nat
  | [] => []
  | m :: ms => m.lines ++ linesOf ms
end

/-- The lines of types, in their order. -/
def typeLines (ds : List TypeDeclaration) : List Int := ds.map (·.line)

theorem typeLines_append (ds es : List TypeDeclaration) :
    typeLines (ds ++ es) = typeLines ds ++ typeLines es := List.map_append

section Placed

variable {path scope : String}

mutual
theorem lines_placeType (m : Member) (containing : List String) :
    (typeLines (placeType path scope containing m)).Sublist (m.lines.map Nat.cast) := by
  cases m with
  | type head ms =>
    exact (lines_placeTypes ms (containing ++ [head.name])).cons_cons (head.line : Int)
  | importing | block | fileScoped | field => exact List.nil_sublist _
theorem lines_placeTypes (ms : List Member) (containing : List String) :
    (typeLines (placeTypes path scope containing ms)).Sublist ((linesOf ms).map Nat.cast) := by
  cases ms with
  | nil => exact .refl _
  | cons m ms =>
    rw [placeTypes, typeLines_append, linesOf, List.map_append]
    exact (lines_placeType m containing).append (lines_placeTypes ms containing)
end

end Placed

mutual
theorem lines_placeMember (path outer current : String) (m : Member) :
    (typeLines (placeMember path outer current m).types).Sublist (m.lines.map Nat.cast) := by
  cases m with
  | block name ms => exact lines_placeMembers path _ _ ms
  | type head ms => exact lines_placeType (.type head ms) []
  | importing | fileScoped | field => exact List.nil_sublist _
/-- The types that members declare keep the lines on which they begin. -/
theorem lines_placeMembers (path outer current : String) (ms : List Member) :
    (typeLines (placeMembers path outer current ms).types).Sublist ((linesOf ms).map Nat.cast) := by
  cases ms with
  | nil => exact .refl _
  | cons m ms =>
    rw [placeMembers, Placed.append_def, typeLines_append, linesOf, List.map_append]
    exact (lines_placeMember path outer current m).append (lines_placeMembers path outer _ ms)
end

/-! ## Runs -/

/-- The types that stand in a tree begin behind its first token. -/
def Item.Follows (i : Item) : Prop :=
  (linesOf i.2).Sublist (i.1.tokens.tail.map (·.line))

/-- The tokens of a run. -/
def runTokens (run : List Item) : List Token := run.flatMap (·.1.tokens)

theorem tokens_eq (t : Tree) : t.tokens = t.first :: t.tokens.tail := by
  cases t with
  | leaf t => rfl
  | group o inner c => rfl

theorem runTokens_map (run : List Item) : runTokens run = flatten (run.map (·.1)) := by
  induction run with
  | nil => rfl
  | cons i run ih =>
    rw [List.map_cons, flatten, ← ih]
    rfl

theorem line_of_readType {modifiers : List String} {line : Nat} {ts : List Tree} {head : TypeHead}
    (h : readType modifiers line ts = some head) : head.line = line ∧ ts ≠ [] := by
  unfold readType at h
  cases hkind : takeKind ts with
  | none => rw [hkind] at h; cases h
  | some x =>
    obtain ⟨kind, rest⟩ := x
    rw [hkind] at h
    obtain ⟨⟨kind', rest'⟩, -, hbind⟩ := Option.bind_eq_some_iff.mp h
    obtain ⟨name, -, hhead⟩ := Option.bind_eq_some_iff.mp hbind
    refine ⟨?_, ?_⟩
    · rw [← Option.some.inj hhead]
    · rintro rfl
      cases hkind

/-- A run that is a type begins at a token, and its body is the one of its run. -/
theorem readRun_cases {run : List Item} {m : Member} (h : readRun run = some m) :
    m.lines = [] ∨ (∃ members, runBody run = some members ∧ m.lines = linesOf members) ∨
      ∃ t ts, (run.map (·.1)).dropWhile isGlobalList = t :: ts ∧
        m.lines = t.first.line :: linesOf ((runBody run).getD []) := by
  unfold readRun at h
  simp only at h
  split at h
  · obtain rfl := Option.some.inj h
    exact .inl rfl
  · split at h
    · rename_i members hbody
      obtain rfl := Option.some.inj h
      exact .inr (.inl ⟨members, hbody, rfl⟩)
    · obtain rfl := Option.some.inj h
      exact .inl rfl
  · rename_i head _ _ hhead
    obtain rfl := Option.some.inj h
    obtain ⟨hline, hne⟩ := line_of_readType hhead
    right; right
    cases hts : (run.map (·.1)).dropWhile isGlobalList with
    | nil =>
      rw [hts] at hne
      exact absurd rfl hne
    | cons t ts =>
      rw [hts] at hline
      refine ⟨t, ts, rfl, ?_⟩
      show head.line :: _ = _
      rw [hline]
      rfl
  · obtain ⟨f, -, rfl⟩ := Option.map_eq_some_iff.mp h
    exact .inl rfl

theorem lines_runBody {run : List Item} (hrun : ∀ i ∈ run, i.Follows) {members : List Member}
    (h : runBody run = some members) :
    (linesOf members).Sublist ((runTokens run).map (·.line)) := by
  obtain ⟨i, hfind, rfl⟩ := Option.map_eq_some_iff.mp h
  have hmem := List.mem_of_find?_eq_some hfind
  refine (hrun i hmem).trans (List.Sublist.map _ ?_)
  exact (List.tail_sublist _).trans (List.sublist_flatten_of_mem (List.mem_map_of_mem hmem))

/-- A list of attributes for the whole program is no body. -/
theorem isGroup_of_isGlobalList {t : Tree} (h : isGlobalList t = true) : t.isGroup '{' = false := by
  have hgroup : t.isGroup '[' = true := (Bool.and_eq_true _ _ ▸ h : _ ∧ _).1
  cases t with
  | leaf t => cases hgroup
  | group o inner c =>
    have ho : o.lexeme.text = ['['] := of_decide_eq_true hgroup
    simp [Tree.isGroup, ho]

/-- What stands before the first token of a declaration is no body. -/
theorem runBody_dropWhile (run : List Item) :
    runBody (run.dropWhile fun i => isGlobalList i.1) = runBody run := by
  induction run with
  | nil => rfl
  | cons i run ih =>
    rw [List.dropWhile_cons]
    split
    next hglobal =>
      rw [ih]
      unfold runBody
      rw [List.find?_cons, isGroup_of_isGlobalList hglobal]
    next => rfl

/-- The body of a run stands behind its first token. -/
theorem lines_body {i : Item} {rest : List Item} (hrun : ∀ j ∈ i :: rest, j.Follows) :
    (linesOf ((runBody (i :: rest)).getD [])).Sublist
      ((i.1.tokens.tail ++ runTokens rest).map (·.line)) := by
  obtain ⟨hi, hrest⟩ := List.forall_mem_cons.mp hrun
  by_cases hgroup : i.1.isGroup '{' = true
  · have hbody : runBody (i :: rest) = some i.2 := by
      rw [runBody, List.find?_cons, hgroup]
      rfl
    rw [hbody]
    exact hi.trans ((List.sublist_append_left _ _).map _)
  · have hbody : runBody (i :: rest) = runBody rest := by
      rw [runBody, List.find?_cons, eq_false_of_ne_true hgroup]
      rfl
    rw [hbody]
    cases hmembers : runBody rest with
    | none => exact List.nil_sublist _
    | some members =>
      exact (lines_runBody hrest hmembers).trans ((List.sublist_append_right _ _).map _)

/-- **The types of a run begin at its tokens**, in their order. -/
theorem lines_readRun {run : List Item} (hrun : ∀ i ∈ run, i.Follows) {m : Member}
    (h : readRun run = some m) : m.lines.Sublist ((runTokens run).map (·.line)) := by
  rcases readRun_cases h with hnil | ⟨members, hbody, hlines⟩ | ⟨t, ts, hts, hlines⟩
  · rw [hnil]
    exact List.nil_sublist _
  · rw [hlines]
    exact lines_runBody hrun hbody
  · have hdrop : (run.dropWhile fun i => isGlobalList i.1).Sublist run := List.dropWhile_sublist _
    rw [hlines, ← runBody_dropWhile]
    refine List.Sublist.trans ?_ ((hdrop.flatMap (·.1.tokens)).map _)
    have hts : (run.dropWhile fun i => isGlobalList i.1).map (·.1) = t :: ts := by
      rw [← hts, List.dropWhile_map]
      rfl
    cases hrest : run.dropWhile fun i => isGlobalList i.1 with
    | nil =>
      rw [hrest] at hts
      cases hts
    | cons i rest =>
      rw [hrest, List.map_cons] at hts
      rw [hrest] at hdrop
      obtain ⟨rfl, -⟩ := List.cons.inj hts
      rw [List.flatMap_cons, tokens_eq, List.cons_append, List.map_cons]
      exact (lines_body fun j hj => hrun j (hdrop.subset hj)).cons_cons _

/-- The types of runs begin at their tokens, in their order. -/
theorem lines_readRuns {rs : List (List Item)} (hrs : ∀ run ∈ rs, ∀ i ∈ run, i.Follows) :
    (linesOf (rs.filterMap readRun)).Sublist ((runTokens rs.flatten).map (·.line)) := by
  induction rs with
  | nil => exact .refl _
  | cons run rs ih =>
    obtain ⟨hrun, hrs⟩ := List.forall_mem_cons.mp hrs
    rw [List.flatten_cons, runTokens, List.flatMap_append, List.map_append, List.filterMap_cons]
    cases hm : readRun run with
    | none => exact (ih hrs).trans (List.sublist_append_right _ _)
    | some m => exact (lines_readRun hrun hm).append (ih hrs)

/-- The trees of items. -/
theorem itemsOf_map (ts : List Tree) : (itemsOf ts).map (·.1) = ts := by
  induction ts with
  | nil => rfl
  | cons t ts ih => rw [itemsOf, List.map_cons, ih]

theorem lines_items {ts : List Tree} (h : ∀ i ∈ itemsOf ts, i.Follows) :
    (linesOf ((runs (itemsOf ts)).filterMap readRun)).Sublist ((flatten ts).map (·.line)) := by
  have hrs : ∀ run ∈ runs (itemsOf ts), ∀ i ∈ run, i.Follows := fun run hrun i hi =>
    h i (flatten_runs (itemsOf ts) ▸ List.mem_flatten_of_mem hrun hi)
  have hlines := lines_readRuns hrs
  rwa [flatten_runs, runTokens_map, itemsOf_map] at hlines

mutual
theorem lines_members (t : Tree) : Item.Follows (t, t.members) := by
  cases t with
  | leaf t => exact List.nil_sublist _
  | group o inner c =>
    exact (lines_items (follows_itemsOf inner)).trans ((List.sublist_append_left _ _).map _)
theorem follows_itemsOf (ts : List Tree) : ∀ i ∈ itemsOf ts, i.Follows := by
  cases ts with
  | nil => exact fun i hi => absurd hi List.not_mem_nil
  | cons t ts =>
    intro i hi
    rcases List.mem_cons.mp hi with rfl | hi
    · exact lines_members t
    · exact follows_itemsOf ts i hi
end

/-- The types of a unit begin at its tokens, in their order. -/
theorem lines_readUnit (ts : List Tree) :
    (linesOf (readUnit ts)).Sublist ((flatten ts).map (·.line)) := lines_items (follows_itemsOf ts)

/-- **The lines of the declared types never fall**, whatever the source. -/
theorem lines_parseSource (path source : String) :
    (parseSource path source).2.Pairwise fun a b => a.line ≤ b.line := by
  have hsub := (lines_placeMembers path "" "" (readUnit (trees source.toList))).trans
    ((lines_readUnit (trees source.toList)).map Nat.cast)
  rw [flatten_trees] at hsub
  have hsorted : (((tokens source.toList).map (·.line)).map (Nat.cast : Nat → Int)).Pairwise
      (· ≤ ·) :=
    List.pairwise_map.mpr ((lines_tokens source.toList).imp Int.ofNat_le.mpr)
  exact List.pairwise_map.mp (hsorted.sublist hsub)

end FieldWiring.CSharp
