import FieldWiring.Text.Dotted

/-!
# Leading names

The leading names of a dotted name are those that it begins with, where a beginning ends at a dot or
at the end of the name.

Results:
* `mem_beginnings`: the beginnings of a list.
* `mem_leadingNames`: a leading name with a dot behind it begins the name with a dot behind it.
* `mem_leadingNames_trans`: the leading names of a leading name are leading names.
* `dotted_concat`: a further segment qualifies a name by what stands before it.
-/

namespace FieldWiring

theorem mem_beginnings {α : Type} {b l : List α} : b ∈ beginnings l ↔ b ≠ [] ∧ b <+: l := by
  induction l generalizing b with
  | nil =>
    rw [beginnings, List.prefix_nil]
    exact ⟨fun h => absurd h List.not_mem_nil, fun h => absurd h.2 h.1⟩
  | cons a l ih =>
    rw [beginnings, List.mem_cons, List.mem_map]
    constructor
    · rintro (rfl | ⟨b', hb', rfl⟩)
      · exact ⟨List.cons_ne_nil _ _, List.prefix_append [a] l⟩
      · exact ⟨List.cons_ne_nil _ _, (List.prefix_cons_inj a).mpr (ih.mp hb').2⟩
    · rintro ⟨hne, hb⟩
      cases b with
      | nil => exact absurd rfl hne
      | cons a' b =>
        obtain ⟨rfl, hrest⟩ := List.cons_prefix_cons.mp hb
        by_cases hnil : b = []
        · exact .inl (hnil ▸ rfl)
        · exact .inr ⟨b, ih.mpr ⟨hnil, hrest⟩, rfl⟩

namespace Text

/-- A text without a cut is its only piece. -/
theorem pieces_of_none {p : Char → Bool} :
    ∀ {s : List Char}, (∀ c ∈ s, p c = false) → pieces p s = [s]
  | [], _ => rfl
  | c :: cs, h => by
    have ih := pieces_of_none fun d hd => h d (List.mem_cons_of_mem c hd)
    rw [pieces, h c List.mem_cons_self, ih]
    rfl

/-- At a cut, the pieces are those before it and those behind it. -/
theorem pieces_append_cut {p : Char → Bool} {c : Char} (hc : p c = true) (s t : List Char) :
    pieces p (s ++ c :: t) = pieces p s ++ pieces p t := by
  induction s with
  | nil =>
    rw [List.nil_append]
    simp only [pieces, hc, if_true, List.singleton_append]
  | cons d ds ih =>
    rw [List.cons_append, pieces, pieces, ih]
    split
    · rfl
    · rcases hds : pieces p ds with _ | ⟨w, ws⟩
      · exact absurd hds (pieces_ne_nil p ds)
      · rfl

/-- A text has one piece more than cuts. -/
theorem length_pieces (p : Char → Bool) (s : List Char) : (pieces p s).length = s.countP p + 1 := by
  induction s with
  | nil => rfl
  | cons c cs ih =>
    by_cases hc : p c = true
    · rw [pieces, if_pos hc, List.length_cons, ih, List.countP_cons_of_pos hc]
    · rw [pieces, if_neg hc, List.countP_cons_of_neg hc, ← ih]
      rcases hcs : pieces p cs with _ | ⟨w, ws⟩
      · exact absurd hcs (pieces_ne_nil p cs)
      · rfl

theorem intercalate_append {as bs : List (List Char)} (ha : as ≠ []) (hb : bs ≠ []) (c : Char) :
    [c].intercalate (as ++ bs) = [c].intercalate as ++ c :: [c].intercalate bs := by
  induction as with
  | nil => exact absurd rfl ha
  | cons w as ih =>
    by_cases has : as = []
    · subst has
      rw [List.singleton_append, List.intercalate_cons_of_ne_nil hb, List.intercalate_singleton,
        List.append_assoc]
      rfl
    · have hboth : as ++ bs ≠ [] := List.append_ne_nil_of_left_ne_nil has bs
      rw [List.cons_append, List.intercalate_cons_of_ne_nil has,
        List.intercalate_cons_of_ne_nil hboth, ih has, List.append_assoc (w ++ [c])]

/-- The beginnings of a text that end at a cut or at its end. -/
theorem mem_beginnings_pieces (c : Char) (k s : List Char) :
    (∃ b ∈ beginnings (pieces (· == c) s), [c].intercalate b = k) ↔ k ++ [c] <+: s ++ [c] := by
  constructor
  · rintro ⟨b, hb, rfl⟩
    obtain ⟨hne, rest, hrest⟩ := mem_beginnings.mp hb
    have hs := intercalate_pieces c s
    rw [← hrest] at hs
    cases rest with
    | nil =>
      rw [List.append_nil] at hs
      exact hs ▸ List.prefix_rfl
    | cons r rest =>
      rw [intercalate_append hne (List.cons_ne_nil _ _)] at hs
      rw [← hs, List.append_assoc, List.prefix_append_right_inj]
      exact List.prefix_append [c] _
  · rintro ⟨rest, h⟩
    have hc : (c == c) = true := beq_self_eq_true c
    rcases List.eq_nil_or_concat rest with rfl | ⟨t, d, rfl⟩
    · -- the whole text
      rw [List.append_nil] at h
      obtain rfl := (List.append_inj' h rfl).1
      exact ⟨_, mem_beginnings.mpr ⟨pieces_ne_nil _ _, List.prefix_rfl⟩, intercalate_pieces c k⟩
    · rw [List.concat_eq_append, ← List.append_assoc] at h
      obtain rfl := (List.append_inj' h rfl).1
      refine ⟨pieces (· == c) k, mem_beginnings.mpr ⟨pieces_ne_nil _ _, ?_⟩, intercalate_pieces c k⟩
      rw [List.append_assoc, List.singleton_append, pieces_append_cut (p := (· == c)) hc]
      exact List.prefix_append _ _

end Text

/-- A leading name with a dot behind it begins the name with a dot behind it. -/
theorem mem_leadingNames {k n : String} :
    k ∈ leadingNames n ↔ n ≠ "" ∧ k.toList ++ ['.'] <+: n.toList ++ ['.'] := by
  have hdot : ".".toList = ['.'] := String.toList_ofList
  unfold leadingNames segments
  by_cases hn : n = ""
  · rw [if_pos hn]
    exact ⟨fun h => absurd h List.not_mem_nil, fun h => absurd hn h.1⟩
  · rw [if_neg hn, and_iff_right hn, ← Text.mem_beginnings_pieces, List.mem_map]
    unfold Text.splitAt dotted
    constructor
    · rintro ⟨b, hb, rfl⟩
      obtain ⟨hne, hb⟩ := mem_beginnings.mp hb
      obtain ⟨b', hb', rfl⟩ := List.prefix_map_iff.mp hb
      refine ⟨b', mem_beginnings.mpr ⟨fun h => hne (h ▸ rfl), hb'⟩, ?_⟩
      rw [String.toList_intercalate, List.map_map, hdot]
      simp
    · rintro ⟨b, hb, hk⟩
      obtain ⟨hne, hb⟩ := mem_beginnings.mp hb
      refine ⟨b.map String.ofList, mem_beginnings.mpr ⟨?_, hb.map _⟩, ?_⟩
      · exact fun h => hne (List.map_eq_nil_iff.mp h)
      · rw [← String.toList_inj, String.toList_intercalate, List.map_map, hdot, ← hk]
        simp

/-- The leading names of a leading name are leading names. -/
theorem mem_leadingNames_trans {k n m : String} (hk : k ∈ leadingNames n)
    (hn : n ∈ leadingNames m) : k ∈ leadingNames m := by
  rw [mem_leadingNames] at hk hn ⊢
  exact ⟨hn.1, hk.2.trans hn.2⟩

/-! ## Names put together -/

theorem dotted_ne_empty (a b : String) (rest : List String) : dotted (a :: b :: rest) ≠ "" := by
  unfold dotted
  rw [String.intercalate_cons_cons]
  intro h
  have hlen := congrArg String.length h
  have hdot : ".".length = 1 := by decide
  simp only [String.length_append, String.length_empty] at hlen
  omega

/-- Only the root has no name, if its segments have names. -/
theorem dotted_eq_empty {names : List String} (h : ∀ name ∈ names, name ≠ "") :
    dotted names = "" ↔ names = [] := by
  cases names with
  | nil => simp [dotted]
  | cons a rest =>
    refine iff_of_false (fun hdotted => ?_) (List.cons_ne_nil _ _)
    cases rest with
    | nil =>
      rw [dotted, String.intercalate_singleton] at hdotted
      exact h a List.mem_cons_self hdotted
    | cons b rest => exact dotted_ne_empty a b rest hdotted

/-- A further segment qualifies a name by what stands before it. -/
theorem dotted_concat {names : List String} (h : ∀ name ∈ names, name ≠ "") (name : String) :
    dotted (names ++ [name]) = qualify (dotted names) name := by
  induction names with
  | nil => simp [dotted, qualify, String.intercalate_singleton]
  | cons a rest ih =>
    have hrest : ∀ name ∈ rest, name ≠ "" := fun b hb => h b (List.mem_cons_of_mem a hb)
    have ih := ih hrest
    unfold qualify at ih ⊢
    rw [if_neg (fun heq => List.cons_ne_nil _ _ ((dotted_eq_empty h).mp heq))]
    cases rest with
    | nil => simp [dotted, String.intercalate_cons_cons, String.intercalate_singleton]
    | cons b rest =>
      rw [if_neg (fun heq => List.cons_ne_nil _ _ ((dotted_eq_empty hrest).mp heq))] at ih
      unfold dotted at ih ⊢
      rw [List.cons_append, List.cons_append, String.intercalate_cons_cons, ← List.cons_append, ih,
        String.intercalate_cons_cons]
      simp only [String.append_assoc]

end FieldWiring
