import FieldWiring.Proofs.Files.Acts
import Mathlib.Data.List.Induction

/-!
# Trees in which every entry stands in a directory

In a file system nothing stands where there is no directory, and every entry has a name. A path that
leads to an entry without stepping back leads through directories only, so in a tree with more
directories it is followed in the same way.

Results:
* `Grounded.above`: what stands above an entry is a directory.
* `Grounded.follow_eq`: names that lead to an entry are followed alike in a larger tree.
* `Grounded.reach_of_file`: a file that a larger tree reaches is reached in this one, if it is
  there.
* `IsProper.find?_of_listed`: a listed file stands where it is listed.
* `addDirectory_last`: a directory is made in a directory, under the last name of its path.
* `widened_ensureDirectories`: only directories that a path names are made for it.
-/

namespace FieldWiring

namespace FileTree

/-- Every entry stands in a directory. -/
def Grounded (t : FileTree) : Prop :=
  ∀ l s e, t.find? (l ++ [s]) = some e → t.find? l = some .directory

/-- A tree as a file system has it: every location is listed once, and every entry has a name and
stands in a directory. -/
structure IsProper (t : FileTree) : Prop where
  distinct : (t.entries.map (·.1)).Nodup
  names : ∀ l e, t.find? l = some e → ∀ s ∈ l, IsListedName s
  grounded : t.Grounded

/-- What stands below the root is in the table. -/
theorem mem_entries_of_find? {t : FileTree} {l : Location} {e : Entry} (hl : l ≠ [])
    (h : t.find? l = some e) : (l, e) ∈ t.entries := by
  unfold find? at h
  rw [if_neg hl] at h
  obtain ⟨before, after, hentries, -⟩ := List.lookup_eq_some_iff.mp h
  rw [hentries]
  exact List.mem_append_right before List.mem_cons_self

/-- A tree is told to be proper by its table. -/
theorem IsProper.of_entries {t : FileTree} (hd : (t.entries.map (·.1)).Nodup)
    (h : ∀ x ∈ t.entries, (∀ s ∈ x.1, IsListedName s) ∧ t.find? x.1.dropLast = some .directory) :
    t.IsProper := by
  refine ⟨hd, ?_, ?_⟩
  · intro l e he s hs
    exact (h _ (mem_entries_of_find? (List.ne_nil_of_mem hs) he)).1 s hs
  · intro l s e he
    have hne : l ++ [s] ≠ [] := List.append_ne_nil_of_right_ne_nil l (List.cons_ne_nil s [])
    have hlast := (h _ (mem_entries_of_find? hne he)).2
    rwa [List.dropLast_concat] at hlast

section Following

variable {t u : FileTree} {here l : Location} {p : Path} {ps : List String} {e : Entry}

/-- What stands above an entry is a directory. -/
theorem Grounded.above (h : t.Grounded) {k : Location} (hk : k ≠ [])
    (he : t.find? (l ++ k) = some e) : t.find? l = some .directory := by
  induction k using List.reverseRecOn generalizing e with
  | nil => exact absurd rfl hk
  | append_singleton k s ih =>
    rw [← List.append_assoc] at he
    have hdir := h (l ++ k) s e he
    by_cases hnil : k = []
    · rwa [hnil, List.append_nil] at hdir
    · exact ih hnil hdir

theorem foldl_along (h : ".." ∉ ps) :
    ps.foldl Path.along l = l ++ ps.map FileName.onDisk := by
  induction ps generalizing l with
  | nil => exact (List.append_nil l).symm
  | cons p ps ih =>
    rw [List.mem_cons, not_or] at h
    rw [List.foldl_cons, ih h.2, Path.along, if_neg (Ne.symm h.1), List.append_assoc]
    rfl

/-- Names that lead through directories, without stepping back, lead along them unless one is too
long. -/
theorem follow_through (hdots : ".." ∉ ps)
    (hdirs : ∀ as bs, ps = as ++ bs → bs ≠ [] →
      t.find? (l ++ as.map FileName.onDisk) = some .directory) :
    t.follow l ps = if ps.any FileName.isTooLong
      then .error .nameTooLong else .ok (l ++ ps.map FileName.onDisk) := by
  induction ps generalizing l with
  | nil =>
    rw [List.map_nil, List.append_nil]
    rfl
  | cons p ps ih =>
    rw [List.mem_cons, not_or] at hdots
    have hdir : t.find? l = some .directory := by
      have := hdirs [] (p :: ps) rfl (List.cons_ne_nil _ _)
      rwa [List.map_nil, List.append_nil] at this
    have htail : ∀ as bs, ps = as ++ bs → bs ≠ [] →
        t.find? ((l ++ [FileName.onDisk p]) ++ as.map FileName.onDisk) = some .directory := by
      intro as bs heq hbs
      rw [List.append_assoc]
      exact hdirs (p :: as) bs (congrArg (p :: ·) heq) hbs
    rw [follow, hdir, List.any_cons]
    cases FileName.isTooLong p with
    | true => rfl
    | false =>
      rw [Path.along, if_neg (Ne.symm hdots.1)]
      simp only [ih hdots.2 htail, Bool.false_or, List.append_assoc, List.map_cons,
        List.singleton_append, Bool.false_eq_true, if_false]

/-- Names that lead to an entry without stepping back are followed alike in a larger tree. -/
theorem Grounded.follow_eq (h : t.Grounded) (hd : HasDirectories t u) (hdots : ".." ∉ ps)
    (he : t.find? (l ++ ps.map FileName.onDisk) = some e) : u.follow l ps = t.follow l ps := by
  have hdirs : ∀ as bs, ps = as ++ bs → bs ≠ [] →
      t.find? (l ++ as.map FileName.onDisk) = some .directory := by
    rintro as bs rfl hbs
    rw [List.map_append, ← List.append_assoc] at he
    exact h.above (fun hnil => hbs (List.map_eq_nil_iff.mp hnil)) he
  rw [follow_through hdots hdirs,
    follow_through hdots fun as bs heq hbs => hd _ (hdirs as bs heq hbs)]

theorem reach_congr (h : u.follow (start here p) p.parts = t.follow (start here p) p.parts) :
    u.reach here p = t.reach here p := by
  unfold start at h
  unfold reach
  rw [h]

/-- Every two dots of a path stand behind names that can be followed already. -/
def StepsBackWithin (t : FileTree) (here : Location) (p : Path) : Prop :=
  ∃ as bs k, p.parts = as ++ bs ∧ ".." ∉ bs ∧ t.follow (start here p) as = .ok k

/-- A path that leads further. -/
theorem StepsBackWithin.extend {q : Path} (h : StepsBackWithin t here p)
    (hstart : q.start = p.start)
    {qs : List String} (hparts : q.parts = p.parts ++ qs) (hdots : ".." ∉ qs) :
    StepsBackWithin t here q := by
  obtain ⟨as, bs, k, hp, hbs, hk⟩ := h
  refine ⟨as, bs ++ qs, k, by rw [hparts, hp, List.append_assoc], ?_, ?_⟩
  · rw [List.mem_append, not_or]
    exact ⟨hbs, hdots⟩
  · rw [← hk]
    unfold start Path.isAbsolute
    rw [hstart]

/-- A file that a larger tree reaches is reached in this one, if it is there. -/
theorem Grounded.reach_of_file (h : t.Grounded) (hd : HasDirectories t u)
    (hback : StepsBackWithin t here p) (hu : u.reach here p = .ok l) (he : t.find? l = some e) :
    t.reach here p = .ok l := by
  obtain ⟨as, bs, k, hp, hbs, hk⟩ := hback
  rw [← hu]
  refine (reach_congr ?_).symm
  have hl : l = k ++ bs.map FileName.onDisk := by
    have hfollow := (reach_ok_iff.mp hu).2.2.2
    rw [hp, follow_append, follow_mono hd hk] at hfollow
    rw [follow_locate hfollow, foldl_along hbs]
  rw [hp, follow_append, follow_append, follow_mono hd hk, hk]
  exact h.follow_eq hd hbs (hl ▸ he)

/-- An entry of a directory that is there is reached alike in a larger tree. -/
theorem reach_child (hd : HasDirectories t u) {q : Path} {s : String}
    (hr : t.reach here p = .ok l) (hdir : t.find? l = some .directory)
    (hstart : q.start = p.start) (hparts : q.parts = p.parts ++ [s]) :
    u.reach here q = t.reach here q := by
  have hsame : start here q = start here p := by
    unfold start Path.isAbsolute
    rw [hstart]
  have hfollow := (reach_ok_iff.mp hr).2.2.2
  refine reach_congr ?_
  rw [hsame, hparts, follow_concat hfollow hdir, follow_concat (follow_mono hd hfollow) (hd l hdir)]

end Following

/-! ## Making directories -/

section Making

variable {t u : FileTree} {here : Location} {p : Path}

/-- A directory is made in a directory, and its name is the last part of its path. -/
theorem addDirectory_last (hg : t.Grounded) (hhere : t.find? here = some .directory)
    (h : t.addDirectory here p = .ok u) :
    ∃ k s, s ∈ p.parts ∧ t.find? k = some .directory ∧
      t.find? (k ++ [FileName.onDisk s]) = none ∧
        u = t.put (k ++ [FileName.onDisk s]) .directory := by
  obtain ⟨l, hl, hnone, rfl⟩ := addDirectory_ok_iff.mp h
  have hfollow := (reach_ok_iff.mp hl).2.2.2
  rcases List.eq_nil_or_concat p.parts with hnil | ⟨qs, s, hparts⟩
  · -- the empty path leads to a directory that is there
    rw [hnil] at hfollow
    obtain rfl := Except.ok.inj hfollow
    have hdir : t.find? (start here p) = some .directory := by
      unfold start
      split
      · rfl
      · exact hhere
    rw [hdir] at hnone
    cases hnone
  · rw [hparts, List.concat_eq_append] at hfollow
    obtain ⟨k, -, hk, -, rfl⟩ := follow_concat_ok_iff.mp hfollow
    unfold Path.along at hnone ⊢
    by_cases hs : s = ".."
    · -- what stands above a directory is there already
      rw [if_pos hs] at hnone
      rcases List.eq_nil_or_concat k with rfl | ⟨k', x, rfl⟩
      · cases hnone
      · rw [List.concat_eq_append] at hk hnone
        rw [List.dropLast_concat, hg k' x _ hk] at hnone
        cases hnone
    · rw [if_neg hs] at hnone ⊢
      refine ⟨k, s, ?_, hk, hnone, rfl⟩
      rw [hparts, List.concat_eq_append]
      exact List.mem_append_right qs List.mem_cons_self

theorem grounded_addDirectory (hg : t.Grounded) (hhere : t.find? here = some .directory)
    (h : t.addDirectory here p = .ok u) : u.Grounded := by
  have hforth := hasDirectories_addDirectory h
  obtain ⟨k, s, -, hk, hnone, rfl⟩ := addDirectory_last hg hhere h
  intro l x e he
  by_cases hlx : l ++ [x] = k ++ [FileName.onDisk s]
  · have hlk : l = k := (List.append_inj' hlx rfl).1
    exact hforth _ (hlk ▸ hk)
  · rw [find?_put_of_ne hlx] at he
    exact hforth _ (hg l x e he)

/-- The tree `u` is `t` with directories made that the path names. -/
structure Widened (here : Location) (p : Path) (t u : FileTree) : Prop where
  files : ∀ k, u.fileAt k = t.fileAt k
  forth : HasDirectories t u
  back : ∀ k, u.find? k = some .directory → t.find? k = some .directory ∨
    ∃ q : Path, q.start = p.start ∧ q.parts <+: p.parts ∧ k = q.locate here

theorem Widened.refl (here : Location) (p : Path) (t : FileTree) : Widened here p t t :=
  ⟨fun _ => rfl, .refl t, fun _ h => .inl h⟩

theorem Widened.trans {v : FileTree} (h : Widened here p t u) (h' : Widened here p u v) :
    Widened here p t v := by
  refine ⟨fun k => (h'.files k).trans (h.files k), h.forth.trans h'.forth, fun k hk => ?_⟩
  rcases h'.back k hk with hu | hmade
  · exact h.back k hu
  · exact .inr hmade

/-- Only directories that the path names are made for it, even if that fails on the way. -/
theorem widened_ensureDirectories (here : Location) (p : Path) (t : FileTree) :
    Widened here p t ((FileAction.ensureDirectories here p).leaves t) := by
  refine FileAction.ensureDirectories_leaves (.refl here p) (fun _ _ _ => .trans) ?_ t
  intro q t u hstart hparts h
  refine ⟨fileAt_addDirectory h, hasDirectories_addDirectory h, fun k hk => ?_⟩
  obtain ⟨l, hl, -, rfl⟩ := addDirectory_ok_iff.mp h
  by_cases hkl : k = l
  · exact .inr ⟨q, hstart, hparts, hkl.trans (reach_locate hl)⟩
  · rw [find?_put_of_ne hkl] at hk
    exact .inl hk

theorem grounded_ensureDirectories (hg : t.Grounded) (hhere : t.find? here = some .directory)
    (p : Path) : ((FileAction.ensureDirectories here p).leaves t).Grounded := by
  have hall : t.Grounded → t.find? here = some .directory →
      ((FileAction.ensureDirectories here p).leaves t).Grounded ∧
        ((FileAction.ensureDirectories here p).leaves t).find? here = some .directory := by
    refine FileAction.ensureDirectories_leaves
      (R := fun t u => t.Grounded → t.find? here = some .directory →
        u.Grounded ∧ u.find? here = some .directory) (fun _ hg hh => ⟨hg, hh⟩) ?_ ?_ t
    · intro t u v htu huv hg hh
      obtain ⟨hgu, hhu⟩ := htu hg hh
      exact huv hgu hhu
    · intro q t u _ _ h hg hh
      exact ⟨grounded_addDirectory hg hh h, hasDirectories_addDirectory h _ hh⟩
  exact (hall hg hhere).1

/-- What stands above a directory is a directory. -/
theorem Grounded.up (hg : t.Grounded) {l : Location} (h : t.find? l = some .directory) :
    t.find? l.dropLast = some .directory := by
  rcases List.eq_nil_or_concat l with rfl | ⟨k, s, rfl⟩
  · rfl
  · rw [List.concat_eq_append] at h ⊢
    rw [List.dropLast_concat]
    exact hg k s _ h

end Making

/-! ## Listed files -/

section Listing

variable {t : FileTree} {root : Location}

theorem IsProper.find?_of_mem (h : t.IsProper) {k : Location} {e : Entry} (hk : k ≠ [])
    (hmem : (k, e) ∈ t.entries) : t.find? k = some e := by
  have hlookup : ∀ {es : List (Location × Entry)}, (es.map (·.1)).Nodup → (k, e) ∈ es →
      es.lookup k = some e := by
    intro es
    induction es with
    | nil => exact fun _ hm => absurd hm List.not_mem_nil
    | cons x es ih =>
      obtain ⟨j, d⟩ := x
      intro hn hm
      obtain ⟨hj, hes⟩ := List.nodup_cons.mp hn
      rw [lookup_cons_ite]
      rcases List.mem_cons.mp hm with heq | htail
      · obtain ⟨rfl, rfl⟩ := Prod.mk.inj heq
        exact if_pos rfl
      · have hne : k ≠ j := by
          rintro rfl
          exact hj (List.mem_map.mpr ⟨_, htail, rfl⟩)
        rw [if_neg hne, ih hes htail]
  unfold find?
  rw [if_neg hk]
  exact hlookup h.distinct hmem

/-- A listed file stands where it is listed. -/
theorem IsProper.find?_of_listed (h : t.IsProper) {l : Location} {content : ByteArray}
    (hmem : (l, content) ∈ t.filesBelow root) :
    l ≠ [] ∧ t.find? (root ++ l) = some (.file content) := by
  unfold filesBelow below at hmem
  obtain ⟨⟨k, e⟩, hk, hfile⟩ := List.mem_filterMap.mp hmem
  obtain ⟨⟨j, d⟩, hj, hbelow⟩ := List.mem_filterMap.mp hk
  cases e with
  | directory => cases hfile
  | file content' =>
    obtain ⟨rfl, rfl⟩ := Prod.mk.inj (Option.some.inj hfile)
    simp only at hbelow
    split at hbelow
    · rename_i hcond
      obtain ⟨hdrop, rfl⟩ := Prod.mk.inj (Option.some.inj hbelow)
      obtain ⟨rest, rfl⟩ := List.isPrefixOf_iff_prefix.mp hcond.1
      rw [List.drop_left] at hdrop
      subst hdrop
      have hne : rest ≠ [] := by
        rintro rfl
        exact hcond.2 (congrArg List.length (List.append_nil root))
      exact ⟨hne, h.find?_of_mem (fun hnil => hne (List.append_eq_nil_iff.mp hnil).2) hj⟩
    · cases hbelow

end Listing

end FileTree

end FieldWiring
