import FieldWiring.Proofs.Files.Following
import FieldWiring.Proofs.Sessions.Course

/-!
# What single actions do

Each question about a tree and each change of it, as far as it succeeds, told by the location that
its path leads to. `fileAt` is the content of a file; the making of directories never changes it.

Results:
* `write_ok_iff`, `remove_ok_iff`, `read_ok_iff`: a single action, told by the location.
* `ensureDirectories_leaves`, `ensureDirectories_ind`: what each new directory keeps, the making of
  all of them keeps.
* `ensureDirectories_reaches`: afterwards the path leads to a directory.
-/

namespace FieldWiring

namespace FileTree

variable {t u : FileTree} {here l : Location} {p : Path}

/-! ## Files -/

/-- The content of the file at a location, when there is one. -/
def fileAt (t : FileTree) (l : Location) : Option ByteArray :=
  match t.find? l with
  | some (.file content) => some content
  | _ => none

theorem fileAt_eq_some {content : ByteArray} :
    t.fileAt l = some content ↔ t.find? l = some (.file content) := by
  unfold fileAt
  cases t.find? l with
  | none => simp
  | some e => cases e <;> simp

theorem fileAt_of_find? {k : Location} (h : u.find? k = t.find? k) : u.fileAt k = t.fileAt k := by
  unfold fileAt
  rw [h]

theorem fileAt_of_gone (h : t.find? l = none) : t.fileAt l = none := by
  unfold fileAt
  rw [h]

/-- A location at which no directory stands is not the root. -/
theorem ne_nil_of_not_directory (h : t.find? l ≠ some .directory) : l ≠ [] := by
  rintro rfl
  exact h rfl

theorem hasDirectories_put {e : Entry} (h : t.find? l ≠ some .directory) :
    HasDirectories t (t.put l e) := by
  intro k hk
  have hne : k ≠ l := by
    rintro rfl
    exact h hk
  rw [find?_put_of_ne hne]
  exact hk

theorem hasDirectories_of_put_file {content : ByteArray} (h : t.find? l ≠ some .directory) :
    HasDirectories (t.put l (.file content)) t := by
  intro k hk
  by_cases hne : k = l
  · subst hne
    rw [find?_put_self (ne_nil_of_not_directory h)] at hk
    cases hk
  · rwa [find?_put_of_ne hne] at hk

theorem hasDirectories_erase (h : t.find? l ≠ some .directory) : HasDirectories t (t.erase l) := by
  intro k hk
  have hne : k ≠ l := by
    rintro rfl
    exact h hk
  rw [find?_erase_of_ne hne]
  exact hk

theorem hasDirectories_of_erase (h : t.find? l ≠ some .directory) :
    HasDirectories (t.erase l) t := by
  intro k hk
  by_cases hne : k = l
  · subst hne
    rw [find?_erase_self (ne_nil_of_not_directory h)] at hk
    cases hk
  · rwa [find?_erase_of_ne hne] at hk

/-! ## Questions -/

theorem look_some_iff {e : Entry} :
    t.look here p = .ok (some e) ↔ ∃ l, t.reach here p = .ok l ∧ t.find? l = some e := by
  unfold look
  cases hr : t.reach here p with
  | ok l => simp
  | error f =>
    obtain ⟨cause, q⟩ := f
    cases cause <;> simp

theorem read_ok_iff {content : ByteArray} :
    t.read here p = .ok content ↔
      ∃ l, t.reach here p = .ok l ∧ t.find? l = some (.file content) := by
  unfold read
  cases hr : t.reach here p with
  | error f => simp [bind, Except.bind]
  | ok l =>
    simp only [bind, Except.bind]
    cases hf : t.find? l with
    | none => simp [hf]
    | some e => cases e <;> simp [hf]

theorem leadsToDirectory_iff :
    t.leadsToDirectory here p = .ok true ↔
      ∃ l, t.reach here p = .ok l ∧ t.find? l = some .directory := by
  rw [← look_some_iff]
  unfold leadsToDirectory
  cases hl : t.look here p with
  | error e => simp [bind, Except.bind]
  | ok o => simp [bind, Except.bind, pure, Except.pure]

/-! ## Changes -/

theorem write_ok_iff {content : ByteArray} :
    t.write here p content = .ok u ↔
      ∃ l, t.reach here p = .ok l ∧ t.find? l ≠ some .directory ∧ u = t.put l (.file content) := by
  unfold write isDirectory
  cases hr : t.reach here p with
  | error f => simp [bind, Except.bind]
  | ok l =>
    simp only [bind, Except.bind, decide_eq_true_eq, Except.ok.injEq, exists_eq_left']
    split
    next h => simp [h]
    next h => simp [h, eq_comm]

theorem remove_ok_iff :
    t.remove here p = .ok u ↔
      ∃ l content, t.reach here p = .ok l ∧ t.find? l = some (.file content) ∧ u = t.erase l := by
  unfold remove
  cases hr : t.reach here p with
  | error f => simp [bind, Except.bind]
  | ok l =>
    simp only [bind, Except.bind, Except.ok.injEq]
    cases hf : t.find? l with
    | none => simp [hf]
    | some e => cases e <;> simp [hf, eq_comm]

theorem addDirectory_ok_iff :
    t.addDirectory here p = .ok u ↔
      ∃ l, t.reach here p = .ok l ∧ t.find? l = none ∧ u = t.put l .directory := by
  unfold addDirectory
  cases hr : t.reach here p with
  | error f => simp [bind, Except.bind]
  | ok l =>
    simp only [bind, Except.bind, Except.ok.injEq, exists_eq_left']
    cases hf : t.find? l <;> simp [eq_comm]

/-- A new directory is no file, and stands where there was none. -/
theorem fileAt_addDirectory (h : t.addDirectory here p = .ok u) (k : Location) :
    u.fileAt k = t.fileAt k := by
  obtain ⟨l, -, hnone, rfl⟩ := addDirectory_ok_iff.mp h
  by_cases hk : k = l
  · subst hk
    have hne : k ≠ [] := ne_nil_of_not_directory (by rw [hnone]; simp)
    unfold fileAt
    rw [find?_put_self hne, hnone]
  · exact fileAt_of_find? (find?_put_of_ne hk)

theorem hasDirectories_addDirectory (h : t.addDirectory here p = .ok u) : HasDirectories t u := by
  obtain ⟨l, -, hnone, rfl⟩ := addDirectory_ok_iff.mp h
  exact hasDirectories_put (by rw [hnone]; simp)

end FileTree

/-! ## Directories -/

namespace FileAction

open FileTree

variable {t u : FileTree} {here : Location} {p : Path}

/-- What making a directory comes to goes by how its making fails. -/
theorem run_ensureDirectory (t : FileTree) (here : Location) (p : Path)
    (orElse : FileError → FileAction Unit) :
    (ensureDirectory here p orElse).run.run t = match t.addDirectory here p with
      | .ok u => (.ok (), u)
      | .error e =>
        if e.cause = .notFound then (orElse e).run.run t
        else if e.cause = .nulByte then (.error e, t)
        else
          match t.leadsToDirectory here p with
          | .ok true => (.ok (), t)
          | _ => (.error e, t) := rfl

/-- A directory was made, or one was there, or something else was done about the missing way. -/
theorem returns_ensureDirectory {orElse : FileError → FileAction Unit} :
    Returns (ensureDirectory here p orElse) t () u ↔
      t.addDirectory here p = .ok u ∨
      (∃ e, t.addDirectory here p = .error e ∧ e.cause = .notFound ∧ Returns (orElse e) t () u) ∨
      (∃ e, t.addDirectory here p = .error e ∧ e.cause ≠ .notFound ∧ e.cause ≠ .nulByte ∧
        t.leadsToDirectory here p = .ok true ∧ u = t) := by
  rw [returns_iff, run_ensureDirectory]
  cases t.addDirectory here p with
  | ok v => simp
  | error e =>
    simp only [reduceCtorEq, Except.error.injEq, exists_eq_left', false_or]
    by_cases hn : e.cause = .notFound
    · simp only [hn, if_true, true_and, ne_eq, not_true_eq_false, false_and, or_false]
      exact returns_iff.symm
    · simp only [hn, if_false, false_and, false_or, ne_eq, not_false_eq_true, true_and]
      by_cases hz : e.cause = .nulByte
      · simp [hz]
      · simp only [hz, if_false, not_false_eq_true, true_and]
        rcases t.leadsToDirectory here p with f | (_ | _) <;> simp [eq_comm]

/-- A directory is made where its parent is and nothing else. -/
theorem ensureDirectories_new (h : t.addDirectory here p = .ok u) :
    Returns (ensureDirectories here p) t () u := by
  rw [ensureDirectories]
  exact returns_ensureDirectory.mpr (.inl h)

/-- Where a directory is, none is made. -/
theorem ensureDirectories_there (hr : t.reach here p = .ok (p.locate here))
    (hd : t.find? (p.locate here) = some .directory) :
    Returns (ensureDirectories here p) t () t := by
  have hadd : t.addDirectory here p = .error ⟨.alreadyExists, p⟩ := by
    unfold addDirectory
    rw [hr]
    simp only [bind, Except.bind, hd]
  rw [ensureDirectories]
  refine returns_ensureDirectory.mpr (.inr (.inr ⟨_, hadd, ?_, ?_, ?_, rfl⟩))
  · exact fun h => nomatch h
  · exact fun h => nomatch h
  · exact leadsToDirectory_iff.mpr ⟨_, hr, hd⟩

/-- What the making of one directory leaves. -/
theorem ensureDirectory_leaves {R : FileTree → FileTree → Prop}
    {orElse : FileError → FileAction Unit}
    (hrefl : ∀ t, R t t) (hadd : ∀ u, t.addDirectory here p = .ok u → R t u)
    (helse : ∀ e, R t ((orElse e).leaves t)) : R t ((ensureDirectory here p orElse).leaves t) := by
  rw [leaves, run_ensureDirectory]
  cases h : t.addDirectory here p with
  | ok u => exact hadd u h
  | error e =>
    simp only
    split
    · exact helse e
    · split
      · exact hrefl t
      · split <;> exact hrefl t

/-- **What each new directory keeps, the making of all of them keeps**, even if it fails on the way.
The directories that are made are those of the path and of the paths above it. -/
theorem ensureDirectories_leaves {R : FileTree → FileTree → Prop} (hrefl : ∀ t, R t t)
    (htrans : ∀ t u v, R t u → R u v → R t v)
    (hadd : ∀ (q : Path) t u, q.start = p.start → q.parts <+: p.parts →
      t.addDirectory here q = .ok u → R t u) (t : FileTree) :
    R t ((ensureDirectories here p).leaves t) := by
  have hself : ∀ {p : Path} {t u : FileTree},
      (∀ (q : Path) t u, q.start = p.start → q.parts <+: p.parts →
        t.addDirectory here q = .ok u → R t u) → t.addDirectory here p = .ok u → R t u :=
    fun hadd h => hadd _ _ _ rfl (List.prefix_refl _) h
  induction hn : p.parts.length generalizing p t with
  | zero =>
    have hnil : p.parts = [] := List.length_eq_zero_iff.mp hn
    rw [ensureDirectories]
    refine ensureDirectory_leaves hrefl (fun u h => hself hadd h) fun e => ?_
    rw [dif_pos hnil]
    exact hrefl t
  | succ n ih =>
    have hne : p.parts ≠ [] := by
      intro hnil
      rw [hnil] at hn
      cases hn
    rw [ensureDirectories]
    refine ensureDirectory_leaves hrefl (fun u h => hself hadd h) fun e => ?_
    rw [dif_neg hne]
    have hparent : ∀ t, R t ((ensureDirectories here p.parent).leaves t) := by
      intro t
      refine ih ?_ t ?_
      · intro q t u hs hq
        exact hadd q t u hs (hq.trans (List.dropLast_prefix _))
      · show p.parts.dropLast.length = n
        rw [List.length_dropLast, hn]
        rfl
    rcases leaves_bind (ensureDirectories here p.parent) (fun _ => ensureDirectory here p throw) t
      with hleaves | ⟨_, v, hv, hleaves⟩
    · rw [hleaves]
      exact hparent t
    · rw [hleaves]
      have htv := hparent t
      rw [leaves_of_returns hv] at htv
      exact htrans t v _ htv
        (ensureDirectory_leaves hrefl (fun u h => hself hadd h) fun e => hrefl v)

/-- The same for the making of directories that succeeds. -/
theorem ensureDirectories_ind {R : FileTree → FileTree → Prop} (hrefl : ∀ t, R t t)
    (htrans : ∀ t u v, R t u → R u v → R t v)
    (hadd : ∀ (q : Path) t u, q.start = p.start → q.parts <+: p.parts →
      t.addDirectory here q = .ok u → R t u)
    (h : Returns (ensureDirectories here p) t () u) : R t u :=
  leaves_of_returns h ▸ ensureDirectories_leaves hrefl htrans hadd t

/-- Making directories changes no file. -/
theorem ensureDirectories_fileAt (h : Returns (ensureDirectories here p) t () u) (k : Location) :
    u.fileAt k = t.fileAt k := by
  refine ensureDirectories_ind (R := fun t u => u.fileAt k = t.fileAt k) (fun _ => rfl)
    (fun _ _ _ h h' => h'.trans h) ?_ h
  intro q t u _ _ h
  exact fileAt_addDirectory h k

theorem ensureDirectory_reaches {orElse : FileError → FileAction Unit}
    (h : Returns (ensureDirectory here p orElse) t () u)
    (hother : ∀ e, ¬ Returns (orElse e) t () u ∨
      u.reach here p = .ok (p.locate here) ∧ u.find? (p.locate here) = some .directory) :
    u.reach here p = .ok (p.locate here) ∧ u.find? (p.locate here) = some .directory := by
  rcases returns_ensureDirectory.mp h with h | ⟨e, -, -, h⟩ | ⟨e, -, -, -, h, rfl⟩
  · obtain ⟨l, hl, hnone, rfl⟩ := addDirectory_ok_iff.mp h
    have hd := hasDirectories_addDirectory h
    obtain rfl := reach_locate hl
    exact ⟨reach_mono hd hl, find?_put_self (ne_nil_of_not_directory (by rw [hnone]; simp))⟩
  · rcases hother e with h' | h'
    · exact absurd h h'
    · exact h'
  · obtain ⟨l, hl, hdir⟩ := leadsToDirectory_iff.mp h
    obtain rfl := reach_locate hl
    exact ⟨hl, hdir⟩

/-- **Afterwards the path leads to a directory.** -/
theorem ensureDirectories_reaches (h : Returns (ensureDirectories here p) t () u) :
    u.reach here p = .ok (p.locate here) ∧ u.find? (p.locate here) = some .directory := by
  rw [ensureDirectories] at h
  refine ensureDirectory_reaches h fun e => ?_
  by_cases hnil : p.parts = []
  · rw [dif_pos hnil]
    exact .inl returns_throw
  · rw [dif_neg hnil]
    by_cases hr : Returns (do ensureDirectories here p.parent; ensureDirectory here p throw) t () u
    · obtain ⟨-, v, -, hp⟩ := returns_bind.mp hr
      exact .inr (ensureDirectory_reaches hp fun e => .inl returns_throw)
    · exact .inl hr

end FileAction

end FieldWiring
