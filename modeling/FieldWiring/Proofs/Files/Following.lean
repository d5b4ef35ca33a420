import FieldWiring.Files.Access
import FieldWiring.Proofs.Text.Leading

/-!
# Where paths lead

A path is followed through the directories of a tree. What it leads to does not depend on the tree:
it is the path's location, whenever the path can be followed at all. Whether it can be followed
depends on the directories alone.

Results:
* `ofText_intercalate`, `ofText_ofLocation`: names in writing are read back.
* `joinText_name`: a name that is joined to a directory is its last part.
* `follow_cons_ok_iff`, `follow_concat_ok_iff`: names are followed from directory to directory.
* `reach_locate`: a path that can be followed leads to its location.
* `reach_mono`: it leads there in every tree that has the same directories, and more.
* `reach_name`, `reach_in_directory`: the entry with a name stands in the directory.
-/

namespace FieldWiring

/-! ## Names -/

/-- A text that is the name of an entry: one part of a path, which does not lead elsewhere. -/
structure IsName (s : String) : Prop where
  ne_empty : s ≠ ""
  ne_dot : s ≠ "."
  ne_dots : s ≠ ".."
  no_slash : '/' ∉ s.toList

instance (s : String) : Decidable (IsName s) :=
  decidable_of_iff (s ≠ "" ∧ s ≠ "." ∧ s ≠ ".." ∧ '/' ∉ s.toList)
    ⟨fun ⟨a, b, c, d⟩ => ⟨a, b, c, d⟩, fun ⟨a, b, c, d⟩ => ⟨a, b, c, d⟩⟩

/-- A name as directories list it. -/
structure IsListedName (s : String) : Prop extends IsName s where
  listed : FileName.onDisk s = s

instance (s : String) : Decidable (IsListedName s) :=
  decidable_of_iff (IsName s ∧ FileName.onDisk s = s) ⟨fun ⟨a, b⟩ => ⟨a, b⟩, fun h => ⟨h.1, h.2⟩⟩

/-- Listed names are listed as they are. -/
theorem map_onDisk {l : List String} (h : ∀ s ∈ l, IsListedName s) :
    l.map FileName.onDisk = l :=
  (List.map_congr_left fun s hs => (h s hs).listed).trans (List.map_id l)

theorem slash_toList : "/".toList = ['/'] := String.toList_ofList

/-- Names joined by slashes are cut at these again. -/
theorem splitAt_intercalate : ∀ {l : List String}, l ≠ [] → (∀ s ∈ l, IsName s) →
    Text.splitAt '/' ("/".intercalate l) = l := by
  have hfree : ∀ {s : String}, IsName s → ∀ c ∈ s.toList, (c == '/') = false := by
    intro s hs c hc
    rw [beq_eq_false_iff_ne]
    rintro rfl
    exact hs.no_slash hc
  intro l
  induction l with
  | nil => exact fun h => absurd rfl h
  | cons s l ih =>
    intro _ h
    have hs := hfree (h s List.mem_cons_self)
    unfold Text.splitAt at ih ⊢
    cases l with
    | nil => rw [String.intercalate_singleton, Text.pieces_of_none hs, List.map_singleton,
        String.ofList_toList]
    | cons r l =>
      rw [String.intercalate_cons_cons, String.toList_append, String.toList_append, slash_toList,
        List.append_assoc, List.singleton_append,
        Text.pieces_append_cut (p := (· == '/')) (beq_self_eq_true '/'), Text.pieces_of_none hs,
        List.singleton_append, List.map_cons, String.ofList_toList,
        ih (List.cons_ne_nil _ _) fun x hx => h x (List.mem_cons_of_mem s hx)]

/-- Names joined by slashes do not begin with one. -/
theorem head?_intercalate {l : List String} (h : ∀ s ∈ l, IsName s) :
    ("/".intercalate l).toList.head? ≠ some '/' := by
  have hhead : ∀ {s : String} (rest : List Char), IsName s →
      (s.toList ++ rest).head? ≠ some '/' := by
    intro s rest hs heq
    cases hchars : s.toList with
    | nil => exact hs.ne_empty (String.toList_eq_nil_iff.mp hchars)
    | cons c cs =>
      rw [hchars] at heq
      obtain rfl : c = '/' := Option.some.inj heq
      exact hs.no_slash (hchars ▸ List.mem_cons_self)
  rcases l with _ | ⟨s, _ | ⟨r, l⟩⟩
  · simp [String.intercalate_nil]
  · have hs := hhead [] (h s List.mem_cons_self)
    rwa [List.append_nil] at hs
  · rw [String.intercalate_cons_cons, String.toList_append, String.toList_append, List.append_assoc]
    exact hhead _ (h s List.mem_cons_self)

theorem filter_isStep {l : List String} (h : ∀ s ∈ l, IsName s) : l.filter Path.isStep = l := by
  rw [List.filter_eq_self]
  intro s hs
  unfold Path.isStep
  simp [(h s hs).ne_empty, (h s hs).ne_dot]

/-- Names joined by slashes write the path of these names. -/
theorem ofText_intercalate {l : List String} (h : ∀ s ∈ l, IsName s) :
    Path.ofText ("/".intercalate l) = ⟨.here, l⟩ := by
  have hstart : Path.startOf ("/".intercalate l).toList = .here := by
    have hhead := head?_intercalate h
    generalize ("/".intercalate l).toList = cs at hhead
    unfold Path.startOf
    split <;> first | rfl | exact absurd rfl hhead
  unfold Path.ofText
  rw [hstart]
  by_cases hnil : l = []
  · subst hnil
    simp [String.intercalate_nil, Text.splitAt, Text.pieces, Path.isStep]
  · rw [splitAt_intercalate hnil h, filter_isStep h]

/-- A location in writing is read back. -/
theorem ofText_ofLocation {l : Location} (h : ∀ s ∈ l, IsName s) :
    Path.ofText (Path.ofLocation l).text = .ofLocation l := by
  have htext : (Path.ofLocation l).text = "/" ++ "/".intercalate l := by
    unfold Path.text Path.ofLocation
    rw [if_neg (by simp)]
    rfl
  have hchars : (Path.ofLocation l).text.toList = '/' :: ("/".intercalate l).toList := by
    rw [htext, String.toList_append, slash_toList]
    rfl
  have hstart : Path.startOf ('/' :: ("/".intercalate l).toList) = .root := by
    have hhead := head?_intercalate h
    generalize ("/".intercalate l).toList = cs at hhead
    cases cs with
    | nil => rfl
    | cons c cs =>
      have hc : c ≠ '/' := fun heq => hhead (congrArg some heq)
      unfold Path.startOf
      split
      · rename_i heq
        exact absurd (List.cons.inj (List.cons.inj heq).2).1 hc
      · rename_i heq
        exact absurd (List.cons.inj (List.cons.inj heq).2).1 hc
      · rfl
      · rename_i hroot
        exact absurd rfl (hroot _)
  have hsplit : Text.splitAt '/' (Path.ofLocation l).text =
      "" :: Text.splitAt '/' ("/".intercalate l) := by
    unfold Text.splitAt
    rw [hchars, Text.pieces, if_pos (beq_self_eq_true '/')]
    rfl
  have hparts := ofText_intercalate h
  unfold Path.ofText at hparts ⊢
  rw [hsplit, hchars, hstart, List.filter_cons_of_neg (by decide)]
  exact congrArg (Path.mk .root) (Path.mk.inj hparts).2

/-- The path that a name writes is that name. -/
theorem ofText_name {s : String} (h : IsName s) : Path.ofText s = ⟨.here, [s]⟩ := by
  have hnames : ∀ r ∈ [s], IsName r := fun r hr => List.mem_singleton.mp hr ▸ h
  have heq := ofText_intercalate hnames
  rwa [String.intercalate_singleton] at heq

theorem joinText_name (dir : Path) {s : String} (h : IsName s) :
    dir.joinText s = ⟨dir.start, dir.parts ++ [s]⟩ := by
  unfold Path.joinText
  rw [ofText_name h]
  rfl

/-- The entry with a name stands in the directory. -/
theorem locate_name (here : Location) (dir : Path) {s : String} (h : IsName s) :
    (dir.joinText s).locate here = dir.locate here ++ [FileName.onDisk s] := by
  rw [joinText_name dir h]
  unfold Path.locate Path.isAbsolute
  rw [List.foldl_append]
  simp only [List.foldl_cons, List.foldl_nil, Path.along, if_neg h.ne_dots]

theorem append_name_ne {l : Location} {s r : String} (h : s ≠ r) : l ++ [s] ≠ l ++ [r] := by
  intro heq
  exact h (List.cons.inj (List.append_cancel_left heq)).1

/-! ## Following -/

namespace FileTree

variable {t u : FileTree}

/-- Every directory of the one tree is one of the other. -/
def HasDirectories (t u : FileTree) : Prop :=
  ∀ l, t.find? l = some .directory → u.find? l = some .directory

theorem HasDirectories.refl (t : FileTree) : HasDirectories t t := fun _ h => h

theorem HasDirectories.trans {v : FileTree} (h : HasDirectories t u) (h' : HasDirectories u v) :
    HasDirectories t v := fun l hl => h' l (h l hl)

theorem follow_append (t : FileTree) (l : Location) (ps qs : List String) :
    t.follow l (ps ++ qs) = (t.follow l ps).bind fun k => t.follow k qs := by
  induction ps generalizing l with
  | nil => rfl
  | cons p ps ih =>
    rw [List.cons_append, follow, follow]
    cases t.find? l with
    | none => rfl
    | some e =>
      cases e with
      | file content => rfl
      | directory =>
        simp only
        split
        · rfl
        · exact ih _

/-- A name is followed in a directory, and when it is not too long. -/
theorem follow_cons_ok_iff {l k : Location} {p : String} {ps : List String} :
    t.follow l (p :: ps) = .ok k ↔
      t.find? l = some .directory ∧ FileName.isTooLong p = false ∧
        t.follow (Path.along l p) ps = .ok k := by
  rw [follow]
  cases t.find? l with
  | none => simp
  | some e =>
    cases e with
    | file content => simp
    | directory => cases FileName.isTooLong p <;> simp

/-- The last name is followed where the ones before it lead. -/
theorem follow_concat_ok_iff {l k : Location} {ps : List String} {s : String} :
    t.follow l (ps ++ [s]) = .ok k ↔
      ∃ m, t.follow l ps = .ok m ∧ t.find? m = some .directory ∧
        FileName.isTooLong s = false ∧ Path.along m s = k := by
  rw [follow_append]
  cases hm : t.follow l ps with
  | error e => simp [Except.bind]
  | ok m =>
    show t.follow m [s] = .ok k ↔ _
    rw [follow_cons_ok_iff]
    simp [follow]

/-- A name that is not too long is followed in a directory. -/
theorem follow_concat {l k : Location} {ps : List String} (h : t.follow l ps = .ok k)
    (hd : t.find? k = some .directory) (s : String) :
    t.follow l (ps ++ [s]) =
      if FileName.isTooLong s then .error .nameTooLong else .ok (Path.along k s) := by
  rw [follow_append, h]
  simp only [Except.bind, follow, hd]

/-- Names that can be followed lead along them. -/
theorem follow_locate {l k : Location} {ps : List String} (h : t.follow l ps = .ok k) :
    k = ps.foldl Path.along l := by
  induction ps generalizing l with
  | nil => exact (Except.ok.inj h).symm
  | cons p ps ih =>
    rw [follow_cons_ok_iff] at h
    exact ih h.2.2

theorem follow_mono (hd : HasDirectories t u) {l k : Location} {ps : List String}
    (h : t.follow l ps = .ok k) : u.follow l ps = .ok k := by
  induction ps generalizing l with
  | nil => exact h
  | cons p ps ih =>
    rw [follow_cons_ok_iff] at h ⊢
    exact ⟨hd l h.1, h.2.1, ih h.2.2⟩

/-- What the following of a path begins with. -/
def start (here : Location) (p : Path) : Location := if p.isAbsolute then [] else here

theorem reach_ok_iff {here l : Location} {p : Path} :
    t.reach here p = .ok l ↔
      p.lacksEncoding = false ∧ p.holdsNul = false ∧ p.isTooLong = false ∧
        t.follow (start here p) p.parts = .ok l := by
  have hok (r : Except FileCause Location) :
      r.mapError (FileError.mk · p) = .ok l ↔ r = .ok l := by
    cases r with
    | error c => exact ⟨(nomatch ·), (nomatch ·)⟩
    | ok k => exact ⟨fun h => congrArg _ (Except.ok.inj h), fun h => congrArg _ (Except.ok.inj h)⟩
  unfold reach start
  rw [hok]
  cases p.lacksEncoding with
  | true => simp
  | false =>
    cases p.holdsNul with
    | true => simp
    | false =>
      cases p.isTooLong <;> simp

/-- **A path that can be followed leads to its location**, whatever else the tree holds. -/
theorem reach_locate {here l : Location} {p : Path} (h : t.reach here p = .ok l) :
    l = p.locate here := follow_locate (reach_ok_iff.mp h).2.2.2

theorem reach_mono (hd : HasDirectories t u) {here l : Location} {p : Path}
    (h : t.reach here p = .ok l) : u.reach here p = .ok l := by
  obtain ⟨he, hn, hlen, hf⟩ := reach_ok_iff.mp h
  exact reach_ok_iff.mpr ⟨he, hn, hlen, follow_mono hd hf⟩

/-- The entry with a name stands in the directory. -/
theorem reach_name {here l : Location} {dir : Path} {s : String} (hs : IsName s)
    (h : t.reach here (dir.joinText s) = .ok l) :
    l = dir.locate here ++ [FileName.onDisk s] ∧
      t.find? (dir.locate here) = some .directory := by
  refine ⟨(reach_locate h).trans (locate_name here dir hs), ?_⟩
  have hf := (reach_ok_iff.mp h).2.2.2
  rw [joinText_name dir hs] at hf
  obtain ⟨k, hp, hfind, -, -⟩ := follow_concat_ok_iff.mp hf
  have hk : k = dir.locate here := follow_locate hp
  rwa [← hk]

/-- In a directory that can be reached, a part leads along it or is refused as it stands. -/
theorem reach_part {here : Location} {dir p : Path} {s : String}
    (hp : p = ⟨dir.start, dir.parts ++ [s]⟩) (hr : t.reach here dir = .ok (dir.locate here))
    (hd : t.find? (dir.locate here) = some .directory) :
    t.reach here p = .ok (Path.along (dir.locate here) s) ∨
      ∃ e, t.reach here p = .error e ∧ e.cause ≠ .notFound := by
  have hf : t.follow (start here p) p.parts =
      if FileName.isTooLong s then .error .nameTooLong
      else .ok (Path.along (dir.locate here) s) := by
    rw [hp]
    exact follow_concat (reach_ok_iff.mp hr).2.2.2 hd s
  have herror : ∀ (c : FileCause), c ≠ .notFound →
      ∃ e, (.error ⟨c, p⟩ : Except FileError Location) = .error e ∧ e.cause ≠ .notFound :=
    fun c hc => ⟨_, rfl, hc⟩
  unfold reach
  simp only [show (if p.isAbsolute = true then [] else here) = start here p from rfl, hf]
  split
  · exact .inr (herror _ (by decide))
  · split
    · exact .inr (herror _ (by decide))
    · split
      · exact .inr (herror _ (by decide))
      · split
        · exact .inr (herror _ (by decide))
        · exact .inl rfl

/-- In a directory that can be reached, a name leads to its entry or is refused as it stands. -/
theorem reach_in_directory {here : Location} {dir : Path} {s : String} (hs : IsName s)
    (hr : t.reach here dir = .ok (dir.locate here))
    (hd : t.find? (dir.locate here) = some .directory) :
    t.reach here (dir.joinText s) = .ok (dir.locate here ++ [FileName.onDisk s]) ∨
      ∃ e, t.reach here (dir.joinText s) = .error e ∧ e.cause ≠ .notFound := by
  have h := reach_part (joinText_name dir hs) hr hd
  rwa [Path.along, if_neg hs.ne_dots] at h

end FileTree

end FieldWiring
