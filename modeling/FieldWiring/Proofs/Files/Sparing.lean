import FieldWiring.Proofs.Files.Acts

/-!
# What actions spare

An action on files may fail at any of its steps, and what it did before stays done. So what it
leaves alone is told for each step, whether or not the action comes to its end. `Spared` compares
the trees before and after, and `Sparing` says it of an action on every tree that has certain
directories.

Results:
* `spared_put`, `spared_erase`: the single changes.
* `sparing_bind`, `sparing_mapM`, `sparing_foldlM`: what all steps spare, the whole action spares.
* `sparing_write`: writing a file spares every other one.
-/

namespace FieldWiring

namespace FileTree

variable {t u v : FileTree} {l : Location} {P Q : Location → Prop}

/-- The tree `u` is `t` except for files at the locations of `P`. Directories are where they
were. -/
structure Spared (P : Location → Prop) (t u : FileTree) : Prop where
  others : ∀ k, ¬ P k → u.find? k = t.find? k
  forth : HasDirectories t u
  back : HasDirectories u t

theorem Spared.refl (P : Location → Prop) (t : FileTree) : Spared P t t :=
  ⟨fun _ _ => rfl, .refl t, .refl t⟩

theorem Spared.trans (h : Spared P t u) (h' : Spared P u v) : Spared P t v where
  others k hk := (h'.others k hk).trans (h.others k hk)
  forth := h.forth.trans h'.forth
  back := h'.back.trans h.back

theorem Spared.mono (h : Spared P t u) (hPQ : ∀ k, P k → Q k) : Spared Q t u :=
  ⟨fun k hk => h.others k fun hP => hk (hPQ k hP), h.forth, h.back⟩

theorem spared_put {content : ByteArray} (hl : P l) (hfree : t.find? l ≠ some .directory) :
    Spared P t (t.put l (.file content)) where
  others _ hk := find?_put_of_ne fun heq => hk (heq ▸ hl)
  forth := hasDirectories_put hfree
  back := hasDirectories_of_put_file hfree

theorem spared_erase (hl : P l) (hfree : t.find? l ≠ some .directory) : Spared P t (t.erase l) where
  others _ hk := find?_erase_of_ne fun heq => hk (heq ▸ hl)
  forth := hasDirectories_erase hfree
  back := hasDirectories_of_erase hfree

end FileTree

namespace FileAction

open FileTree

variable {α β : Type} {base : FileTree} {P : Location → Prop}

/-- On every tree with the directories of `base`, the action spares all but the files at the
locations of `P`, also when it fails. -/
def Sparing (base : FileTree) (P : Location → Prop) (m : FileAction α) : Prop :=
  ∀ t, HasDirectories base t → Spared P t (m.leaves t)

theorem sparing_pure (base : FileTree) (P : Location → Prop) (a : α) :
    Sparing base P (pure a : FileAction α) := fun t _ => .refl P t

theorem sparing_throw (base : FileTree) (P : Location → Prop) (e : FileError) :
    Sparing base P (throw e : FileAction α) := fun t _ => .refl P t

theorem sparing_ask (base : FileTree) (P : Location → Prop) (f : FileTree → Except FileError α) :
    Sparing base P (ask f) := fun t _ => .refl P t

/-- What both parts of a sequence spare, the sequence spares. -/
theorem sparing_bind {m : FileAction α} {f : α → FileAction β} (hm : Sparing base P m)
    (hf : ∀ a, Sparing base P (f a)) : Sparing base P (m >>= f) := by
  intro t ht
  have hfirst := hm t ht
  rcases leaves_bind m f t with hleaves | ⟨a, u, hu, hleaves⟩
  · rwa [hleaves]
  · rw [leaves_of_returns hu] at hfirst
    rw [hleaves]
    exact hfirst.trans (hf a u (ht.trans hfirst.forth))

theorem sparing_mapM {f : α → FileAction β} :
    ∀ {as : List α}, (∀ a ∈ as, Sparing base P (f a)) → Sparing base P (as.mapM f)
  | [], _ => sparing_pure base P []
  | a :: as, h => by
    rw [List.mapM_cons]
    refine sparing_bind (h a List.mem_cons_self) fun b => ?_
    refine sparing_bind (sparing_mapM fun x hx => h x (List.mem_cons_of_mem a hx)) fun bs => ?_
    exact sparing_pure base P (b :: bs)

theorem sparing_foldlM {f : β → α → FileAction β} :
    ∀ {as : List α} (b : β), (∀ a ∈ as, ∀ b, Sparing base P (f b a)) →
      Sparing base P (as.foldlM f b)
  | [], b, _ => sparing_pure base P b
  | a :: as, b, h => by
    rw [List.foldlM_cons]
    refine sparing_bind (h a List.mem_cons_self b) fun b' => ?_
    exact sparing_foldlM b' fun x hx => h x (List.mem_cons_of_mem a hx)

/-- Writing a file spares every other one. -/
theorem sparing_write {here : Location} {p : Path} {content : ByteArray} (hp : P (p.locate here)) :
    Sparing base P (change fun t => t.write here p content) := by
  intro t _
  rcases leaves_change (fun t => t.write here p content) t with hleaves | hok
  · rw [hleaves]
    exact .refl P t
  · obtain ⟨l, hl, hfree, hput⟩ := write_ok_iff.mp hok
    rw [hput, reach_locate hl]
    exact spared_put hp (reach_locate hl ▸ hfree)

end FileAction

end FieldWiring
