/-!
# Traversals that may fail

A list is read from left to right by a function that may fail, and the first failure ends the
reading.

Results:
* `mapM_cons_ok_iff`: a traversal succeeds by its first element and by the others.
* `map_of_mapM`: what each element keeps, the list keeps.
* `exists_of_mem_mapM`, `exists_mem_of_mapM`: each result comes from an element, and each element
  has one.
* `mapM_of_forall`, `mapM_error`: when every element is read, and which failure is told.
-/

namespace FieldWiring

variable {ε α β γ : Type} {f : α → Except ε β} {as : List α} {bs : List β}

theorem mapM_cons_ok_iff {a : α} :
    (a :: as).mapM f = .ok bs ↔
      ∃ b rest, f a = .ok b ∧ as.mapM f = .ok rest ∧ bs = b :: rest := by
  rw [List.mapM_cons]
  constructor
  · intro h
    cases ha : f a with
    | error e => rw [ha] at h; cases h
    | ok b =>
      cases hr : as.mapM f with
      | error e => rw [ha, hr] at h; cases h
      | ok rest =>
        rw [ha, hr] at h
        cases h
        exact ⟨b, rest, rfl, rfl, rfl⟩
  · rintro ⟨b, rest, ha, hr, rfl⟩
    rw [ha, hr]
    rfl

/-- What each result keeps of its element, the results keep of the list. -/
theorem map_of_mapM {p : β → γ} {q : α → γ} (hf : ∀ a b, f a = .ok b → p b = q a)
    (h : as.mapM f = .ok bs) : bs.map p = as.map q := by
  induction as generalizing bs with
  | nil => cases h; rfl
  | cons a as ih =>
    rw [mapM_cons_ok_iff] at h
    obtain ⟨b, rest, ha, hr, rfl⟩ := h
    rw [List.map_cons, List.map_cons, hf a b ha, ih hr]

theorem length_mapM (h : as.mapM f = .ok bs) : bs.length = as.length := by
  induction as generalizing bs with
  | nil => cases h; rfl
  | cons a as ih =>
    rw [mapM_cons_ok_iff] at h
    obtain ⟨b, rest, -, hr, rfl⟩ := h
    rw [List.length_cons, List.length_cons, ih hr]

theorem exists_of_mem_mapM (h : as.mapM f = .ok bs) : ∀ b ∈ bs, ∃ a ∈ as, f a = .ok b := by
  induction as generalizing bs with
  | nil =>
    cases h
    exact fun b hb => absurd hb List.not_mem_nil
  | cons a as ih =>
    rw [mapM_cons_ok_iff] at h
    obtain ⟨first, rest, ha, hr, rfl⟩ := h
    intro b hb
    rcases List.mem_cons.mp hb with rfl | hb
    · exact ⟨a, List.mem_cons_self, ha⟩
    · obtain ⟨a', ha', hf⟩ := ih hr b hb
      exact ⟨a', List.mem_cons_of_mem a ha', hf⟩

theorem exists_mem_of_mapM {x : α} (h : as.mapM f = .ok bs) (hx : x ∈ as) :
    ∃ y ∈ bs, f x = .ok y := by
  induction as generalizing bs with
  | nil => exact absurd hx List.not_mem_nil
  | cons a as ih =>
    rw [mapM_cons_ok_iff] at h
    obtain ⟨b, rest, ha, hr, rfl⟩ := h
    rcases List.mem_cons.mp hx with rfl | hx
    · exact ⟨b, List.mem_cons_self, ha⟩
    · obtain ⟨y, hy, hf⟩ := ih hr hx
      exact ⟨y, List.mem_cons_of_mem b hy, hf⟩

/-- A traversal comes to an end iff every element is read. -/
theorem mapM_ends : (∃ bs, as.mapM f = .ok bs) ↔ ∀ a ∈ as, ∃ b, f a = .ok b := by
  induction as with
  | nil => exact ⟨fun _ a ha => absurd ha List.not_mem_nil, fun _ => ⟨[], rfl⟩⟩
  | cons a as ih =>
    simp only [mapM_cons_ok_iff, List.forall_mem_cons]
    rw [← ih]
    constructor
    · rintro ⟨bs, b, rest, ha, hr, -⟩
      exact ⟨⟨b, ha⟩, rest, hr⟩
    · rintro ⟨⟨b, ha⟩, rest, hr⟩
      exact ⟨b :: rest, b, rest, ha, hr, rfl⟩

theorem mapM_of_forall {k : α → β} (h : ∀ a ∈ as, f a = .ok (k a)) :
    as.mapM f = .ok (as.map k) := by
  induction as with
  | nil => rfl
  | cons a as ih =>
    obtain ⟨ha, has⟩ := List.forall_mem_cons.mp h
    rw [mapM_cons_ok_iff]
    exact ⟨k a, as.map k, ha, ih has, rfl⟩

/-- The failure that is told is the first one. -/
theorem mapM_error {a : α} {e : ε} (ha : f a = .error e) :
    ∀ {before : List α} (behind : List α), (∀ b ∈ before, ∃ y, f b = .ok y) →
      (before ++ a :: behind).mapM f = .error e
  | [], behind, _ => by
    rw [List.nil_append, List.mapM_cons, ha]
    rfl
  | b :: before, behind, h => by
    obtain ⟨hb, hbefore⟩ := List.forall_mem_cons.mp h
    obtain ⟨y, hy⟩ := hb
    rw [List.cons_append, List.mapM_cons, hy, mapM_error ha behind hbefore]
    rfl

end FieldWiring
