import FieldWiring.Session

/-!
# Courses, step by step

A course of changes to a session is put together from single steps. Two views of it serve here.

* `ComesTo P m x`: from every session with `P` the course `m` comes to the result `x`, and `P` holds
  again. It is the view of a course that only asks and notes: what it comes to is then a pure
  function of what it asked. The invariant `P` says what the answers depend on, such as the files.
* `Answers m s a s'`: started in the session `s`, the course answers `a` and leaves `s'`. It is the
  view of a course that has ended, taken apart with `answers_bind`. `FileAction.Returns` is the same
  for actions on files.

`leaves` is what is left of the files or the session, also by an action or a course that fails.

Results:
* `comesTo_bind_ok`, `comesTo_mapM`, `comesTo_foldlM`: a course comes to what its steps come to.
* `answers_bind`, `returns_bind`: a sequence ended because its two parts did.
* `leaves_bind`: what a sequence leaves, its first part leaves or its second.
* `repeats_bind`: a sequence answers again what it answered, if its parts do.
* `mapM_congr`: steps that are the same for every element of a list are the same along it.
-/

namespace FieldWiring

/-- Steps that are the same for every element of a list are the same along it. -/
theorem mapM_congr {m : Type → Type} [Monad m] [LawfulMonad m] {α β : Type} {f g : α → m β} :
    ∀ {as : List α}, (∀ a ∈ as, f a = g a) → as.mapM f = as.mapM g
  | [], _ => by rw [List.mapM_nil, List.mapM_nil]
  | a :: as, h => by
    rw [List.mapM_cons, List.mapM_cons, h a List.mem_cons_self,
      mapM_congr fun b hb => h b (List.mem_cons_of_mem a hb)]

/-! ## Actions on files -/

namespace FileAction

variable {α β : Type} {t u : FileTree}

/-- Started on the files `t`, the action returns `a` and leaves the files `u`. -/
def Returns (m : FileAction α) (t : FileTree) (a : α) (u : FileTree) : Prop :=
  m.run.run t = (.ok a, u)

theorem returns_iff {m : FileAction α} {a : α} :
    Returns m t a u ↔ (m.run.run t).1 = .ok a ∧ (m.run.run t).2 = u :=
  Prod.ext_iff

theorem returns_pure {a b : α} : Returns (pure a) t b u ↔ b = a ∧ u = t := by
  show (Except.ok a, t) = ((Except.ok b, u) : Except FileError α × FileTree) ↔ _
  constructor
  · intro h
    cases h
    exact ⟨rfl, rfl⟩
  · rintro ⟨rfl, rfl⟩
    rfl

theorem returns_throw {e : FileError} {a : α} : ¬ Returns (throw e) t a u := by
  intro h
  have h : (Except.error e, t) = ((Except.ok a, u) : Except FileError α × FileTree) := h
  cases h

theorem returns_bind {m : FileAction α} {f : α → FileAction β} {b : β} :
    Returns (m >>= f) t b u ↔ ∃ a v, Returns m t a v ∧ Returns (f a) v b u := by
  unfold Returns
  rw [ExceptT.run_bind, StateT.run_bind]
  rcases hm : m.run.run t with ⟨_ | a, v⟩
  · simp only [bind]
    constructor
    · intro h
      cases h
    · rintro ⟨a, w, h, -⟩
      cases h
  · simp only [bind]
    constructor
    · exact fun h => ⟨a, v, rfl, h⟩
    · rintro ⟨a', w, h, hf⟩
      cases h
      exact hf

theorem returns_ask {f : FileTree → Except FileError α} {a : α} :
    Returns (ask f) t a u ↔ f t = .ok a ∧ u = t := by
  show (f t, t) = (Except.ok a, u) ↔ _
  rw [Prod.mk.injEq]
  exact and_congr Iff.rfl eq_comm

/-- A change that fails leaves the files as they are. -/
theorem run_change (f : FileTree → Except FileError FileTree) (t : FileTree) :
    (change f).run.run t = match f t with
      | .ok u => (.ok (), u)
      | .error e => (.error e, t) := rfl

theorem returns_change {f : FileTree → Except FileError FileTree} :
    Returns (change f) t () u ↔ f t = .ok u := by
  rw [returns_iff, run_change]
  cases f t with
  | error e => simp
  | ok v => simp

/-- An action that starts on the same files returns the same. -/
theorem returns_unique {m : FileAction α} {a b : α} {v : FileTree} (h : Returns m t a u)
    (h' : Returns m t b v) : a = b ∧ u = v := by
  unfold Returns at h h'
  obtain ⟨hab, huv⟩ := Prod.mk.inj (h.symm.trans h')
  exact ⟨Except.ok.inj hab, huv⟩

/-- The files that an action leaves, whether it returns or fails. -/
def leaves (m : FileAction α) (t : FileTree) : FileTree := (m.run.run t).2

theorem leaves_of_returns {m : FileAction α} {a : α} (h : Returns m t a u) : m.leaves t = u :=
  congrArg Prod.snd h

/-- A sequence leaves what its first part leaves, if that one fails, or else what the second
does. -/
theorem leaves_bind (m : FileAction α) (f : α → FileAction β) (t : FileTree) :
    (m >>= f).leaves t = m.leaves t ∨
      ∃ a u, Returns m t a u ∧ (m >>= f).leaves t = (f a).leaves u := by
  unfold leaves Returns
  rw [ExceptT.run_bind, StateT.run_bind]
  rcases m.run.run t with ⟨_ | a, v⟩
  · exact .inl rfl
  · exact .inr ⟨a, v, rfl, rfl⟩

theorem leaves_change (f : FileTree → Except FileError FileTree) (t : FileTree) :
    (change f).leaves t = t ∨ f t = .ok ((change f).leaves t) := by
  rw [leaves, run_change]
  cases f t with
  | error e => exact .inl rfl
  | ok u => exact .inr rfl

end FileAction

namespace Course

variable {α β : Type} {P : Session → Prop} {s s' : Session}

/-! ## What a course comes to -/

/-- From every session with `P` the course comes to `x`, and `P` holds again. -/
def ComesTo (P : Session → Prop) (m : Course α) (x : Except RunError α) : Prop :=
  ∀ s, P s → ∃ s', m.run.run s = (x, s') ∧ P s'

theorem comesTo_pure (P : Session → Prop) (a : α) : ComesTo P (pure a) (.ok a) :=
  fun s hs => ⟨s, rfl, hs⟩

theorem comesTo_note {clock : Clock} {n : Note} (hP : ∀ s, P s → P (s.note clock n)) :
    ComesTo P (note clock n) (.ok ()) :=
  fun s hs => ⟨s.note clock n, rfl, hP s hs⟩

theorem comesTo_ask {f : FileTree → Except RunError α} {x : Except RunError α}
    (h : ∀ s, P s → f s.files = x) : ComesTo P (ask f) x :=
  fun s hs => ⟨s, by rw [← h s hs]; rfl, hs⟩

theorem comesTo_bind_ok {m : Course α} {f : α → Course β} {a : α} {y : Except RunError β}
    (hm : ComesTo P m (.ok a)) (hf : ComesTo P (f a) y) : ComesTo P (m >>= f) y := by
  intro s hs
  obtain ⟨t, ht, hP⟩ := hm s hs
  obtain ⟨s', hs', hP'⟩ := hf t hP
  refine ⟨s', ?_, hP'⟩
  rw [ExceptT.run_bind, StateT.run_bind, ht]
  exact hs'

theorem comesTo_bind_error {m : Course α} {f : α → Course β} {e : RunError}
    (hm : ComesTo P m (.error e)) : ComesTo P (m >>= f) (.error e) := by
  intro s hs
  obtain ⟨t, ht, hP⟩ := hm s hs
  refine ⟨t, ?_, hP⟩
  rw [ExceptT.run_bind, StateT.run_bind, ht]
  rfl

/-- A sequence comes to what its second part comes to, if the first does not fail. -/
theorem comesTo_bind {m : Course α} {f : α → Course β} {x : Except RunError α}
    {k : α → Except RunError β} (hm : ComesTo P m x) (hf : ∀ a, x = .ok a → ComesTo P (f a) (k a)) :
    ComesTo P (m >>= f) (x >>= k) := by
  cases x with
  | error e => exact comesTo_bind_error hm
  | ok a => exact comesTo_bind_ok hm (hf a rfl)

theorem comesTo_mapM {m : α → Course β} {k : α → Except RunError β}
    (h : ∀ a, ComesTo P (m a) (k a)) : ∀ as : List α, ComesTo P (as.mapM m) (as.mapM k)
  | [] => comesTo_pure P []
  | a :: as => by
    rw [List.mapM_cons, List.mapM_cons]
    refine comesTo_bind (h a) fun b _ => ?_
    exact comesTo_bind (comesTo_mapM h as) fun bs _ => comesTo_pure P (b :: bs)

theorem comesTo_foldlM {m : β → α → Course β} {k : β → α → Except RunError β}
    (h : ∀ b a, ComesTo P (m b a) (k b a)) :
    ∀ (as : List α) (b : β), ComesTo P (as.foldlM m b) (as.foldlM k b)
  | [], b => comesTo_pure P b
  | a :: as, b => by
    rw [List.foldlM_cons, List.foldlM_cons]
    exact comesTo_bind (h b a) fun b' _ => comesTo_foldlM h as b'

theorem comesTo_notes {clock : Clock} (hP : ∀ s n, P s → P (s.note clock n)) :
    ∀ ns : List Note, ComesTo P (ns.forM (note clock)) (.ok ())
  | [] => comesTo_pure P ()
  | n :: ns => by
    rw [List.forM_eq_forM, List.forM_cons, ← List.forM_eq_forM]
    exact comesTo_bind_ok (comesTo_note fun s hs => hP s n hs) (comesTo_notes hP ns)

/-! ## What a course answered -/

/-- Started in `s`, the course answers `a` and leaves `s'`. -/
def Answers (m : Course α) (s : Session) (a : α) (s' : Session) : Prop :=
  m.run.run s = (.ok a, s')

theorem answers_pure {a b : α} : Answers (pure a) s b s' ↔ b = a ∧ s' = s := by
  show (Except.ok a, s) = ((Except.ok b, s') : Except RunError α × Session) ↔ _
  constructor
  · intro h
    cases h
    exact ⟨rfl, rfl⟩
  · rintro ⟨rfl, rfl⟩
    rfl

theorem answers_bind {m : Course α} {f : α → Course β} {b : β} :
    Answers (m >>= f) s b s' ↔ ∃ a t, Answers m s a t ∧ Answers (f a) t b s' := by
  unfold Answers
  rw [ExceptT.run_bind, StateT.run_bind]
  rcases hm : m.run.run s with ⟨_ | a, v⟩
  · simp only [bind]
    constructor
    · intro h
      cases h
    · rintro ⟨a, w, h, -⟩
      cases h
  · simp only [bind]
    constructor
    · exact fun h => ⟨a, v, rfl, h⟩
    · rintro ⟨a', w, h, hf⟩
      cases h
      exact hf

theorem answers_map {m : Course α} {f : α → β} {b : β} :
    Answers (f <$> m) s b s' ↔ ∃ a, Answers m s a s' ∧ b = f a := by
  rw [map_eq_pure_bind, answers_bind]
  constructor
  · rintro ⟨a, t, ha, hb⟩
    obtain ⟨rfl, rfl⟩ := answers_pure.mp hb
    exact ⟨a, ha, rfl⟩
  · rintro ⟨a, ha, rfl⟩
    exact ⟨a, s', ha, answers_pure.mpr ⟨rfl, rfl⟩⟩

theorem answers_note {clock : Clock} {n : Note} {a : Unit} :
    Answers (note clock n) s a s' ↔ s' = s.note clock n := by
  show (Except.ok (), s.note clock n) = ((Except.ok a, s') : Except RunError Unit × Session) ↔ _
  rw [Prod.mk.injEq]
  exact ⟨fun h => h.2.symm, fun h => ⟨rfl, h.symm⟩⟩

theorem answers_ask {f : FileTree → Except RunError α} {a : α} :
    Answers (ask f) s a s' ↔ f s.files = .ok a ∧ s' = s := by
  show (f s.files, s) = (Except.ok a, s') ↔ _
  rw [Prod.mk.injEq]
  exact and_congr Iff.rfl eq_comm

theorem answers_act {m : FileAction α} {a : α} :
    Answers (act m) s a s' ↔ ∃ u, m.Returns s.files a u ∧ s' = { s with files := u } := by
  unfold FileAction.Returns
  show ((m.run.run s.files).1.mapError RunError.file, { s with files := (m.run.run s.files).2 }) =
    (Except.ok a, s') ↔ _
  rcases m.run.run s.files with ⟨_ | b, u⟩
  · constructor
    · intro h
      cases h
    · rintro ⟨w, h, -⟩
      cases h
  · constructor
    · intro h
      cases h
      exact ⟨u, rfl, rfl⟩
    · rintro ⟨w, h, rfl⟩
      cases h
      rfl

/-- A course that starts in the same session answers the same. -/
theorem answers_unique {m : Course α} {a b : α} {t u : Session} (h : Answers m s a t)
    (h' : Answers m s b u) : a = b ∧ t = u := by
  unfold Answers at h h'
  obtain ⟨hab, htu⟩ := Prod.mk.inj (h.symm.trans h')
  exact ⟨Except.ok.inj hab, htu⟩

/-- The session that a course leaves, whether it answers or fails. -/
def leaves (m : Course α) (s : Session) : Session := (m.run.run s).2

theorem leaves_of_answers {m : Course α} {a : α} (h : Answers m s a s') : m.leaves s = s' :=
  congrArg Prod.snd h

/-- A sequence leaves what its first part leaves, if that one fails, or else what the second
does. -/
theorem leaves_bind (m : Course α) (f : α → Course β) (s : Session) :
    (m >>= f).leaves s = m.leaves s ∨
      ∃ a t, Answers m s a t ∧ (m >>= f).leaves s = (f a).leaves t := by
  unfold leaves Answers
  rw [ExceptT.run_bind, StateT.run_bind]
  rcases m.run.run s with ⟨_ | a, t⟩
  · exact .inl rfl
  · exact .inr ⟨a, t, rfl, rfl⟩

theorem leaves_act (m : FileAction α) (s : Session) :
    (act m).leaves s = { s with files := m.leaves s.files } := rfl

/-- The course answers from a session, and its answer passes a check. -/
def passes (m : Course α) (s : Session) (check : α → Session → Bool) : Bool :=
  match m.run.run s with
  | (.ok a, s') => check a s'
  | (.error _, _) => false

theorem answers_of_passes {m : Course α} {check : α → Session → Bool}
    (h : m.passes s check = true) : ∃ a s', Answers m s a s' ∧ check a s' = true := by
  unfold passes at h
  unfold Answers
  rcases hm : m.run.run s with ⟨_ | a, s'⟩
  · rw [hm] at h
    cases h
  · rw [hm] at h
    exact ⟨a, s', rfl, h⟩

/-! ## Courses that answer the same -/

/-- What the first course answers from a session with `P`, the second answers from every session
with `Q`; and `P` and `Q` hold again. -/
def Repeats (P : Session → Prop) (m : Course α) (Q : Session → Prop) (m' : Course α) : Prop :=
  ∀ s a s', P s → Answers m s a s' → P s' ∧ ∀ u, Q u → ∃ u', Answers m' u a u' ∧ Q u'

section Repeats

variable {Q : Session → Prop}

theorem repeats_pure (a : α) : Repeats P (pure a) Q (pure a) := by
  intro s b s' hs h
  obtain ⟨rfl, rfl⟩ := answers_pure.mp h
  exact ⟨hs, fun u hu => ⟨u, answers_pure.mpr ⟨rfl, rfl⟩, hu⟩⟩

theorem repeats_bind {m m' : Course α} {f f' : α → Course β} (hm : Repeats P m Q m')
    (hf : ∀ a s t, P s → Answers m s a t → Repeats P (f a) Q (f' a)) :
    Repeats P (m >>= f) Q (m' >>= f') := by
  intro s b s' hs h
  obtain ⟨a, t, ha, hb⟩ := answers_bind.mp h
  obtain ⟨ht, hm'⟩ := hm s a t hs ha
  obtain ⟨hs', hf'⟩ := hf a s t hs ha t b s' ht hb
  refine ⟨hs', fun u hu => ?_⟩
  obtain ⟨v, hv, hQ⟩ := hm' u hu
  obtain ⟨u', hu', hQ'⟩ := hf' v hQ
  exact ⟨u', answers_bind.mpr ⟨a, v, hv, hu'⟩, hQ'⟩

/-- Two courses that come to the same answer the same. -/
theorem repeats_of_comesTo {m m' : Course α} {x : Except RunError α} (hm : ComesTo P m x)
    (hm' : ComesTo Q m' x) : Repeats P m Q m' := by
  intro s a s' hs h
  obtain ⟨t, ht, hP⟩ := hm s hs
  unfold Answers at h
  rw [ht, Prod.mk.injEq] at h
  obtain ⟨rfl, rfl⟩ := h
  exact ⟨hP, hm'⟩

end Repeats

/-- What a course comes to is what it answers. -/
theorem ComesTo.of_answers {m : Course α} {x : Except RunError α} (h : ComesTo P m x) (hs : P s)
    {a : α} (ha : Answers m s a s') : x = .ok a ∧ P s' := by
  obtain ⟨t, ht, hP⟩ := h s hs
  unfold Answers at ha
  rw [ht, Prod.mk.injEq] at ha
  exact ⟨ha.1, ha.2 ▸ hP⟩

end Course

end FieldWiring
