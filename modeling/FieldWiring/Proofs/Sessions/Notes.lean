import FieldWiring.Proofs.Files.Acts
import FieldWiring.Session

/-!
# What notes leave

A note goes to the session's list and, when there is a log file, behind its lines. So a session
differs after notes in the content of its log file at most, and directories stay where they are.

Results:
* `onlyLogged_note`: a note changes the log file alone.
* `OnlyLogged.files_of_none`: without a log file the tree stays as it is.
* `onlyReads_bind`: a course of asks and notes changes the log file alone.
* `repeats_note`, `repeats_ask`: what one session answers is answered again in another one when the
  files agree on it.
-/

namespace FieldWiring

open FileTree

/-- The files of the one session are those of the other, except for the lines of its log file. -/
structure OnlyLogged (s s' : Session) : Prop where
  log : s'.logFile = none ∨ s'.logFile = s.logFile
  others : ∀ l, s.logFile ≠ some l → s'.files.find? l = s.files.find? l
  forth : HasDirectories s.files s'.files
  back : HasDirectories s'.files s.files
  unlogged : s.logFile = none → s'.files = s.files

namespace OnlyLogged

variable {s s' s'' : Session}

theorem refl (s : Session) : OnlyLogged s s :=
  ⟨.inr rfl, fun _ _ => rfl, .refl _, .refl _, fun _ => rfl⟩

/-- The log file is where it was, if it is still there. -/
theorem log_ne (h : OnlyLogged s s') {l : Location} (hl : s.logFile ≠ some l) :
    s'.logFile ≠ some l := by
  rcases h.log with hnone | hsame
  · rw [hnone]
    exact fun heq => nomatch heq
  · rwa [hsame]

theorem trans (h : OnlyLogged s s') (h' : OnlyLogged s' s'') : OnlyLogged s s'' := by
  refine ⟨?_, ?_, h.forth.trans h'.forth, h'.back.trans h.back, ?_⟩
  · rcases h'.log with hnone | hsame
    · exact .inl hnone
    · rw [hsame]
      exact h.log
  · intro l hl
    rw [h'.others l (h.log_ne hl), h.others l hl]
  · intro hnone
    have hnone' : s'.logFile = none := by
      rcases h.log with hlog | hlog
      · exact hlog
      · rw [hlog, hnone]
    rw [h'.unlogged hnone', h.unlogged hnone]

/-- Without a log file the tree stays as it is. -/
theorem files_of_none (h : OnlyLogged s s') (hnone : s.logFile = none) :
    s'.files = s.files ∧ s'.logFile = none := by
  refine ⟨h.unlogged hnone, ?_⟩
  rcases h.log with hlog | hlog
  · exact hlog
  · rw [hlog, hnone]

end OnlyLogged

/-- A note changes the log file alone. -/
theorem onlyLogged_note (s : Session) (clock : Clock) (n : Note) :
    OnlyLogged s (s.note clock n) := by
  unfold Session.note Session.logLine
  cases hlog : s.logFile with
  | none =>
    simp only
    exact ⟨.inl hlog, fun _ _ => rfl, .refl _, .refl _, fun _ => rfl⟩
  | some l =>
    simp only
    cases hfile : s.files.find? l with
    | none => exact ⟨.inl rfl, fun _ _ => rfl, .refl _, .refl _, fun h => nomatch hlog.symm.trans h⟩
    | some e =>
      cases e with
      | directory =>
        exact ⟨.inl rfl, fun _ _ => rfl, .refl _, .refl _, fun h => nomatch hlog.symm.trans h⟩
      | file before =>
        have hfree : s.files.find? l ≠ some .directory := by
          rw [hfile]
          exact fun h => nomatch h
        refine ⟨.inr hlog.symm, ?_, hasDirectories_put hfree, hasDirectories_of_put_file hfree,
          fun h => nomatch hlog.symm.trans h⟩
        intro k hk
        refine find?_put_of_ne fun heq => hk ?_
        rw [heq, hlog]

/-! ## Sessions without a log file -/

/-- The session has these files and no log file. -/
def Quiet (t : FileTree) (s : Session) : Prop := s.files = t ∧ s.logFile = none

theorem OnlyLogged.quiet {t : FileTree} {s s' : Session} (h : OnlyLogged s s') (hs : Quiet t s) :
    Quiet t s' := by
  obtain ⟨hfiles, hlog⟩ := h.files_of_none hs.2
  exact ⟨hfiles.trans hs.1, hlog⟩

/-- A note leaves the files of a session without a log file. -/
theorem quiet_note {t : FileTree} {s : Session} (clock : Clock) (n : Note) (h : Quiet t s) :
    Quiet t (s.note clock n) := (onlyLogged_note s clock n).quiet h

namespace Course

variable {α : Type} {P Q : Session → Prop}

theorem repeats_note {c c' : Clock} {n : Note} (hP : ∀ s, P s → P (s.note c n))
    (hQ : ∀ s, Q s → Q (s.note c' n)) : Repeats P (note c n) Q (note c' n) :=
  repeats_of_comesTo (comesTo_note hP) (comesTo_note hQ)

theorem repeats_notes {c c' : Clock} (hP : ∀ s n, P s → P (s.note c n))
    (hQ : ∀ s n, Q s → Q (s.note c' n)) (ns : List Note) :
    Repeats P (ns.forM (note c)) Q (ns.forM (note c')) :=
  repeats_of_comesTo (comesTo_notes hP ns) (comesTo_notes hQ ns)

/-- What is asked of the files is answered again when the other files give the same answer. -/
theorem repeats_ask {f f' : FileTree → Except RunError α}
    (h : ∀ s u, P s → Q u → ∀ a, f s.files = .ok a → f' u.files = .ok a) :
    Repeats P (ask f) Q (ask f') := by
  intro s a s' hs ha
  obtain ⟨hf, heq⟩ := answers_ask.mp ha
  rw [heq]
  exact ⟨hs, fun v hv => ⟨v, answers_ask.mpr ⟨h s v hs hv a hf, rfl⟩, hv⟩⟩

/-! ## Courses that change nothing else -/

section OnlyReads

variable {β : Type}

/-- The course asks and notes, and changes nothing but the log file. -/
def OnlyReads (m : Course α) : Prop := ∀ s a s', Answers m s a s' → OnlyLogged s s'

theorem onlyReads_pure (a : α) : OnlyReads (pure a) := by
  intro s b s' h
  rw [(answers_pure.mp h).2]
  exact .refl s

theorem onlyReads_bind {m : Course α} {f : α → Course β} (hm : OnlyReads m)
    (hf : ∀ a, OnlyReads (f a)) : OnlyReads (m >>= f) := by
  intro s b s' h
  obtain ⟨a, t, ha, hb⟩ := answers_bind.mp h
  exact (hm s a t ha).trans (hf a t b s' hb)

theorem onlyReads_ask (f : FileTree → Except RunError α) : OnlyReads (ask f) := by
  intro s a s' h
  rw [(answers_ask.mp h).2]
  exact .refl s

theorem onlyReads_note (c : Clock) (n : Note) : OnlyReads (note c n) := by
  intro s a s' h
  rw [answers_note.mp h]
  exact onlyLogged_note s c n

/-- What comes to the same whatever has been noted changes nothing else. -/
theorem onlyReads_of_comesTo {m : Course α} {x : Except RunError α}
    (h : ∀ s, ComesTo (OnlyLogged s) m x) : OnlyReads m :=
  fun s _ _ ha => ((h s).of_answers (.refl s) ha).2

theorem onlyReads_notes (c : Clock) (ns : List Note) : OnlyReads (ns.forM (note c)) :=
  onlyReads_of_comesTo fun _ =>
    comesTo_notes (fun _ n ht => ht.trans (onlyLogged_note _ c n)) ns

end OnlyReads

end Course

end FieldWiring
