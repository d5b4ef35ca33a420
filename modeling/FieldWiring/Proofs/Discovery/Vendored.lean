import FieldWiring.Candidate
import FieldWiring.Proofs.Text.Leading

/-!
# Vendored directories

Whether a path is vendored is told by looking for a text in a text, a segment between slashes in the
path behind a slash. What this means is about names of directories: the names in the segment stand
one behind the other among those on the path. A name is never matched in part, and the name of the
file itself, the last one, is no directory.

Results:
* `occurs_iff_infix`: a text between two cuts occurs iff its pieces stand in a row before the last
  piece.
* `segmentOccurs_iff`: a segment excludes the paths with a row of its directories.
* `vendored_iff`: a path is vendored iff some segment does, and vendored declarations are no
  candidates.
-/

namespace FieldWiring

namespace Text

variable {c : Char}

/-- Behind a cut, the pieces are an empty one and those of the rest. -/
theorem pieces_cut (s : List Char) : pieces (· == c) (c :: s) = [] :: pieces (· == c) s :=
  pieces_append_cut (p := (· == c)) (beq_self_eq_true c) [] s

/-- A text between two cuts occurs behind a cut iff its pieces stand in a row before the last
piece. -/
theorem occurs_iff_infix (w s : List Char) :
    (∃ before after, c :: s = before ++ (c :: w ++ [c]) ++ after) ↔
      pieces (· == c) w <:+: (pieces (· == c) s).dropLast := by
  have hc : (c == c) = true := beq_self_eq_true c
  constructor
  · rintro ⟨before, after, h⟩
    have hcuts : c :: s = before ++ c :: (w ++ c :: after) := by
      rw [h]
      simp only [List.append_assoc, List.cons_append, List.nil_append]
    have hpieces := congrArg (pieces (· == c)) hcuts
    rw [pieces_cut, pieces_append_cut (p := (· == c)) hc, pieces_append_cut (p := (· == c)) hc]
      at hpieces
    cases hbefore : pieces (· == c) before with
    | nil => exact absurd hbefore (pieces_ne_nil _ before)
    | cons b bs =>
      rw [hbefore, List.cons_append] at hpieces
      rw [(List.cons.inj hpieces).2, ← List.append_assoc,
        List.dropLast_append_of_ne_nil (pieces_ne_nil _ after)]
      exact ⟨bs, _, rfl⟩
  · rintro ⟨before, after, h⟩
    obtain ⟨last, hlast⟩ : ∃ last, pieces (· == c) s = before ++ pieces (· == c) w ++ after ++
        [last] :=
      ⟨_, (h ▸ List.dropLast_concat_getLast (pieces_ne_nil (· == c) s)).symm⟩
    have hrow : [] :: pieces (· == c) s =
        ([] :: before) ++ (pieces (· == c) w ++ (after ++ [last])) := by
      rw [hlast]
      simp only [List.append_assoc, List.cons_append]
    have htext := congrArg [c].intercalate hrow
    rw [List.intercalate_cons_of_ne_nil (pieces_ne_nil _ s), intercalate_pieces,
      intercalate_append (List.cons_ne_nil _ _)
        (List.append_ne_nil_of_left_ne_nil (pieces_ne_nil _ w) _),
      intercalate_append (pieces_ne_nil _ w) (List.append_ne_nil_of_right_ne_nil _
        (List.cons_ne_nil _ _)), intercalate_pieces] at htext
    refine ⟨[c].intercalate ([] :: before), [c].intercalate (after ++ [last]), htext.trans ?_⟩
    simp only [List.append_assoc, List.cons_append, List.nil_append]

end Text

/-! ## Names of directories -/

/-- A segment with slashes for backslashes, without those at its ends. -/
def cleanSegment (segment : String) : String :=
  Text.trimChar '/' (Text.replaceChar '\\' '/' segment)

/-- The names that a path writes, with slashes for backslashes and without those before it. -/
def pathNames (path : String) : List String :=
  Text.splitAt '/' (String.ofList ((Text.replaceChar '\\' '/' path).toList.dropWhile (· == '/')))

/-- The names of the directories on a path: all names but the last. -/
def directoryNames (path : String) : List String := (pathNames path).dropLast

/-- The segment names directories that stand in a row on the path. -/
def NamesDirectories (path segment : String) : Prop :=
  cleanSegment segment ≠ "" ∧ Text.splitAt '/' (cleanSegment segment) <:+: directoryNames path

theorem toList_cleanSegment (segment : String) :
    (cleanSegment segment).toList = Text.trimBoth (· == '/') (slashed segment) := by
  rw [cleanSegment, Text.trimChar, Text.replaceChar, String.toList_ofList, String.toList_ofList,
    slashed]

/-- Texts that are made of different characters differ, so rows of texts are rows of their
characters. -/
theorem map_ofList_infix {a b : List (List Char)} :
    a.map String.ofList <:+: b.map String.ofList ↔ a <:+: b := by
  refine ⟨fun h => ?_, fun h => h.map _⟩
  obtain ⟨l, hl, heq⟩ := List.infix_map_iff.mp h
  obtain rfl := (List.map_inj_right fun _ _ => String.ofList_inj.mp).mp heq
  exact hl

/-- A segment excludes the paths with a row of its directories. -/
theorem segmentOccurs_iff (path segment : String) :
    segmentOccurs path segment = true ↔ NamesDirectories path segment := by
  have hempty : cleanSegment segment ≠ "" ↔
      Text.trimBoth (· == '/') (slashed segment) ≠ [] := by
    rw [← toList_cleanSegment, ne_eq, ne_eq, String.toList_eq_nil_iff]
  unfold segmentOccurs NamesDirectories directoryNames pathNames Text.splitAt
  simp only [Bool.and_eq_true, Bool.not_eq_true', List.isEmpty_eq_false_iff]
  rw [hempty, occursIn_iff]
  refine and_congr_right fun _ => ?_
  rw [toList_cleanSegment, ← List.map_dropLast, map_ofList_infix, ← Text.occurs_iff_infix,
    String.toList_ofList, Text.replaceChar, String.toList_ofList, slashed]

/-- **Vendored segments match whole directory names only.** A path is vendored iff some segment is
not empty without the slashes at its ends and its names stand one behind the other among the names
of the directories on the path. Of the types that could get a resolver, exactly those whose unit
stands on such a path are left out. -/
theorem vendored_iff (path : String) (excluded : List String) (c : Corpus) (g : Generator) :
    (isVendored path excluded = true ↔ ∃ segment ∈ excluded, NamesDirectories path segment) ∧
      ∀ d, d ∈ candidates c g excluded ↔
        d ∈ candidates c g [] ∧ ∀ segment ∈ excluded, ¬ NamesDirectories d.unitPath segment := by
  have hpath : ∀ path, isVendored path excluded = true ↔
      ∃ segment ∈ excluded, NamesDirectories path segment := by
    intro path
    unfold isVendored
    rw [List.any_eq_true]
    simp only [segmentOccurs_iff]
  refine ⟨hpath path, fun d => ?_⟩
  have hkept : isVendored d.unitPath excluded = false ↔
      ∀ segment ∈ excluded, ¬ NamesDirectories d.unitPath segment := by
    rw [← Bool.not_eq_true, hpath]
    exact ⟨fun h segment hs hn => h ⟨segment, hs, hn⟩, fun h ⟨segment, hs, hn⟩ => h segment hs hn⟩
  rw [mem_candidates, mem_candidates, ← hkept]
  unfold isCandidate
  rw [isVendored_nil]
  simp only [Bool.and_eq_true, Bool.not_eq_true', Bool.not_false, and_true]
  constructor
  · rintro ⟨hd, ⟨hopen, hfree⟩, hmarked⟩
    exact ⟨⟨hd, hopen, hmarked⟩, hfree⟩
  · rintro ⟨⟨hd, hopen, hmarked⟩, hfree⟩
    exact ⟨hd, ⟨hopen, hfree⟩, hmarked⟩

/-- The names of two directories on a path, and a part of a name on another. -/
example :
    isVendored "\\game\\addons\\tool\\Tool.cs" ["addons//", "/addons\\tool"] = true ∧
      isVendored "game/myaddons/tool/addons" ["addons/"] = false := by decide +kernel

end FieldWiring
