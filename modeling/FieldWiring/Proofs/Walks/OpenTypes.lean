import FieldWiring.Proofs.CSharp.Pieces
import FieldWiring.Proofs.Text.Leading
import FieldWiring.Proofs.Walks.Ascent
import Mathlib.Data.List.Sort

/-!
# Type parameters in the types of fields

A type text is a row of words and signs. Which characters a word is made of is for an alphabet to
say, which holds the letters, digits and underscores of ASCII and may hold more. The walk looks for
type parameters in the parts of words that are made of ASCII alone: `plainParts`. For a word of
ASCII this is the word. Of another word it sees pieces, and so it misses a parameter with other
letters, and takes a longer word with such letters for the parameter that is a piece of it.

Results:
* `identifiersIn_eq`: the identifiers of a text are the plain parts of its words.
* `plainParts_of_plain`, `isPlainWord_of_mem`: a plain word is its own part, and every part is one.
* `takes_iff_of_word`, `not_plain_of_takes`: which parameters are taken to be in a text.
* `open_types_refused`: what a walk says about fields whose types name type parameters.
-/

namespace FieldWiring

/-! ## Words -/

/-- The characters that words are made of, those of ASCII identifiers among them. -/
structure Alphabet where
  holds : Char → Bool
  ascii : ∀ c, isIdentifierChar c = true → holds c = true

namespace Alphabet

/-- The characters of ASCII identifiers and no others. -/
def plain : Alphabet := ⟨isIdentifierChar, fun _ h => h⟩

/-- The characters that stand for themselves in the names of a source. -/
def source : Alphabet where
  holds := CSharp.isWordChar
  ascii c h := by
    refine CSharp.isWordChar_of_isNameChar ?_
    rw [← h, isIdentifierChar, Char.isAlphanum, CSharp.isNameChar, CSharp.isNameStart,
      Bool.or_right_comm]

/-- The words of a text: its longest rows of characters of the alphabet. -/
def words (A : Alphabet) (text : String) : List String :=
  ((Text.pieces (fun c => !A.holds c) text.toList).filter (· ≠ [])).map String.ofList

/-- A word holds characters of the alphabet only. -/
theorem holds_of_mem_words {A : Alphabet} {text w : String} (h : w ∈ A.words text) :
    w ≠ "" ∧ ∀ c ∈ w.toList, A.holds c = true := by
  obtain ⟨s, hs, rfl⟩ := List.mem_map.mp h
  obtain ⟨hpiece, hne⟩ := List.mem_filter.mp hs
  rw [decide_eq_true_eq] at hne
  refine ⟨fun hempty => hne (String.ofList_eq_empty_iff.mp hempty), fun c hc => ?_⟩
  rw [String.toList_ofList] at hc
  simpa using Text.forall_mem_pieces s hpiece c hc

/-- A word is its only word. -/
theorem words_of_word {A : Alphabet} {w : String} (hne : w ≠ "")
    (h : ∀ c ∈ w.toList, A.holds c = true) : A.words w = [w] := by
  have hpieces : Text.pieces (fun c => !A.holds c) w.toList = [w.toList] :=
    Text.pieces_of_none fun c hc => by rw [h c hc]; rfl
  have hchars : w.toList ≠ [] := fun hnil => hne (String.toList_eq_nil_iff.mp hnil)
  rw [words, hpieces, List.filter_cons_of_pos (by simpa using hchars)]
  simp

end Alphabet

/-! ## Identifiers of words -/

variable {A : Alphabet}

/-- What is read before the end of the first piece belongs to it; the others are read anew. -/
theorem identifiersFrom_pieces (A : Alphabet) (s : List Char) :
    ∀ open? : Option (List Char), ∃ first rest,
      Text.pieces (fun c => !A.holds c) s = first :: rest ∧
        identifiersFrom open? s = identifiersFrom open? first ++
          rest.flatMap (identifiersFrom none) := by
  induction s with
  | nil => exact fun open? => ⟨[], [], rfl, by simp⟩
  | cons c cs ih =>
    intro open?
    by_cases hc : A.holds c = true
    · -- the character goes to the first piece, and what was read becomes longer with it or ends
      have hstep : ∀ next before, identifiersFrom open? (c :: cs) =
          before ++ identifiersFrom next cs →
          (∀ more, identifiersFrom open? (c :: more) = before ++ identifiersFrom next more) →
          ∃ first rest, Text.pieces (fun c => !A.holds c) (c :: cs) = first :: rest ∧
            identifiersFrom open? (c :: cs) =
              identifiersFrom open? first ++ rest.flatMap (identifiersFrom none) := by
        intro next before hread hmore
        obtain ⟨first, rest, hpieces, heq⟩ := ih next
        refine ⟨c :: first, rest, ?_, ?_⟩
        · rw [Text.pieces, hpieces]
          simp [hc]
        · rw [hread, heq, hmore, List.append_assoc]
      cases open? with
      | none => exact hstep _ [] rfl fun _ => rfl
      | some w =>
        by_cases hident : isIdentifierChar c = true
        · exact hstep (some (c :: w)) [] (by simp [identifiersFrom, hident])
            fun _ => by simp [identifiersFrom, hident]
        · exact hstep none [String.ofList w.reverse] (by simp [identifiersFrom, hident])
            fun _ => by simp [identifiersFrom, hident]
    · -- another character ends what is read
      have hident : isIdentifierChar c = false := by
        rw [← Bool.not_eq_true]
        exact fun h => hc (A.ascii c h)
      have hstart : isIdentifierStart c = false := by
        unfold isIdentifierChar Char.isAlphanum at hident
        unfold isIdentifierStart
        simp_all
      obtain ⟨first, rest, hpieces, heq⟩ := ih none
      refine ⟨[], first :: rest, ?_, ?_⟩
      · rw [Text.pieces, hpieces]
        simp [hc]
      · rw [List.flatMap_cons, ← heq]
        cases open? with
        | none => simp [identifiersFrom, hstart]
        | some w => simp [identifiersFrom, hident]

theorem flatMap_identifiersFrom_filter : ∀ l : List (List Char),
    (l.filter (· ≠ [])).flatMap (identifiersFrom none) = l.flatMap (identifiersFrom none)
  | [] => rfl
  | [] :: l => flatMap_identifiersFrom_filter l
  | (c :: cs) :: l => by
    rw [List.filter_cons_of_pos (by simp), List.flatMap_cons, List.flatMap_cons,
      flatMap_identifiersFrom_filter l]

/-- The identifiers of a text are those of its words. -/
theorem identifiersIn_words (A : Alphabet) (text : String) :
    identifiersIn text = (A.words text).flatMap identifiersIn := by
  obtain ⟨first, rest, hpieces, heq⟩ := identifiersFrom_pieces A text.toList none
  have hword : ∀ s, identifiersIn (String.ofList s) = identifiersFrom none s := fun s => by
    rw [identifiersIn, String.toList_ofList]
  rw [Alphabet.words, List.flatMap_map]
  simp only [hword]
  rw [flatMap_identifiersFrom_filter, hpieces, identifiersIn, heq, List.flatMap_cons]

/-- The parts of a word that are made of ASCII alone, without the digits before them. -/
def plainParts (w : String) : List String :=
  ((Alphabet.plain.words w).map fun part =>
    String.ofList (part.toList.dropWhile Char.isDigit)).filter
    (· ≠ "")

theorem identifiersFrom_some_of_all : ∀ (s w : List Char), (∀ c ∈ s, isIdentifierChar c = true) →
    identifiersFrom (some w) s = [String.ofList (w.reverse ++ s)]
  | [], w, _ => by simp [identifiersFrom]
  | c :: s, w, h => by
    rw [identifiersFrom, if_pos (h c List.mem_cons_self),
      identifiersFrom_some_of_all s (c :: w) fun d hd => h d (List.mem_cons_of_mem c hd)]
    simp

theorem isIdentifierChar_eq (c : Char) : isIdentifierChar c = CSharp.isNameChar c := by
  unfold isIdentifierChar Char.isAlphanum CSharp.isNameChar CSharp.isNameStart
  rw [Bool.or_right_comm]

/-- An identifier begins with none of its characters that are digits. -/
theorem isIdentifierStart_eq {c : Char} (h : isIdentifierChar c = true) :
    isIdentifierStart c = !c.isDigit := by
  by_cases hdigit : c.isDigit = true
  · have hcodes : ∀ n < 58, 48 ≤ n → isIdentifierStart (Char.ofNat n) = false := by decide
    have hrange : 48 ≤ c.toNat ∧ c.toNat ≤ 57 := by
      simp only [Char.isDigit, Bool.and_eq_true, decide_eq_true_eq, ge_iff_le,
        UInt32.le_iff_toNat_le] at hdigit
      exact hdigit
    have hfalse := hcodes c.toNat (by omega) hrange.1
    rw [Char.ofNat_toNat] at hfalse
    rw [hfalse, hdigit]
    rfl
  · unfold isIdentifierChar Char.isAlphanum at h
    unfold isIdentifierStart
    simp_all

/-- A row of plain characters is an identifier, but for the digits before it. -/
theorem identifiersFrom_none_of_all : ∀ s : List Char, (∀ c ∈ s, isIdentifierChar c = true) →
    identifiersFrom none s = [String.ofList (s.dropWhile Char.isDigit)].filter (· ≠ "")
  | [], _ => rfl
  | c :: s, h => by
    have hrest : ∀ d ∈ s, isIdentifierChar d = true := fun d hd => h d (List.mem_cons_of_mem c hd)
    have hstart := isIdentifierStart_eq (h c List.mem_cons_self)
    by_cases hdigit : c.isDigit = true
    · rw [identifiersFrom, if_neg (by simp [hstart, hdigit]), List.dropWhile_cons_of_pos hdigit,
        identifiersFrom_none_of_all s hrest]
    · rw [identifiersFrom, if_pos (by simp [hstart, hdigit]), List.dropWhile_cons_of_neg hdigit,
        identifiersFrom_some_of_all s [c] hrest, List.filter_cons_of_pos (by simp)]
      rfl

/-- The identifiers of a word are its plain parts. -/
theorem identifiersIn_word (w : String) : identifiersIn w = plainParts w := by
  have hpart : ∀ part ∈ Alphabet.plain.words w, identifiersIn part =
      [String.ofList (part.toList.dropWhile Char.isDigit)].filter (· ≠ "") := fun part hpart =>
    identifiersFrom_none_of_all _ (Alphabet.holds_of_mem_words hpart).2
  rw [identifiersIn_words Alphabet.plain, plainParts]
  generalize Alphabet.plain.words w = parts at hpart
  induction parts with
  | nil => rfl
  | cons part parts ih =>
    rw [List.flatMap_cons, List.map_cons, hpart part List.mem_cons_self,
      ih fun x hx => hpart x (List.mem_cons_of_mem part hx), ← List.filter_append,
      List.singleton_append]

/-- **The identifiers of a text are the plain parts of its words.** -/
theorem identifiersIn_eq (A : Alphabet) (text : String) :
    identifiersIn text = (A.words text).flatMap plainParts := by
  rw [identifiersIn_words A, funext identifiersIn_word]

/-- A plain word is its only plain part. -/
theorem plainParts_of_plain {w : String} (h : CSharp.isPlainWord w = true) :
    plainParts w = [w] := by
  obtain ⟨c, cs, hw, hc, hall⟩ := CSharp.isPlainWord_cons h
  have hident : ∀ d ∈ w.toList, isIdentifierChar d = true := fun d hd => by
    rw [isIdentifierChar_eq]
    exact hall d (hw ▸ hd)
  have hne : w ≠ "" := by
    rintro rfl
    cases hw
  have hdigit : c.isDigit = false := by
    have hstart := isIdentifierStart_eq (hident c (by simp [hw]))
    rw [show isIdentifierStart c = true from hc] at hstart
    simpa using hstart.symm
  rw [plainParts, Alphabet.words_of_word hne hident, List.map_singleton, hw,
    List.dropWhile_cons_of_neg (by simp [hdigit]), ← hw, String.ofList_toList,
    List.filter_cons_of_pos (by simpa using hne)]
  rfl

/-- Every plain part is a plain word. -/
theorem isPlainWord_of_mem {w p : String} (h : p ∈ plainParts w) : CSharp.isPlainWord p = true := by
  obtain ⟨hmap, hne⟩ := List.mem_filter.mp h
  obtain ⟨part, hpart, rfl⟩ := List.mem_map.mp hmap
  have hall := (Alphabet.holds_of_mem_words hpart).2
  rw [decide_eq_true_eq] at hne
  unfold CSharp.isPlainWord
  rw [String.toList_ofList]
  have hchars : ∀ c ∈ part.toList.dropWhile Char.isDigit, isIdentifierChar c = true := fun c hc =>
    hall c (List.dropWhile_subset _ hc)
  cases hrest : part.toList.dropWhile Char.isDigit with
  | nil => rw [hrest] at hne; exact absurd rfl hne
  | cons c cs =>
    have hdigit : c.isDigit = false := by
      have := List.head?_dropWhile_not Char.isDigit part.toList
      rw [hrest] at this
      simpa using this
    rw [hrest] at hchars
    rw [Bool.and_eq_true, List.all_eq_true]
    refine ⟨?_, fun d hd => isIdentifierChar_eq d ▸ hchars d hd⟩
    have hstart := isIdentifierStart_eq (hchars c List.mem_cons_self)
    rw [hdigit] at hstart
    exact hstart

/-! ## Parameters in type texts -/

/-- The walk takes a type parameter to be in a text: it is a plain part of one of its words. -/
def Takes (A : Alphabet) (text p : String) : Prop := ∃ w ∈ A.words text, p ∈ plainParts w

instance (A : Alphabet) (text p : String) : Decidable (Takes A text p) :=
  inferInstanceAs (Decidable (∃ w ∈ A.words text, p ∈ plainParts w))

theorem takes_iff {text p : String} : Takes A text p ↔ p ∈ identifiersIn text := by
  rw [identifiersIn_eq A, List.mem_flatMap]
  rfl

/-- Of the words of a text, those are taken to be in it that are plain. -/
theorem takes_iff_of_word {text p : String} (h : p ∈ A.words text) :
    Takes A text p ↔ CSharp.isPlainWord p = true := by
  constructor
  · rintro ⟨w, -, hp⟩
    exact isPlainWord_of_mem hp
  · intro hplain
    exact ⟨p, h, by rw [plainParts_of_plain hplain]; exact List.mem_singleton_self p⟩

/-- What is no word of a text is taken to be in it only as a part of words that are not plain. -/
theorem not_plain_of_takes {text p w : String} (h : p ∉ A.words text) (hw : w ∈ A.words text)
    (hp : p ∈ plainParts w) : ¬ CSharp.isPlainWord w = true := by
  intro hplain
  rw [plainParts_of_plain hplain] at hp
  exact h (List.mem_singleton.mp hp ▸ hw)

/-! ## What a walk says -/

variable {g : Generator} {R : SymbolResolver} {candidate : TypeDeclaration}

/-- A walk arrives at a field of a level: up to there no type occurs twice, and no field has an open
type. -/
def Arrives (g : Generator) (R : SymbolResolver) (candidate level : TypeDeclaration) (f : Field) :
    Prop :=
  ∃ below before behind, Ascent R candidate (below ++ [level]) ∧
    level.fields = before ++ f :: behind ∧ (∀ e ∈ below, ∀ f' ∈ e.fields, ¬ IsOpen g e f') ∧
    ∀ f' ∈ before, ¬ IsOpen g level f'

theorem isOpen_iff_takes (A : Alphabet) {level : TypeDeclaration} {f : Field} :
    IsOpen g level f ↔
      (∃ m, g.markerOn f = some m) ∧ ∃ p ∈ level.typeParameters, Takes A f.typeText p := by
  simp only [IsOpen, takes_iff]

/-- What a text is taken to mention, when its words are told apart. -/
theorem takes_split (A : Alphabet) (text p : String) :
    (p ∈ A.words text → (Takes A text p ↔ CSharp.isPlainWord p = true)) ∧
      (p ∉ A.words text → (Takes A text p ↔
        ∃ w ∈ A.words text, ¬ CSharp.isPlainWord w = true ∧ p ∈ plainParts w)) := by
  refine ⟨takes_iff_of_word, fun hp => ⟨?_, ?_⟩⟩
  · rintro ⟨w, hw, hpart⟩
    exact ⟨w, hw, not_plain_of_takes hp hw hpart, hpart⟩
  · rintro ⟨w, hw, -, hpart⟩
    exact ⟨w, hw, hpart⟩

/-- A walk that fails over the type of a field has arrived at one that is open. -/
theorem arrives_of_error {c : Corpus} {name reason : String}
    (h : walkHierarchy c g R candidate =
      .error (.of candidate (.unrenderableField name reason))) :
    ∃ level f, Arrives g R candidate level f ∧ IsOpen g level f ∧ name = f.name := by
  rcases completes_or g R candidate with
    ⟨levels, hcase⟩ | ⟨level, f, hcase⟩ | ⟨levels, again, hcase⟩
  · cases hcase.walk.symm.trans h
  · have heq := hcase.walk.symm.trans h
    simp only [Fault.of, Except.error.injEq, Fault.mk.injEq, FaultCause.unrenderableField.injEq,
      true_and] at heq
    exact ⟨level, f, hcase.first, hcase.opened, heq.1.symm⟩
  · cases hcase.walk.symm.trans h

/-- On the chain of a walk that succeeds no field is open. -/
theorem closed_of_walk {c : Corpus} {w : Walk} (h : walkHierarchy c g R candidate = .ok w) :
    ∀ level ∈ w.chain, ∀ f ∈ level.fields, ¬ IsOpen g level f := by
  rcases completes_or g R candidate with
    ⟨levels, hcase⟩ | ⟨level, f, hcase⟩ | ⟨levels, again, hcase⟩
  · obtain rfl := Except.ok.inj (hcase.walk.symm.trans h)
    exact hcase.closed
  · cases hcase.walk.symm.trans h
  · cases hcase.walk.symm.trans h

/-- **Which fields a walk refuses for naming type parameters.** It refuses a marked field at which
it arrives iff it takes a type parameter of the level to be in the type text, and then its message
lists exactly these parameters, each once. A parameter that is a word of the text is taken to be in
it iff it is a plain word; one that is no word of the text is taken to be in it iff it is a plain
part of a word that is not plain. So where all words are plain, exactly the parameters that are
words of the text are found; a parameter with other letters is never found, and a walk may succeed
over it. -/
theorem open_types_refused (A : Alphabet) (c : Corpus) (g : Generator) (R : SymbolResolver)
    (candidate : TypeDeclaration) :
    (∀ level f, Arrives g R candidate level f → ∀ m, g.markerOn f = some m →
      ∃ used : List String, used.Pairwise Text.Before ∧
        (∀ p, p ∈ used ↔ p ∈ level.typeParameters ∧ Takes A f.typeText p) ∧
        (used ≠ [] → walkHierarchy c g R candidate = .error (.of candidate
          (.unrenderableField f.name (openTypeReason level f.typeText used)))) ∧
        (used = [] → markedField g level f =
          .ok (some ⟨f.typeText, f.name, m.lookupKey, level.qualifiedName⟩))) ∧
      (∀ name reason, walkHierarchy c g R candidate =
          .error (.of candidate (.unrenderableField name reason)) →
        ∃ level f, Arrives g R candidate level f ∧ name = f.name ∧
          ∃ p ∈ level.typeParameters, Takes A f.typeText p) ∧
      (∀ text p, (p ∈ A.words text → (Takes A text p ↔ CSharp.isPlainWord p = true)) ∧
        (p ∉ A.words text → (Takes A text p ↔
          ∃ w ∈ A.words text, ¬ CSharp.isPlainWord w = true ∧ p ∈ plainParts w))) ∧
      (∀ text, (∀ w ∈ A.words text, CSharp.isPlainWord w = true) →
        ∀ p, Takes A text p ↔ p ∈ A.words text) ∧
      ∀ w, walkHierarchy c g R candidate = .ok w → ∀ level ∈ w.chain, ∀ f ∈ level.fields, ∀ m,
        g.markerOn f = some m → ∀ p ∈ level.typeParameters, p ∈ A.words f.typeText →
          ¬ CSharp.isPlainWord p = true := by
  refine ⟨fun level f harrives m hm => ?_, fun name reason h => ?_, takes_split A,
    fun text hplain p => ⟨fun htakes => ?_, fun hp => ?_⟩,
    fun w h level hlevel f hf m hm p hp hword => ?_⟩
  · refine ⟨openParameters level f.typeText, sorted_openParameters level f.typeText, fun p => ?_,
      fun hne => ?_, fun hnil => ?_⟩
    · rw [mem_openParameters, takes_iff]
    · obtain ⟨p, hp⟩ := List.exists_mem_of_ne_nil _ hne
      have hopen : IsOpen g level f := ⟨⟨m, hm⟩, p, mem_openParameters.mp hp⟩
      exact BreaksOff.walk ⟨hopen, harrives⟩
    · have hclosed : ¬ IsOpen g level f := by
        rintro ⟨-, p, hp⟩
        rw [← mem_openParameters, hnil] at hp
        exact List.not_mem_nil hp
      rw [markedField_closed hclosed, hm]
      rfl
  · obtain ⟨level, f, harrives, hopen, hname⟩ := arrives_of_error h
    exact ⟨level, f, harrives, hname, ((isOpen_iff_takes A).mp hopen).2⟩
  · by_contra hp
    obtain ⟨w, hw, hother, -⟩ := ((takes_split A text p).2 hp).mp htakes
    exact hother (hplain w hw)
  · exact (takes_iff_of_word hp).mpr (hplain p hp)
  · intro hplain
    have hopen : IsOpen g level f :=
      (isOpen_iff_takes A).mpr ⟨⟨m, hm⟩, p, hp, (takes_iff_of_word hword).mpr hplain⟩
    exact closed_of_walk h level hlevel f hf hopen

/-- A shelf whose first field has the type of a parameter, and whose second one has that of no
parameter. -/
def shelf : TypeDeclaration where
  name := "Shelf"
  unitPath := "shelf.cs"
  typeParameters := ["É", "T"]
  fields := [⟨"É", "top", [⟨"SceneNode", []⟩], 1⟩, ⟨"Box<ÉT>", "side", [⟨"SceneNode", []⟩], 2⟩]

def shelfCorpus : Corpus := ⟨[], [shelf]⟩

/-- The walk passes over the first field and refuses the second one. -/
theorem shelf_refused :
    ("É" ∈ Alphabet.source.words "É" ∧ markedField (.ofKind .sceneNode) shelf
        ⟨"É", "top", [⟨"SceneNode", []⟩], 1⟩ = .ok (some ⟨"É", "top", "", "Shelf"⟩)) ∧
      ("É" ∉ Alphabet.source.words "Box<ÉT>" ∧ "T" ∉ Alphabet.source.words "Box<ÉT>" ∧
        walkHierarchy shelfCorpus (.ofKind .sceneNode) shelfCorpus.symbols shelf =
          .error (.of shelf (.unrenderableField "side"
            "has open generic type 'Box<ÉT>' (type parameter T of Shelf)"))) := by
  have hascent : Ascent shelfCorpus.symbols shelf ([] ++ [shelf]) :=
    ⟨rfl, List.isChain_singleton shelf, by decide⟩
  have htop : ¬ IsOpen (.ofKind .sceneNode) shelf ⟨"É", "top", [⟨"SceneNode", []⟩], 1⟩ := by
    rw [isOpen_iff_takes .source]
    exact fun h => absurd h.2 (by decide +kernel)
  obtain ⟨hfield, -, -, -, -⟩ := open_types_refused .source shelfCorpus (.ofKind .sceneNode)
    shelfCorpus.symbols shelf
  obtain ⟨used, -, hused, -, hpassed⟩ := hfield shelf ⟨"É", "top", [⟨"SceneNode", []⟩], 1⟩
    ⟨[], [], _, hascent, rfl, by simp, by simp⟩ ⟨"SceneNode", []⟩ (by decide +kernel)
  obtain ⟨found, hsorted, hfound, hrefused, -⟩ := hfield shelf
    ⟨"Box<ÉT>", "side", [⟨"SceneNode", []⟩], 2⟩
    ⟨[], [_], [], hascent, rfl, by simp, by simpa using htop⟩ ⟨"SceneNode", []⟩ (by decide +kernel)
  refine ⟨⟨by decide +kernel, ?_⟩, by decide +kernel, by decide +kernel, ?_⟩
  · refine (hpassed ?_).trans (by decide +kernel)
    rw [List.eq_nil_iff_forall_not_mem]
    intro p hp
    obtain ⟨hmem, htakes⟩ := (hused p).mp hp
    rcases List.mem_cons.mp hmem with rfl | hmem
    · exact absurd htakes (by decide +kernel)
    · rw [List.mem_singleton.mp hmem] at htakes
      exact absurd htakes (by decide +kernel)
  · have hone : found = ["T"] := by
      refine hsorted.eq_of_mem_iff (List.pairwise_singleton _ _) fun p => (hfound p).trans ⟨?_, ?_⟩
      · rintro ⟨hmem, htakes⟩
        rcases List.mem_cons.mp hmem with rfl | hmem
        · exact absurd htakes (by decide +kernel)
        · exact hmem
      · intro hp
        rw [List.mem_singleton.mp hp]
        exact ⟨by decide, by decide +kernel⟩
    rw [hone] at hrefused
    exact (hrefused (by decide)).trans (by decide +kernel)

end FieldWiring
