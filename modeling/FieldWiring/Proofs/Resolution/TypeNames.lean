import FieldWiring.Proofs.CSharp.Pieces
import FieldWiring.TypeReference

/-!
# Names of types

The names of types in C#, with arguments on any segment, and what is read of them: outside of angle
brackets everything is seen, and inside the outermost ones the commas are counted, whatever other
brackets stand around these. So the arguments of every segment count, and with them the commas of
arrays and tuples among the arguments.

Results:
* `TypeExpr.inside`: what a type inside a list of arguments adds to the count.
* `TypeName.reads_body`: what is seen and what is counted of a name.
* `TypeName.not_prefix_body`: without its root word a name does not begin with one.
-/

namespace FieldWiring

/-! ## Types as they are written -/

/-- A text that C# takes for an identifier; a sign in front lets it be a word of the language. -/
def isIdentifierText (s : List Char) : Bool :=
  let word := if s.head? = some '@' then s.tail else s
  word.head?.any CSharp.isWordStart && word.all CSharp.isWordChar

/-- An identifier of C#. -/
structure Identifier where
  text : String
  isIdentifier : isIdentifierText text.toList = true

/-- A type as C# writes it: a name with arguments on any of its segments, a nullable type, an array
whose rank is one above its commas, or a tuple, the elements of which may have names. -/
inductive TypeExpr where
  | named (isRooted : Bool) (outer : List (Identifier × List TypeExpr)) (name : Identifier)
      (arguments : List TypeExpr)
  | nullable (type : TypeExpr)
  | array (element : TypeExpr) (commas : Nat)
  | tuple (first second : TypeExpr × Option Identifier)
    (further : List (TypeExpr × Option Identifier))

/-- The text of a name that may be left out. -/
def optionalName (name : Option Identifier) : List Char := (name.map (·.text.toList)).getD []

mutual

/-- A type as it is written without blanks. -/
def TypeExpr.chars : TypeExpr → List Char
  | .named isRooted outer name arguments =>
    (if isRooted then globalLead else []) ++
      (segmentsText outer ++ (name.text.toList ++ argumentsText arguments))
  | .nullable type => type.chars ++ ['?']
  | .array element commas => element.chars ++ ('[' :: (List.replicate commas ',' ++ [']']))
  | .tuple first second further =>
    '(' :: (elementText first ++ (',' :: (elementText second ++ (elementsText further ++ [')']))))

/-- An element of a tuple. -/
def elementText : TypeExpr × Option Identifier → List Char
  | (type, name) => type.chars ++ optionalName name

/-- The elements of a tuple behind others. -/
def elementsText : List (TypeExpr × Option Identifier) → List Char
  | [] => []
  | element :: further => ',' :: (elementText element ++ elementsText further)

/-- The segments of a name in front of its last one. -/
def segmentsText : List (Identifier × List TypeExpr) → List Char
  | [] => []
  | (name, arguments) :: inner =>
    name.text.toList ++ (argumentsText arguments ++ ('.' :: segmentsText inner))

/-- The arguments of a segment. -/
def argumentsText : List TypeExpr → List Char
  | [] => []
  | type :: further => '<' :: (type.chars ++ furtherText further ++ ['>'])

/-- Arguments behind others. -/
def furtherText : List TypeExpr → List Char
  | [] => []
  | type :: further => ',' :: (type.chars ++ furtherText further)

end

mutual

/-- The commas of a type that do not stand in angle brackets. -/
def TypeExpr.looseCommas : TypeExpr → Nat
  | .named _ _ _ _ => 0
  | .nullable type => type.looseCommas
  | .array element commas => element.looseCommas + commas
  | .tuple first second further =>
    elementCommas first + (1 + (elementCommas second + elementsCommas further))

/-- Those of an element of a tuple. -/
def elementCommas : TypeExpr × Option Identifier → Nat
  | (type, _) => type.looseCommas

/-- Those of the elements of a tuple behind others. -/
def elementsCommas : List (TypeExpr × Option Identifier) → Nat
  | [] => 0
  | element :: further => 1 + (elementCommas element + elementsCommas further)

end

/-- What the commas of a list of arguments amount to, with its opening. -/
def argumentCount : List TypeExpr → Nat
  | [] => 0
  | type :: further => 1 + (type.looseCommas + argumentCount further)

/-- A name of a type. -/
structure TypeName where
  isRooted : Bool := false
  outer : List (Identifier × List TypeExpr) := []
  name : Identifier
  arguments : List TypeExpr := []

namespace TypeName

/-- The name without arguments. -/
def dottedName (t : TypeName) : String := dotted (t.outer.map (·.1.text) ++ [t.name.text])

/-- The name as it is written without blanks. -/
def text (t : TypeName) : String :=
  String.ofList (TypeExpr.named t.isRooted t.outer t.name t.arguments).chars

/-- Only the last segment has arguments, and these have no commas but in angle brackets. -/
def IsPlain (t : TypeName) : Prop :=
  (∀ segment ∈ t.outer, segment.2 = []) ∧ ∀ type ∈ t.arguments, type.looseCommas = 0

end TypeName

/-! ## What is read of a part of a text -/

open TypeReference in
/-- At a depth of brackets a part of a text adds to the arity and to the name, and leaves the
depth. -/
def Reads (depth : Int) (s : List Char) (count : Nat) (seen : List Char) : Prop :=
  ∀ rest, countArguments depth (s ++ rest) = count + countArguments depth rest ∧
    outerChars depth (s ++ rest) = seen ++ outerChars depth rest

/-- A character that means nothing to the readers of name and arity. -/
def IsSilent (c : Char) : Prop := c ≠ '<' ∧ c ≠ '>' ∧ c ≠ ',' ∧ Text.isBlank c = false

instance : DecidablePred IsSilent := fun c =>
  inferInstanceAs (Decidable (c ≠ '<' ∧ c ≠ '>' ∧ c ≠ ',' ∧ Text.isBlank c = false))

theorem isSilent_globalLead : ∀ c ∈ globalLead, IsSilent c := by
  have hall : globalLead.all (fun c => decide (IsSilent c)) = true := by decide +kernel
  exact fun c hc => of_decide_eq_true (List.all_eq_true.mp hall c hc)

namespace Reads

variable {depth : Int} {s t a b : List Char} {m n : Nat}

theorem nil : Reads depth [] 0 [] := fun rest => by simp

theorem append (hs : Reads depth s m a) (ht : Reads depth t n b) :
    Reads depth (s ++ t) (m + n) (a ++ b) := by
  intro rest
  obtain ⟨hcount, hseen⟩ := hs (t ++ rest)
  obtain ⟨hcount', hseen'⟩ := ht rest
  constructor
  · rw [List.append_assoc, hcount, hcount', Nat.add_assoc]
  · rw [List.append_assoc, hseen, hseen', List.append_assoc]

theorem char {c : Char} (hopen : c ≠ '<') (hclose : c ≠ '>') (hblank : Text.isBlank c = false) :
    Reads depth [c] (if c = ',' ∧ depth = 1 then 1 else 0) (if depth = 0 then [c] else []) := by
  intro rest
  rw [List.singleton_append]
  constructor
  · rw [TypeReference.countArguments, if_neg hopen, if_neg hclose]
  · rw [TypeReference.outerChars, if_neg hopen, if_neg hclose]
    by_cases hdepth : depth = 0
    · rw [if_pos ⟨hdepth, hblank⟩, if_pos hdepth, List.singleton_append]
    · rw [if_neg (fun h => hdepth h.1), if_neg hdepth, List.nil_append]

theorem silent (hs : ∀ c ∈ s, IsSilent c) : Reads depth s 0 (if depth = 0 then s else []) := by
  induction s with
  | nil => simpa using nil
  | cons c s ih =>
    obtain ⟨⟨hopen, hclose, hcomma, hblank⟩, hs⟩ := List.forall_mem_cons.mp hs
    have hfirst : Reads depth [c] _ _ := char hopen hclose hblank
    have hread := hfirst.append (ih hs)
    rw [if_neg fun h => hcomma h.1] at hread
    by_cases hdepth : depth = 0
    · simpa [hdepth] using hread
    · simpa [hdepth] using hread

/-- A list in angle brackets counts as one where it is opened outside of others. -/
theorem angle (hs : Reads (depth + 1) s n []) :
    Reads depth ('<' :: (s ++ ['>'])) ((if depth = 0 then 1 else 0) + n) [] := by
  intro rest
  obtain ⟨hcount, hseen⟩ := hs ('>' :: rest)
  have htext : '<' :: (s ++ ['>']) ++ rest = '<' :: (s ++ '>' :: rest) := by simp
  have hclose : ('>' : Char) ≠ '<' := by decide
  have hdepth : depth + 1 - 1 = depth := by omega
  rw [htext]
  constructor
  · rw [TypeReference.countArguments, if_pos rfl, hcount, TypeReference.countArguments,
      if_neg hclose, if_pos rfl, hdepth, Nat.add_assoc]
  · rw [TypeReference.outerChars, if_pos rfl, hseen, TypeReference.outerChars, if_neg hclose,
      if_pos rfl, hdepth]

end Reads

/-- Inside a list of arguments a part of a text has commas of its own, and nothing of it is seen; it
has no blanks. -/
structure ReadsInside (s : List Char) (commas : Nat) : Prop where
  reads : ∀ depth : Int, 1 ≤ depth → Reads depth s (if depth = 1 then commas else 0) []
  solid : ∀ c ∈ s, Text.isBlank c = false

namespace ReadsInside

variable {s t : List Char} {m n : Nat}

theorem nil : ReadsInside [] 0 where
  reads _ _ := by simpa using Reads.nil
  solid _ hc := absurd hc List.not_mem_nil

theorem append (hs : ReadsInside s m) (ht : ReadsInside t n) : ReadsInside (s ++ t) (m + n) where
  reads depth hdepth := by
    have hread := (hs.reads depth hdepth).append (ht.reads depth hdepth)
    have hcommas : (if depth = 1 then m else 0) + (if depth = 1 then n else 0) =
        if depth = 1 then m + n else 0 := by
      by_cases h : depth = 1
      · simp only [if_pos h]
      · simp only [if_neg h]
    rwa [hcommas] at hread
  solid := List.forall_mem_append.mpr ⟨hs.solid, ht.solid⟩

theorem silent (hs : ∀ c ∈ s, IsSilent c) : ReadsInside s 0 where
  reads depth hdepth := by
    have hread : Reads depth s 0 _ := Reads.silent hs
    rw [if_neg (by omega)] at hread
    simpa using hread
  solid c hc := (hs c hc).2.2.2

theorem sign {c : Char} (h : IsSilent c) : ReadsInside [c] 0 :=
  silent (List.forall_mem_singleton.mpr h)

theorem comma : ReadsInside [','] 1 where
  reads depth hdepth := by
    have hread : Reads depth [','] _ _ := Reads.char (by decide) (by decide) (by decide)
    rw [if_neg (by omega : depth ≠ 0)] at hread
    simpa using hread
  solid := List.forall_mem_singleton.mpr (by decide)

theorem commas (n : Nat) : ReadsInside (List.replicate n ',') n := by
  induction n with
  | zero => exact nil
  | succ n ih =>
    rw [List.replicate_succ']
    exact ih.append comma

/-- A list of arguments inside another one adds nothing to it. -/
theorem angle (hs : ReadsInside s n) : ReadsInside ('<' :: (s ++ ['>'])) 0 where
  reads depth hdepth := by
    have hread := (hs.reads (depth + 1) (by omega)).angle
    rw [if_neg (by omega : depth ≠ 0), if_neg (by omega : depth + 1 ≠ 1)] at hread
    simpa using hread
  solid := List.forall_mem_cons.mpr ⟨by decide, List.forall_mem_append.mpr
    ⟨hs.solid, List.forall_mem_singleton.mpr (by decide)⟩⟩

end ReadsInside

/-! ## What is read of types -/

theorem isBlank_of_isWordChar {c : Char} (h : CSharp.isWordChar c = true) :
    Text.isBlank c = false := by
  have hgap : CSharp.isGap c = false := by
    by_cases hname : CSharp.isNameChar c = true
    · exact CSharp.isGap_of_isNameChar hname
    · simp only [CSharp.isNameChar, CSharp.isNameStart, Bool.or_eq_true, not_or] at hname
      simp only [CSharp.isWordChar, CSharp.isWordStart, hname.1.1, hname.1.2, hname.2,
        Bool.false_or, Bool.or_false, Bool.or_eq_true, Bool.and_eq_true, Bool.not_eq_true',
        beq_iff_eq] at h
      rcases h with rfl | h
      · decide
      · exact h.2
  exact (Bool.or_eq_false_iff.mp hgap).1

/-- The characters of an identifier, with the sign in front. -/
theorem Identifier.mem_text {i : Identifier} {c : Char} (h : c ∈ i.text.toList) :
    c = '@' ∨ CSharp.isWordChar c = true := by
  have hi := i.isIdentifier
  unfold isIdentifierText at hi
  simp only [Bool.and_eq_true, List.all_eq_true] at hi
  by_cases hsign : i.text.toList.head? = some '@'
  · rw [if_pos hsign] at hi
    rw [← List.cons_head?_tail hsign] at h
    rcases List.mem_cons.mp h with rfl | h
    · exact .inl rfl
    · exact .inr (hi.2 c h)
  · rw [if_neg hsign] at hi
    exact .inr (hi.2 c h)

/-- No sign of a type stands in an identifier. -/
theorem Identifier.ne_of_mem {i : Identifier} {c sign : Char} (h : c ∈ i.text.toList)
    (hsign : sign ≠ '@') (hword : CSharp.isWordChar sign = false) : c ≠ sign := by
  rintro rfl
  rcases Identifier.mem_text h with rfl | hc
  · exact hsign rfl
  · exact absurd (hc.symm.trans hword) (by decide)

theorem Identifier.isSilent {i : Identifier} {c : Char} (h : c ∈ i.text.toList) : IsSilent c := by
  refine ⟨ne_of_mem h (by decide) (by decide), ne_of_mem h (by decide) (by decide),
    ne_of_mem h (by decide) (by decide), ?_⟩
  rcases Identifier.mem_text h with rfl | hc
  · decide
  · exact isBlank_of_isWordChar hc

theorem Identifier.text_ne_nil (i : Identifier) : i.text.toList ≠ [] := by
  intro h
  have hi := i.isIdentifier
  rw [h] at hi
  exact absurd hi (by decide)

theorem inside_name (name : Option Identifier) : ReadsInside (optionalName name) 0 := by
  cases name with
  | none => exact .nil
  | some i => exact .silent fun c hc => i.isSilent hc

mutual

/-- Inside a list of arguments a type has the commas that do not stand in angle brackets of its
own. -/
theorem TypeExpr.inside : ∀ t : TypeExpr, ReadsInside t.chars t.looseCommas
  | .named isRooted outer name arguments => by
    have hroot : ReadsInside (if isRooted then globalLead else []) 0 := by
      cases isRooted with
      | true => exact .silent isSilent_globalLead
      | false => exact .nil
    have hname : ReadsInside name.text.toList 0 := .silent fun c hc => name.isSilent hc
    exact hroot.append ((inside_segments outer).append (hname.append (inside_arguments arguments)))
  | .nullable type => type.inside.append (.sign (by decide))
  | .array element commas => by
    have hopen : ReadsInside ['['] 0 := .sign (by decide)
    have hclose : ReadsInside [']'] 0 := .sign (by decide)
    have hrank := hopen.append ((ReadsInside.commas commas).append hclose)
    rw [Nat.zero_add, Nat.add_zero] at hrank
    exact element.inside.append hrank
  | .tuple first second further => by
    have hopen : ReadsInside ['('] 0 := .sign (by decide)
    have hclose : ReadsInside [')'] 0 := .sign (by decide)
    have hbehind := (inside_element second).append ((inside_elements further).append hclose)
    have hall := hopen.append ((inside_element first).append (ReadsInside.comma.append hbehind))
    rw [Nat.zero_add, Nat.add_zero] at hall
    exact hall

theorem inside_element : ∀ e, ReadsInside (elementText e) (elementCommas e)
  | (type, name) => type.inside.append (inside_name name)

theorem inside_elements : ∀ l, ReadsInside (elementsText l) (elementsCommas l)
  | [] => .nil
  | element :: further =>
    ReadsInside.comma.append ((inside_element element).append (inside_elements further))

theorem inside_segments : ∀ l, ReadsInside (segmentsText l) 0
  | [] => .nil
  | (name, arguments) :: inner => by
    have hname : ReadsInside name.text.toList 0 := .silent fun c hc => name.isSilent hc
    have hdot : ReadsInside ['.'] 0 := .sign (by decide)
    exact hname.append ((inside_arguments arguments).append (hdot.append (inside_segments inner)))

theorem inside_arguments : ∀ l, ReadsInside (argumentsText l) 0
  | [] => .nil
  | type :: further => (type.inside.append (inside_further further)).angle

theorem inside_further : ∀ l, ReadsInside (furtherText l) (argumentCount l)
  | [] => .nil
  | type :: further => ReadsInside.comma.append (type.inside.append (inside_further further))

end

/-! ## What is read of a name -/

theorem argumentCount_append (l m : List TypeExpr) :
    argumentCount (l ++ m) = argumentCount l + argumentCount m := by
  induction l with
  | nil => rw [List.nil_append, argumentCount, Nat.zero_add]
  | cons type l ih =>
    rw [List.cons_append, argumentCount, argumentCount, ih]
    omega

theorem outside_globalLead : Reads 0 globalLead 0 globalLead := .silent isSilent_globalLead

theorem outside_name (i : Identifier) : Reads 0 i.text.toList 0 i.text.toList :=
  .silent fun _ hc => i.isSilent hc

/-- A list of arguments outside of others counts its arguments, and their loose commas. -/
theorem outside_arguments : ∀ l, Reads 0 (argumentsText l) (argumentCount l) []
  | [] => .nil
  | type :: further => by
    have hinside : Reads (0 + 1) _ _ [] :=
      (type.inside.append (inside_further further)).reads 1 (Int.le_refl 1)
    have hlist := hinside.angle
    rw [if_pos rfl, if_pos rfl] at hlist
    exact hlist

theorem outside_segments : ∀ l : List (Identifier × List TypeExpr), Reads 0 (segmentsText l)
    (argumentCount (l.flatMap (·.2))) (l.flatMap fun segment => segment.1.text.toList ++ ['.'])
  | [] => .nil
  | (name, arguments) :: inner => by
    have hdot : Reads 0 ['.'] 0 ['.'] := .silent (List.forall_mem_singleton.mpr (by decide))
    have hall := (outside_name name).append
      ((outside_arguments arguments).append (hdot.append (outside_segments inner)))
    rw [Nat.zero_add, Nat.zero_add, ← argumentCount_append, List.nil_append] at hall
    rw [List.flatMap_cons, List.flatMap_cons, List.append_assoc]
    exact hall

/-- A dotted name has a dot behind each segment but the last. -/
theorem toList_dotted_concat (names : List String) (name : String) :
    (dotted (names ++ [name])).toList = names.flatMap (fun n => n.toList ++ ['.']) ++
      name.toList := by
  have hdot : ".".toList = ['.'] := String.toList_ofList
  unfold dotted
  induction names with
  | nil => rw [List.nil_append, String.intercalate_singleton]; rfl
  | cons n names ih =>
    obtain ⟨m, rest, hrest⟩ := List.exists_cons_of_ne_nil (List.append_ne_nil_of_right_ne_nil names
      (List.cons_ne_nil name []))
    rw [List.cons_append, hrest, String.intercalate_cons_cons, ← hrest, String.toList_append,
      String.toList_append, ih, hdot, List.flatMap_cons, List.append_assoc, List.append_assoc,
      List.append_assoc]

namespace TypeName

/-- A name without the word that roots it. -/
def body (t : TypeName) : List Char :=
  segmentsText t.outer ++ (t.name.text.toList ++ argumentsText t.arguments)

theorem toList_text (t : TypeName) :
    t.text.toList = (if t.isRooted then globalLead else []) ++ t.body := by
  rw [text, String.toList_ofList, TypeExpr.chars]
  rfl

theorem toList_dottedName (t : TypeName) : t.dottedName.toList =
    (t.outer.flatMap fun segment => segment.1.text.toList ++ ['.']) ++ t.name.text.toList := by
  rw [dottedName, toList_dotted_concat, List.flatMap_map]

theorem dottedName_ne_nil (t : TypeName) : t.dottedName.toList ≠ [] := by
  rw [toList_dottedName]
  exact List.append_ne_nil_of_right_ne_nil _ t.name.text_ne_nil

theorem dottedName_ne_empty (t : TypeName) : t.dottedName ≠ "" :=
  fun h => t.dottedName_ne_nil (String.toList_eq_nil_iff.mpr h)

/-- The whole name is seen, and the arguments of all its segments are counted. -/
theorem reads_body (t : TypeName) : Reads 0 t.body
    (argumentCount (t.outer.flatMap (·.2) ++ t.arguments)) t.dottedName.toList := by
  have hall := (outside_segments t.outer).append
    ((outside_name t.name).append (outside_arguments t.arguments))
  rw [Nat.zero_add, ← argumentCount_append, List.append_nil, ← toList_dottedName] at hall
  exact hall

/-- A name begins with its first identifier, which ends before an angle bracket or a dot. -/
theorem body_head (t : TypeName) : ∃ (i : Identifier) (rest : List Char),
    t.body = i.text.toList ++ rest ∧ ∀ c ∈ rest.head?, c = '<' ∨ c = '.' := by
  have harguments : ∀ l rest, (∀ c ∈ rest.head?, c = '<' ∨ c = '.') →
      ∀ c ∈ (argumentsText l ++ rest).head?, c = '<' ∨ c = '.' := by
    rintro (_ | ⟨type, further⟩) rest hrest
    · exact hrest
    · exact fun c hc => .inl (Option.some.inj hc).symm
  unfold body
  cases t.outer with
  | nil =>
    refine ⟨t.name, argumentsText t.arguments, rfl, ?_⟩
    rw [← List.append_nil (argumentsText t.arguments)]
    exact harguments _ [] (by simp)
  | cons segment inner =>
    obtain ⟨name, arguments⟩ := segment
    refine ⟨name, argumentsText arguments ++ ('.' :: segmentsText inner ++ _), by
      rw [segmentsText, List.append_assoc, List.append_assoc], ?_⟩
    exact harguments _ _ fun c hc => .inr (Option.some.inj hc).symm

/-- A name that is not rooted does not begin with the root word. -/
theorem not_prefix_body (t : TypeName) : ¬ globalLead <+: t.body := by
  obtain ⟨i, rest, hbody, hrest⟩ := t.body_head
  have hlead : globalLead = "global".toList ++ [':', ':'] := by decide +kernel
  have hword : ('<' : Char) ∉ "global".toList ∧ ('.' : Char) ∉ "global".toList := by decide +kernel
  rintro ⟨behind, hbehind⟩
  rw [hbody, hlead, List.append_assoc, List.append_eq_append_iff] at hbehind
  rcases hbehind with ⟨further, hi, hcolons⟩ | ⟨further, hglobal, hfurther⟩
  · -- the identifier ends with the word or goes on into the colons
    cases further with
    | nil =>
      rw [List.nil_append] at hcolons
      exact absurd (hrest ':' (by rw [← hcolons]; rfl)) (by decide)
    | cons c further =>
      obtain rfl : ':' = c := (List.cons.inj hcolons).1
      exact i.ne_of_mem (c := ':') (by rw [hi]; simp) (by decide) (by decide) rfl
  · -- it ends with the word or before
    cases further with
    | nil => exact absurd (hrest ':' (by rw [hfurther]; rfl)) (by decide)
    | cons c further =>
      rcases hrest c (by rw [hfurther]; rfl) with rfl | rfl
      · exact hword.1 (by rw [hglobal]; simp)
      · exact hword.2 (by rw [hglobal]; simp)

end TypeName

end FieldWiring
