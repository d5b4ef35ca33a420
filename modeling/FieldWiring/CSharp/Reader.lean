import FieldWiring.CSharp.Syntax
import FieldWiring.CSharp.Token

/-!
# Reading C# declarations

From trees to declarations. The trees of a body fall into runs, one for each member: a run ends at a
semicolon, or at a pair of braces unless a value follows. Each run is read by how it begins; a run
that is no declaration of interest is dropped.

Model of the part of `_UnitVisitor` that reads one node, and of the grammar below it: `readType` and
`readBases` stand for `_add_type`, `_base_types` and `_type_parameters`, `readField` for `_field`,
`readMarkers` for `_markers`, `readImport` for `_add_using`. `parseSource` is `parse_source`.

Results:
* `flatten_runs`: the runs of a body are its trees, one after the other.
* `typeSpan_le`, `argumentSpan_le`: types are not longer than the run they stand in.
-/

namespace FieldWiring.CSharp

/-! ## Words and identifiers -/

/-- The words that name types of the language. -/
def builtInTypes : List String :=
  ["bool", "byte", "char", "decimal", "double", "float", "int", "long", "object", "sbyte", "short",
   "string", "uint", "ulong", "ushort", "void"]

/-- The words that are no identifiers. -/
def reservedWords : List String :=
  builtInTypes ++
    ["abstract", "as", "base", "break", "case", "catch", "checked", "class", "const", "continue",
     "default", "delegate", "do", "else", "enum", "event", "explicit", "extern", "false", "finally",
     "fixed", "for", "foreach", "goto", "if", "implicit", "in", "interface", "internal", "is",
     "lock", "namespace", "new", "null", "operator", "out", "override", "params", "private",
     "protected", "public", "readonly", "ref", "return", "sealed", "sizeof", "stackalloc", "static",
     "struct", "switch", "this", "throw", "true", "try", "typeof", "unchecked", "unsafe", "using",
     "virtual", "volatile", "while"]

/-- The identifier that a tree is. -/
def Tree.identifier? (t : Tree) : Option String :=
  t.word?.filter fun w => !reservedWords.contains w

/-- The tree is one of some signs. -/
def Tree.isAnySign (signs : List String) (t : Tree) : Bool := signs.any fun sign => t.isSign sign

/-- The tree is one of some words. -/
def Tree.isAnyWord (words : List String) (t : Tree) : Bool := t.word?.any words.contains

/-! ## Type arguments -/

/-- What has been read of a list of type arguments: nothing, only commas, the words before a type,
a point in a name, a name, a whole type, or a function pointer up to its star. -/
inductive ArgumentPoint where
  | start
  | omitted
  | lead
  | dot
  | name
  | whole
  | pointer
deriving DecidableEq, Repr

/-- What a tree means for a list of type arguments: it cannot stand there, it closes the list, or
the list goes on at a point and so many open angle brackets deep. -/
inductive ArgumentStep where
  | misplaced
  | closes
  | goesOn (point : ArgumentPoint) (depth : Nat)
deriving DecidableEq, Repr

/-- The step to an angle bracket that closes the innermost of `depth` open ones. -/
def closeStep (depth : Nat) : ArgumentStep :=
  if depth ≤ 1 then .closes else .goesOn .whole (depth - 1)

/-- The step to a tree where a type begins; `next` stands behind it. -/
def typeStep (depth : Nat) (t : Tree) (next : Option Tree) : ArgumentStep :=
  if t.isAnyWord ["ref", "readonly", "in", "out"] then .goesOn .lead depth
  else if t.isWord "delegate" && next.any (·.isSign "*") then .goesOn .pointer depth
  else if t.isAnyWord builtInTypes then .goesOn .whole depth
  else if t.identifier?.isSome then .goesOn .name depth
  else if t.isGroup '(' && t.inner.any (·.isSign ",") then .goesOn .whole depth
  else .misplaced

/-- The step to a tree behind a whole type. -/
def behindTypeStep (depth : Nat) (t : Tree) : ArgumentStep :=
  if t.isAnySign ["?", "*"] || t.isGroup '[' then .goesOn .whole depth
  else if t.isSign "," then .goesOn .lead depth
  else if t.isSign ">" then closeStep depth
  else .misplaced

/-- The step to a tree in a list of type arguments. -/
def argumentStep (point : ArgumentPoint) (depth : Nat) (t : Tree) (next : Option Tree) :
    ArgumentStep :=
  match point with
  | .start =>
    if t.isSign ">" then closeStep depth
    else if t.isSign "," then .goesOn .omitted depth
    else typeStep depth t next
  | .omitted =>
    if t.isSign ">" then closeStep depth
    else if t.isSign "," then .goesOn .omitted depth
    else .misplaced
  | .lead => typeStep depth t next
  | .dot => if t.identifier?.isSome then .goesOn .name depth else .misplaced
  | .pointer => if t.isSign "<" then .goesOn .start (depth + 1) else .goesOn .pointer depth
  | .name =>
    if t.isSign "<" then .goesOn .start (depth + 1)
    else if t.isAnySign [".", "::"] then .goesOn .dot depth
    else behindTypeStep depth t
  | .whole => if t.isSign "." then .goesOn .dot depth else behindTypeStep depth t

/-- The number of trees up to the angle bracket that closes `depth` open ones; `none` when other
things than types stand before it. -/
def argumentSpan (point : ArgumentPoint) (depth : Nat) : List Tree → Option Nat
  | [] => none
  | t :: ts =>
    match argumentStep point depth t ts.head? with
    | .misplaced => none
    | .closes => some 1
    | .goesOn point depth => (argumentSpan point depth ts).map (· + 1)

theorem argumentSpan_le {point : ArgumentPoint} {depth n : Nat} {ts : List Tree}
    (h : argumentSpan point depth ts = some n) : n ≤ ts.length := by
  induction ts generalizing point depth n with
  | nil => cases h
  | cons t ts ih =>
    simp only [argumentSpan] at h
    split at h
    · cases h
    · cases h
      simp
    · obtain ⟨m, hm, rfl⟩ := Option.map_eq_some_iff.1 h
      have := ih hm
      simp only [List.length_cons]
      omega

/-! ## Values between commas -/

/-- The signs that stand behind a value and cannot begin one. -/
def infixSigns : List String :=
  [".", ",", "?", ":", ";", "==", "!=", "&&", "||", "??", "|", "^", "&", "/", "%", "+",
    "-", "*", "<",
   ">", "<=", ">=", "..", "->", "=", "+=", "-=", "*=", "/=", "%=", "&=", "|=", "^="]

/-- The words that stand behind a value. -/
def infixWords : List String := ["is", "as", "and", "or", "switch", "with"]

/-- The words that stand before a value. -/
def prefixWords : List String :=
  ["await", "new", "ref", "throw", "stackalloc", "async", "static", "delegate", "typeof", "sizeof",
   "default", "checked", "unchecked"]

/-- The tree begins a value that no bracket begins. -/
def beginsValue (t : Tree) : Bool :=
  t.isLiteral || t.word?.any fun w => !infixWords.contains w

/-- What may follow type arguments: neither a value, nor the rest of a conversion or of a function
whose parameters follow. A pattern may go on with a name. -/
def followsArguments (isPattern : Bool) : List Tree → Bool
  | [] => true
  | t :: ts =>
    if t.isGroup '(' then !ts.head?.any fun u => u.isSign "=>" || beginsValue u
    else if t.isGroup '[' || t.isGroup '{' || t.isAnySign infixSigns then true
    else if t.isAnySign ["!", "++", "--"] then
      !ts.head?.any fun u => beginsValue u || u.isGroup '('
    else if t.isAnyWord infixWords then true
    else if t.isAnyWord prefixWords then false
    else t.word?.isSome && (isPattern || ts.head?.any beginsValue)

/-- The words between the parts of a pattern. -/
def patternWords : List String := ["not", "and", "or"]

/-- The row ends with a name behind a word for patterns. -/
def endsInPattern (ts : List Tree) : Bool :=
  let rest := ts.reverse.dropWhile fun t =>
    t.isAnySign [".", "::"] || t.identifier?.any fun w => !patternWords.contains w
  rest.head?.any (·.isAnyWord ("is" :: patternWords))

/-- The number of trees of type arguments behind an opening angle bracket and the row `earlier`;
zero when the bracket compares. -/
def argumentsBehind (earlier ts : List Tree) : Nat :=
  if earlier.getLast?.any (·.identifier?.isSome) then
    match argumentSpan .start 1 ts with
    | none => 0
    | some n => if followsArguments (endsInPattern earlier) (ts.drop n) then n else 0
  else 0

/-- A query is open in which a comma stands between the keys of an order. -/
def inOrderClause (ts : List Tree) : Bool :=
  let clause := ts.reverse.find?
    (·.isAnyWord ["orderby", "select", "group", "let", "join", "into", "where", "from"])
  ts.head?.any (·.isWord "from") && clause.any (·.isWord "orderby")

/-- The parts between commas, except the commas among type arguments and in queries; `skip` trees
belong to the current part in any case. -/
def splitValues (skip : Nat) (current : List Tree) : List Tree → List (List Tree)
  | [] => [current]
  | t :: ts =>
    if 0 < skip then splitValues (skip - 1) (current ++ [t]) ts
    else if t.isSign "," && !inOrderClause current then current :: splitValues 0 [] ts
    else if t.isSign "<" then splitValues (argumentsBehind current ts) (current ++ [t]) ts
    else splitValues 0 (current ++ [t]) ts

/-- The parts between commas outside of angle brackets, of which `depth` are open. -/
def splitTypes (depth : Nat) (current : List Tree) : List Tree → List (List Tree)
  | [] => [current]
  | t :: ts =>
    if depth = 0 && t.isSign "," then current :: splitTypes 0 [] ts
    else
      let depth := if t.isSign "<" then depth + 1 else if t.isSign ">" then depth - 1 else depth
      splitTypes depth (current ++ [t]) ts

/-- The parts that are not empty. -/
def nonEmpty (parts : List (List Tree)) : List (List Tree) := parts.filter fun part => !part.isEmpty

/-! ## Types as written -/

/-- How much of a type is read: nothing yet, a function pointer up to its star, or a whole type. -/
inductive TypePoint where
  | start
  | pointer
  | whole
deriving DecidableEq, Repr

/-- The name of a field ends here: a size may follow it, and then a value, more names or the end. -/
def endsName : List Tree → Bool
  | [] => false
  | t :: ts =>
    let ends (u : Tree) : Bool := u.isAnySign [";", ",", "="]
    ends t || t.isGroup '[' && ts.head?.any ends

/-- A word that may stand before a type. -/
def isTypeLead (w : String) (ts : List Tree) : Bool :=
  w = "ref" || w = "readonly" ||
    w = "scoped" &&
      match ts with
      | t :: us =>
        if t.isGroup '(' then us.head?.any (·.word?.isSome) else t.word?.isSome && !endsName us
      | [] => false

/-- The number of trees of a type, of which `point` is read, `depth` angle brackets deep. -/
def typeSpan (point : TypePoint) (depth : Nat) : List Tree → Nat
  | [] => 0
  | t :: ts =>
    if 0 < depth then
      if t.isSign "<" then 1 + typeSpan .whole (depth + 1) ts
      else if t.isSign ">" then 1 + typeSpan .whole (depth - 1) ts
      else 1 + typeSpan .whole depth ts
    else
      match point with
      | .start =>
        match t.word? with
        | some w =>
          if isTypeLead w ts then 1 + typeSpan .start 0 ts
          else if w = "delegate" && ts.head?.any (·.isSign "*") then 1 + typeSpan .pointer 0 ts
          else 1 + typeSpan .whole 0 ts
        | none => if t.isGroup '(' then 1 + typeSpan .whole 0 ts else 0
      | .pointer =>
        if t.isSign "<" then 1 + typeSpan .whole 1 ts else 1 + typeSpan .pointer 0 ts
      | .whole =>
        if t.isSign "." || t.isSign "::" then 1 + typeSpan .start 0 ts
        else if t.isSign "<" then 1 + typeSpan .whole 1 ts
        else if t.isSign "?" || t.isSign "*" || t.isGroup '[' then 1 + typeSpan .whole 0 ts
        else 0

theorem typeSpan_le (point : TypePoint) (depth : Nat) (ts : List Tree) :
    typeSpan point depth ts ≤ ts.length := by
  fun_induction typeSpan point depth ts <;> simp_all <;> omega

/-! ## Attributes -/

/-- The last comment or directive among lexemes. -/
def lastNote (xs : List Lexeme) : Option Lexeme :=
  xs.reverse.find? fun x => x.kind = .directive || x.text.head? = some '/'

/-- The text of a value without the name that says which parameter or property it is for. The words
for the object itself are no value of their own behind a name: what stands before them counts. -/
def argumentText (ts : List Tree) : String :=
  match ts with
  | t :: sign :: value :: rest =>
    if t.identifier?.isSome && sign.isAnySign [":", "="] then
      if rest.isEmpty && value.isAnyWord ["this", "base"] then
        match lastNote (sign.first.before ++ value.first.before) with
        | some x => String.ofList x.text
        | none => treesText [t]
      else treesText (value :: rest)
    else treesText ts
  | _ => treesText ts

/-- An attribute: a name, and arguments in parentheses. -/
def readMarker (ts : List Tree) : Marker :=
  let n := typeSpan .start 0 ts
  let arguments := ((ts.drop n).head?.map Tree.inner).getD []
  ⟨treesText (ts.take n), (nonEmpty (splitValues 0 [] arguments)).map argumentText⟩

/-- The word before a list of attributes that says what they are for. -/
def attributeTarget : List Tree → Option String
  | t :: sign :: _ => if sign.isSign ":" then t.word? else none
  | _ => none

/-- The attributes of a list in brackets. -/
def readMarkers (ts : List Tree) : List Marker :=
  let list := if (attributeTarget ts).isSome then ts.drop 2 else ts
  (nonEmpty (splitTypes 0 [] list)).map readMarker

/-- The list of attributes is for the whole program. -/
def isGlobalList (t : Tree) : Bool :=
  t.isGroup '[' && (attributeTarget t.inner == some "assembly" ||
    attributeTarget t.inner == some "module")

/-! ## Members -/

/-- A field: a type, a name, and then more names, a size, a value or the end. -/
def readField (markers : List Marker) (line : Nat) (ts : List Tree) : Option Field :=
  let n := typeSpan .start 0 ts
  match ts.drop n with
  | t :: rest =>
    match t.identifier? with
    | some name =>
      if 0 < n && endsName rest then
        some ⟨Text.collapse (treesText (ts.take n)), name, markers, line⟩
      else none
    | none => none
  | [] => none

/-- The words that modify a declaration. -/
def modifierWords : List String :=
  ["abstract", "async", "const", "extern", "file", "fixed", "internal", "new", "override",
   "partial", "private", "protected", "public", "readonly", "required", "sealed", "static",
   "unsafe", "virtual", "volatile"]

/-- The modifiers at the beginning of a run, and what follows. The word that makes a struct a
reference is none of them, but is passed over; the one that hides a type from other files can be the
type of a field. -/
def takeModifiers : List Tree → List String × List Tree
  | [] => ([], [])
  | t :: ts =>
    match t.word? with
    | none => ([], t :: ts)
    | some w =>
      let (words, rest) := takeModifiers ts
      if w = "file" && (readField [] 0 (t :: ts)).isSome then ([], t :: ts)
      else if modifierWords.contains w then (w :: words, rest)
      else if w = "ref" && ts.head?.any fun u => u.isWord "struct" || u.isWord "partial" then
        (words, rest)
      else ([], t :: ts)

/-- The kind of type that a run declares, and what follows. -/
def takeKind : List Tree → Option (TypeKind × List Tree)
  | [] => none
  | t :: ts =>
    if t.isWord "class" then some (.classType, ts)
    else if t.isWord "struct" then some (.structType, ts)
    else if t.isWord "interface" then some (.interfaceType, ts)
    else if t.isWord "record" then
      match ts with
      | u :: us =>
        if u.isWord "class" || u.isWord "struct" then some (.recordType, us)
        else if us.head?.any fun v => v.isSign "=" || v.isSign "," then none
        else some (.recordType, ts)
      | [] => none
    else none

/-- The name of a type parameter: the last word, behind its attributes and variance. -/
def parameterName (ts : List Tree) : Option String := (ts.filterMap Tree.word?).getLast?

/-- The type parameters at the beginning of a run, and what follows. -/
def takeParameters : List Tree → List String × List Tree
  | [] => ([], [])
  | t :: ts =>
    if t.isSign "<" then
      let list := ts.takeWhile (!·.isSign ">")
      ((nonEmpty (splitTypes 0 [] list)).filterMap parameterName, ts.drop (list.length + 1))
    else ([], t :: ts)

/-- A constraint on a type parameter begins here. -/
def beginsConstraint : List Tree → Bool
  | t :: u :: v :: _ => t.isWord "where" && u.word?.isSome && v.isSign ":"
  | _ => false

/-- The list of base types, up to the constraints, the body or the end. -/
def baseList : List Tree → List Tree
  | [] => []
  | t :: ts =>
    if t.isGroup '{' || t.isSign ";" || beginsConstraint (t :: ts) then [] else t :: baseList ts

/-- The base types of a list, behind the trees `current` of one with `depth` open angle brackets.
The arguments of a constructor call are left out; a directive between base types counts as one. -/
def baseTexts (depth : Nat) (current : List Tree) : List Tree → List String
  | [] => (nonEmpty [current]).map treesText
  | t :: ts =>
    let directives := t.directives.map fun x => String.ofList x.text
    if current.isEmpty then
      directives ++ baseTexts 0 (if t.isSign "," then [] else [t]) ts
    else if depth = 0 && (t.isSign "," || t.isGroup '(') then
      treesText current :: directives ++ baseTexts 0 [] ts
    else
      let depth := if t.isSign "<" then depth + 1 else if t.isSign ">" then depth - 1 else depth
      baseTexts depth (current ++ [t]) ts

/-- The base types of a run, behind the name, the type parameters and the primary constructor. -/
def readBases (ts : List Tree) : List TypeReference :=
  match ts.dropWhile (·.isGroup '(') with
  | [] => []
  | t :: rest => if t.isSign ":" then (baseTexts 0 [] (baseList rest)).map (⟨·⟩) else []

/-- The head of a type declaration. -/
def readType (modifiers : List String) (line : Nat) (ts : List Tree) : Option TypeHead := do
  let (kind, rest) ← takeKind ts
  let name ← rest.head? >>= Tree.word?
  let (typeParameters, rest) := takeParameters (rest.drop 1)
  return ⟨kind, name, modifiers, typeParameters, readBases rest, line⟩

/-- Two words stand side by side. -/
def hasWordPair : List Tree → Bool
  | t :: u :: ts => (t.word?.isSome && u.word?.isSome) || hasWordPair (u :: ts)
  | _ => false

/-- How an import directive brings something in, under which new name, and what, behind its first
words; `none` when the run is a statement. -/
def readTarget (isStatic : Bool) (ts : List Tree) : Option (ImportKind × String × List Tree) :=
  match ts with
  | [] => none
  | t :: rest =>
    if rest.head?.any (·.isSign "=") then t.word?.map fun w => (.renamed, w, rest.drop 1)
    else if t.word?.isNone || ts.any (·.isSign "=") || hasWordPair ts then none
    else some (if isStatic then .statics else .names, "", ts)

/-- An import directive, where its scope is still open. A preprocessor directive before its end
takes the place of what it names. -/
def readImport (ts : List Tree) : Option ImportDirective := do
  let isGlobal := ts.head?.any (·.isWord "global")
  let rest := if isGlobal then ts.drop 1 else ts
  guard (rest.head?.any (·.isWord "using"))
  let leads := (rest.drop 1).takeWhile (·.isAnyWord ["static", "unsafe"])
  let body := (rest.drop (1 + leads.length)).takeWhile fun t => !t.isSign ";"
  let (kind, newName, target) ← readTarget (leads.any (·.isWord "static")) body
  let late := (rest.drop (1 + leads.length + body.length)).head?.bind (·.directives.getLast?)
  return { text := Text.collapse (treesText ts)
           target := Text.squeeze ((late.map fun x => String.ofList x.text).getD (treesText target))
           kind := kind, newName := newName, isGlobal := isGlobal }

/-- The name of a namespace that a run opens. -/
def readNamespace : List Tree → Option String
  | [] => none
  | t :: ts =>
    if t.isWord "namespace" then
      some (Text.squeeze (treesText (ts.takeWhile fun u => !(u.isGroup '{' || u.isSign ";"))))
    else none

/-! ## Runs -/

/-- A tree together with the members that stand between its braces. -/
abbrev Item := Tree × List Member

/-- The runs of a body; `current` are the items of the present one, last first, and `valued` says
that a value has begun in it. -/
def runsFrom (valued : Bool) (current : List Item) : List Item → List (List Item)
  | [] => if current.isEmpty then [] else [current.reverse]
  | i :: is =>
    if i.1.isSign ";" ||
        (i.1.isGroup '{' && !valued && !is.head?.any fun next => next.1.isSign "=") then
      (i :: current).reverse :: runsFrom false [] is
    else runsFrom (valued || i.1.isSign "=" || i.1.isSign "=>") (i :: current) is

/-- The runs of a body. -/
def runs (items : List Item) : List (List Item) := runsFrom false [] items

theorem flatten_runsFrom (valued : Bool) (current items : List Item) :
    (runsFrom valued current items).flatten = current.reverse ++ items := by
  induction items generalizing valued current with
  | nil => cases current <;> simp [runsFrom]
  | cons i is ih =>
    simp only [runsFrom]
    split <;> simp [ih]

/-- The runs of a body are its trees, one after the other. -/
theorem flatten_runs (items : List Item) : (runs items).flatten = items := by
  simp [runs, flatten_runsFrom]

/-- The members in the first braces of a run. -/
def runBody (run : List Item) : Option (List Member) :=
  (run.find? fun i => i.1.isGroup '{').map (·.2)

/-- The member that a run declares. -/
def readRun (run : List Item) : Option Member :=
  let ts := (run.map (·.1)).dropWhile isGlobalList
  let line := (ts.head?.map (·.first.line)).getD 0
  let lists := ts.takeWhile (·.isGroup '[')
  let markers := lists.flatMap fun t => readMarkers t.inner
  let (modifiers, rest) := takeModifiers (ts.drop lists.length)
  match readImport ts, readNamespace ts, readType modifiers line rest with
  | some directive, _, _ => some (.importing directive)
  | none, some name, _ =>
    match runBody run with
    | some members => some (.block name members)
    | none => some (.fileScoped name)
  | none, none, some head => some (.type head ((runBody run).getD []))
  | none, none, none => (readField markers line rest).map .field

mutual
/-- The members that stand between the brackets of a tree. -/
def Tree.members : Tree → List Member
  | .leaf _ => []
  | .group _ inner _ => (runs (itemsOf inner)).filterMap readRun
/-- The trees of a body with the members in each. -/
def itemsOf : List Tree → List Item
  | [] => []
  | t :: ts => (t, t.members) :: itemsOf ts
end

/-- The members of a compilation unit. -/
def readUnit (ts : List Tree) : List Member := (runs (itemsOf ts)).filterMap readRun

/-- The source unit and the types that a C# source at a path declares. -/
def parseSource (path source : String) : SourceUnit × List TypeDeclaration :=
  placeUnit path (readUnit (trees source.toList))

end FieldWiring.CSharp
