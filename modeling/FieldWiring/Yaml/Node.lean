import FieldWiring.Yaml.Tag

/-!
# Nodes of a document

The tokens of a document as a graph of nodes: scalars, sequences and mappings, each with its type. A
node may occur in several places, and also within itself: nodes refer to one another by number.

Model of the safe loader that `_read_config` calls, its parser and composer.

Results:
* `fresh_number`: a new node has the next number.
-/

namespace FieldWiring.Yaml

/-- What a node holds: text, or the numbers of other nodes. -/
inductive Content where
  | scalar (text : String)
  | items (nodes : List Nat)
  | entries (nodes : List (Nat × Nat))
deriving DecidableEq, Repr, Inhabited

/-- The content is text. -/
def Content.isScalar : Content → Bool
  | scalar _ => true
  | _ => false

/-- A node with its type. -/
structure Node where
  tag : Tag
  content : Content
deriving DecidableEq, Repr

/-- The nodes of a document by their numbers. -/
abbrev Graph := Array Node

/-- What composing nodes goes by: the tokens to come, the nodes so far, the numbers of the anchored
ones, the meanings of the handles of tags, and the number of collections around the next token. -/
structure Composer where
  tokens : List Token
  graph : Graph := #[]
  anchors : List (String × Nat) := []
  handles : List (String × String) := []
  depth : Nat := 0

/-- Composing can fail, and goes on from state to state. -/
abbrev Compose (α : Type) := StateT Composer (Except Fault) α

namespace Compose

/-- The next token; a fault of the scan in its place ends composing. -/
def peek : Compose Token := do
  match (← get).tokens.head? with
  | some (.failed f) => throw f
  | some t => return t
  | none => return .streamEnd

/-- Passes the next token. -/
def drop : Compose Unit := modify fun s => { s with tokens := s.tokens.drop 1 }

/-- Refuses the next token; a fault of the scan comes first. -/
def refuse {α : Type} (reason : String) : Compose α := do
  let _ ← peek
  throw (.malformed reason)

/-- Passes the next token, which must be `t`. -/
def expect (t : Token) (reason : String) : Compose Unit := do
  if (← peek) = t then drop else refuse reason

/-- Adds a node and gives its number. -/
def fresh (n : Node) : Compose Nat := do
  let s ← get
  StateT.set { s with graph := s.graph.push n }
  return s.graph.size

theorem fresh_number (n : Node) (s : Composer) :
    (fresh n).run s = .ok (s.graph.size, { s with graph := s.graph.push n }) := rfl

/-- Gives a node its content. -/
def fill (id : Nat) (content : Content) : Compose Unit :=
  modify fun s => { s with graph := s.graph.modify id fun n => { n with content := content } }

/-- Names a node by an anchor, which must be new. -/
def anchorNode (anchor : Option String) (id : Nat) : Compose Unit := do
  match anchor with
  | none => pure ()
  | some name =>
    if ((← get).anchors.lookup name).isSome then throw (.malformed "found duplicate anchor")
    modify fun s => { s with anchors := (name, id) :: s.anchors }

/-- An empty scalar. -/
def empty : Compose Nat := fresh ⟨.null, .scalar ""⟩

/-- The properties before a node: its anchor and its tag, in either order. -/
def properties : (fuel : Nat) → Option String → Option String →
    Compose (Option String × Option String)
  | 0, anchor, tag => return (anchor, tag)
  | fuel + 1, anchor, tag => do
    match ← peek, anchor, tag with
    | .anchor name, none, _ =>
      drop
      properties fuel (some name) tag
    | .tag none suffix, _, none =>
      drop
      properties fuel anchor (some suffix)
    | .tag (some handle) suffix, _, none =>
      drop
      match (← get).handles.lookup handle with
      | none => throw (.malformed "found undefined tag handle")
      | some lead => properties fuel anchor (some (lead ++ suffix))
    | _, _, _ => return (anchor, tag)

/-- The type of a collection: its tag, or `common` when there is none. -/
def collectionTag (tag : Option String) (common : Tag) : Tag :=
  match tag with
  | none => common
  | some t => if t = "!" then common else .ofText t

/-- The type of a scalar: its tag, or what its text tells. -/
def scalarTag (tag : Option String) (isPlain : Bool) (text : String) : Tag :=
  match tag with
  | none => implicitTag isPlain text
  | some t => if t = "!" then implicitTag true text else .ofText t

/-- Begins a collection, which its parts may refer to. -/
def collection (anchor tag : Option String) (common : Tag) : Compose Nat := do
  let id ← fresh ⟨collectionTag tag common, .items []⟩
  anchorNode anchor id
  return id

/-- Adds a scalar. -/
def scalar (anchor tag : Option String) (isPlain : Bool) (text : String) : Compose Nat := do
  let id ← fresh ⟨scalarTag tag isPlain text, .scalar text⟩
  anchorNode anchor id
  return id

/-- The most collections that may stand inside of each other. -/
def maxDepth : Nat := 488

/-- Composes what stands inside of a collection. -/
def inside {α : Type} (content : Compose α) : Compose α := do
  let s ← get
  if maxDepth ≤ s.depth then throw .tooDeep
  set { s with depth := s.depth + 1 }
  let a ← content
  modify fun t => { t with depth := s.depth }
  return a

mutual
/-- A node; `inBlock` says that it may be a block, `loose` that it may be a sequence at the
indentation of the mapping around it. -/
def node (inBlock loose : Bool) : (fuel : Nat) → Compose Nat
  | 0 => throw (.malformed "too deep")
  | fuel + 1 => do
    match ← peek with
    | .reference name =>
      drop
      match (← get).anchors.lookup name with
      | some id => return id
      | none => throw (.malformed "found undefined alias")
    | _ =>
      let (anchor, tag) ← properties 2 none none
      match ← peek, inBlock, loose with
      | .item, _, true =>
        let id ← collection anchor tag .seq
        fill id (.items (← inside (looseItems fuel)))
        return id
      | .scalar text isPlain, _, _ =>
        drop
        scalar anchor tag isPlain text
      | .openList, _, _ =>
        drop
        let id ← collection anchor tag .seq
        fill id (.items (← inside (listItems true fuel)))
        return id
      | .openMap, _, _ =>
        drop
        let id ← collection anchor tag .map
        fill id (.entries (← inside (mapEntries true fuel)))
        return id
      | .sequenceStart, true, _ =>
        drop
        let id ← collection anchor tag .seq
        fill id (.items (← inside (blockItems fuel)))
        return id
      | .mappingStart, true, _ =>
        drop
        let id ← collection anchor tag .map
        fill id (.entries (← inside (blockEntries fuel)))
        return id
      | _, _, _ =>
        if anchor.isSome || tag.isSome then scalar anchor tag tag.isNone ""
        else refuse "expected the node content"
/-- The items of a block sequence, with its end. -/
def blockItems : (fuel : Nat) → Compose (List Nat)
  | 0 => throw (.malformed "too deep")
  | fuel + 1 => do
    match ← peek with
    | .item =>
      drop
      let id ←
        match ← peek with
        | .item => empty
        | .blockEnd => empty
        | _ => node true false fuel
      return id :: (← blockItems fuel)
    | .blockEnd =>
      drop
      return []
    | _ => refuse "expected <block end>"
/-- The items of a sequence at the indentation of the mapping around it. -/
def looseItems : (fuel : Nat) → Compose (List Nat)
  | 0 => throw (.malformed "too deep")
  | fuel + 1 => do
    match ← peek with
    | .item =>
      drop
      let id ←
        match ← peek with
        | .item => empty
        | .key => empty
        | .colon => empty
        | .blockEnd => empty
        | _ => node true false fuel
      return id :: (← looseItems fuel)
    | _ => return []
/-- The entries of a block mapping, with its end. -/
def blockEntries : (fuel : Nat) → Compose (List (Nat × Nat))
  | 0 => throw (.malformed "too deep")
  | fuel + 1 => do
    match ← peek with
    | .key =>
      drop
      let k ← blockPart fuel
      let v ←
        match ← peek with
        | .colon => do
          drop
          blockPart fuel
        | _ => empty
      return (k, v) :: (← blockEntries fuel)
    | .blockEnd =>
      drop
      return []
    | _ => refuse "expected <block end>"
/-- A key or a value of a block mapping. -/
def blockPart : (fuel : Nat) → Compose Nat
  | 0 => throw (.malformed "too deep")
  | fuel + 1 => do
    match ← peek with
    | .key => empty
    | .colon => empty
    | .blockEnd => empty
    | _ => node true true fuel
/-- The items of a list in brackets, with its end. -/
def listItems (isFirst : Bool) : (fuel : Nat) → Compose (List Nat)
  | 0 => throw (.malformed "too deep")
  | fuel + 1 => do
    if (← peek) = .closeList then
      drop
      return []
    else
      if !isFirst then expect .comma "expected ',' or ']'"
      match ← peek with
      | .key =>
        drop
        let id ← collection none none .map
        fill id (.entries (← inside do
          let k ← flowPart .closeList true fuel
          let v ← flowValue .closeList fuel
          return [(k, v)]))
        return id :: (← listItems false fuel)
      | .closeList =>
        drop
        return []
      | _ =>
        let id ← node false false fuel
        return id :: (← listItems false fuel)
/-- The entries of a mapping in braces, with its end. -/
def mapEntries (isFirst : Bool) : (fuel : Nat) → Compose (List (Nat × Nat))
  | 0 => throw (.malformed "too deep")
  | fuel + 1 => do
    if (← peek) = .closeMap then
      drop
      return []
    else
      if !isFirst then expect .comma "expected ',' or a closing brace"
      match ← peek with
      | .key =>
        drop
        let k ← flowPart .closeMap true fuel
        let v ← flowValue .closeMap fuel
        return (k, v) :: (← mapEntries false fuel)
      | .closeMap =>
        drop
        return []
      | _ =>
        let k ← node false false fuel
        let v ← empty
        return (k, v) :: (← mapEntries false fuel)
/-- A key or a value in brackets that `closing` closes; it is empty before a comma, and a key also
before a colon. -/
def flowPart (closing : Token) (isKey : Bool) : (fuel : Nat) → Compose Nat
  | 0 => throw (.malformed "too deep")
  | fuel + 1 => do
    let t ← peek
    if t = closing ∨ t = .comma ∨ (isKey ∧ t = .colon) then empty else node false false fuel
/-- The value behind a key in brackets that `closing` closes. -/
def flowValue (closing : Token) : (fuel : Nat) → Compose Nat
  | 0 => throw (.malformed "too deep")
  | fuel + 1 => do
    if (← peek) = .colon then
      drop
      flowPart closing false fuel
    else empty
end

/-- The directives before a document. -/
def directives : (fuel : Nat) → (hasVersion : Bool) → List (String × String) →
    Compose (List (String × String))
  | 0, _, handles => return handles
  | fuel + 1, hasVersion, handles => do
    match ← peek with
    | .version major =>
      if hasVersion then throw (.malformed "found duplicate YAML directive")
      if major ≠ 1 then throw (.malformed "found incompatible YAML document")
      drop
      directives fuel true handles
    | .handle name lead =>
      if (handles.lookup name).isSome then throw (.malformed "duplicate tag handle")
      drop
      directives fuel hasVersion ((name, lead) :: handles)
    | .directive =>
      drop
      directives fuel hasVersion handles
    | _ => return handles

/-- The handles that every document knows. -/
def commonHandles : List (String × String) := [("!", "!"), ("!!", commonLead)]

/-- Passes the tokens that end documents. -/
def documentEnds : (fuel : Nat) → Compose Unit
  | 0 => return ()
  | fuel + 1 => do
    if (← peek) = .documentEnd then
      drop
      documentEnds fuel

/-- The root of the first document; `none` when the stream holds none. Another document is
refused. -/
def document (fuel : Nat) : Compose (Option Nat) := do
  let isExplicit :=
    match ← peek with
    | .version _ => true
    | .handle .. => true
    | .directive => true
    | .documentStart => true
    | _ => false
  if (← peek) = .streamEnd then return none
  let root ←
    if isExplicit then do
      let handles ← directives fuel false []
      expect .documentStart "expected '<document start>'"
      modify fun s => { s with handles := handles ++ commonHandles }
      match ← peek with
      | .version _ => empty
      | .handle .. => empty
      | .directive => empty
      | .documentStart => empty
      | .documentEnd => empty
      | .streamEnd => empty
      | _ => node true false fuel
    else do
      modify fun s => { s with handles := commonHandles }
      node true false fuel
  documentEnds fuel
  if (← peek) ≠ .streamEnd then refuse "expected a single document"
  return some root

end Compose

/-- The graph of a document and its root. -/
def compose (text : String) : Except Fault (Graph × Option Nat) := do
  let tokens := scanTokens text
  let (root, s) ← (Compose.document (4 * tokens.length + 8)).run { tokens := tokens }
  return (s.graph, root)

end FieldWiring.Yaml
