import FieldWiring.Yaml.Node

/-!
# Data of a document

From the graph of nodes to values. Scalars are read when they are met, collections are filled in the
order in which they were met, so a collection may hold itself. Entries under the merge key are those
of other mappings; an entry of the mapping itself replaces them.

Model of the safe loader that `_read_config` calls, its constructor.

Results:
* `mem_insert_key`: what is entered under a key stands in the list with that value.
-/

namespace FieldWiring.Yaml

/-- What a node stands for: a value of its own, or a collection of what other nodes stand for. -/
inductive Datum where
  | leaf (v : Value)
  | list (items : List Nat)
  | pairs (entries : List (Nat × Nat))
  | dict (entries : List (Nat × Nat))
  | group (items : List Nat)

/-- What building goes by: the nodes, what some of them stand for, and the collections that are
still to be filled. -/
structure Builder where
  graph : Graph
  data : Array (Option Datum) := Array.replicate graph.size none
  waiting : List Nat := []

/-- Building can fail, and goes on from state to state. -/
abbrev Build (α : Type) := StateT Builder (Except Fault) α

namespace Build

/-- A node by its number. -/
def nodeAt (id : Nat) : Build Node :=
  return ((← get).graph[id]?).getD ⟨.null, .scalar ""⟩

/-- What a node stands for, when that is known. -/
def datum? (id : Nat) : Build (Option Datum) := return ((← get).data[id]?).join

/-- Says what a node stands for. -/
def record (id : Nat) (d : Datum) : Build Unit :=
  modify fun s => { s with data := s.data.setIfInBounds id (some d) }

/-- Says that a node stands for a collection, which is filled later. -/
def begin (id : Nat) (d : Datum) : Build Unit := do
  record id d
  modify fun s => { s with waiting := s.waiting ++ [id] }

/-- The text of a node that stands for a scalar: its own, or that of its entry under the value
key. A node that stands for itself in this way has none. -/
def scalarText : (fuel : Nat) → Nat → Build String
  | 0, _ => throw .tooDeep
  | fuel + 1, id => do
    match (← nodeAt id).content with
    | .scalar text => return text
    | .items _ => throw (.malformed "expected a scalar node")
    | .entries entries =>
      let graph := (← get).graph
      let held := entries.find? fun e => (graph[e.1]?).any fun n => n.tag = .value
      match held with
      | some (_, v) => scalarText fuel v
      | none => throw (.malformed "expected a scalar node")

/-- Begins what a node stands for. -/
def construct (id : Nat) : Build Unit := do
  match ← datum? id with
  | some _ => pure ()
  | none =>
    let n ← nodeAt id
    match n.tag with
    | .seq => begin id (.list [])
    | .map => begin id (.dict [])
    | .keys => begin id (.group [])
    | .orderedMap => begin id (.pairs [])
    | .pairs => begin id (.pairs [])
    | tag =>
      match scalarValue tag "" with
      | none => throw (.malformed "could not determine a constructor for the tag")
      | some _ =>
        let text ← scalarText ((← get).graph.size + 1) id
        if tag = .timestamp && !n.content.isScalar then throw .noText
        match scalarValue tag text with
        | some (.ok v) => record id (.leaf v)
        | some (.error f) => throw f
        | none => pure ()

/-! ## Merging -/

/-- The entries of a node that is a mapping. -/
def entriesOf (id : Nat) : Build (Option (List (Nat × Nat))) := do
  match (← nodeAt id).content with
  | .entries es => return some es
  | _ => return none

/-- Gives a mapping other entries. -/
def putEntries (id : Nat) (es : List (Nat × Nat)) : Build Unit :=
  modify fun s =>
    { s with graph := s.graph.modify id fun n => { n with content := .entries es } }

/-- Gives a node another type. -/
def retag (id : Nat) (tag : Tag) : Build Unit :=
  modify fun s => { s with graph := s.graph.modify id fun n => { n with tag := tag } }

mutual
/-- Puts the merged entries of a mapping before its own, from the entry at `index` on, behind which
`count` entries stand; `merged` are those found before. `fuel` bounds the entries under the merge
key: each is taken out before what stands under it is looked at. -/
def flattenFrom (fuel count id index : Nat) (merged : List (Nat × Nat)) : Build Unit := do
  let es := (← entriesOf id).getD []
  let finish : Build Unit := if merged.isEmpty then pure () else putEntries id (merged ++ es)
  match es[index]? with
  | none => finish
  | some (k, v) =>
    match (← nodeAt k).tag with
    | .merge =>
      match fuel with
      | 0 => throw (.malformed "too many merged entries")
      | fuel + 1 =>
        putEntries id (es.eraseIdx index)
        let more ← mergedEntries fuel v
        let left := ((← entriesOf id).getD []).length
        flattenFrom fuel left id index (merged ++ more)
    | tag =>
      if tag = .value then retag k .str
      if hc : 0 < count then flattenFrom fuel (count - 1) id (index + 1) merged else finish
termination_by (fuel, 0, count)
/-- The entries that a node under the merge key stands for: those of a mapping, or of several, the
first of which counts most. -/
def mergedEntries (fuel id : Nat) : Build (List (Nat × Nat)) := do
  match (← nodeAt id).content with
  | .entries es =>
    flattenFrom fuel es.length id 0 []
    return (← entriesOf id).getD []
  | .items items => return (← mergedLists fuel items).reverse.flatten
  | .scalar _ =>
    throw (.malformed "expected a mapping or list of mappings for merging, but found scalar")
termination_by (fuel, 2, 0)
/-- The entries of each of several mappings. -/
def mergedLists (fuel : Nat) (ids : List Nat) : Build (List (List (Nat × Nat))) := do
  match ids with
  | [] => return []
  | id :: ids =>
    match ← entriesOf id with
    | none => throw (.malformed "expected a mapping for merging")
    | some es =>
      flattenFrom fuel es.length id 0 []
      let es := (← entriesOf id).getD []
      return es :: (← mergedLists fuel ids)
termination_by (fuel, 1, ids.length)
end

/-- The number of entries under the merge key. -/
def mergeCount (g : Graph) : Nat :=
  g.toList.foldl (fun count n => count +
    match n.content with
    | .entries es => es.countP fun e => (g[e.1]?).any fun k => k.tag = .merge
    | _ => 0) 0

/-! ## Filling -/

/-- The value of a key; collections are no keys. -/
def keyValue (id : Nat) : Build Value := do
  match ← datum? id with
  | some (.leaf v) => return v
  | _ => throw (.malformed "found unhashable key")

/-- Enters a value under a key: in the place of an entry under the same key, or at the end. A node
is the same key as itself whatever its value. -/
def insert (k : Value) (id value : Nat) : List (Value × Nat × Nat) → List (Value × Nat × Nat)
  | [] => [(k, id, value)]
  | (k', id', value') :: es =>
    if id' = id || k'.sameKey k then (k', id', value) :: es
    else (k', id', value') :: insert k id value es

/-- What is entered under a key stands in the list with that value. -/
theorem mem_insert_key (k : Value) (id value : Nat) (es : List (Value × Nat × Nat)) :
    ∃ k' id', (k', id', value) ∈ insert k id value es := by
  induction es with
  | nil => exact ⟨k, id, by simp [insert]⟩
  | cons e es ih =>
    obtain ⟨k', id', value'⟩ := e
    simp only [insert]
    split
    · exact ⟨k', id', by simp⟩
    · obtain ⟨a, b, h⟩ := ih
      exact ⟨a, b, List.mem_cons_of_mem _ h⟩

/-- The entries of a mapping, one for each key. -/
def fillEntries (es : List (Nat × Nat)) : Build (List (Nat × Nat)) := do
  let filled ← es.foldlM (fun acc (k, v) => do
    construct k
    let key ← keyValue k
    construct v
    return insert key k v acc) []
  return filled.map (·.2)

/-- Enters the items of a sequence. -/
def fillItems (items : List Nat) : Build Unit := items.forM construct

/-- The only entry of a mapping. -/
def singleEntry (id : Nat) : Build (Nat × Nat) := do
  match ← entriesOf id with
  | some [(k, v)] =>
    construct k
    construct v
    return (k, v)
  | _ => throw (.malformed "expected a single mapping item")

/-- Enters what a mapping holds, with its merged entries. -/
def mappingEntries (id : Nat) : Build (List (Nat × Nat)) := do
  match ← entriesOf id with
  | none => throw (.malformed "expected a mapping node")
  | some es =>
    flattenFrom (mergeCount (← get).graph) es.length id 0 []
    fillEntries ((← entriesOf id).getD [])

/-- Fills the collection that a node stands for. -/
def fill (id : Nat) : Build Unit := do
  let n ← nodeAt id
  match n.tag, n.content with
  | .map, _ => record id (.dict (← mappingEntries id))
  | .keys, _ => record id (.group ((← mappingEntries id).map (·.1)))
  | .seq, .items items =>
    fillItems items
    record id (.list items)
  | _, .items items => record id (.pairs (← items.mapM singleEntry))
  | _, _ => throw (.malformed "expected a sequence node")

/-- Fills the waiting collections, the first met first; `fuel` bounds their number. -/
def fillAll : (fuel : Nat) → Build Unit
  | 0 => return ()
  | fuel + 1 => do
    match (← get).waiting with
    | [] => return ()
    | id :: ids =>
      modify fun s => { s with waiting := ids }
      fill id
      fillAll fuel

end Build

/-! ## Unfolding -/

/-- What unfolding goes by: the values of nodes that hold no collection around them, which are the
same wherever they occur. -/
abbrev Unfold (α : Type) := StateM (Array (Option Value)) α

/-- The value of a node as it is known, or else as `unfold` tells it; of the result the flag says
that nothing in it was cut, so that it is known from now on. -/
def Unfold.known (id : Nat) (unfold : Unfold (Value × Bool)) : Unfold (Value × Bool) := do
  match ((← get)[id]?).join with
  | some v => return (v, true)
  | none =>
    let (v, isWhole) ← unfold
    if isWhole then modify fun values => values.setIfInBounds id (some v)
    return (v, isWhole)

mutual
/-- The value of a node; `path` are the collections around it, `fuel` bounds how deep it is. -/
def valueOf (data : Array (Option Datum)) : (fuel : Nat) → (path : List Nat) → Nat →
    Unfold (Value × Bool)
  | 0, _, _ => return (.null, true)
  | fuel + 1, path, id => Unfold.known id <|
    match (data[id]?).join with
    | none => return (.null, true)
    | some (.leaf v) => return (v, true)
    | some (.list items) => do
      if path.contains id then return (.listAgain, false)
      let (vs, isWhole) ← valuesOf data fuel (id :: path) items
      return (.list vs, isWhole)
    | some (.pairs es) => do
      if path.contains id then return (.listAgain, false)
      let (vs, isWhole) ← entryValues data fuel (id :: path) es
      return (.list (vs.map fun (k, v) => .pair k v), isWhole)
    | some (.dict es) => do
      if path.contains id then return (.dictAgain, false)
      let (vs, isWhole) ← entryValues data fuel (id :: path) es
      return (.dict vs, isWhole)
    | some (.group items) => do
      let (vs, isWhole) ← valuesOf data fuel (id :: path) items
      return (.group vs, isWhole)
/-- The values of nodes. -/
def valuesOf (data : Array (Option Datum)) : (fuel : Nat) → (path ids : List Nat) →
    Unfold (List Value × Bool)
  | 0, _, _ => return ([], true)
  | _, _, [] => return ([], true)
  | fuel + 1, path, id :: ids => do
    let (v, a) ← valueOf data fuel path id
    let (vs, b) ← valuesOf data fuel path ids
    return (v :: vs, a && b)
/-- The values of the nodes of entries. -/
def entryValues (data : Array (Option Datum)) : (fuel : Nat) → (path : List Nat) →
    List (Nat × Nat) → Unfold (List (Value × Value) × Bool)
  | 0, _, _ => return ([], true)
  | _, _, [] => return ([], true)
  | fuel + 1, path, (k, v) :: es => do
    let (x, a) ← valueOf data fuel path k
    let (y, b) ← valueOf data fuel path v
    let (vs, c) ← entryValues data fuel path es
    return ((x, y) :: vs, a && b && c)
end

/-- The value of the root of a document. A mapping at the root is not around its own values. -/
def rootValue (data : Array (Option Datum)) (fuel root : Nat) : Value :=
  let unfold : Unfold Value := do
    match (data[root]?).join with
    | some (.dict es) => return .dict (← entryValues data fuel [] es).1
    | _ => return (← valueOf data fuel [] root).1
  (unfold.run (Array.replicate data.size none)).1

/-- The size of what a node stands for, itself included. -/
def Datum.size : Datum → Nat
  | .leaf _ => 1
  | .list is => is.length + 1
  | .pairs es => es.length + 1
  | .dict es => es.length + 1
  | .group is => is.length + 1

/-- The data of a document; nothing when the stream holds none. -/
def load (text : String) : Except Fault Value := do
  let (graph, root) ← compose text
  match root with
  | none => return .null
  | some root =>
    let build : Build Unit := do
      Build.construct root
      Build.fillAll (graph.size + 1)
    let (_, s) ← build.run { graph := graph }
    let width := s.data.toList.foldl (fun width d => width + (d.map Datum.size).getD 0) 0
    return rootValue s.data (width + 2) root

end FieldWiring.Yaml
