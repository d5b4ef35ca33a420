import FieldWiring.Yaml.Build

/-!
# Documents without merged entries

A mapping that has no merge key and no value key has nothing to merge: its entries are taken as they
stand.

Results:
* `flattenFrom_plain`: a plain mapping is flat already.
* `load_plain`: the data of a document whose root is a plain mapping.
-/

namespace FieldWiring.Yaml

namespace Build

variable {α β : Type} {s s' : Builder} {id : Nat} {es : List (Nat × Nat)}

theorem run_bind {m : Build α} {f : α → Build β} {a : α} (h : m.run s = .ok (a, s')) :
    (m >>= f).run s = (f a).run s' := by
  rw [StateT.run_bind, h]
  rfl

theorem run_bind_congr {m m' : Build α} {f : α → Build β} (h : m.run s = m'.run s) :
    (m >>= f).run s = (m' >>= f).run s := by
  rw [StateT.run_bind, StateT.run_bind, h]

/-! ## Flattening -/

/-- What the graph has under a number. -/
abbrev Builder.node (s : Builder) (id : Nat) : Node := s.graph[id]?.getD ⟨.null, .scalar ""⟩

/-- The node is a mapping with these entries, and none is under the merge key or the value key. -/
structure Plain (s : Builder) (id : Nat) (es : List (Nat × Nat)) : Prop where
  entries : (Builder.node s id).content = .entries es
  keys : ∀ e ∈ es, (Builder.node s e.1).tag ≠ .merge ∧ (Builder.node s e.1).tag ≠ .value

theorem run_nodeAt (s : Builder) (id : Nat) : (nodeAt id).run s = .ok (Builder.node s id, s) := rfl

theorem run_entriesOf (h : Plain s id es) : (entriesOf id).run s = .ok (some es, s) := by
  refine (run_bind (run_nodeAt s id)).trans ?_
  rw [h.entries]
  rfl

/-- Flattening goes from a plain entry on to the next. -/
theorem flattenFrom_step (h : Plain s id es) {index : Nat} {e : Nat × Nat}
    (he : es[index]? = some e) (fuel count : Nat) :
    (flattenFrom fuel count id index []).run s =
      if 0 < count then (flattenFrom fuel (count - 1) id (index + 1) []).run s
      else .ok ((), s) := by
  obtain ⟨hmerge, hvalue⟩ := h.keys e (List.mem_of_getElem? he)
  rw [flattenFrom, run_bind (run_entriesOf h)]
  simp only [Option.getD_some, he]
  rw [run_bind (run_nodeAt s e.1)]
  simp only [if_neg hvalue]
  by_cases hcount : 0 < count
  · rw [dif_pos hcount, if_pos hcount]
  · rw [dif_neg hcount, if_neg hcount]
    rfl

/-- A plain mapping is flat already. -/
theorem flattenFrom_plain (h : Plain s id es) (fuel : Nat) :
    ∀ count index, (flattenFrom fuel count id index []).run s = .ok ((), s) := by
  have hend : ∀ count index, es[index]? = none →
      (flattenFrom fuel count id index []).run s = .ok ((), s) := by
    intro count index he
    rw [flattenFrom, run_bind (run_entriesOf h)]
    simp only [Option.getD_some, he]
    rfl
  intro count
  induction count with
  | zero =>
    intro index
    cases he : es[index]? with
    | none => exact hend 0 index he
    | some e => rw [flattenFrom_step h he, if_neg (Nat.lt_irrefl 0)]
  | succ count ih =>
    intro index
    cases he : es[index]? with
    | none => exact hend (count + 1) index he
    | some e => rw [flattenFrom_step h he, if_pos (Nat.succ_pos count), Nat.add_sub_cancel, ih]

/-! ## Filling -/

/-- The entries of a plain mapping are entered as they stand. -/
theorem mappingEntries_plain (h : Plain s id es) :
    (mappingEntries id).run s = (fillEntries es).run s := by
  have hget : (get : Build Builder).run s = .ok (s, s) := rfl
  unfold mappingEntries
  rw [run_bind (run_entriesOf h)]
  simp only
  rw [run_bind hget, run_bind (flattenFrom_plain h _ _ _), run_bind (run_entriesOf h)]
  rfl

/-- A plain mapping is filled with its entries. -/
theorem fill_plain (h : Plain s id es) (htag : (Builder.node s id).tag = .map) :
    (fill id).run s = (do record id (.dict (← fillEntries es)) : Build Unit).run s := by
  unfold fill
  rw [run_bind (run_nodeAt s id)]
  simp only [htag]
  exact run_bind_congr (mappingEntries_plain h)

end Build

open Build in
/-- **The data of a document whose root is a plain mapping**: the root is the first collection that
is met, and it is filled with its entries first. -/
theorem load_plain {text : String} {g : Graph} {root : Nat} {es : List (Nat × Nat)}
    (hc : compose text = .ok (g, some root)) (hroot : g[root]? = some ⟨.map, .entries es⟩)
    (hkeys : ∀ e ∈ es, (Builder.node { graph := g } e.1).tag ≠ .merge ∧
      (Builder.node { graph := g } e.1).tag ≠ .value) :
    load text = (do
      let build : Build Unit := do
        record root (.dict (← fillEntries es))
        fillAll g.size
      let data := (Array.replicate g.size none).setIfInBounds root (some (Datum.dict []))
      let (_, s) ← build.run ⟨g, data, []⟩
      let width := s.data.toList.foldl (fun width d => width + (d.map Datum.size).getD 0) 0
      return rootValue s.data (width + 2) root) := by
  have hlt : root < g.size := (Array.getElem?_eq_some_iff.mp hroot).1
  let began : Builder :=
    ⟨g, (Array.replicate g.size none).setIfInBounds root (some (Datum.dict [])), []⟩
  have hnode : ∀ data waiting, Builder.node ⟨g, data, waiting⟩ root = ⟨.map, .entries es⟩ := by
    intro data waiting
    unfold Builder.node
    rw [hroot]
    rfl
  have hplain : Plain began root es := ⟨by rw [hnode], hkeys⟩
  have hconstruct : (construct root).run { graph := g } =
      .ok ((), { began with waiting := [root] }) := by
    have hunknown : (datum? root).run { graph := g } = .ok (none, { graph := g }) := by
      show Except.ok (((Array.replicate g.size none)[root]?).join, _) = _
      rw [Array.getElem?_replicate, if_pos hlt]
      rfl
    unfold construct
    rw [run_bind hunknown]
    simp only
    rw [run_bind (run_nodeAt _ root), hnode]
    rfl
  have hfill : (fillAll (g.size + 1)).run { began with waiting := [root] } =
      (do fill root; fillAll g.size : Build Unit).run began := rfl
  have hbuild : (do construct root; fillAll (g.size + 1) : Build Unit).run { graph := g } =
      (do record root (.dict (← fillEntries es)); fillAll g.size : Build Unit).run began := by
    rw [run_bind hconstruct, hfill, run_bind_congr (fill_plain hplain (by rw [hnode]))]
    simp only [bind_assoc]
  let finish (x : Unit × Builder) : Except Fault Value :=
    let width := x.2.data.toList.foldl (fun width d => width + (d.map Datum.size).getD 0) 0
    .ok (rootValue x.2.data (width + 2) root)
  unfold load
  rw [hc]
  exact congrArg (fun r => r >>= finish) hbuild

end FieldWiring.Yaml
