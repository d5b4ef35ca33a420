import FieldWiring.CSharp.Syntax
import FieldWiring.Proofs.Text.Leading
import Mathlib.Data.List.Lex

/-!
# Members in their places

A place is the way to a member: its number among the members of the unit, then its number among the
members of that one, and so on. Places are in source order when they are ordered as words are: what
stands around a member comes before it, and what stands behind it comes after all that stands in it.

`enclosing` are the namespaces around a place and `placedIn` those that a declaration there is
placed in. The two differ in a block behind a namespace for the rest of the file, and nowhere else.

Results:
* `placedIn_eq_enclosing`: a member is placed in the namespaces around it, except in such a block.
* `mem_spots`, `sorted_spots`: the spots of a unit are its members at all places, in source order.
* `placeTypes_eq`, `placeMembers_eq`, `placeMembers_unit`: what members declare, told spot by spot.
* `scope_opened`: whatever stands in a unit stands in the root or in a namespace that is opened.
* `placement_placeUnit`: a unit declares its types and imports each once, in source order.
-/

namespace FieldWiring.CSharp

/-! ## Places -/

/-- The way to a member: its number among the members of the unit, then its number among the members
of that one, and so on. -/
abbrev Place := List Nat

namespace Member

/-- The members of a member. -/
def inner : Member → List Member
  | .block _ ms => ms
  | .type _ ms => ms
  | _ => []

/-- The name of a namespace with braces. -/
def blockName? : Member → Option String
  | .block name _ => some name
  | _ => none

/-- The name of a namespace for the rest of the file. -/
def fileScopedName? : Member → Option String
  | .fileScoped name => some name
  | _ => none

/-- The name of a type. -/
def typeName? : Member → Option String
  | .type head _ => some head.name
  | _ => none

end Member

/-- The member at a place. -/
def memberAt : List Member → Place → Option Member
  | _, [] => none
  | ms, [i] => ms[i]?
  | ms, i :: j :: p => ms[i]?.bind fun m => memberAt m.inner (j :: p)

/-- The members around a place, the outermost one first. -/
def around : List Member → Place → List Member
  | ms, i :: j :: p =>
    match ms[i]? with
    | some m => m :: around m.inner (j :: p)
    | none => []
  | _, _ => []

/-- The names of the types around a place, the outermost one first. -/
def typesAround (ms : List Member) (p : Place) : List String :=
  (around ms p).filterMap (·.typeName?)

/-- The names of the namespaces with braces around a place, the outermost one first. -/
def blocksAround (ms : List Member) (p : Place) : List String :=
  (around ms p).filterMap (·.blockName?)

/-- The name of the namespace for the rest of the file that holds behind members: the last one. -/
def fileScopeBehind (ms : List Member) : Option String :=
  (ms.filterMap (·.fileScopedName?)).getLast?

/-- The name of the namespace for the rest of the file that a place stands behind. -/
def fileScopeAt (ms : List Member) (p : Place) : Option String :=
  fileScopeBehind (ms.take (p.headD 0))

/-- The names of all namespaces around a place, the outermost one first. -/
def enclosing (ms : List Member) (p : Place) : List String :=
  (fileScopeAt ms p).toList ++ blocksAround ms p

/-- The names of the namespaces that a declaration at a place is placed in. -/
def placedIn (ms : List Member) (p : Place) : List String :=
  if blocksAround ms p = [] then (fileScopeAt ms p).toList else blocksAround ms p

/-- Where a declaration is placed in the namespaces around it: not in a block behind a namespace for
the rest of the file. -/
theorem placedIn_eq_enclosing {ms : List Member} {p : Place} :
    placedIn ms p = enclosing ms p ↔ blocksAround ms p = [] ∨ fileScopeAt ms p = none := by
  unfold placedIn enclosing
  by_cases hblocks : blocksAround ms p = []
  · simp [hblocks]
  · cases hfile : fileScopeAt ms p with
    | none => simp [hblocks]
    | some name =>
      rw [if_neg hblocks]
      refine iff_of_false (fun heq => ?_) (by simp [hblocks])
      have hlen := congrArg List.length heq
      simp at hlen

/-! ## Compilation units -/

mutual
/-- The member may stand in a type: it is a type, with such members, or a field. -/
def Member.isInType : Member → Bool
  | .type _ ms => areInType ms
  | .field _ => true
  | _ => false
/-- The members may stand in a type. -/
def areInType : List Member → Bool
  | [] => true
  | m :: ms => m.isInType && areInType ms
end

mutual
/-- The member may stand in a namespace: a namespace there has a name and braces. -/
def Member.isInBlock : Member → Bool
  | .block name ms => name != "" && areInBlock ms
  | .fileScoped _ => false
  | .type _ ms => areInType ms
  | _ => true
/-- The members may stand in a namespace. -/
def areInBlock : List Member → Bool
  | [] => true
  | m :: ms => m.isInBlock && areInBlock ms
end

/-- The member may stand in a unit, where a namespace may lack braces. -/
def Member.isInUnit : Member → Bool
  | .fileScoped name => name != ""
  | m => m.isInBlock

/-- The members make up a compilation unit: types hold types and fields, namespaces have names, and
those for the rest of the file stand in no other member. -/
def isUnit (ms : List Member) : Bool := ms.all (·.isInUnit)

/-! ## Spots -/

/-- A member at its place, with the members around it. -/
structure Spot where
  place : Place
  around : List Member
  member : Member

namespace Spot

/-- The spot as it is seen from around `m`, which is the member of number `n`. -/
def push (n : Nat) (m : Member) (s : Spot) : Spot := ⟨n :: s.place, m :: s.around, s.member⟩

/-- The names of the types around a spot. -/
def types (s : Spot) : List String := s.around.filterMap (·.typeName?)

/-- The names of the namespaces with braces around a spot. -/
def blocks (s : Spot) : List String := s.around.filterMap (·.blockName?)

@[simp] theorem push_place (n : Nat) (m : Member) (s : Spot) :
    (s.push n m).place = n :: s.place := rfl
@[simp] theorem push_around (n : Nat) (m : Member) (s : Spot) :
    (s.push n m).around = m :: s.around := rfl
@[simp] theorem push_member (n : Nat) (m : Member) (s : Spot) :
    (s.push n m).member = s.member := rfl

end Spot

mutual
/-- The spots in a member. -/
def Member.spots : Member → List Spot
  | .block _ ms => spotsFrom 0 ms
  | .type _ ms => spotsFrom 0 ms
  | _ => []
/-- The spots of members, of which the first has the number `n`. -/
def spotsFrom (n : Nat) : List Member → List Spot
  | [] => []
  | m :: ms => ⟨[n], [], m⟩ :: (m.spots.map (·.push n m) ++ spotsFrom (n + 1) ms)
end

/-- The spots of a unit. -/
def spots (ms : List Member) : List Spot := spotsFrom 0 ms

theorem memberAt_cons (ms : List Member) (i : Nat) (p : Place) :
    memberAt ms (i :: p) = ms[i]?.bind fun m => if p = [] then some m else memberAt m.inner p := by
  cases p with
  | nil =>
    unfold memberAt
    cases ms[i]? <;> rfl
  | cons j p => rfl

theorem around_cons {ms : List Member} {i : Nat} {m : Member} (hm : ms[i]? = some m) {p : Place}
    (hp : p ≠ []) : around ms (i :: p) = m :: around m.inner p := by
  cases p with
  | nil => exact absurd rfl hp
  | cons j p =>
    rw [around, hm]

theorem memberAt_succ (m : Member) (ms : List Member) (i : Nat) (p : Place) :
    memberAt (m :: ms) ((i + 1) :: p) = memberAt ms (i :: p) := by
  rw [memberAt_cons, memberAt_cons, List.getElem?_cons_succ]

theorem around_succ (m : Member) (ms : List Member) (i : Nat) (p : Place) :
    around (m :: ms) ((i + 1) :: p) = around ms (i :: p) := by
  cases p with
  | nil => rfl
  | cons j p => rw [around, around, List.getElem?_cons_succ]

/-- The spot is that of a member among `ms`, of which the first has the number `n`. -/
def Spot.IsAt (n : Nat) (ms : List Member) (s : Spot) : Prop :=
  ∃ i q, s.place = (n + i) :: q ∧ memberAt ms (i :: q) = some s.member ∧
    s.around = CSharp.around ms (i :: q)

theorem isAt_cons {n : Nat} {m : Member} {ms : List Member} {s : Spot} :
    s.IsAt n (m :: ms) ↔ s = ⟨[n], [], m⟩ ∨ (∃ t : Spot, t.IsAt 0 m.inner ∧ t.push n m = s) ∨
      s.IsAt (n + 1) ms := by
  constructor
  · rintro ⟨i, q, hplace, hat, haround⟩
    cases i with
    | zero =>
      rw [memberAt_cons, List.getElem?_cons_zero, Option.bind_some] at hat
      obtain ⟨place, chain, member⟩ := s
      cases q with
      | nil =>
        obtain rfl := Option.some.inj hat
        exact .inl (by rw [show place = [n] from hplace, show chain = [] from haround])
      | cons j q =>
        rw [around_cons List.getElem?_cons_zero (List.cons_ne_nil _ _)] at haround
        refine .inr (.inl ⟨⟨j :: q, around m.inner (j :: q), member⟩, ⟨j, q, ?_, hat, rfl⟩, ?_⟩)
        · rw [Nat.zero_add]
        · rw [Spot.push, show place = n :: j :: q from hplace, show chain = _ from haround]
    | succ i =>
      rw [memberAt_succ] at hat
      rw [around_succ] at haround
      exact .inr (.inr ⟨i, q, by rw [hplace, Nat.add_right_comm, Nat.add_assoc], hat, haround⟩)
  · rintro (rfl | ⟨t, ⟨i, q, hplace, hat, haround⟩, rfl⟩ | ⟨i, q, hplace, hat, haround⟩)
    · exact ⟨0, [], rfl, rfl, rfl⟩
    · refine ⟨0, i :: q, ?_, hat, ?_⟩
      · rw [Spot.push_place, hplace, Nat.zero_add]
        rfl
      · rw [Spot.push_around, haround]
        exact (around_cons List.getElem?_cons_zero (List.cons_ne_nil _ _)).symm
    · refine ⟨i + 1, q, ?_, ?_, ?_⟩
      · rw [hplace, Nat.add_right_comm, Nat.add_assoc]
      · rw [memberAt_succ, hat]
      · rw [around_succ, haround]

theorem not_isAt_nil {n : Nat} {s : Spot} : ¬ s.IsAt n [] := by
  rintro ⟨i, q, -, hat, -⟩
  rw [memberAt_cons] at hat
  cases hat

mutual
theorem mem_spots_of (m : Member) (s : Spot) : s ∈ m.spots ↔ s.IsAt 0 m.inner := by
  cases m with
  | block name ms => exact mem_spotsFrom ms 0 s
  | type head ms => exact mem_spotsFrom ms 0 s
  | importing | fileScoped | field => exact iff_of_false List.not_mem_nil not_isAt_nil
theorem mem_spotsFrom (ms : List Member) (n : Nat) (s : Spot) :
    s ∈ spotsFrom n ms ↔ s.IsAt n ms := by
  cases ms with
  | nil => exact iff_of_false List.not_mem_nil not_isAt_nil
  | cons m ms =>
    rw [isAt_cons, spotsFrom, List.mem_cons, List.mem_append, List.mem_map,
      mem_spotsFrom ms (n + 1) s]
    simp only [mem_spots_of m]
end

/-- **The spots of a unit are its members at all places**, each with what stands around it. -/
theorem mem_spots {ms : List Member} {s : Spot} :
    s ∈ spots ms ↔ memberAt ms s.place = some s.member ∧ s.around = around ms s.place := by
  unfold spots
  rw [mem_spotsFrom]
  constructor
  · rintro ⟨i, q, hplace, hat, haround⟩
    rw [hplace, Nat.zero_add]
    exact ⟨hat, haround⟩
  · rintro ⟨hat, haround⟩
    cases hplace : s.place with
    | nil =>
      rw [hplace] at hat
      cases hat
    | cons i q =>
      rw [hplace] at hat haround
      exact ⟨i, q, by rw [hplace, Nat.zero_add], hat, haround⟩

mutual
theorem sorted_spots_of (m : Member) : m.spots.Pairwise fun a b => a.place < b.place := by
  cases m with
  | block name ms => exact sorted_spotsFrom ms 0
  | type head ms => exact sorted_spotsFrom ms 0
  | importing | fileScoped | field => exact .nil
theorem sorted_spotsFrom (ms : List Member) (n : Nat) :
    (spotsFrom n ms).Pairwise fun a b => a.place < b.place := by
  cases ms with
  | nil => exact .nil
  | cons m ms =>
    have hlater : ∀ s ∈ spotsFrom (n + 1) ms, ∀ q : Place, n :: q < s.place := by
      intro s hs q
      obtain ⟨i, q', hplace, -, -⟩ := (mem_spotsFrom ms (n + 1) s).mp hs
      rw [hplace]
      exact List.cons_lt_cons_iff.mpr (.inl (by omega))
    rw [spotsFrom, List.pairwise_cons, List.pairwise_append, List.pairwise_map]
    refine ⟨?_, ?_, sorted_spotsFrom ms (n + 1), ?_⟩
    · intro s hs
      rcases List.mem_append.mp hs with hs | hs
      · obtain ⟨t, ht, rfl⟩ := List.mem_map.mp hs
        obtain ⟨i, q, hplace, -, -⟩ := (mem_spots_of m t).mp ht
        rw [Spot.push_place, hplace]
        exact List.cons_lt_cons_iff.mpr (.inr ⟨rfl, List.nil_lt_cons _ _⟩)
      · exact hlater s hs []
    · exact (sorted_spots_of m).imp fun hlt => List.cons_lt_cons_iff.mpr (.inr ⟨rfl, hlt⟩)
    · intro a ha b hb
      obtain ⟨t, -, rfl⟩ := List.mem_map.mp ha
      exact hlater b hb t.place
end

/-- **The spots of a unit are in source order.** -/
theorem sorted_spots (ms : List Member) : (spots ms).Pairwise fun a b => a.place < b.place :=
  sorted_spotsFrom ms 0

/-! ## Names of namespaces -/

theorem innerNamespace_dotted {names : List String} (h : ∀ name ∈ names, name ≠ "") {name : String}
    (hname : name ≠ "") : innerNamespace (dotted names) name = dotted (names ++ [name]) := by
  rw [innerNamespace, if_neg hname, dotted_concat h]

/-! ## What members declare -/

namespace Member

/-- The import that a member is, when it stands in a scope. -/
def imported? (scope : String) : Member → Option ImportDirective
  | .importing directive => some { directive with scope := scope }
  | _ => none

/-- The name of the namespace that a member opens in others. -/
def opened? (outer : List String) : Member → Option String
  | .block name _ => some (dotted (outer ++ [name]))
  | .fileScoped name => some (dotted (outer ++ [name]))
  | _ => none

/-- The type that a member declares in a namespace and in other types. -/
def declared? (path scope : String) (containing : List String) : Member → Option TypeDeclaration
  | .type head ms => some (head.declared path scope containing ms)
  | _ => none

end Member

@[simp] theorem Spot.types_push (n : Nat) (m : Member) (s : Spot) :
    (s.push n m).types = m.typeName?.toList ++ s.types := by
  unfold Spot.types
  cases m <;> rfl

@[simp] theorem Spot.blocks_push (n : Nat) (m : Member) (s : Spot) :
    (s.push n m).blocks = m.blockName?.toList ++ s.blocks := by
  unfold Spot.blocks
  cases m <;> rfl

/-- What spots declare, where `outer` tells for each in which namespaces it opens further ones, and
`scope` in which it is placed. -/
def gather (path : String) (outer scope : Spot → List String) (ss : List Spot) : Placed where
  imports := ss.filterMap fun s => s.member.imported? (dotted (scope s))
  namespaces := ss.filterMap fun s => s.member.opened? (outer s)
  types := ss.filterMap fun s => s.member.declared? path (dotted (scope s)) s.types

section Gather

variable {path : String} {outer scope : Spot → List String}

theorem gather_append (ss ts : List Spot) :
    gather path outer scope (ss ++ ts) = gather path outer scope ss ++
      gather path outer scope ts := by
  simp [gather, Placed.append_def, List.filterMap_append]

theorem gather_cons (s : Spot) (ss : List Spot) :
    gather path outer scope (s :: ss) = gather path outer scope [s] ++ gather path outer scope ss :=
  gather_append [s] ss

theorem gather_congr {outer' scope' : Spot → List String} {ss : List Spot}
    (h : ∀ s ∈ ss, outer s = outer' s ∧ scope s = scope' s) :
    gather path outer scope ss = gather path outer' scope' ss := by
  unfold gather
  congr 1
  · exact List.filterMap_congr fun s hs => by rw [(h s hs).2]
  · exact List.filterMap_congr fun s hs => by rw [(h s hs).1]
  · exact List.filterMap_congr fun s hs => by rw [(h s hs).2]

end Gather

/-! ### In types -/

mutual
/-- In a type stand types and fields only. -/
theorem isInType_spots_of (m : Member) (h : m.isInType = true) :
    ∀ s ∈ m.spots, s.member.isInType = true ∧ s.blocks = [] := by
  cases m with
  | type head ms => exact isInType_spotsFrom ms 0 h
  | importing | block | fileScoped => cases h
  | field => exact fun s hs => absurd hs List.not_mem_nil
theorem isInType_spotsFrom (ms : List Member) (n : Nat) (h : areInType ms = true) :
    ∀ s ∈ spotsFrom n ms, s.member.isInType = true ∧ s.blocks = [] := by
  cases ms with
  | nil => exact fun s hs => absurd hs List.not_mem_nil
  | cons m ms =>
    obtain ⟨hm, hms⟩ := (Bool.and_eq_true _ _ ▸ h : _ ∧ _)
    intro s hs
    rcases List.mem_cons.mp hs with rfl | hs
    · exact ⟨hm, rfl⟩
    rcases List.mem_append.mp hs with hs | hs
    · obtain ⟨t, ht, rfl⟩ := List.mem_map.mp hs
      obtain ⟨hmember, hblocks⟩ := isInType_spots_of m hm t ht
      refine ⟨hmember, ?_⟩
      rw [Spot.blocks_push, hblocks]
      cases m with
      | block => cases hm
      | _ => rfl
    · exact isInType_spotsFrom ms (n + 1) hms s hs
end

section InType

variable {path scope : String}

mutual
theorem placeType_eq (m : Member) (containing : List String) (h : m.isInType = true) :
    placeType path scope containing m = (m.declared? path scope containing).toList ++
      m.spots.filterMap fun s =>
        s.member.declared? path scope (containing ++ (m.typeName?.toList ++ s.types)) := by
  cases m with
  | type head ms =>
    rw [placeType, placeTypes_eq ms 0 (containing ++ [head.name]) h]
    simp only [List.append_assoc]
    rfl
  | importing | block | fileScoped => cases h
  | field => rfl
/-- **What stands in a type, at any depth**: each type once, in the order of their places, and with
the types around it. -/
theorem placeTypes_eq (ms : List Member) (n : Nat) (containing : List String)
    (h : areInType ms = true) :
    placeTypes path scope containing ms = (spotsFrom n ms).filterMap fun s =>
      s.member.declared? path scope (containing ++ s.types) := by
  cases ms with
  | nil => rfl
  | cons m ms =>
    obtain ⟨hm, hms⟩ := (Bool.and_eq_true _ _ ▸ h : _ ∧ _)
    have hhead : m.declared? path scope (containing ++ Spot.types ⟨[n], [], m⟩) =
        m.declared? path scope containing := by
      rw [show Spot.types ⟨[n], [], m⟩ = [] from rfl, List.append_nil]
    rw [placeTypes, placeType_eq m containing hm, placeTypes_eq ms (n + 1) containing hms,
      spotsFrom, List.filterMap_cons, hhead, List.filterMap_append, List.filterMap_map]
    simp only [Function.comp_def, Spot.types_push, Spot.push_member]
    cases m.declared? path scope containing <;> simp
end

end InType

/-! ### In namespaces -/

/-- The namespaces in which a spot in the namespaces `names` opens further ones. -/
def outerIn (names : List String) (s : Spot) : List String := names ++ s.blocks

/-- The namespaces in which a spot is placed, where `current` holds outside of blocks. -/
def scopeIn (names current : List String) (s : Spot) : List String :=
  if s.blocks = [] then current else names ++ s.blocks

/-- In a block, the name of the block is one of those around. -/
theorem gather_push_block (path : String) (names current : List String) (n : Nat) (name : String)
    (ms : List Member) (ss : List Spot) :
    gather path (outerIn names) (scopeIn names current) (ss.map (·.push n (.block name ms))) =
      gather path (outerIn (names ++ [name])) (scopeIn (names ++ [name]) (names ++ [name])) ss := by
  have houter : ∀ s : Spot, outerIn names (s.push n (.block name ms)) =
      outerIn (names ++ [name]) s := by
    intro s
    simp [outerIn, Member.blockName?]
  have hscope : ∀ s : Spot, scopeIn names current (s.push n (.block name ms)) =
      scopeIn (names ++ [name]) (names ++ [name]) s := by
    intro s
    by_cases hs : s.blocks = [] <;> simp [scopeIn, Member.blockName?, hs]
  unfold gather
  simp only [List.filterMap_map, Function.comp_def, houter, hscope, Spot.push_member,
    Spot.types_push]
  simp [Member.typeName?]

/-- A type in a namespace declares itself and the types in it. -/
theorem gather_type (path : String) (names current : List String) (n : Nat) (head : TypeHead)
    {ms : List Member} (h : areInType ms = true) :
    gather path (outerIn names) (scopeIn names current)
        (⟨[n], [], .type head ms⟩ :: (spotsFrom 0 ms).map (·.push n (.type head ms))) =
      { types := placeType path (dotted current) [] (.type head ms) } := by
  have hin := isInType_spotsFrom ms 0 h
  have hscope : ∀ s ∈ spotsFrom 0 ms,
      scopeIn names current (s.push n (.type head ms)) = current := by
    intro s hs
    rw [scopeIn, if_pos]
    rw [Spot.blocks_push, (hin s hs).2]
    rfl
  unfold gather
  congr 1
  · rw [List.filterMap_cons, List.filterMap_map]
    refine List.filterMap_eq_nil_iff.mpr fun s hs => ?_
    have hs := (hin s hs).1
    rw [Function.comp_apply, Spot.push_member]
    cases hm : s.member with
    | importing => rw [hm] at hs; cases hs
    | _ => rfl
  · rw [List.filterMap_cons, List.filterMap_map]
    refine List.filterMap_eq_nil_iff.mpr fun s hs => ?_
    have hs := (hin s hs).1
    rw [Function.comp_apply, Spot.push_member]
    cases hm : s.member with
    | block | fileScoped => rw [hm] at hs; cases hs
    | _ => rfl
  · rw [placeType_eq (.type head ms) [] h, List.filterMap_cons, List.filterMap_map]
    refine congrArg (_ :: ·) (List.filterMap_congr fun s hs => ?_)
    rw [Function.comp_apply, hscope s hs, Spot.push_member, Spot.types_push, List.nil_append]

mutual
theorem placeMember_eq (path : String) (m : Member) (n : Nat) (names current : List String)
    (hnames : ∀ name ∈ names, name ≠ "") (h : m.isInBlock = true) :
    placeMember path (dotted names) (dotted current) m =
      gather path (outerIn names) (scopeIn names current)
        (⟨[n], [], m⟩ :: m.spots.map (·.push n m)) := by
  cases m with
  | importing directive => rfl
  | field f => rfl
  | fileScoped => cases h
  | type head ms => exact (gather_type path names current n head h).symm
  | block name ms =>
    obtain ⟨hname, hms⟩ := (Bool.and_eq_true _ _ ▸ h : _ ∧ _)
    have hname : name ≠ "" := bne_iff_ne.mp hname
    have hnames' : ∀ other ∈ names ++ [name], other ≠ "" := by
      intro other hother
      rcases List.mem_append.mp hother with hother | hother
      · exact hnames other hother
      · rwa [List.mem_singleton.mp hother]
    have hopening : opening (dotted (names ++ [name])) =
        { namespaces := [dotted (names ++ [name])] } := by
      rw [opening, if_neg]
      exact fun heq => absurd ((dotted_eq_empty hnames').mp heq) (by simp)
    rw [placeMember, innerNamespace_dotted hnames hname, hopening,
      placeMembers_eq path ms 0 _ _ hnames' hms, gather_cons,
      show (Member.block name ms).spots = spotsFrom 0 ms from rfl, gather_push_block]
    congr 1
    simp [gather, Member.imported?, Member.opened?, Member.declared?, outerIn, Spot.blocks]
/-- **What stands in a namespace, at any depth.** -/
theorem placeMembers_eq (path : String) (ms : List Member) (n : Nat) (names current : List String)
    (hnames : ∀ name ∈ names, name ≠ "") (h : areInBlock ms = true) :
    placeMembers path (dotted names) (dotted current) ms =
      gather path (outerIn names) (scopeIn names current) (spotsFrom n ms) := by
  cases ms with
  | nil => rfl
  | cons m ms =>
    obtain ⟨hm, hms⟩ := (Bool.and_eq_true _ _ ▸ h : _ ∧ _)
    have hscope : scopeAfter (dotted names) (dotted current) m = dotted current := by
      cases m with
      | fileScoped => cases hm
      | _ => rfl
    rw [placeMembers, hscope, placeMember_eq path m n names current hnames hm,
      placeMembers_eq path ms (n + 1) names current hnames hms, ← gather_append, spotsFrom,
      List.cons_append]
end

/-! ### In units -/

theorem fileScopeBehind_concat (ms : List Member) (m : Member) :
    fileScopeBehind (ms ++ [m]) = m.fileScopedName?.or (fileScopeBehind ms) := by
  unfold fileScopeBehind
  rw [List.filterMap_append]
  cases m with
  | fileScoped name => simp [Member.fileScopedName?]
  | _ => simp [Member.fileScopedName?]

/-- All that stands in the member of number `n` stands behind the same members. -/
theorem fileScopeAt_spot {earlier ms : List Member} {m : Member} {s : Spot}
    (hs : s ∈ ⟨[earlier.length], [], m⟩ :: m.spots.map (·.push earlier.length m)) :
    fileScopeAt (earlier ++ m :: ms) s.place = fileScopeBehind earlier := by
  have hhead : s.place.headD 0 = earlier.length := by
    rcases List.mem_cons.mp hs with rfl | hs
    · rfl
    · obtain ⟨t, -, rfl⟩ := List.mem_map.mp hs
      rfl
  rw [fileScopeAt, hhead, List.take_left]

theorem placeMembers_unit_from (path : String) {ms : List Member} (earlier : List Member)
    (h : isUnit ms = true) :
    placeMembers path "" (dotted (fileScopeBehind earlier).toList) ms =
      gather path (outerIn [])
        (fun s => scopeIn [] (fileScopeAt (earlier ++ ms) s.place).toList s)
        (spotsFrom earlier.length ms) := by
  induction ms generalizing earlier with
  | nil => rfl
  | cons m ms ih =>
    obtain ⟨hm, hms⟩ := (Bool.and_eq_true _ _ ▸ h : _ ∧ _)
    -- what the member itself declares
    have hone : placeMember path "" (dotted (fileScopeBehind earlier).toList) m =
        gather path (outerIn [])
          (fun s => scopeIn [] (fileScopeAt (earlier ++ m :: ms) s.place).toList s)
          (⟨[earlier.length], [], m⟩ :: m.spots.map (·.push earlier.length m)) := by
      rw [gather_congr fun s hs => ⟨rfl, by rw [fileScopeAt_spot hs]⟩]
      cases m with
      | fileScoped name =>
        have hname : name ≠ "" := bne_iff_ne.mp hm
        rw [placeMember, innerNamespace, if_neg hname, qualify_empty, opening, if_neg hname]
        simp [gather, Member.imported?, Member.opened?, Member.declared?, outerIn, Spot.blocks,
          Member.spots, dotted, String.intercalate_singleton]
      | _ => exact placeMember_eq path _ _ [] _ (fun _ hmem => absurd hmem List.not_mem_nil) hm
    -- the scope behind it
    have hscope : scopeAfter "" (dotted (fileScopeBehind earlier).toList) m =
        dotted (fileScopeBehind (earlier ++ [m])).toList := by
      rw [fileScopeBehind_concat]
      cases m with
      | fileScoped name =>
        have hname : name ≠ "" := bne_iff_ne.mp hm
        rw [scopeAfter, innerNamespace, if_neg hname, qualify_empty]
        exact String.intercalate_singleton.symm
      | _ => rfl
    have ih := ih (earlier ++ [m]) hms
    rw [List.append_assoc, List.singleton_append, List.length_append, List.length_singleton] at ih
    rw [placeMembers, hscope, hone, ih, ← gather_append, spotsFrom, List.cons_append]

/-- **What a unit declares**, told member by member. -/
theorem placeMembers_unit (path : String) {ms : List Member} (h : isUnit ms = true) :
    placeMembers path "" "" ms =
      gather path (fun s => blocksAround ms s.place) (fun s => placedIn ms s.place) (spots ms) := by
  have hfrom := placeMembers_unit_from path [] h
  rw [List.nil_append] at hfrom
  refine hfrom.trans (gather_congr fun s hs => ?_)
  have hblocks : s.blocks = blocksAround ms s.place := by
    rw [Spot.blocks, (mem_spots.mp hs).2]
    rfl
  refine ⟨hblocks, ?_⟩
  rw [scopeIn, placedIn, hblocks, List.nil_append]

/-! ## Lists in source order -/

/-- The list holds what `f` makes of the members of a unit, each once and in source order. -/
def InOrder {α : Type} (ms : List Member) (f : Place → Member → Option α) (xs : List α) : Prop :=
  ∃ ps : List Place, ps.Pairwise (· < ·) ∧
    (∀ p, p ∈ ps ↔ ∃ m, memberAt ms p = some m ∧ (f p m).isSome = true) ∧
    List.Forall₂ (fun p x => ∃ m, memberAt ms p = some m ∧ f p m = some x) ps xs

theorem inOrder_filterMap {α : Type} {ms : List Member} {f : Place → Member → Option α}
    {g : Spot → Option α} (h : ∀ s ∈ spots ms, g s = f s.place s.member) :
    InOrder ms f ((spots ms).filterMap g) := by
  refine ⟨((spots ms).filter fun s => (g s).isSome).map (·.place), ?_, ?_, ?_⟩
  · exact List.pairwise_map.mpr ((sorted_spots ms).filter _)
  · intro p
    rw [List.mem_map]
    constructor
    · rintro ⟨s, hs, rfl⟩
      obtain ⟨hs, hsome⟩ := List.mem_filter.mp hs
      exact ⟨s.member, (mem_spots.mp hs).1, h s hs ▸ hsome⟩
    · rintro ⟨m, hat, hsome⟩
      have hs : (⟨p, around ms p, m⟩ : Spot) ∈ spots ms := mem_spots.mpr ⟨hat, rfl⟩
      exact ⟨_, List.mem_filter.mpr ⟨hs, h _ hs ▸ hsome⟩, rfl⟩
  · have hall : ∀ s ∈ spots ms, memberAt ms s.place = some s.member ∧ g s = f s.place s.member :=
      fun s hs => ⟨(mem_spots.mp hs).1, h s hs⟩
    clear h
    generalize spots ms = ss at hall
    induction ss with
    | nil => exact .nil
    | cons s ss ih =>
      obtain ⟨⟨hat, hg⟩, hrest⟩ := List.forall_mem_cons.mp hall
      rw [List.filterMap_cons, List.filter_cons]
      cases hx : g s with
      | none => exact ih hrest
      | some x => exact .cons ⟨s.member, hat, hg ▸ hx⟩ (ih hrest)

/-! ## Scopes that are opened -/

/-- The spot is that of a namespace with braces whose name ends these names. -/
def Spot.Opens (s : Spot) (names : List String) : Prop :=
  ∃ name ms, s.member = .block name ms ∧ s.blocks ++ [name] = names

mutual
theorem opens_of_spots (m : Member) (s : Spot) (h : s ∈ m.spots) :
    s.blocks = [] ∨ ∃ t ∈ m.spots, t.Opens s.blocks := by
  cases m with
  | block name ms => exact opens_of_spotsFrom ms 0 s h
  | type head ms => exact opens_of_spotsFrom ms 0 s h
  | importing | fileScoped | field => exact absurd h List.not_mem_nil
/-- Around a spot stand no namespaces with braces, or the last of them stands at another spot. -/
theorem opens_of_spotsFrom (ms : List Member) (n : Nat) (s : Spot) (h : s ∈ spotsFrom n ms) :
    s.blocks = [] ∨ ∃ t ∈ spotsFrom n ms, t.Opens s.blocks := by
  cases ms with
  | nil => exact absurd h List.not_mem_nil
  | cons m ms =>
    rcases List.mem_cons.mp h with rfl | h
    · exact .inl rfl
    rcases List.mem_append.mp h with h | h
    · obtain ⟨t, ht, rfl⟩ := List.mem_map.mp h
      rw [Spot.blocks_push]
      rcases opens_of_spots m t ht with hnone | ⟨u, hu, name, inner, hmember, hblocks⟩
      · rw [hnone]
        cases m with
        | block name inner => exact .inr ⟨_, List.mem_cons_self, name, inner, rfl, rfl⟩
        | _ => exact .inl rfl
      · refine .inr ⟨u.push n m, ?_, name, inner, hmember, ?_⟩
        · exact List.mem_cons_of_mem _ (List.mem_append_left _ (List.mem_map_of_mem hu))
        · rw [Spot.blocks_push, List.append_assoc, hblocks]
    · rcases opens_of_spotsFrom ms (n + 1) s h with hnone | ⟨t, ht, hopens⟩
      · exact .inl hnone
      · exact .inr ⟨t, List.mem_cons_of_mem _ (List.mem_append_right _ ht), hopens⟩
end

/-- **Whatever stands in a unit stands in the root or in a namespace that is opened.** -/
theorem scope_opened {ms : List Member} {s : Spot} (h : s ∈ spots ms) :
    placedIn ms s.place = [] ∨ ∃ t ∈ spots ms,
      t.member.opened? (blocksAround ms t.place) = some (dotted (placedIn ms s.place)) := by
  have hblocks : ∀ {t : Spot}, t ∈ spots ms → blocksAround ms t.place = t.blocks := by
    intro t ht
    rw [Spot.blocks, (mem_spots.mp ht).2]
    rfl
  unfold placedIn
  rw [hblocks h]
  by_cases hnone : s.blocks = []
  · rw [if_pos hnone]
    cases hfile : fileScopeAt ms s.place with
    | none => exact .inl rfl
    | some name =>
      right
      -- the namespace stands among the members of the unit themselves
      obtain ⟨m, hm, hname⟩ := List.mem_filterMap.mp (List.mem_of_getLast? hfile)
      obtain ⟨i, hi⟩ := List.mem_iff_getElem?.mp ((List.take_sublist _ _).subset hm)
      cases m with
      | fileScoped name' =>
        obtain rfl := Option.some.inj hname
        have hs : (⟨[i], [], .fileScoped name'⟩ : Spot) ∈ spots ms := mem_spots.mpr ⟨hi, rfl⟩
        exact ⟨_, hs, rfl⟩
      | _ => cases hname
  · rw [if_neg hnone]
    rcases opens_of_spotsFrom ms 0 s h with hnone' | ⟨t, ht, name, inner, hmember, ht'⟩
    · exact absurd hnone' hnone
    · refine .inr ⟨t, ht, ?_⟩
      rw [hmember, hblocks ht, ← ht']
      rfl

/-! ## Placed units -/

/-- A unit as it is read and placed. -/
structure Placement (path : String) (ms : List Member) (unit : SourceUnit)
    (ds : List TypeDeclaration) : Prop where
  /-- The unit is that of the path. -/
  named : unit.path = path
  /-- Every type is declared once, in source order, with the types around it. -/
  types : InOrder ms
    (fun p m => m.declared? path (dotted (placedIn ms p)) (typesAround ms p)) ds
  /-- Every import is listed once, in source order. -/
  imports : InOrder ms (fun p m => m.imported? (dotted (placedIn ms p))) unit.imports
  /-- Every namespace is listed once, in the order in which they are first opened. -/
  namespaces : ∃ opened, InOrder ms (fun p m => m.opened? (blocksAround ms p)) opened ∧
    unit.namespaces = dedupe opened
  /-- What is declared stands in the root or in a namespace that is listed. -/
  listed : (∀ d ∈ ds, d.scope = "" ∨ d.scope ∈ unit.namespaces) ∧
    ∀ i ∈ unit.imports, i.scope = "" ∨ i.scope ∈ unit.namespaces

theorem scope_declared {path scope : String} {containing : List String} {m : Member}
    {d : TypeDeclaration} (h : m.declared? path scope containing = some d) : d.scope = scope := by
  cases m with
  | type head ms =>
    obtain rfl := Option.some.inj h
    unfold TypeDeclaration.scope TypeHead.declared
    by_cases hroot : scope = "" <;> simp [hroot]
  | _ => cases h

theorem scope_imported {scope : String} {m : Member} {i : ImportDirective}
    (h : m.imported? scope = some i) : i.scope = scope := by
  cases m with
  | importing directive =>
    obtain rfl := Option.some.inj h
    rfl
  | _ => cases h

/-- **A unit is placed as it is read**: each of its types and imports once, in source order. -/
theorem placement_placeUnit (path : String) {ms : List Member} (h : isUnit ms = true) :
    Placement path ms (placeUnit path ms).1 (placeUnit path ms).2 := by
  unfold placeUnit
  rw [placeMembers_unit path h]
  -- a spot's namespaces are the root or listed
  have hlisted : ∀ s ∈ spots ms, dotted (placedIn ms s.place) = "" ∨
      dotted (placedIn ms s.place) ∈
        dedupe ((spots ms).filterMap fun t => t.member.opened? (blocksAround ms t.place)) := by
    intro s hs
    rcases scope_opened hs with hroot | ⟨t, ht, hopened⟩
    · rw [hroot]
      exact .inl rfl
    · exact .inr (mem_dedupe.mpr (List.mem_filterMap.mpr ⟨t, ht, hopened⟩))
  refine ⟨rfl, inOrder_filterMap fun s hs => ?_, inOrder_filterMap fun _ _ => rfl,
    ⟨_, inOrder_filterMap fun _ _ => rfl, rfl⟩, ?_, ?_⟩
  · rw [Spot.types, (mem_spots.mp hs).2]
    rfl
  · intro d hd
    obtain ⟨s, hs, hdeclared⟩ := List.mem_filterMap.mp hd
    rw [scope_declared hdeclared]
    exact hlisted s hs
  · intro i hi
    obtain ⟨s, hs, himported⟩ := List.mem_filterMap.mp hi
    rw [scope_imported himported]
    exact hlisted s hs

end FieldWiring.CSharp
