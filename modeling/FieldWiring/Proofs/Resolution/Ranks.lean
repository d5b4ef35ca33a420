import FieldWiring.Listing
import Mathlib.Data.List.Lex
import Mathlib.Data.List.Nodup

/-!
# Lists in the order of ranks

A search that tries one list behind another, and in each list what its elements lead to, gives
whatever it tries a rank: the places that lead there, outermost first. Ranks are compared place by
place. `Ranked P l` says that `l` holds what `P` gives a rank, lowest ranks first, so that the first
hit in `l` is the one with the lowest rank.

Results:
* `Ranked.append`, `Ranked.flatMap`: the ranks in lists that are put together.
* `Ranked.unique`: a rank belongs to one element.
* `Ranked.findSome?_eq_some_iff`: the first hit is the one with the lowest rank.
-/

namespace FieldWiring

/-- The list holds what `P` gives a rank, in the order of the ranks. -/
def Ranked {α : Type} (P : List Nat → α → Prop) (l : List α) : Prop :=
  ∃ ranked : List (List Nat × α), ranked.map Prod.snd = l ∧
    ranked.Pairwise (fun a b => a.1 < b.1) ∧ ∀ rank a, (rank, a) ∈ ranked ↔ P rank a

namespace Ranked

variable {α β : Type} {P Q : List Nat → α → Prop} {l m : List α}

theorem congr (h : Ranked P l) (hPQ : ∀ rank a, P rank a ↔ Q rank a) : Ranked Q l := by
  obtain ⟨ranked, hl, hsorted, hmem⟩ := h
  exact ⟨ranked, hl, hsorted, fun rank a => (hmem rank a).trans (hPQ rank a)⟩

theorem nil (h : ∀ rank a, ¬ P rank a) : Ranked P [] :=
  ⟨[], rfl, .nil, fun rank a => iff_of_false List.not_mem_nil (h rank a)⟩

theorem singleton (a : α) : Ranked (fun rank b => rank = [] ∧ b = a) [a] :=
  ⟨[([], a)], rfl, List.pairwise_singleton _ _, fun rank b => by simp⟩

/-- The ranks in a list that stands at a place. -/
theorem under (h : Ranked P l) (i : Nat) :
    Ranked (fun rank a => ∃ rest, rank = i :: rest ∧ P rest a) l := by
  obtain ⟨ranked, rfl, hsorted, hmem⟩ := h
  refine ⟨ranked.map fun e => (i :: e.1, e.2), by simp [Function.comp_def], ?_, fun rank a => ?_⟩
  · rw [List.pairwise_map]
    exact hsorted.imp fun h => List.cons_lt_cons_self.mpr h
  · rw [List.mem_map]
    constructor
    · rintro ⟨⟨rest, b⟩, hb, heq⟩
      obtain ⟨rfl, rfl⟩ := Prod.mk.inj heq
      exact ⟨rest, rfl, (hmem rest b).mp hb⟩
    · rintro ⟨rest, rfl, ha⟩
      exact ⟨(rest, a), (hmem rest a).mpr ha, rfl⟩

/-- Of two lists, one behind the other, the first has the lower ranks. -/
theorem append (hl : Ranked P l) (hm : Ranked Q m)
    (hlt : ∀ rank a rank' b, P rank a → Q rank' b → rank < rank') :
    Ranked (fun rank a => P rank a ∨ Q rank a) (l ++ m) := by
  obtain ⟨left, rfl, hleft, hP⟩ := hl
  obtain ⟨right, rfl, hright, hQ⟩ := hm
  refine ⟨left ++ right, List.map_append, ?_, fun rank a => ?_⟩
  · refine List.pairwise_append.mpr ⟨hleft, hright, ?_⟩
    rintro ⟨rank, a⟩ ha ⟨rank', b⟩ hb
    exact hlt rank a rank' b ((hP rank a).mp ha) ((hQ rank' b).mp hb)
  · rw [List.mem_append, hP, hQ]

/-- What the elements of a list lead to is ranked by their places first. -/
theorem flatMap {f : α → List β} {Q : α → List Nat → β → Prop} :
    ∀ {l : List α}, (∀ a ∈ l, Ranked (Q a) (f a)) →
      Ranked (fun rank b => ∃ i rest a, rank = i :: rest ∧ l[i]? = some a ∧ Q a rest b)
        (l.flatMap f) := by
  -- places are counted from any start, so that the tail of the list keeps its places
  have hfrom : ∀ (l : List α) (start : Nat), (∀ a ∈ l, Ranked (Q a) (f a)) →
      Ranked (fun rank b => ∃ i rest a, rank = (start + i) :: rest ∧ l[i]? = some a ∧ Q a rest b)
        (l.flatMap f) := by
    intro l
    induction l with
    | nil => exact fun start _ => nil (by simp)
    | cons a l ih =>
      intro start h
      obtain ⟨ha, hl⟩ := List.forall_mem_cons.mp h
      rw [List.flatMap_cons]
      refine ((ha.under start).append (ih (start + 1) hl) ?_).congr fun rank b => ?_
      · rintro _ x _ y ⟨rest, rfl, -⟩ ⟨i, rest', a', rfl, -⟩
        exact List.cons_lt_cons_iff.mpr (.inl (by omega))
      · constructor
        · rintro (⟨rest, rfl, hb⟩ | ⟨i, rest, a', rfl, ha', hb⟩)
          · exact ⟨0, rest, a, rfl, rfl, hb⟩
          · exact ⟨i + 1, rest, a', by rw [Nat.add_assoc, Nat.add_comm 1 i], ha', hb⟩
        · rintro ⟨i, rest, a', rfl, ha', hb⟩
          cases i with
          | zero =>
            obtain rfl := Option.some.inj ha'
            exact .inl ⟨rest, rfl, hb⟩
          | succ i => exact .inr ⟨i, rest, a', by rw [Nat.add_assoc, Nat.add_comm 1 i], ha', hb⟩
  intro l h
  exact (hfrom l 0 h).congr fun rank b => by simp

/-- What the elements of one kind in a list lead to is ranked by the places in the whole list. -/
theorem filter_flatMap {f : α → List β} {Q : α → List Nat → β → Prop}
    (h : ∀ a, Ranked (Q a) (f a)) (p : α → Bool) (l : List α) :
    Ranked (fun rank b => ∃ i rest a, rank = i :: rest ∧ l[i]? = some a ∧ p a = true ∧ Q a rest b)
      ((l.filter p).flatMap f) := by
  have hfilter : (l.filter p).flatMap f = l.flatMap fun a => if p a then f a else [] := by
    induction l with
    | nil => rfl
    | cons a l ih => by_cases ha : p a <;> simp [ha, ih]
  rw [hfilter]
  refine flatMap fun a _ => ?_
  by_cases ha : p a
  · rw [if_pos ha]
    exact (h a).congr fun rank b => (and_iff_right ha).symm
  · rw [if_neg ha]
    exact nil fun rank b hb => ha hb.1

/-- The elements that a list is mapped to are ranked by their places. -/
theorem map (f : α → β) (l : List α) :
    Ranked (fun rank b => ∃ i a, rank = [i] ∧ l[i]? = some a ∧ b = f a) (l.map f) := by
  rw [List.map_eq_flatMap]
  refine (flatMap fun a _ => singleton (f a)).congr fun rank b => ?_
  constructor
  · rintro ⟨i, _, a, rfl, ha, rfl, rfl⟩
    exact ⟨i, a, rfl, ha, rfl⟩
  · rintro ⟨i, a, rfl, ha, rfl⟩
    exact ⟨i, [], a, rfl, ha, rfl, rfl⟩

/-- A rank belongs to one element. -/
theorem unique (h : Ranked P l) {rank : List Nat} {a b : α} (ha : P rank a) (hb : P rank b) :
    a = b := by
  obtain ⟨ranked, -, hsorted, hmem⟩ := h
  have hnodup : (ranked.map Prod.fst).Nodup := by
    rw [List.Nodup, List.pairwise_map]
    refine hsorted.imp fun {x y} hlt heq => ?_
    rw [heq] at hlt
    exact List.lt_irrefl _ hlt
  have heq := List.inj_on_of_nodup_map hnodup ((hmem rank a).mpr ha) ((hmem rank b).mpr hb) rfl
  exact (Prod.mk.inj heq).2

/-- The first hit is the one with the lowest rank. -/
theorem findSome?_eq_some_iff (h : Ranked P l) {f : α → Option β} {b : β} :
    l.findSome? f = some b ↔ ∃ rank a, P rank a ∧ f a = some b ∧
      ∀ rank' a', rank' < rank → P rank' a' → f a' = none := by
  obtain ⟨ranked, rfl, hsorted, hmem⟩ := h
  rw [List.findSome?_map, List.findSome?_eq_some_iff]
  constructor
  · rintro ⟨before, ⟨rank, a⟩, behind, rfl, hb, hbefore⟩
    obtain ⟨-, hbehind, -⟩ := List.pairwise_append.mp hsorted
    refine ⟨rank, a, (hmem rank a).mp (by simp), hb, fun rank' a' hlt ha' => ?_⟩
    rcases List.mem_append.mp ((hmem rank' a').mpr ha') with hfirst | hrest
    · exact hbefore (rank', a') hfirst
    · rcases List.mem_cons.mp hrest with heq | hlater
      · obtain ⟨rfl, -⟩ := Prod.mk.inj heq
        exact absurd hlt (List.lt_irrefl _)
      · have hgt := List.rel_of_pairwise_cons hbehind hlater
        exact absurd (List.lt_trans hlt hgt) (List.lt_irrefl _)
  · rintro ⟨rank, a, ha, hb, hlower⟩
    obtain ⟨before, behind, rfl⟩ := List.append_of_mem ((hmem rank a).mpr ha)
    refine ⟨before, (rank, a), behind, rfl, hb, ?_⟩
    rintro ⟨rank', a'⟩ hfirst
    have hlt := (List.pairwise_append.mp hsorted).2.2 _ hfirst _ List.mem_cons_self
    exact hlower rank' a' hlt ((hmem rank' a').mp (List.mem_append_left _ hfirst))

/-- There is no hit iff nothing that has a rank is one. -/
theorem findSome?_eq_none_iff (h : Ranked P l) {f : α → Option β} :
    l.findSome? f = none ↔ ∀ rank a, P rank a → f a = none := by
  obtain ⟨ranked, rfl, -, hmem⟩ := h
  rw [List.findSome?_eq_none_iff, List.forall_mem_map]
  exact ⟨fun h rank a ha => h (rank, a) ((hmem rank a).mpr ha),
    fun h e he => h e.1 e.2 ((hmem e.1 e.2).mp he)⟩

end Ranked

end FieldWiring
