import FieldWiring.Generation
import FieldWiring.Proofs.Template.Layout

/-!
# The verdict on every candidate

What a generator says of each candidate, told from the candidates alone: `candidateText` is the text
that a candidate's walk and rendering give it, and `namesakes` are the other candidates that succeed
under its name. `Settles` then says when a candidate is published and what its failure is otherwise.

Results:
* `outcomes_ends`: a generator comes to an end iff no template of the project breaks off.
* `settles_outcomes`: its outcomes are settled as `Settles` says.
* `Settles.nodup_hintNames`: no two published units share a name.
-/

namespace FieldWiring

variable {T : Templates} {c : Corpus} {g : Generator} {R : SymbolResolver}

/-! ## Candidates on their own -/

/-- The text of a candidate's unit: the candidate is walked and then rendered. -/
def candidateText (T : Templates) (c : Corpus) (g : Generator) (R : SymbolResolver)
    (d : TypeDeclaration) : Except RenderError String :=
  match walkHierarchy c g R d with
  | .error f => .error (.fault f)
  | .ok w => resolverText T g d w

/-- The name under which a candidate's unit is published. -/
def hintOf (g : Generator) (d : TypeDeclaration) : String := g.hintName d.displayNamespace d.name

/-- The candidate can be walked and rendered. -/
def succeeds (T : Templates) (c : Corpus) (g : Generator) (R : SymbolResolver)
    (d : TypeDeclaration) : Bool := (candidateText T c g R d).isOk

/-- The other candidates that succeed under the name of the one at a place, in their order. -/
def namesakes (T : Templates) (c : Corpus) (g : Generator) (R : SymbolResolver)
    (ds : List TypeDeclaration) (place : Nat) (d : TypeDeclaration) : List TypeDeclaration :=
  (ds.zipIdx.filter fun e =>
    (succeeds T c g R e.1 && decide (hintOf g e.1 = hintOf g d)) && decide (e.2 ≠ place)).map (·.1)

theorem succeeds_iff {d : TypeDeclaration} :
    succeeds T c g R d = true ↔ ∃ text, candidateText T c g R d = .ok text := by
  unfold succeeds
  cases candidateText T c g R d with
  | error e => simp [Except.isOk, Except.toBool]
  | ok text => simp [Except.isOk, Except.toBool]

theorem mem_namesakes {ds : List TypeDeclaration} {place : Nat} {d e : TypeDeclaration} :
    e ∈ namesakes T c g R ds place d ↔
      ∃ j, ds[j]? = some e ∧ j ≠ place ∧ succeeds T c g R e = true ∧ hintOf g e = hintOf g d := by
  unfold namesakes
  rw [List.mem_map]
  constructor
  · rintro ⟨⟨e', j⟩, h, rfl⟩
    obtain ⟨hmem, hp⟩ := List.mem_filter.mp h
    simp only [Bool.and_eq_true, decide_eq_true_eq] at hp
    exact ⟨j, List.mk_mem_zipIdx_iff_getElem?.mp hmem, hp.2, hp.1.1, hp.1.2⟩
  · rintro ⟨j, hj, hne, hs, hh⟩
    refine ⟨(e, j), List.mem_filter.mpr ⟨List.mk_mem_zipIdx_iff_getElem?.mpr hj, ?_⟩, rfl⟩
    simp only [Bool.and_eq_true, decide_eq_true_eq]
    exact ⟨⟨hs, hh⟩, hne⟩

/-- An outcome tells what the text of its candidate is. -/
theorem outcome_iff {d : TypeDeclaration} {o : Outcome} (h : outcome T c g R d = .ok o) :
    (∃ text, candidateText T c g R d = .ok text ∧ o.result = .ok (unitOf g d text)) ∨
      ∃ f, candidateText T c g R d = .error (.fault f) ∧ o.result = .error f.cause := by
  unfold outcome at h
  unfold candidateText
  cases hw : walkHierarchy c g R d with
  | error f =>
    rw [hw] at h
    cases h
    exact .inr ⟨f, rfl, rfl⟩
  | ok w =>
    rw [hw] at h
    simp only at h
    rcases ht : resolverText T g d w with (f | e) | text
    · rw [ht] at h
      cases h
      exact .inr ⟨f, ht, rfl⟩
    · rw [ht] at h
      cases h
    · rw [ht] at h
      cases h
      exact .inl ⟨text, ht, rfl⟩

theorem outcome_ends {d : TypeDeclaration} :
    (∃ o, outcome T c g R d = .ok o) ↔ ∀ e, candidateText T c g R d ≠ .error (.run e) := by
  unfold outcome candidateText
  cases walkHierarchy c g R d with
  | error f => simp
  | ok w => rcases ht : resolverText T g d w with (f | e) | text <;> simp [ht]

/-! ## All candidates -/

/-- A traversal succeeds when its results are those of its elements, one by one. -/
theorem mapM_ok_iff {ε α β : Type} {f : α → Except ε β} :
    ∀ {as : List α} {bs : List β},
      as.mapM f = .ok bs ↔ List.Forall₂ (fun a b => f a = .ok b) as bs
  | [], bs => by
    rw [List.mapM_nil, List.forall₂_nil_left_iff]
    exact ⟨fun h => (Except.ok.inj h).symm, fun h => h ▸ rfl⟩
  | a :: as, bs => by
    rw [mapM_cons_ok_iff, List.forall₂_cons_left_iff]
    refine exists_congr fun b => exists_congr fun rest => ?_
    rw [mapM_ok_iff]

/-- A generator comes to an end iff no template of the project breaks off. -/
theorem outcomes_ends {excluded : List String} :
    (∃ os, outcomes T c g R excluded = .ok os) ↔
      ∀ d ∈ candidates c g excluded, ∀ e, candidateText T c g R d ≠ .error (.run e) := by
  unfold outcomes
  rw [mapM_ends]
  exact forall₂_congr fun d _ => outcome_ends

/-- The standard templates never break off. -/
theorem candidateText_standard (d : TypeDeclaration) (e : RunError) :
    candidateText .standard c g R d ≠ .error (.run e) := by
  unfold candidateText
  cases walkHierarchy c g R d with
  | error f => simp
  | ok w =>
    rcases resolverText_standard g d w with ⟨f, hf⟩ | ht
    · simp [hf]
    · simp [ht]

/-- Rivals among the outcomes are namesakes among the candidates. -/
theorem rivals_candidates {ds : List TypeDeclaration} {os : List Outcome}
    (h : List.Forall₂ (fun d o => outcome T c g R d = .ok o) ds os) (place : Nat)
    (d : TypeDeclaration) :
    (rivals os place (hintOf g d)).map (·.candidate) = namesakes T c g R ds place d := by
  unfold rivals namesakes
  rw [List.map_map]
  generalize 0 = start
  induction h generalizing start with
  | nil => rfl
  | @cons e o ds os ho _ ih =>
    have hclaims : o.claims (hintOf g d) =
        (succeeds T c g R e && decide (hintOf g e = hintOf g d)) := by
      unfold Outcome.claims succeeds
      rcases outcome_iff ho with ⟨text, ht, hr⟩ | ⟨f, ht, hr⟩
      · rw [ht, hr]
        rfl
      · rw [ht, hr]
        rfl
    rw [List.zipIdx_cons, List.zipIdx_cons, List.filter_cons, List.filter_cons, hclaims]
    split
    · rw [List.map_cons, List.map_cons, ih]
      exact congrArg (· :: _) (outcome_candidate ho)
    · exact ih _

/-! ## Verdicts -/

/-- The verdicts `vs` on the candidates `ds`, one on each in its place: a candidate is published iff
it succeeds and no other one succeeds under its name. Otherwise it fails, with the others under its
name if it succeeds, and with its own fault if it does not. -/
structure Settles (T : Templates) (c : Corpus) (g : Generator) (R : SymbolResolver)
    (ds : List TypeDeclaration) (vs : List (Except Failure GeneratedUnit)) : Prop where
  one_each : vs.length = ds.length
  published : ∀ {i : Nat} {d : TypeDeclaration} {u : GeneratedUnit}, ds[i]? = some d →
    (vs[i]? = some (.ok u) ↔ ∃ text, candidateText T c g R d = .ok text ∧ u = unitOf g d text ∧
      ∀ j e, ds[j]? = some e → j ≠ i → succeeds T c g R e = true → hintOf g e ≠ hintOf g d)
  shared : ∀ {i : Nat} {d : TypeDeclaration}, ds[i]? = some d → succeeds T c g R d = true →
    namesakes T c g R ds i d ≠ [] → vs[i]? = some (.error (.of g.kind.key d
      (.sharedHint (hintOf g d) ((namesakes T c g R ds i d).map claimant))))
  failed : ∀ {i : Nat} {d : TypeDeclaration} {f : Fault}, ds[i]? = some d →
    candidateText T c g R d = .error (.fault f) → vs[i]? = some (.error (.of g.kind.key d f.cause))

/-- No other candidate succeeds under the name of the one at a place. -/
theorem namesakes_eq_nil {ds : List TypeDeclaration} {i : Nat} {d : TypeDeclaration} :
    namesakes T c g R ds i d = [] ↔
      ∀ j e, ds[j]? = some e → j ≠ i → succeeds T c g R e = true → hintOf g e ≠ hintOf g d := by
  rw [List.eq_nil_iff_forall_not_mem]
  constructor
  · intro h j e hj hne hs hh
    exact h e (mem_namesakes.mpr ⟨j, hj, hne, hs, hh⟩)
  · intro h e he
    obtain ⟨j, hj, hne, hs, hh⟩ := mem_namesakes.mp he
    exact h j e hj hne hs hh

/-- What a single outcome is settled as. -/
theorem settleOne_ok {ds : List TypeDeclaration} {os : List Outcome}
    (h : List.Forall₂ (fun d o => outcome T c g R d = .ok o) ds os) {d : TypeDeclaration}
    {o : Outcome} (ho : outcome T c g R d = .ok o) {text : String}
    (ht : candidateText T c g R d = .ok text) (i : Nat) :
    settleOne g os o i =
      if namesakes T c g R ds i d = [] then .ok (unitOf g d text)
      else .error (.of g.kind.key d
        (.sharedHint (hintOf g d) ((namesakes T c g R ds i d).map claimant))) := by
  have hr : o.result = .ok (unitOf g d text) := by
    rcases outcome_iff ho with ⟨text', ht', hr⟩ | ⟨f, hf, -⟩
    · rw [ht] at ht'
      rw [hr, Except.ok.inj ht']
    · rw [ht] at hf
      cases hf
  rw [← rivals_candidates h]
  have hhint : (unitOf g d text).hintName = hintOf g d := rfl
  unfold settleOne
  rw [hr]
  simp only [hhint]
  cases hrivals : rivals os i (hintOf g d) with
  | nil => rfl
  | cons other others =>
    simp only [List.map_cons, List.map_map, outcome_candidate ho]
    rfl

theorem settleOne_fault {os : List Outcome} {d : TypeDeclaration} {o : Outcome}
    (ho : outcome T c g R d = .ok o) {f : Fault}
    (hf : candidateText T c g R d = .error (.fault f)) (i : Nat) :
    settleOne g os o i = .error (.of g.kind.key d f.cause) := by
  have hr : o.result = .error f.cause := by
    rcases outcome_iff ho with ⟨text, ht, -⟩ | ⟨f', hf', hr⟩
    · rw [hf] at ht
      cases ht
    · rw [hf] at hf'
      cases hf'
      exact hr
  unfold settleOne
  rw [hr, outcome_candidate ho]

/-- **Outcomes are settled as the candidates alone tell.** -/
theorem settles_outcomes {excluded : List String} {os : List Outcome}
    (h : outcomes T c g R excluded = .ok os) :
    Settles T c g R (candidates c g excluded) (settled g os) := by
  have hall := mapM_ok_iff.mp h
  have hlen := hall.length_eq
  -- the verdict at a place is the one on the outcome there
  have hat : ∀ {i d}, (candidates c g excluded)[i]? = some d →
      ∃ o, outcome T c g R d = .ok o ∧ (settled g os)[i]? = some (settleOne g os o i) := by
    intro i d hd
    obtain ⟨hi, rfl⟩ := List.getElem?_eq_some_iff.mp hd
    have hi' : i < os.length := hlen ▸ hi
    refine ⟨os[i], (List.forall₂_iff_get.mp hall).2 i hi hi', ?_⟩
    unfold settled
    rw [List.getElem?_map, List.getElem?_zipIdx, List.getElem?_eq_getElem hi']
    simp
  refine ⟨?_, ?_, ?_, ?_⟩
  · unfold settled
    rw [List.length_map, List.length_zipIdx, hlen]
  · intro i d u hd
    obtain ⟨o, ho, hv⟩ := hat hd
    rw [hv, Option.some_inj, ← namesakes_eq_nil]
    rcases outcome_iff ho with ⟨text, ht, -⟩ | ⟨f, hf, -⟩
    · rw [settleOne_ok hall ho ht, ht]
      split
      next hn =>
        constructor
        · intro hu
          exact ⟨text, rfl, (Except.ok.inj hu).symm, hn⟩
        · rintro ⟨text', htext, rfl, -⟩
          rw [Except.ok.inj htext]
      next hn =>
        constructor
        · intro hu
          cases hu
        · rintro ⟨-, -, -, hnil⟩
          exact absurd hnil hn
    · rw [settleOne_fault ho hf, hf]
      constructor
      · intro hu
        cases hu
      · rintro ⟨text, ht, -⟩
        cases ht
  · intro i d hd hs hn
    obtain ⟨o, ho, hv⟩ := hat hd
    obtain ⟨text, ht⟩ := succeeds_iff.mp hs
    rw [hv, settleOne_ok hall ho ht, if_neg hn]
  · intro i d f hd hf
    obtain ⟨o, ho, hv⟩ := hat hd
    rw [hv, settleOne_fault ho hf]

/-! ## Names of published units -/

theorem pairwise_values {ε α : Type} {r : α → α → Prop} :
    ∀ vs : List (Except ε α),
      vs.Pairwise (fun v w => ∀ a b, v = .ok a → w = .ok b → r a b) → (values vs).Pairwise r
  | [], _ => .nil
  | .error _ :: vs, h => pairwise_values vs (List.pairwise_cons.mp h).2
  | .ok a :: vs, h => by
    obtain ⟨hhead, htail⟩ := List.pairwise_cons.mp h
    refine .cons (fun b hb => ?_) (pairwise_values vs htail)
    have hmem : ∀ {ws : List (Except ε α)}, b ∈ values ws → .ok b ∈ ws := by
      intro ws hws
      induction ws with
      | nil => cases hws
      | cons w ws ih =>
        cases w with
        | error e => exact List.mem_cons_of_mem _ (ih hws)
        | ok a' =>
          rcases List.mem_cons.mp hws with rfl | hws
          · exact List.mem_cons_self
          · exact List.mem_cons_of_mem _ (ih hws)
    exact hhead (.ok b) (hmem hb) a b rfl rfl

/-- No two published units share a name. -/
theorem Settles.nodup_hintNames {ds : List TypeDeclaration}
    {vs : List (Except Failure GeneratedUnit)} (h : Settles T c g R ds vs) :
    ((values vs).map (·.hintName)).Nodup := by
  rw [List.nodup_iff_pairwise_ne, List.pairwise_map]
  apply pairwise_values
  rw [List.pairwise_iff_getElem]
  intro i j hi hj hij u v hu hv
  have hi' : i < ds.length := h.one_each ▸ hi
  have hj' : j < ds.length := h.one_each ▸ hj
  have hdi : ds[i]? = some ds[i] := List.getElem?_eq_getElem hi'
  have hdj : ds[j]? = some ds[j] := List.getElem?_eq_getElem hj'
  obtain ⟨tu, -, rfl, halone⟩ := (h.published hdi).mp (by rw [List.getElem?_eq_getElem hi, hu])
  obtain ⟨tv, hv', rfl, -⟩ := (h.published hdj).mp (by rw [List.getElem?_eq_getElem hj, hv])
  exact Ne.symm (halone j _ hdj (by omega) (succeeds_iff.mpr ⟨tv, hv'⟩))

end FieldWiring
