import FieldWiring.Proofs.Generation.Kinds
import Mathlib.Data.Prod.Lex
import Mathlib.Logic.Relation

/-!
# Candidates among several workers

The candidates of a generator may be worked on side by side, each by a worker of its own: work on a
pending candidate begins when a worker is free, and it ends whenever it ends. Only then are the
results gathered, in the order of the candidates, settled and handed to the reports of the run; and
only then is it the turn of the next generator.

`PoolStep` is one step of such a pool, `gathered` what is read off it, and `RunStep` one step of a
run over several generators.

Results:
* `gathered_of_steps`: whatever the order of steps, a pool gathers what comes of one candidate after
  the other.
* `finished_of_gathered`: nothing is handed on before every candidate is finished.
* `underway_of_reaches`: what a run has collected at any time is what the generators before have
  come to.
* `ends_of_reaches`, `wellFounded_runStep`: no order of steps gets stuck, and none is endless.
* `workers_unnoticed`: every run ends as the run does that takes the candidates one by one.
-/

namespace FieldWiring

open Relation

/-! ## Pools -/

/-- How far the work on a candidate has come. -/
inductive Stage (β : Type) where
  | pending
  | inProgress
  | finished (result : β)
deriving DecidableEq, Repr

namespace Stage

variable {α β : Type}

/-- Nobody has begun. -/
def isPending : Stage β → Bool
  | pending => true
  | _ => false

/-- A worker is at it. -/
def isInProgress : Stage β → Bool
  | inProgress => true
  | _ => false

@[simp] theorem isPending_pending : (pending : Stage β).isPending = true := rfl
@[simp] theorem isPending_inProgress : (inProgress : Stage β).isPending = false := rfl
@[simp] theorem isPending_finished (b : β) : (finished b).isPending = false := rfl
@[simp] theorem isInProgress_pending : (pending : Stage β).isInProgress = false := rfl
@[simp] theorem isInProgress_inProgress : (inProgress : Stage β).isInProgress = true := rfl
@[simp] theorem isInProgress_finished (b : β) : (finished b).isInProgress = false := rfl

/-- The result, if there is one, is that of the work on `a`. -/
def Fits (work : α → β) (a : α) : Stage β → Prop
  | finished b => b = work a
  | _ => True

end Stage

/-- The stages of the candidates, in their order. -/
abbrev Pool (β : Type) := List (Stage β)

namespace Pool

variable {α β ε : Type} {workers : Nat} {work : α → β} {as : List α} {p q : Pool β}

/-- The pool before any work has begun. -/
def fresh (as : List α) : Pool β := as.map fun _ => .pending

/-- The number of workers that are at work. -/
def busy (p : Pool β) : Nat := p.countP (·.isInProgress)

/-- The number of steps that are left. -/
def stepsLeft (p : Pool β) : Nat := 2 * p.countP (·.isPending) + p.busy

/-- One step of a pool: the work on a candidate begins, while a worker is free, or it ends. -/
inductive PoolStep (workers : Nat) (work : α → β) (as : List α) : Pool β → Pool β → Prop
  | start {p : Pool β} {i : Nat} (hi : p[i]? = some .pending) (hfree : p.busy < workers) :
      PoolStep workers work as p (p.set i .inProgress)
  | finish {p : Pool β} {i : Nat} {a : α} (hi : p[i]? = some .inProgress) (ha : as[i]? = some a) :
      PoolStep workers work as p (p.set i (.finished (work a)))

/-- What is gathered from a pool in the order of the candidates: all results, or the first error.
Nothing is gathered while a result is missing that counts. -/
def gathered : Pool (Except ε β) → Option (Except ε (List β))
  | [] => some (.ok [])
  | .finished (.ok b) :: p => (gathered p).map (·.map (b :: ·))
  | .finished (.error e) :: _ => some (.error e)
  | _ :: _ => none

/-! ## Steps -/

theorem forall₂_set {R : α → β → Prop} {bs : List β} (h : List.Forall₂ R as bs) {i : Nat} {a : α}
    {b : β} (ha : as[i]? = some a) (hb : R a b) : List.Forall₂ R as (bs.set i b) := by
  induction h generalizing i with
  | nil => exact .nil
  | cons hhead htail ih =>
    cases i with
    | zero =>
      obtain rfl := Option.some.inj ha
      exact .cons hb htail
    | succ i => exact .cons hhead (ih ha)

theorem fits_fresh (work : α → β) (as : List α) :
    List.Forall₂ (Stage.Fits work) as (fresh as) := by
  induction as with
  | nil => exact .nil
  | cons a as ih => exact .cons trivial ih

/-- A step leaves results as they are and adds that of a candidate. -/
theorem fits_step (hp : List.Forall₂ (Stage.Fits work) as p) (h : PoolStep workers work as p q) :
    List.Forall₂ (Stage.Fits work) as q := by
  cases h with
  | start hi hfree =>
    have hlt := (List.getElem?_eq_some_iff.mp hi).1
    rw [← hp.length_eq] at hlt
    exact forall₂_set hp (List.getElem?_eq_getElem hlt) trivial
  | finish hi ha => exact forall₂_set hp ha rfl

/-- No more workers are at work than there are. -/
theorem busy_step (hp : p.busy ≤ workers) (h : PoolStep workers work as p q) :
    q.busy ≤ workers := by
  cases h with
  | start hi hfree =>
    obtain ⟨hlt, hget⟩ := List.getElem?_eq_some_iff.mp hi
    unfold busy at hfree ⊢
    rw [List.countP_set hlt, hget]
    simp only [Stage.isInProgress_pending, Stage.isInProgress_inProgress, Bool.false_eq_true,
      if_false, if_true]
    omega
  | finish hi ha =>
    obtain ⟨hlt, hget⟩ := List.getElem?_eq_some_iff.mp hi
    unfold busy at hp ⊢
    rw [List.countP_set hlt, hget]
    simp only [Stage.isInProgress_inProgress, Stage.isInProgress_finished, Bool.false_eq_true,
      if_false, if_true]
    omega

/-- Every step is one of those that are left. -/
theorem stepsLeft_step (h : PoolStep workers work as p q) : q.stepsLeft < p.stepsLeft := by
  cases h with
  | start hi hfree =>
    obtain ⟨hlt, hget⟩ := List.getElem?_eq_some_iff.mp hi
    have hsome : 0 < p.countP (·.isPending) :=
      List.countP_pos_iff.mpr ⟨_, List.mem_of_getElem? hi, rfl⟩
    unfold stepsLeft busy
    rw [List.countP_set hlt, List.countP_set hlt, hget]
    simp only [Stage.isPending_pending, Stage.isPending_inProgress, Stage.isInProgress_pending,
      Stage.isInProgress_inProgress, Bool.false_eq_true, if_false, if_true]
    omega
  | finish hi ha =>
    obtain ⟨hlt, hget⟩ := List.getElem?_eq_some_iff.mp hi
    have hsome : 0 < p.countP (·.isInProgress) :=
      List.countP_pos_iff.mpr ⟨_, List.mem_of_getElem? hi, rfl⟩
    unfold stepsLeft busy
    rw [List.countP_set hlt, List.countP_set hlt, hget]
    simp only [Stage.isPending_inProgress, Stage.isPending_finished, Stage.isInProgress_inProgress,
      Stage.isInProgress_finished, Bool.false_eq_true, if_false, if_true]
    omega

/-! ## What is gathered -/

section Gathered

variable {work : α → Except ε β} {p : Pool (Except ε β)}

/-- What is gathered is what comes of one candidate after the other. -/
theorem gathered_fits (hp : List.Forall₂ (Stage.Fits work) as p) {x : Except ε (List β)}
    (h : gathered p = some x) : x = as.mapM work := by
  induction hp generalizing x with
  | nil =>
    obtain rfl := Option.some.inj h
    rfl
  | @cons a stage as p hfits _ ih =>
    rw [List.mapM_cons]
    match stage, hfits with
    | .pending, _ => cases h
    | .inProgress, _ => cases h
    | .finished (.error e), hfits =>
      obtain rfl := Option.some.inj h
      rw [← hfits]
      rfl
    | .finished (.ok b), hfits =>
      obtain ⟨y, hy, rfl⟩ := Option.map_eq_some_iff.mp h
      rw [← ih hy, ← hfits]
      cases y <;> rfl

/-- All results are gathered only when every candidate is finished. -/
theorem finished_of_gathered {bs : List β} (h : gathered p = some (.ok bs)) :
    p = bs.map fun b => .finished (.ok b) := by
  induction p generalizing bs with
  | nil =>
    obtain rfl := Except.ok.inj (Option.some.inj h)
    rfl
  | cons stage p ih =>
    match stage with
    | .pending => cases h
    | .inProgress => cases h
    | .finished (.error e) => cases h
    | .finished (.ok b) =>
      obtain ⟨y, hy, hmap⟩ := Option.map_eq_some_iff.mp h
      cases y with
      | error e => cases hmap
      | ok bs' =>
        obtain rfl := Except.ok.inj hmap
        rw [ih hy]
        rfl

/-- When every candidate is finished, something is gathered. -/
theorem gathered_of_finished
    (h : ∀ stage ∈ p, stage.isPending = false ∧ stage.isInProgress = false) :
    ∃ x, gathered p = some x := by
  induction p with
  | nil => exact ⟨_, rfl⟩
  | cons stage p ih =>
    obtain ⟨hstage, hp⟩ := List.forall_mem_cons.mp h
    match stage, hstage with
    | .pending, hstage => cases hstage.1
    | .inProgress, hstage => cases hstage.2
    | .finished (.error e), _ => exact ⟨_, rfl⟩
    | .finished (.ok b), _ =>
      obtain ⟨x, hx⟩ := ih hp
      exact ⟨x.map (b :: ·), by rw [gathered, hx]; rfl⟩

/-- While nothing can be gathered some worker can go on. -/
theorem gathered_or_step (hworkers : 0 < workers) (hp : List.Forall₂ (Stage.Fits work) as p) :
    (∃ x, gathered p = some x) ∨ ∃ q, PoolStep workers work as p q := by
  by_cases hbusy : p.busy = 0
  · by_cases hpending : p.countP (·.isPending) = 0
    · left
      refine gathered_of_finished fun stage hmem => ⟨?_, ?_⟩
      · exact eq_false_of_ne_true (List.countP_eq_zero.mp hpending stage hmem)
      · exact eq_false_of_ne_true (List.countP_eq_zero.mp hbusy stage hmem)
    · right
      obtain ⟨stage, hmem, hstage⟩ := List.countP_pos_iff.mp (Nat.pos_of_ne_zero hpending)
      obtain ⟨i, hi⟩ := List.mem_iff_getElem?.mp hmem
      cases stage with
      | pending => exact ⟨_, .start hi (by omega)⟩
      | inProgress => cases hstage
      | finished _ => cases hstage
  · right
    obtain ⟨stage, hmem, hstage⟩ := List.countP_pos_iff.mp (Nat.pos_of_ne_zero hbusy)
    obtain ⟨i, hi⟩ := List.mem_iff_getElem?.mp hmem
    have hlt := (List.getElem?_eq_some_iff.mp hi).1
    rw [← hp.length_eq] at hlt
    cases stage with
    | pending => cases hstage
    | inProgress => exact ⟨_, .finish hi (List.getElem?_eq_getElem hlt)⟩
    | finished _ => cases hstage

/-- **A pool gathers what comes of one candidate after the other**, in whatever order the workers
take them. -/
theorem gathered_of_steps (h : ReflTransGen (PoolStep workers work as) (fresh as) p)
    {x : Except ε (List β)} (hx : gathered p = some x) : x = as.mapM work := by
  refine gathered_fits ?_ hx
  clear hx
  induction h with
  | refl => exact fits_fresh work as
  | tail _ hstep ih => exact fits_step ih hstep

end Gathered

end Pool

/-! ## Runs over several generators -/

/-- What a run has collected: its result, and the reports about candidates. -/
abbrev Collected := GenerationResult × List CandidateReport

/-- A run among several workers: it is the turn of a generator, with others to follow, or the run
has ended. -/
inductive RunState where
  | working (g : Generator) (later : List Generator) (pool : Pool (Except RunError Outcome))
      (sofar : Collected)
  | ended (x : Except RunError Collected)

section Run

variable (T : Templates) (c : Corpus) (excluded : List String) (workers : Nat)

/-- The next generator has its turn. -/
def turnTo : List Generator → Collected → RunState
  | [], sofar => .ended (.ok sofar)
  | g :: later, sofar => .working g later (.fresh (candidates c g excluded)) sofar

/-- One step of a run: one of the pool, or what is gathered from the pool is collected. An error
ends the run. -/
inductive RunStep : RunState → RunState → Prop
  | work {g : Generator} {later : List Generator} {p q : Pool (Except RunError Outcome)}
      {sofar : Collected}
      (h : Pool.PoolStep workers (outcome T c g c.symbols) (candidates c g excluded) p q) :
      RunStep (.working g later p sofar) (.working g later q sofar)
  | collect {g : Generator} {later : List Generator} {p : Pool (Except RunError Outcome)}
      {sofar : Collected} {os : List Outcome} (h : p.gathered = some (.ok os)) :
      RunStep (.working g later p sofar)
        (turnTo c excluded later (sofar.1.append (settle g os), sofar.2 ++ os.map (·.report)))
  | breakOff {g : Generator} {later : List Generator} {p : Pool (Except RunError Outcome)}
      {sofar : Collected} {e : RunError} (h : p.gathered = some (.error e)) :
      RunStep (.working g later p sofar) (.ended (.error e))

/-- The state is reached by some order of steps. -/
def Reaches : RunState → RunState → Prop := ReflTransGen (RunStep T c excluded workers)

variable {T c excluded workers}

/-! ### One generator after the other -/

theorem generated_concat (gs : List Generator) (g : Generator) :
    generated T c excluded (gs ++ [g]) = do
      let (r, reports) ← generated T c excluded gs
      let os ← outcomes T c g c.symbols excluded
      return (r.append (settle g os), reports ++ os.map (·.report)) := by
  unfold generated generatedKind
  rw [List.foldlM_append]
  simp only [List.foldlM_cons, List.foldlM_nil, bind_assoc, pure_bind, bind_pure]

/-- What ends a run ends it whatever is still to come. -/
theorem generated_error {gs : List Generator} {e : RunError}
    (h : generated T c excluded gs = .error e) (later : List Generator) :
    generated T c excluded (gs ++ later) = .error e := by
  unfold generated at h ⊢
  rw [List.foldlM_append, h]
  rfl

/-! ### What every order of steps keeps -/

/-- What holds of a run of `gs` at any time: it has collected what the generators before came to,
the finished candidates of the present one have their own results, and no more workers are at work
than there are. When it has ended, it came to what `gs` come to. -/
def Underway (T : Templates) (c : Corpus) (excluded : List String) (workers : Nat)
    (gs : List Generator) : RunState → Prop
  | .working g later p sofar =>
    (∃ earlier, gs = earlier ++ g :: later ∧ generated T c excluded earlier = .ok sofar) ∧
      List.Forall₂ (Stage.Fits (outcome T c g c.symbols)) (candidates c g excluded) p ∧
      p.busy ≤ workers
  | .ended x => x = generated T c excluded gs

theorem underway_turnTo {earlier later : List Generator} {sofar : Collected}
    (h : generated T c excluded earlier = .ok sofar) :
    Underway T c excluded workers (earlier ++ later) (turnTo c excluded later sofar) := by
  cases later with
  | nil =>
    rw [List.append_nil]
    exact h.symm
  | cons g later =>
    refine ⟨⟨earlier, rfl, h⟩, Pool.fits_fresh _ _, ?_⟩
    have hidle :
        (Pool.fresh (candidates c g excluded) : Pool (Except RunError Outcome)).busy = 0 := by
      refine List.countP_eq_zero.mpr fun stage hmem => ?_
      obtain ⟨-, -, rfl⟩ := List.mem_map.mp hmem
      exact Bool.false_ne_true
    omega

theorem underway_step {gs : List Generator} {s s' : RunState}
    (hs : Underway T c excluded workers gs s) (h : RunStep T c excluded workers s s') :
    Underway T c excluded workers gs s' := by
  cases h with
  | work hstep =>
    obtain ⟨hearlier, hfits, hbusy⟩ := hs
    exact ⟨hearlier, Pool.fits_step hfits hstep, Pool.busy_step hbusy hstep⟩
  | @collect g later p sofar os hgathered =>
    obtain ⟨⟨earlier, rfl, hsofar⟩, hfits, -⟩ := hs
    have hos : outcomes T c g c.symbols excluded = .ok os :=
      (Pool.gathered_fits hfits hgathered).symm
    rw [List.append_cons]
    refine underway_turnTo ?_
    rw [generated_concat, hsofar, hos]
    rfl
  | @breakOff g later p sofar e hgathered =>
    obtain ⟨⟨earlier, rfl, hsofar⟩, hfits, -⟩ := hs
    have hos : outcomes T c g c.symbols excluded = .error e :=
      (Pool.gathered_fits hfits hgathered).symm
    rw [List.append_cons]
    refine (generated_error ?_ later).symm
    rw [generated_concat, hsofar, hos]
    rfl

/-- **A run has collected what the generators before have come to**, at any time and in whatever
order the workers take the candidates. -/
theorem underway_of_reaches {gs : List Generator} {s : RunState}
    (h : Reaches T c excluded workers (turnTo c excluded gs ({}, [])) s) :
    Underway T c excluded workers gs s := by
  induction h with
  | refl => exact (underway_turnTo rfl : Underway T c excluded workers ([] ++ gs) _)
  | tail _ hstep ih => exact underway_step ih hstep

/-! ### Every order of steps ends -/

/-- The generators that have not been collected, and the steps that the present one has left. -/
def RunState.left : RunState → Nat ×ₗ Nat
  | .working _ later p _ => toLex (later.length + 1, p.stepsLeft)
  | .ended _ => toLex (0, 0)

theorem left_turnTo (later : List Generator) (sofar : Collected) :
    (ofLex (turnTo c excluded later sofar).left).1 = later.length := by
  cases later <;> rfl

theorem left_step {s s' : RunState} (h : RunStep T c excluded workers s s') : s'.left < s.left := by
  cases h with
  | work hstep => exact Prod.Lex.toLex_lt_toLex.mpr (.inr ⟨rfl, Pool.stepsLeft_step hstep⟩)
  | collect _ =>
    refine Prod.Lex.lt_iff.mpr (.inl ?_)
    rw [left_turnTo]
    exact Nat.lt_succ_self _
  | breakOff _ => exact Prod.Lex.toLex_lt_toLex.mpr (.inl (Nat.succ_pos _))

variable (T c excluded workers) in
/-- **No order of steps is endless.** -/
theorem wellFounded_runStep : WellFounded (flip (RunStep T c excluded workers)) :=
  Subrelation.wf (fun h => left_step h) (InvImage.wf RunState.left wellFounded_lt)

/-- **No order of steps gets stuck** while there is a worker. -/
theorem ends_of_reaches (hworkers : 0 < workers) {gs : List Generator} {s : RunState}
    (hs : Underway T c excluded workers gs s) :
    ∃ x, Reaches T c excluded workers s (.ended x) := by
  induction s using (wellFounded_runStep T c excluded workers).induction with
  | _ s ih =>
    have hnext : ∀ s', RunStep T c excluded workers s s' →
        ∃ x, Reaches T c excluded workers s (.ended x) := by
      intro s' hstep
      obtain ⟨x, hx⟩ := ih s' hstep (underway_step hs hstep)
      exact ⟨x, .head hstep hx⟩
    cases s with
    | ended x => exact ⟨x, .refl⟩
    | working g later p sofar =>
      rcases Pool.gathered_or_step hworkers hs.2.1 with ⟨x, hx⟩ | ⟨q, hq⟩
      · cases x with
        | error e => exact hnext _ (.breakOff hx)
        | ok os => exact hnext _ (.collect hx)
      · exact hnext _ (.work hq)

end Run

/-! ## Reports -/

/-- A report names its candidate. -/
theorem outcome_report {T : Templates} {c : Corpus} {g : Generator} {R : SymbolResolver}
    {d : TypeDeclaration} {o : Outcome} (h : outcome T c g R d = .ok o) :
    o.report.typeName = d.name := by
  unfold outcome at h
  split at h
  · cases h; rfl
  · split at h <;> cases h <;> rfl

/-- There is one report for every candidate, in the order of the generators and of their
candidates. -/
theorem InTurn.reported {T : Templates} {c : Corpus} {excluded : List String} {gs : List Generator}
    {oss : List (List Outcome)} {r : Collected} (h : InTurn T c excluded gs oss r) :
    r.2.map (·.typeName) = gs.flatMap fun g => (candidates c g excluded).map (·.name) := by
  rw [h.reports]
  have hall := h.outcomes
  clear h
  induction hall with
  | nil => rfl
  | cons ho _ ih =>
    have hnames := map_of_mapM (p := (·.report.typeName)) (q := (·.name))
      (fun _ _ => outcome_report) ho
    rw [List.flatten_cons, List.map_append, List.map_append, ih, List.flatMap_cons, ← hnames,
      List.map_map]
    rfl

/-- **Workers go unnoticed.** Let a run over generators take its candidates among several workers,
in any order of steps. Whatever is gathered from the candidates of a generator is what comes of them
one after the other, and all of them are finished by then. At any time the run has collected what
the generators before the present one have come to, and nothing of the present one. It ends, as long
as there is a worker, and it ends as the run that takes one candidate after the other: with the same
units, failures and reports, one report for each candidate, in the order of the generators and then
of their candidates. -/
theorem workers_unnoticed (T : Templates) (c : Corpus) (excluded : List String) (workers : Nat)
    (gs : List Generator) :
    (∀ g R p x, ReflTransGen (Pool.PoolStep workers (outcome T c g R) (candidates c g excluded))
        (.fresh (candidates c g excluded)) p → p.gathered = some x →
      x = outcomes T c g R excluded ∧ ∀ os, x = .ok os → p = os.map fun o => .finished (.ok o)) ∧
    (∀ s, Reaches T c excluded workers (turnTo c excluded gs ({}, [])) s →
      Underway T c excluded workers gs s ∧
        (0 < workers → ∃ x, Reaches T c excluded workers s (.ended x))) ∧
    WellFounded (flip (RunStep T c excluded workers)) ∧
    (∀ x, Reaches T c excluded workers (turnTo c excluded gs ({}, [])) (.ended x) →
      ∀ (E : Setting) (s : Session), ∃ s', (E.generateKinds T c excluded gs).run.run s = (x, s')) ∧
    ∀ r, Reaches T c excluded workers (turnTo c excluded gs ({}, [])) (.ended (.ok r)) →
      r.2.map (·.typeName) = gs.flatMap (fun g => (candidates c g excluded).map (·.name)) ∧
        ∃ oss, InTurn T c excluded gs oss r := by
  refine ⟨?_, ?_, wellFounded_runStep T c excluded workers, ?_, ?_⟩
  · intro g R p x hsteps hx
    refine ⟨Pool.gathered_of_steps hsteps hx, fun os hos => ?_⟩
    subst hos
    exact Pool.finished_of_gathered hx
  · intro s hs
    have hunderway := underway_of_reaches hs
    exact ⟨hunderway, fun hworkers => ends_of_reaches hworkers hunderway⟩
  · intro x hx E s
    obtain rfl : x = generated T c excluded gs := underway_of_reaches hx
    obtain ⟨s', hs', -⟩ :=
      generateKinds_comesTo (P := fun _ => True) (E := E) (fun _ _ _ => trivial)
      T c excluded gs s trivial
    exact ⟨s', hs'⟩
  · intro r hr
    have hgen : Except.ok r = generated T c excluded gs := underway_of_reaches hr
    obtain ⟨oss, hturn⟩ := inTurn_generated hgen.symm
    exact ⟨hturn.reported, oss, hturn⟩

end FieldWiring
