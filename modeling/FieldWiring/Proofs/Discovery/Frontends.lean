import FieldWiring.Frontend
import FieldWiring.Proofs.Configuration.Coercion
import FieldWiring.Proofs.Generation.Verdict

/-!
# Which frontends are found

The search goes through the frontends there are, those built in before those of plugins, and asks
one to make a frontend when its name is wanted and nothing before it has that name. These first
comers can be told from the names alone. Nothing else is ever asked, so it may just as well be
missing, whatever would have come of it.

Results:
* `mem_firstComers_iff`, `pairwise_firstComers`: a first comer is wanted, and alone with its name.
* `foldlM_discoverOne`: the search asks the first comers, in order.
* `discoverFrontends_eq`: and then complains about the wanted names that nothing has.
* `discoverFrontends_without`: what is no first comer may be taken away.
* `frontends_settled`: all of it for the frontends built in and any plugins that load.
-/

namespace FieldWiring

/-! ## Names -/

/-- Two names differ at most in the size of their letters. -/
def SameName (a b : String) : Prop := Text.lower a = Text.lower b

instance (a b : String) : Decidable (SameName a b) :=
  inferInstanceAs (Decidable (Text.lower a = Text.lower b))

variable {enabled : List String}

/-- The name is one of those asked for, or none is asked for. -/
def Wanted (enabled : List String) (name : String) : Prop :=
  enabled = [] ∨ ∃ n ∈ enabled, SameName n name

instance (name : String) : Decidable (Wanted enabled name) :=
  inferInstanceAs (Decidable (_ ∨ ∃ n ∈ enabled, SameName n name))

theorem isWanted_iff {name : String} : isWanted enabled name = true ↔ Wanted enabled name := by
  rw [isWanted, Bool.or_eq_true, List.isEmpty_iff, List.contains_iff_mem, List.mem_map]
  rfl

theorem Wanted.of_mem {name : String} (h : name ∈ enabled) : Wanted enabled name :=
  .inr ⟨name, h, rfl⟩

theorem Wanted.congr {a b : String} (hab : SameName a b) (h : Wanted enabled a) :
    Wanted enabled b :=
  h.imp_right fun ⟨n, hn, hsame⟩ => ⟨n, hn, hsame.trans hab⟩

/-- Nothing is missing iff every wanted name was seen. -/
theorem missingNames_eq_nil_iff {seen : List String} :
    missingNames enabled seen = [] ↔ ∀ n ∈ enabled, Text.lower n ∈ seen := by
  have hempty (l : List String) : sorted l = [] ↔ l = [] :=
    ⟨fun h => ((perm_sorted l).symm.trans (.of_eq h)).eq_nil, fun h => h.symm ▸ rfl⟩
  rw [missingNames, hempty, List.filter_eq_nil_iff]
  constructor
  · intro h n hn
    simpa using h (Text.lower n) (mem_dedupe.mpr (List.mem_map_of_mem hn))
  · intro h name hname
    obtain ⟨n, hn, rfl⟩ := List.mem_map.mp (mem_dedupe.mp hname)
    simpa using h n hn

theorem missingNames_congr {seen seen' : List String}
    (h : ∀ n ∈ enabled, Text.lower n ∈ seen ↔ Text.lower n ∈ seen') :
    missingNames enabled seen = missingNames enabled seen' := by
  unfold missingNames
  refine congrArg sorted (List.filter_congr fun name hname => ?_)
  obtain ⟨n, hn, rfl⟩ := List.mem_map.mp (mem_dedupe.mp hname)
  rw [List.contains_eq_mem, List.contains_eq_mem, decide_eq_decide.mpr (h n hn)]

/-! ## First comers -/

section FirstComers

variable {α : Type} {before before' rest : List (Plugin α)} {p : Plugin α}

/-- Something in a list has the name. -/
def HasName (ps : List (Plugin α)) (name : String) : Prop := ∃ q ∈ ps, SameName q.name name

instance (ps : List (Plugin α)) (name : String) : Decidable (HasName ps name) :=
  inferInstanceAs (Decidable (∃ q ∈ ps, SameName q.name name))

theorem not_hasName_nil {name : String} : ¬ HasName ([] : List (Plugin α)) name :=
  fun ⟨_, hq, _⟩ => absurd hq List.not_mem_nil

theorem hasName_append {ps qs : List (Plugin α)} {name : String} :
    HasName (ps ++ qs) name ↔ HasName ps name ∨ HasName qs name := by
  simp only [HasName, List.mem_append, or_and_right, exists_or]

theorem hasName_cons {ps : List (Plugin α)} {name : String} :
    HasName (p :: ps) name ↔ HasName [p] name ∨ HasName ps name :=
  (hasName_append : HasName ([p] ++ ps) name ↔ _)

theorem HasName.congr {ps : List (Plugin α)} {a b : String} (hab : SameName a b)
    (h : HasName ps a) :
    HasName ps b :=
  h.imp fun _ hq => ⟨hq.1, hq.2.trans hab⟩

/-- The name is wanted, and nothing before has it. -/
def ComesFirst (enabled : List String) (before : List (Plugin α)) (p : Plugin α) : Prop :=
  Wanted enabled p.name ∧ ¬ HasName before p.name

instance (before : List (Plugin α)) (p : Plugin α) : Decidable (ComesFirst enabled before p) :=
  inferInstanceAs (Decidable (_ ∧ _))

/-- Of what follows `before`, that which comes first under a wanted name, in order. -/
def firstComers (enabled : List String) :
    (before : List (Plugin α)) → List (Plugin α) → List (Plugin α)
  | _, [] => []
  | before, p :: rest =>
    if ComesFirst enabled before p then p :: firstComers enabled (before ++ [p]) rest
    else firstComers enabled (before ++ [p]) rest

theorem firstComers_sublist (before rest : List (Plugin α)) :
    (firstComers enabled before rest).Sublist rest := by
  induction rest generalizing before with
  | nil => exact .slnil
  | cons p rest ih =>
    unfold firstComers
    split
    · exact (ih _).cons_cons p
    · exact (ih _).cons p

/-- A first comer is one at some place in the list. -/
theorem mem_firstComers_iff :
    p ∈ firstComers enabled before rest ↔
      ∃ front back, rest = front ++ p :: back ∧ ComesFirst enabled (before ++ front) p := by
  induction rest generalizing before with
  | nil => simp [firstComers]
  | cons q rest ih =>
    have hlater : p ∈ firstComers enabled (before ++ [q]) rest ↔
        ∃ front back, q :: rest = (q :: front) ++ p :: back ∧
          ComesFirst enabled (before ++ (q :: front)) p := by
      rw [ih]
      simp only [List.cons_append, List.cons.injEq, true_and, List.append_assoc, List.nil_append]
    have hplaces : (∃ front back, q :: rest = front ++ p :: back ∧
          ComesFirst enabled (before ++ front) p) ↔
        p = q ∧ ComesFirst enabled before p ∨ p ∈ firstComers enabled (before ++ [q]) rest := by
      rw [hlater]
      constructor
      · rintro ⟨_ | ⟨q', front⟩, back, h, hfirst⟩
        · exact .inl ⟨(List.cons.inj h).1.symm, by simpa using hfirst⟩
        · obtain rfl := (List.cons.inj h).1
          exact .inr ⟨front, back, h, hfirst⟩
      · rintro (⟨rfl, hfirst⟩ | ⟨front, back, h⟩)
        · exact ⟨[], rest, rfl, by simpa using hfirst⟩
        · exact ⟨q :: front, back, h⟩
    rw [hplaces, firstComers]
    split
    · rename_i hq
      rw [List.mem_cons]
      exact or_congr_left ⟨fun h => ⟨h, h ▸ hq⟩, And.left⟩
    · rename_i hq
      exact ⟨.inr, fun h => h.resolve_left fun ⟨he, hfirst⟩ => hq (he ▸ hfirst)⟩

/-- No two first comers share a name. -/
theorem pairwise_firstComers (before rest : List (Plugin α)) :
    (firstComers enabled before rest).Pairwise fun p q => ¬ SameName p.name q.name := by
  induction rest generalizing before with
  | nil => exact .nil
  | cons p rest ih =>
    unfold firstComers
    split
    · refine .cons (fun q hq hsame => ?_) (ih _)
      obtain ⟨front, back, -, -, hnew⟩ := mem_firstComers_iff.mp hq
      exact hnew ⟨p, by simp, hsame⟩
    · exact ih _

/-- What comes second adds no wanted name. -/
theorem hasName_concat {name : String} (hw : Wanted enabled name)
    (hlate : ¬ ComesFirst enabled before p) :
    HasName (before ++ [p]) name ↔ HasName before name := by
  rw [hasName_append]
  refine or_iff_left_of_imp ?_
  rintro ⟨q, hq, hsame⟩
  obtain rfl := List.mem_singleton.mp hq
  have htaken : HasName before q.name :=
    not_not.mp fun hnew => hlate ⟨hw.congr hsame.symm, hnew⟩
  exact htaken.congr hsame

/-- First comers have all the wanted names. -/
theorem hasName_firstComers {name : String} (hw : Wanted enabled name) :
    HasName before name ∨ HasName (firstComers enabled before rest) name ↔
      HasName (before ++ rest) name := by
  induction rest generalizing before with
  | nil => rw [firstComers, List.append_nil, or_iff_left not_hasName_nil]
  | cons p rest ih =>
    rw [List.append_cons, ← ih, firstComers]
    split
    · rw [hasName_cons, hasName_append, or_assoc]
    · rename_i hlate
      rw [hasName_concat hw hlate]

theorem firstComers_append (before front back : List (Plugin α)) :
    firstComers enabled before (front ++ back) =
      firstComers enabled before front ++ firstComers enabled (before ++ front) back := by
  induction front generalizing before with
  | nil => rw [List.nil_append, firstComers, List.nil_append, List.append_nil]
  | cons p front ih =>
    rw [List.cons_append, firstComers, firstComers, ih, List.append_cons before p front]
    split
    · rw [List.cons_append]
    · rfl

/-- Who comes first depends on the wanted names before. -/
theorem firstComers_congr
    (h : ∀ name, Wanted enabled name → (HasName before name ↔ HasName before' name)) :
    firstComers enabled before rest = firstComers enabled before' rest := by
  induction rest generalizing before before' with
  | nil => rfl
  | cons p rest ih =>
    have hfirst : ComesFirst enabled before p ↔ ComesFirst enabled before' p :=
      and_congr_right fun hw => not_congr (h p.name hw)
    have hrest : firstComers enabled (before ++ [p]) rest =
        firstComers enabled (before' ++ [p]) rest :=
      ih fun name hw => by rw [hasName_append, hasName_append, h name hw]
    unfold firstComers
    rw [hrest, if_congr hfirst rfl rfl]

/-- What is no first comer may be missing. -/
theorem firstComers_without {front back : List (Plugin α)} (hlate : ¬ ComesFirst enabled front p) :
    firstComers enabled [] (front ++ p :: back) = firstComers enabled [] (front ++ back) := by
  rw [firstComers_append, firstComers_append, List.nil_append, firstComers, if_neg hlate]
  exact congrArg _ (firstComers_congr fun name hw => hasName_concat hw hlate)

end FirstComers

/-! ## The search -/

section Search

variable {α : Type} {failure : Plugin α → FrontendError} {plugins : List (Plugin α)}

/-- The plugin loads, to whatever it may be. -/
def Plugin.Loads (p : Plugin α) : Prop := ∀ reason, p.offer ≠ .fails reason

/-- What comes of asking a plugin to make a frontend. -/
def Plugin.made (failure : Plugin α → FrontendError) (p : Plugin α) : Except FrontendError α :=
  match p.offer with
  | .frontend f => .ok f
  | .unusable => .error (failure p)
  | .fails reason => .error (.loadFailed p.name reason)

theorem made_ok_iff {p : Plugin α} {f : α} : p.made failure = .ok f ↔ p.offer = .frontend f := by
  unfold Plugin.made
  cases p.offer <;> simp

theorem mapM_made_iff {fs : List α} :
    plugins.mapM (Plugin.made failure) = .ok fs ↔ plugins.map (·.offer) = fs.map .frontend := by
  rw [← List.forall₂_eq_eq_eq, List.forall₂_map_left_iff, List.forall₂_map_right_iff]
  simp only [mapM_ok_iff, made_ok_iff]

/-- The names seen are the wanted ones among those before. -/
def Tells (enabled : List String) (before : List (Plugin α)) (seen : List String) : Prop :=
  ∀ name, Wanted enabled name → (Text.lower name ∈ seen ↔ HasName before name)

theorem tells_nil : Tells enabled ([] : List (Plugin α)) [] :=
  fun _ _ => iff_of_false List.not_mem_nil not_hasName_nil

theorem Tells.first {before : List (Plugin α)} {seen : List String} (ht : Tells enabled before seen)
    (p : Plugin α) : Tells enabled (before ++ [p]) (seen ++ [Text.lower p.name]) := by
  intro name hw
  rw [List.mem_append, ht name hw, hasName_append]
  refine or_congr_right ?_
  simp [HasName, SameName, eq_comm]

theorem Tells.later {before : List (Plugin α)} {seen : List String} {p : Plugin α}
    (ht : Tells enabled before seen) (hlate : ¬ ComesFirst enabled before p) :
    Tells enabled (before ++ [p]) seen := fun name hw => by
  rw [ht name hw, hasName_concat hw hlate]

/-- A first comer is asked to make a frontend. -/
theorem discoverOne_first {before : List (Plugin α)} {d : Discovery α} {p : Plugin α} (hl : p.Loads)
    (ht : Tells enabled before d.seen) (hfirst : ComesFirst enabled before p) :
    discoverOne failure enabled d p = p.made failure >>= fun f =>
      .ok ⟨d.frontends ++ [f], d.seen ++ [Text.lower p.name]⟩ := by
  have hnew : d.seen.contains (Text.lower p.name) = false := by
    rw [List.contains_eq_mem, decide_eq_false_iff_not, ht p.name hfirst.1]
    exact hfirst.2
  have hw : isWanted enabled p.name = true := isWanted_iff.mpr hfirst.1
  unfold discoverOne Plugin.made
  cases ho : p.offer with
  | fails reason => exact absurd ho (hl reason)
  | frontend f =>
    simp only [hw, hnew, Bool.not_true, Bool.or_false, Bool.false_eq_true, if_false]; rfl
  | unusable =>
    simp only [hw, hnew, Bool.not_true, Bool.or_false, Bool.false_eq_true, if_false]; rfl

/-- Nothing else is asked. -/
theorem discoverOne_later {before : List (Plugin α)} {d : Discovery α} {p : Plugin α} (hl : p.Loads)
    (ht : Tells enabled before d.seen) (hlate : ¬ ComesFirst enabled before p) :
    discoverOne failure enabled d p = .ok d := by
  have hpassed : (!isWanted enabled p.name || d.seen.contains (Text.lower p.name)) = true := by
    cases hw : isWanted enabled p.name with
    | false => rfl
    | true =>
      have hwanted : Wanted enabled p.name := isWanted_iff.mp hw
      rw [Bool.not_true, Bool.false_or, List.contains_eq_mem, decide_eq_true_iff, ht p.name hwanted]
      exact not_not.mp fun hnew => hlate ⟨hwanted, hnew⟩
  unfold discoverOne
  cases ho : p.offer with
  | fails reason => exact absurd ho (hl reason)
  | frontend f => simp only [hpassed, if_true]
  | unusable => simp only [hpassed, if_true]

/-- The search asks the first comers, in order. -/
theorem foldlM_discoverOne {rest before : List (Plugin α)} {d : Discovery α}
    (hl : ∀ p ∈ rest, p.Loads) (ht : Tells enabled before d.seen) :
    rest.foldlM (discoverOne failure enabled) d =
      (firstComers enabled before rest).mapM (Plugin.made failure) >>= fun fs =>
        .ok ⟨d.frontends ++ fs,
          d.seen ++ (firstComers enabled before rest).map fun p => Text.lower p.name⟩ := by
  induction rest generalizing before d with
  | nil => exact congrArg Except.ok (by simp [firstComers])
  | cons p rest ih =>
    obtain ⟨hp, hrest⟩ := List.forall_mem_cons.mp hl
    rw [List.foldlM_cons, firstComers]
    by_cases hfirst : ComesFirst enabled before p
    · rw [if_pos hfirst, discoverOne_first hp ht hfirst, List.mapM_cons]
      cases hmade : p.made failure with
      | error e => rfl
      | ok f =>
        have hmore :=
          ih (d := ⟨d.frontends ++ [f], d.seen ++ [Text.lower p.name]⟩) hrest (ht.first p)
        refine hmore.trans ?_
        cases (firstComers enabled (before ++ [p]) rest).mapM (Plugin.made failure) with
        | error e => rfl
        | ok fs => exact congrArg Except.ok (by simp)
    · rw [if_neg hfirst, discoverOne_later hp ht hfirst]
      exact ih hrest (ht.later hfirst)

/-- **The search, told from names.** The first comers make their frontends, in order, and then every
wanted name must be that of something. -/
theorem discoverFrontends_eq (hl : ∀ p ∈ plugins, p.Loads) :
    discoverFrontends enabled plugins failure =
      (firstComers enabled [] plugins).mapM (Plugin.made failure) >>= fun fs =>
        match missingNames enabled (plugins.map fun p => Text.lower p.name) with
        | [] => .ok fs
        | missing => .error (.unknownNames missing) := by
  have hseen :
      missingNames enabled ((firstComers enabled [] plugins).map fun p => Text.lower p.name) =
      missingNames enabled (plugins.map fun p => Text.lower p.name) := by
    refine missingNames_congr fun n hn => ?_
    have hnames : HasName [] n ∨ HasName (firstComers enabled [] plugins) n ↔
        HasName ([] ++ plugins) n := hasName_firstComers (.of_mem hn)
    rw [or_iff_right not_hasName_nil, List.nil_append] at hnames
    rw [List.mem_map, List.mem_map]
    exact hnames
  unfold discoverFrontends
  rw [foldlM_discoverOne hl tells_nil, ← hseen]
  cases (firstComers enabled [] plugins).mapM (Plugin.made failure) with
  | error e => rfl
  | ok fs => rfl

theorem missingNames_plugins_iff :
    missingNames enabled (plugins.map fun p => Text.lower p.name) = [] ↔
      ∀ n ∈ enabled, HasName plugins n := by
  rw [missingNames_eq_nil_iff]
  exact forall₂_congr fun n _ => List.mem_map

/-- The search succeeds iff the first comers make frontends and every wanted name is there. -/
theorem discoverFrontends_ok_iff (hl : ∀ p ∈ plugins, p.Loads) {fs : List α} :
    discoverFrontends enabled plugins failure = .ok fs ↔
      (firstComers enabled [] plugins).map (·.offer) = fs.map .frontend ∧
        ∀ n ∈ enabled, HasName plugins n := by
  rw [discoverFrontends_eq hl, bind_eq_ok_iff, ← missingNames_plugins_iff]
  constructor
  · rintro ⟨gs, hgs, h⟩
    split at h
    · rename_i hnone
      obtain rfl := Except.ok.inj h
      exact ⟨mapM_made_iff.mp hgs, hnone⟩
    · cases h
  · rintro ⟨hfs, hnone⟩
    exact ⟨fs, mapM_made_iff.mpr hfs, by rw [hnone]⟩

/-- When the first comers make frontends, a wanted name that nothing has is all that can go
wrong. -/
theorem discoverFrontends_error_iff (hl : ∀ p ∈ plugins, p.Loads)
    (hmade : ∀ p ∈ firstComers enabled [] plugins, ∃ f, p.offer = .frontend f) {e : FrontendError} :
    discoverFrontends enabled plugins failure = .error e ↔
      (∃ n ∈ enabled, ¬ HasName plugins n) ∧
        e = .unknownNames (missingNames enabled (plugins.map fun p => Text.lower p.name)) := by
  obtain ⟨fs, hfs⟩ : ∃ fs, (firstComers enabled [] plugins).mapM (Plugin.made failure) = .ok fs :=
    mapM_ends.mpr fun p hp => (hmade p hp).imp fun _ ho => made_ok_iff.mpr ho
  have hsome : (∃ n ∈ enabled, ¬ HasName plugins n) ↔
      missingNames enabled (plugins.map fun p => Text.lower p.name) ≠ [] := by
    rw [Ne, missingNames_plugins_iff]
    push Not
    rfl
  rw [discoverFrontends_eq hl, hfs, hsome]
  change (match missingNames enabled (plugins.map fun p => Text.lower p.name) with
    | [] => Except.ok fs
    | missing => .error (FrontendError.unknownNames missing)) = .error e ↔ _
  split
  · rename_i hnone
    exact iff_of_false (fun h => nomatch h) fun h => h.1 hnone
  · rename_i hmissing
    exact ⟨fun h => ⟨hmissing, (Except.error.inj h).symm⟩, fun h => congrArg _ h.2.symm⟩

/-- **What is no first comer may be missing**, whatever comes of it. -/
theorem discoverFrontends_without {front back : List (Plugin α)} {p : Plugin α}
    (hl : ∀ q ∈ front ++ p :: back, q.Loads) (hlate : ¬ ComesFirst enabled front p) :
    discoverFrontends enabled (front ++ back) failure =
      discoverFrontends enabled (front ++ p :: back) failure := by
  have hrest : ∀ q ∈ front ++ back, q.Loads := fun q hq =>
    hl q ((List.sublist_cons_self p back).append_left front |>.mem hq)
  have hmissing : missingNames enabled ((front ++ back).map fun q => Text.lower q.name) =
      missingNames enabled ((front ++ p :: back).map fun q => Text.lower q.name) := by
    refine missingNames_congr fun n hn => ?_
    rw [List.mem_map, List.mem_map]
    change HasName (front ++ back) n ↔ HasName (front ++ p :: back) n
    rw [List.append_cons, hasName_append, hasName_append, hasName_concat (.of_mem hn) hlate]
  rw [discoverFrontends_eq hrest, discoverFrontends_eq hl, firstComers_without hlate, hmissing]

/-- What is found is what something offers. -/
theorem exists_offer_of_discover (hl : ∀ p ∈ plugins, p.Loads) {fs : List α}
    (h : discoverFrontends enabled plugins failure = .ok fs) :
    ∀ f ∈ fs, ∃ p ∈ plugins, p.offer = .frontend f := by
  intro f hf
  obtain ⟨hfs, -⟩ := (discoverFrontends_ok_iff hl).mp h
  obtain ⟨p, hp, ho⟩ := List.mem_map.mp (hfs ▸ List.mem_map_of_mem (f := Offer.frontend) hf)
  exact ⟨p, (firstComers_sublist [] plugins).mem hp, ho⟩

end Search

/-! ## The frontends built in and the plugins -/

/-- The frontends that there are: those built in, then those of plugins. -/
def offered (plugins : List (Plugin Frontend)) : List (Plugin Frontend) :=
  builtinFrontends ++ plugins

theorem loads_builtin : ∀ p ∈ builtinFrontends, p.Loads := by
  intro p hp reason
  obtain rfl := List.mem_singleton.mp hp
  exact nofun

theorem loads_offered {plugins : List (Plugin Frontend)} (hl : ∀ p ∈ plugins, p.Loads) :
    ∀ p ∈ offered plugins, p.Loads :=
  List.forall_mem_append.mpr ⟨loads_builtin, hl⟩

/-- **First come, first served.** The frontends found are those of the first comers, in order. These
are wanted, and no two of them share a name. If all of them can be made, the search fails iff some
wanted name is that of nothing there is. What comes under a name that is not wanted, or that
something before it has, may be missing, whether or not a frontend can be made of it. Without names
all are wanted. -/
theorem frontends_settled (enabled : List String) (plugins : List (Plugin Frontend))
    (failure : Plugin Frontend → FrontendError) (hl : ∀ p ∈ plugins, p.Loads) :
    ((firstComers enabled [] (offered plugins)).Sublist (offered plugins) ∧
      ((firstComers enabled [] (offered plugins)).Pairwise fun p q => ¬ SameName p.name q.name) ∧
      ∀ p, p ∈ firstComers enabled [] (offered plugins) ↔ ∃ front back,
        offered plugins = front ++ p :: back ∧ Wanted enabled p.name ∧ ¬ HasName front p.name) ∧
    (∀ fs, discoverFrontends enabled (offered plugins) failure = .ok fs ↔
      (firstComers enabled [] (offered plugins)).map (·.offer) = fs.map .frontend ∧
        ∀ n ∈ enabled, HasName (offered plugins) n) ∧
    ((∀ p ∈ firstComers enabled [] (offered plugins), ∃ f, p.offer = .frontend f) →
      ((∃ e, discoverFrontends enabled (offered plugins) failure = .error e ∧
        e.label = "ValueError") ↔
        ∃ n ∈ enabled, ¬ HasName (offered plugins) n)) ∧
    ∀ before p after, plugins = before ++ p :: after →
      ¬ Wanted enabled p.name ∨ HasName (offered before) p.name →
        discoverFrontends enabled (offered (before ++ after)) failure =
          discoverFrontends enabled (offered plugins) failure := by
  have hall := loads_offered hl
  refine ⟨⟨firstComers_sublist [] _, pairwise_firstComers [] _, fun p => mem_firstComers_iff⟩,
    fun fs => discoverFrontends_ok_iff hall, fun hmade => ?_, ?_⟩
  · simp only [discoverFrontends_error_iff hall hmade]
    exact ⟨fun ⟨_, h, _⟩ => h.1, fun h => ⟨_, ⟨h, rfl⟩, rfl⟩⟩
  · rintro before p after rfl hpassed
    have hlate : ¬ ComesFirst enabled (offered before) p := fun ⟨hw, hnew⟩ =>
      hpassed.elim (fun h => h hw) hnew
    unfold offered at hall hlate ⊢
    rw [← List.append_assoc] at hall ⊢
    rw [discoverFrontends_without hall hlate, List.append_assoc]

/-- Three plugins: the second has the name of the first, the last is not asked for, and neither
makes a frontend. -/
def guests : List (Plugin Frontend) :=
  [⟨"Vb", .frontend (CSharp.frontend false)⟩, ⟨"VB", .unusable⟩, ⟨"Go", .unusable⟩]

/-- How the guests fail that make no frontend. -/
def guestFailure (p : Plugin Frontend) : FrontendError := .raised ⟨"KeyError", p.name, false, false⟩

theorem guests_passed_over :
    (∀ p ∈ guests, p.Loads) ∧
      discoverFrontends ["vb", "CSharp"] (offered guests) guestFailure =
        .ok [CSharp.frontend, CSharp.frontend false] ∧
      discoverFrontends ["vb", "CSharp"] (offered (guests.eraseIdx 1)) guestFailure =
        .ok [CSharp.frontend, CSharp.frontend false] ∧
      ∃ e, discoverFrontends ["vb", "F#"] (offered guests) guestFailure = .error e ∧
        e.label = "ValueError" := by
  have hloads : ∀ p ∈ guests, p.Loads := by
    intro p hp reason
    simp only [guests, List.mem_cons, List.not_mem_nil, or_false] at hp
    rcases hp with rfl | rfl | rfl <;> exact nofun
  obtain ⟨-, hfound, -, hwithout⟩ := frontends_settled ["vb", "CSharp"] guests guestFailure hloads
  obtain ⟨-, -, hunknown, -⟩ := frontends_settled ["vb", "F#"] guests guestFailure hloads
  have hboth : discoverFrontends ["vb", "CSharp"] (offered guests) guestFailure =
      .ok [CSharp.frontend, CSharp.frontend false] :=
    (hfound _).mpr ⟨rfl, by decide +kernel⟩
  have htaken : HasName (offered (guests.take 1)) "VB" := by decide +kernel
  have hfewer : discoverFrontends ["vb", "CSharp"] (offered (guests.eraseIdx 1)) guestFailure =
      discoverFrontends ["vb", "CSharp"] (offered guests) guestFailure :=
    hwithout (guests.take 1) ⟨"VB", .unusable⟩ (guests.drop 2) rfl (.inr htaken)
  refine ⟨hloads, hboth, hfewer.trans hboth, (hunknown ?_).mpr ⟨"F#", by decide, by decide +kernel⟩⟩
  have hfirst : firstComers ["vb", "F#"] [] (offered guests) =
      [⟨"Vb", .frontend (CSharp.frontend false)⟩] := rfl
  rw [hfirst]
  exact List.forall_mem_singleton.mpr ⟨_, rfl⟩

end FieldWiring
