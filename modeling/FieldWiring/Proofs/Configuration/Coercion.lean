import FieldWiring.Configuration
import FieldWiring.Proofs.Configuration.Showing

/-!
# How values are taken

A configuration takes a value as a text, as a list of texts, as a path, as the settings of a kind or
as a number of workers. Each has its way to fail. What is meant to be refused is a lookup mode that
does not exist and a number of workers that is none. A number with too many digits has no text, a
path may ask for the home of an account that has none, and a value that is to be refused may be one
that cannot be shown.

Results:
* `asText_of_writes`, `asText_error_iff`: a value has the text that it writes, unless it is too
  long.
* `asTexts_error_iff`, `pathAt_error_iff`, `kindSettings_error_iff`: when taking a value fails, and
  how.
* `asWorkers_spec`: a value is taken as the number that it counts, or refused.
* `isAbsolute_of_pathAt`, `kindSettings_lookup`: what is taken can be used.
-/

namespace FieldWiring

/-- A step after another one fails iff the first one does, or it fails itself. -/
theorem bind_eq_error_iff {ε α β : Type} {m : Except ε α} {f : α → Except ε β} {e : ε} :
    m >>= f = .error e ↔ m = .error e ∨ ∃ a, m = .ok a ∧ f a = .error e := by
  cases m with
  | error e' => exact ⟨fun h => .inl (congrArg _ (Except.error.inj h)), fun
      | .inl h => congrArg _ (Except.error.inj h)
      | .inr ⟨_, h, _⟩ => nomatch h⟩
  | ok a =>
    refine ⟨fun h => .inr ⟨a, rfl, h⟩, ?_⟩
    rintro (h | ⟨_, ⟨⟩, h⟩)
    · cases h
    · exact h

/-- A step after another one comes to a result iff both do. -/
theorem bind_eq_ok_iff {ε α β : Type} {m : Except ε α} {f : α → Except ε β} {b : β} :
    m >>= f = .ok b ↔ ∃ a, m = .ok a ∧ f a = .ok b := by
  cases m with
  | error e => exact iff_of_false (fun h => nomatch h) fun ⟨_, h, _⟩ => nomatch h
  | ok a => exact ⟨fun h => ⟨a, rfl, h⟩, fun ⟨_, ha, h⟩ => Except.ok.inj ha ▸ h⟩

namespace Yaml.Value

/-! ## Texts -/

/-- The text that a value writes: a text itself, and truth values and numbers as messages show
them. -/
inductive Writes : Value → String → Prop
  | text (s : String) : Writes (text s) s
  | yes : Writes (bool true) "True"
  | no : Writes (bool false) "False"
  | int {n : Int} : ¬ (int n).IsLong → Writes (int n) (Text.intText n)
  | float (x : Double) : Writes (float x) x.text
  | noNumber : Writes noNumber Double.nan.text

theorem Writes.not_isLong {v : Value} {s : String} (h : v.Writes s) : ¬ v.IsLong := by
  cases h with
  | int hshort => exact hshort
  | _ => exact Value.not_isLong nofun

theorem asText_of_isLong {v : Value} (h : v.IsLong) : v.asText = .error .longNumber := by
  obtain ⟨n, rfl, hlong⟩ := h
  rw [asText, if_pos hlong]

/-- A value has the text that it writes. -/
theorem asText_of_writes {v : Value} {s : String} (h : v.Writes s) : v.asText = .ok (some s) := by
  cases h with
  | int hshort => rw [asText, if_neg fun hlong => hshort (isLong_int.mpr hlong)]
  | _ => rfl

/-- It has none if it writes none, unless it is too long to have one. -/
theorem asText_of_silent {v : Value} (hshort : ¬ v.IsLong) (h : ∀ s, ¬ v.Writes s) :
    v.asText = .ok none := by
  cases v with
  | text s => exact absurd (.text s) (h s)
  | bool b =>
    cases b with
    | true => exact absurd .yes (h _)
    | false => exact absurd .no (h _)
  | int n => exact absurd (.int hshort) (h _)
  | float x => exact absurd (.float x) (h _)
  | noNumber => exact absurd .noNumber (h _)
  | _ => rfl

/-- A value is too long, or writes a text, or is neither. -/
theorem writes_cases (v : Value) :
    v.IsLong ∨ (∃ s, v.Writes s) ∨ (¬ v.IsLong ∧ ∀ s, ¬ v.Writes s) := by
  by_cases hlong : v.IsLong
  · exact .inl hlong
  · by_cases hwrites : ∃ s, v.Writes s
    · exact .inr (.inl hwrites)
    · exact .inr (.inr ⟨hlong, not_exists.mp hwrites⟩)

theorem Writes.unique {v : Value} {s s' : String} (h : v.Writes s) (h' : v.Writes s') : s = s' :=
  Option.some.inj (Except.ok.inj ((asText_of_writes h).symm.trans (asText_of_writes h')))

theorem asText_error_iff {v : Value} {e : RunError} :
    v.asText = .error e ↔ v.IsLong ∧ e = .longNumber := by
  rcases v.writes_cases with hlong | ⟨s, hs⟩ | ⟨hshort, hsilent⟩
  · rw [asText_of_isLong hlong, Except.error.injEq, and_iff_right hlong]
    exact eq_comm
  · rw [asText_of_writes hs]
    exact iff_of_false (fun h => nomatch h) fun h => hs.not_isLong h.1
  · rw [asText_of_silent hshort hsilent]
    exact iff_of_false (fun h => nomatch h) fun h => hshort h.1

/-- Some item of a list is too long to be written. -/
def HoldsLongItem (v : Value) : Prop := ∃ items, v = list items ∧ ∃ u ∈ items, u.IsLong

theorem mapM_asText_error_iff {items : List Value} {e : RunError} :
    items.mapM asText = .error e ↔ (∃ u ∈ items, u.IsLong) ∧ e = .longNumber := by
  induction items with
  | nil => exact iff_of_false (fun h => nomatch h) fun ⟨⟨_, hu, _⟩, _⟩ => absurd hu List.not_mem_nil
  | cons v items ih =>
    rw [List.mapM_cons, bind_eq_error_iff, asText_error_iff]
    constructor
    · rintro (⟨hlong, he⟩ | ⟨written, -, h⟩)
      · exact ⟨⟨v, List.mem_cons_self, hlong⟩, he⟩
      · rcases bind_eq_error_iff.mp h with h | ⟨_, _, h⟩
        · obtain ⟨⟨u, hu, hlong⟩, he⟩ := ih.mp h
          exact ⟨⟨u, List.mem_cons_of_mem v hu, hlong⟩, he⟩
        · cases h
    · rintro ⟨⟨u, hu, hlong⟩, he⟩
      cases hv : v.asText with
      | error e' =>
        obtain ⟨hlong', -⟩ := asText_error_iff.mp hv
        exact .inl ⟨hlong', he⟩
      | ok written =>
        have hne : u ≠ v := fun h => by
          rw [← h, asText_of_isLong hlong] at hv
          cases hv
        have hrest := ih.mpr ⟨⟨u, (List.mem_cons.mp hu).resolve_left hne, hlong⟩, he⟩
        exact .inr ⟨written, rfl, bind_eq_error_iff.mpr (.inl hrest)⟩

/-- A list of texts fails iff an item is too long to be written. -/
theorem asTexts_error_iff {v : Value} {e : RunError} :
    v.asTexts = .error e ↔ v.HoldsLongItem ∧ e = .longNumber := by
  cases v with
  | list items =>
    have hitems : (list items).HoldsLongItem ↔ ∃ u ∈ items, u.IsLong := by
      constructor
      · rintro ⟨items', h, hlong⟩
        exact Value.list.inj h ▸ hlong
      · exact fun h => ⟨items, rfl, h⟩
    rw [hitems, ← mapM_asText_error_iff, asTexts, bind_eq_error_iff]
    exact or_iff_left fun ⟨_, _, h⟩ => nomatch h
  | _ => exact iff_of_false (fun h => nomatch h) fun ⟨⟨_, h, _⟩, _⟩ => nomatch h

/-! ## Numbers of workers -/

/-- The whole number that a value counts: a number itself, or the one that a text writes. -/
inductive Counts : Value → Int → Prop
  | int (n : Int) : Counts (int n) n
  | text {s : String} {n : Int} : Text.readInt s = .ok n → Counts (text s) n

/-- Why a run ends when it cannot show a value. -/
def ShowFault.reason : ShowFault → RunError
  | longNumber => .longNumber
  | tooDeep => .deepLiteral

/-- What is said of a value that is no number of workers. -/
def refusal (v : Value) : RunError :=
  match v.obstacle? maxShown with
  | some f => f.reason
  | none => .configuration (.badWorkers v.literal)

/-- The value is refused for a reason: that it is no number of workers or, where it cannot be shown,
what keeps it from being shown. -/
def IsRefused (v : Value) (e : RunError) : Prop :=
  v.IsShown maxShown ∧ e = .configuration (.badWorkers v.literal) ∨
    ∃ f, v.Meets maxShown f ∧ e = f.reason

theorem isRefused_iff {v : Value} {e : RunError} : v.IsRefused e ↔ e = v.refusal := by
  unfold IsRefused refusal
  simp only [← obstacle?_eq_none_iff, ← obstacle?_eq_some_iff]
  cases v.obstacle? maxShown with
  | none => simp
  | some f => simp

theorem asWorkers_of_counts {v : Value} {n : Int} (h : v.Counts n) :
    v.asWorkers = if n < 1 then .error v.refusal else .ok n.toNat := by
  cases h with
  | int n =>
    simp only [asWorkers, refusal]
    rcases (int n).obstacle? maxShown with _ | (_ | _) <;> rfl
  | @text s n h =>
    simp only [asWorkers, refusal, h]
    rcases (text s).obstacle? maxShown with _ | (_ | _) <;> rfl

theorem asWorkers_of_not_counts {v : Value} (h : ∀ n, ¬ v.Counts n) :
    v.asWorkers = .error v.refusal := by
  cases v with
  | int n => exact absurd (.int n) (h n)
  | text s =>
    cases hs : Text.readInt s with
    | ok n => exact absurd (.text hs) (h n)
    | error f =>
      simp only [asWorkers, refusal, hs]
      rcases (text s).obstacle? maxShown with _ | (_ | _) <;> rfl
  | _ =>
    simp only [asWorkers, refusal]
    generalize obstacle? maxShown _ = found
    rcases found with _ | (_ | _) <;> rfl

/-- A value is taken as the positive number that it counts, or else refused. -/
theorem asWorkers_spec (v : Value) :
    (∃ n : Int, v.Counts n ∧ 1 ≤ n ∧ v.asWorkers = .ok n.toNat) ∨
      ((∀ n, v.Counts n → n < 1) ∧ v.asWorkers = .error v.refusal) := by
  by_cases hpositive : ∃ n, v.Counts n ∧ 1 ≤ n
  · obtain ⟨n, hn, hpos⟩ := hpositive
    exact .inl ⟨n, hn, hpos, by rw [asWorkers_of_counts hn, if_neg (Int.not_lt.mpr hpos)]⟩
  · have hlow : ∀ n, v.Counts n → n < 1 := fun n hn =>
      Int.not_le.mp fun hpos => hpositive ⟨n, hn, hpos⟩
    refine .inr ⟨hlow, ?_⟩
    by_cases hcounts : ∃ n, v.Counts n
    · obtain ⟨n, hn⟩ := hcounts
      rw [asWorkers_of_counts hn, if_pos (hlow n hn)]
    · exact asWorkers_of_not_counts fun n hn => hcounts ⟨n, hn⟩

/-- Taking a number of workers fails iff the value counts no positive one. -/
theorem asWorkers_error_iff {v : Value} {e : RunError} :
    v.asWorkers = .error e ↔ (∀ n, v.Counts n → n < 1) ∧ v.IsRefused e := by
  rw [isRefused_iff]
  rcases v.asWorkers_spec with ⟨n, hn, hpos, heq⟩ | ⟨hlow, heq⟩
  · rw [heq]
    exact iff_of_false (fun h => nomatch h) fun h => Int.not_lt.mpr hpos (h.1 n hn)
  · rw [heq, Except.error.injEq, and_iff_right hlow]
    exact eq_comm

theorem one_le_of_asWorkers {v : Value} {k : Nat} (h : v.asWorkers = .ok k) : 1 ≤ k := by
  rcases v.asWorkers_spec with ⟨n, -, hpos, heq⟩ | ⟨-, heq⟩
  · obtain rfl := Except.ok.inj (h.symm.trans heq)
    omega
  · cases h.symm.trans heq

end Yaml.Value

open Yaml (Value)

/-! ## Paths -/

/-- The value writes a path that begins with the home of an account, and the account has none. -/
def Homes.Lacks (homes : Homes) (v : Value) (f : HomeError) : Prop :=
  ∃ s account rest, v.Writes s ∧ Path.ofText s = ⟨.here, ("~" ++ account) :: rest⟩ ∧
    homes.directory account = .error f

theorem expandHome_error_iff {homes : Homes} {p : Path} {f : HomeError} :
    p.expandHome homes = .error f ↔
      ∃ account rest, p = ⟨.here, ("~" ++ account) :: rest⟩ ∧
        homes.directory account = .error f := by
  have htilde : ∀ {first : String} {cs : List Char}, first.toList = '~' :: cs →
      first = "~" ++ String.ofList cs := by
    intro first cs h
    rw [← String.toList_inj, h, String.toList_append, String.toList_ofList]
    simp
  constructor
  · intro h
    unfold Path.expandHome at h
    split at h
    · rename_i first rest
      split at h
      · rename_i cs hfirst
        refine ⟨String.ofList cs, rest, by rw [htilde hfirst], ?_⟩
        cases hdir : homes.directory (String.ofList cs) with
        | error f' =>
          rw [hdir] at h
          exact congrArg _ (Except.error.inj h)
        | ok home => rw [hdir] at h; cases h
      · cases h
    · cases h
  · rintro ⟨account, rest, rfl, hdir⟩
    have hfirst : ("~" ++ account).toList = '~' :: account.toList := by
      rw [String.toList_append]
      rfl
    unfold Path.expandHome
    simp only [hfirst, String.ofList_toList, hdir]
    rfl

section

variable {homes : Homes} {root : Location} {v : Value}

theorem pathAt_of_isLong (h : v.IsLong) : pathAt homes root v = .error .longNumber := by
  unfold pathAt
  rw [Value.asText_of_isLong h]
  rfl

/-- A value that writes no text stands for no path. -/
theorem pathAt_of_silent (hshort : ¬ v.IsLong) (h : ∀ s, ¬ v.Writes s) :
    pathAt homes root v = .ok none := by
  unfold pathAt
  rw [Value.asText_of_silent hshort h]
  rfl

/-- The empty text stands for no path either. -/
theorem pathAt_of_empty (h : v.Writes "") : pathAt homes root v = .ok none := by
  unfold pathAt
  rw [Value.asText_of_writes h]
  rfl

/-- Another text is a path from the root of the project, with a home in place of a tilde. -/
theorem pathAt_of_text {s : String} (h : v.Writes s) (hs : s ≠ "") :
    pathAt homes root v =
      (((Path.ofText s).expandHome homes).mapError .home).map
        fun p => some ((Path.ofLocation root).join p) := by
  unfold pathAt
  rw [Value.asText_of_writes h]
  simp only [bind, Except.bind]
  cases (Path.ofText s).expandHome homes <;> rfl

/-- Taking a path fails iff the value is too long to be written, or asks for a home that is not
there. -/
theorem pathAt_error_iff {e : RunError} : pathAt homes root v = .error e ↔
    v.IsLong ∧ e = .longNumber ∨ ∃ f, homes.Lacks v f ∧ e = .home f := by
  rcases v.writes_cases with hlong | ⟨s, hs⟩ | ⟨hshort, hsilent⟩
  · have hlacks : ¬ ∃ f, homes.Lacks v f ∧ e = .home f := by
      rintro ⟨f, ⟨s, account, rest, hs, -⟩, -⟩
      exact hs.not_isLong hlong
    rw [pathAt_of_isLong hlong, Except.error.injEq, or_iff_left hlacks, and_iff_right hlong]
    exact eq_comm
  · rw [or_iff_right fun h => hs.not_isLong h.1]
    by_cases hempty : s = ""
    · subst hempty
      rw [pathAt_of_empty hs]
      refine iff_of_false (fun h => nomatch h) ?_
      rintro ⟨f, ⟨s', account, rest, hs', hp, -⟩, -⟩
      rw [← hs.unique hs'] at hp
      exact nomatch congrArg Path.parts hp
    · rw [pathAt_of_text hs hempty]
      constructor
      · intro h
        cases hexpand : (Path.ofText s).expandHome homes with
        | ok p => rw [hexpand] at h; cases h
        | error f =>
          rw [hexpand] at h
          obtain ⟨account, rest, hp, hdir⟩ := expandHome_error_iff.mp hexpand
          exact ⟨f, ⟨s, account, rest, hs, hp, hdir⟩, (Except.error.inj h).symm⟩
      · rintro ⟨f, ⟨s', account, rest, hs', hp, hdir⟩, rfl⟩
        rw [hs.unique hs', expandHome_error_iff.mpr ⟨account, rest, hp, hdir⟩]
        rfl
  · rw [pathAt_of_silent hshort hsilent]
    refine iff_of_false (fun h => nomatch h) ?_
    rintro (⟨hlong, -⟩ | ⟨f, ⟨s, -, -, hs, -⟩, -⟩)
    · exact hshort hlong
    · exact hsilent s hs

/-- A path that is taken starts at the root. -/
theorem isAbsolute_of_pathAt {p : Path} (h : pathAt homes root v = .ok (some p)) :
    p.isAbsolute = true := by
  have hjoin : ∀ q : Path, ((Path.ofLocation root).join q).isAbsolute = true := by
    intro q
    unfold Path.join
    split
    · assumption
    · rfl
  rcases v.writes_cases with hlong | ⟨s, hs⟩ | ⟨hshort, hsilent⟩
  · cases h.symm.trans (pathAt_of_isLong hlong)
  · by_cases hempty : s = ""
    · subst hempty
      cases h.symm.trans (pathAt_of_empty hs)
    · rw [pathAt_of_text hs hempty] at h
      cases hexpand : (Path.ofText s).expandHome homes with
      | error f => rw [hexpand] at h; cases h
      | ok q =>
        rw [hexpand] at h
        cases h
        exact hjoin q
  · cases h.symm.trans (pathAt_of_silent hshort hsilent)

end

/-! ## Settings of a kind -/

theorem ofWord?_eq_some {word : String} {m : LookupMode} (h : LookupMode.ofWord? word = some m) :
    m ∈ LookupMode.all ∧ m.word = word := by
  unfold LookupMode.ofWord? at h
  have hword := List.find?_some h
  exact ⟨List.mem_of_find?_eq_some h, of_decide_eq_true hword⟩

theorem ofWord?_eq_none_iff {word : String} :
    LookupMode.ofWord? word = none ↔ ∀ m ∈ LookupMode.all, m.word ≠ word := by
  rw [LookupMode.ofWord?, List.find?_eq_none]
  simp only [decide_eq_true_eq]

/-- The value is too long to name a lookup mode, or names one that does not exist. -/
def MisnamesMode (kind : GeneratorKind) (v : Value) (e : RunError) : Prop :=
  v.IsLong ∧ e = .longNumber ∨
    ∃ word, v.Writes word ∧ (∀ m ∈ LookupMode.all, m.word ≠ word) ∧
      e = .configuration (.unknownLookup kind word)

/-- Taking a lookup mode from what a value writes. -/
theorem lookupAt_of_writes {kind : GeneratorKind} {v : Value} {word : String} (h : v.Writes word) :
    lookupAt kind v =
      match LookupMode.ofWord? word with
      | some mode => .ok (some mode)
      | none => .error (.configuration (.unknownLookup kind word)) := by
  unfold lookupAt
  rw [Value.asText_of_writes h]
  rfl

/-- Taking a lookup mode fails iff the value is too long or what it writes is none. -/
theorem lookupAt_error_iff {kind : GeneratorKind} {v : Value} {e : RunError} :
    lookupAt kind v = .error e ↔ MisnamesMode kind v e := by
  unfold MisnamesMode
  rcases v.writes_cases with hlong | ⟨word, hword⟩ | ⟨hshort, hsilent⟩
  · have hread : lookupAt kind v = .error .longNumber := by
      unfold lookupAt
      rw [Value.asText_of_isLong hlong]
      rfl
    rw [hread, Except.error.injEq, and_iff_right hlong,
      or_iff_left fun ⟨_, hword, _⟩ => hword.not_isLong hlong]
    exact eq_comm
  · rw [lookupAt_of_writes hword, or_iff_right fun h => hword.not_isLong h.1]
    cases hmode : LookupMode.ofWord? word with
    | some mode =>
      obtain ⟨hmem, heq⟩ := ofWord?_eq_some hmode
      refine iff_of_false (fun h => nomatch h) ?_
      rintro ⟨word', hword', hnone, -⟩
      exact hnone mode hmem (heq.trans (hword.unique hword'))
    | none =>
      constructor
      · exact fun h => ⟨word, hword, ofWord?_eq_none_iff.mp hmode, (Except.error.inj h).symm⟩
      · rintro ⟨word', hword', -, rfl⟩
        rw [hword.unique hword']
  · have hread : lookupAt kind v = .ok none := by
      unfold lookupAt
      rw [Value.asText_of_silent hshort hsilent]
      rfl
    rw [hread]
    refine iff_of_false (fun h => nomatch h) ?_
    rintro (⟨hlong, -⟩ | ⟨word, hword, -⟩)
    · exact hshort hlong
    · exact hsilent word hword

/-- The mode that is taken is the one that the value names. -/
theorem lookupAt_ok {kind : GeneratorKind} {v : Value} {word : String}
    {taken : Option LookupMode} (h : lookupAt kind v = .ok taken) (hword : v.Writes word) :
    ∃ m ∈ LookupMode.all, m.word = word ∧ taken = some m := by
  rw [lookupAt_of_writes hword] at h
  cases hmode : LookupMode.ofWord? word with
  | none => rw [hmode] at h; cases h
  | some mode =>
    obtain ⟨hmem, heq⟩ := ofWord?_eq_some hmode
    rw [hmode] at h
    exact ⟨mode, hmem, heq, (Except.ok.inj h).symm⟩

section

variable {kind : GeneratorKind} {entries : List (Value × Value)}

/-- The value that names the lookup mode of a kind. -/
def lookupValue (kind : GeneratorKind) (entries : List (Value × Value)) : Value :=
  valueAt "lookup" (kindEntries kind entries)

/-- The value that names the namespace of a kind's interface. -/
def namespaceValue (kind : GeneratorKind) (entries : List (Value × Value)) : Value :=
  valueAt "resolver_namespace" (kindEntries kind entries)

/-- Where nothing is set for a kind, nothing is taken. -/
theorem kindSettings_of_isEmpty (h : (kindEntries kind entries).isEmpty = true) :
    kindSettings kind entries = .ok none ∧
      lookupValue kind entries = .null ∧ namespaceValue kind entries = .null := by
  unfold kindSettings lookupValue namespaceValue
  rw [List.isEmpty_iff.mp h]
  exact ⟨rfl, rfl, rfl⟩

/-- Otherwise its lookup mode is taken, and then its namespace. -/
theorem kindSettings_of_not_isEmpty (h : ¬ (kindEntries kind entries).isEmpty = true) :
    kindSettings kind entries = (do
      let lookup ← lookupAt kind (lookupValue kind entries)
      let resolverNamespace ← (namespaceValue kind entries).asText
      return some (kind, { lookup, resolverNamespace })) := by
  unfold kindSettings
  rw [if_neg h]
  rfl

/-- Taking the settings of a kind fails iff its lookup mode is misnamed, or is not and the namespace
is too long to be written. -/
theorem kindSettings_error_iff {e : RunError} : kindSettings kind entries = .error e ↔
    MisnamesMode kind (lookupValue kind entries) e ∨
      (∀ e', ¬ MisnamesMode kind (lookupValue kind entries) e') ∧
        (namespaceValue kind entries).IsLong ∧ e = .longNumber := by
  by_cases hempty : (kindEntries kind entries).isEmpty = true
  · obtain ⟨heq, hlookup, hspace⟩ := kindSettings_of_isEmpty hempty
    have hshort : ¬ Value.null.IsLong := Value.not_isLong nofun
    rw [heq, hlookup, hspace]
    refine iff_of_false (fun h => nomatch h) ?_
    rintro (h | ⟨-, h, -⟩)
    · rw [← lookupAt_error_iff] at h
      cases h
    · exact hshort h
  · simp only [kindSettings_of_not_isEmpty hempty, bind_eq_error_iff, ← lookupAt_error_iff,
      ← Value.asText_error_iff]
    cases lookupAt kind (lookupValue kind entries) with
    | error e' => simp
    | ok mode => simp [pure, Except.pure]

/-- The mode that is taken for a kind is the one that its lookup names. -/
theorem kindSettings_lookup {taken : Option (GeneratorKind × KindSettings)}
    (h : kindSettings kind entries = .ok taken) {word : String}
    (hword : (lookupValue kind entries).Writes word) :
    ∃ m ∈ LookupMode.all, m.word = word ∧
      ∃ s : KindSettings, s.lookup = some m ∧ taken = some (kind, s) := by
  by_cases hempty : (kindEntries kind entries).isEmpty = true
  · rw [(kindSettings_of_isEmpty hempty).2.1] at hword
    cases hword
  · rw [kindSettings_of_not_isEmpty hempty] at h
    obtain ⟨mode, hlookup, h⟩ := bind_eq_ok_iff.mp h
    obtain ⟨written, -, h⟩ := bind_eq_ok_iff.mp h
    obtain ⟨m, hm, hmword, rfl⟩ := lookupAt_ok hlookup hword
    exact ⟨m, hm, hmword, _, rfl, (Except.ok.inj h).symm⟩

end

end FieldWiring
