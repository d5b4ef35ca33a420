import FieldWiring.Proofs.Json.RoundTrip

/-!
# Documents hold settled texts

Reading makes a character of a first half and a second one that follows it, so that no text that was
read holds such a pair as two symbols. And an object has each name once, since a later member takes
the place of an earlier one. This is all that writing asks for: the texts and names of every
document that was read can be written and read back.

Results:
* `isSettled_readText`: a text that was read is settled.
* `isSettled_read`: so are all texts and names of a document, and the names in an object are
  distinct.
-/

namespace FieldWiring.Json

/-! ## Texts -/

/-- A text does not go on with the escape of a second half. -/
def NoLowNext (cs : List Char) : Prop :=
  ∀ more m rest, cs = '\\' :: 'u' :: more → readUnit more = some (m, rest) → isLow m = false

theorem isValid_symbolOf (n : Nat) : (symbolOf n).isValid = true := by
  unfold symbolOf
  split
  · rename_i hhalf
    exact hhalf
  · rfl

/-- A symbol that an escape with digits writes: when it is a half, it is the one of that number, and
no half that makes a pair with it follows. -/
theorem readNumbered_some {cs rest : List Char} {x : Symbol}
    (h : readNumbered cs = some (x, rest)) :
    x.isValid = true ∧ ∀ n, x = .half n →
      (∃ rest', readUnit cs = some (n, rest')) ∧ (isHigh n = true → NoLowNext rest) := by
  unfold readNumbered at h
  rw [Option.bind_eq_bind, Option.bind_eq_some_iff] at h
  obtain ⟨⟨n, rest'⟩, hunit, h⟩ := h
  simp only at h
  split at h
  · rename_i hhigh
    have hvalid : (Symbol.half n).isValid = true := by
      rw [Symbol.isValid, hhigh, Bool.true_or]
    split at h
    · rename_i more
      obtain ⟨⟨m, rest''⟩, hmore, h⟩ := Option.bind_eq_some_iff.mp h
      simp only at h
      split at h
      · -- the two halves are one character
        obtain ⟨rfl, -⟩ := Prod.mk.inj (Option.some.inj h)
        exact ⟨rfl, fun _ heq => Symbol.noConfusion heq⟩
      · rename_i hlow
        obtain ⟨rfl, rfl⟩ := Prod.mk.inj (Option.some.inj h)
        refine ⟨hvalid, fun k heq => ?_⟩
        obtain rfl := Symbol.half.inj heq
        refine ⟨⟨_, hunit⟩, fun _ more' m' rest' hcs hread => ?_⟩
        obtain rfl := (List.cons.inj (List.cons.inj hcs).2).2
        obtain ⟨rfl, -⟩ := Prod.mk.inj (Option.some.inj (hmore.symm.trans hread))
        exact Bool.eq_false_iff.mpr hlow
    · rename_i hnone
      obtain ⟨rfl, rfl⟩ := Prod.mk.inj (Option.some.inj h)
      refine ⟨hvalid, fun k heq => ?_⟩
      obtain rfl := Symbol.half.inj heq
      exact ⟨⟨_, hunit⟩, fun _ more m rest' hcs _ => absurd hcs (hnone more)⟩
  · rename_i hhigh
    obtain ⟨rfl, rfl⟩ := Prod.mk.inj (Option.some.inj h)
    refine ⟨isValid_symbolOf n, fun k heq => ?_⟩
    unfold symbolOf at heq
    split at heq
    · obtain rfl := Symbol.half.inj heq
      exact ⟨⟨_, hunit⟩, fun h => absurd h hhigh⟩
    · cases heq

theorem readEscape_some {cs rest : List Char} {x : Symbol} (h : readEscape cs = some (x, rest)) :
    x.isValid = true ∧ ∀ n, x = .half n →
      (∃ more rest', cs = 'u' :: more ∧ readUnit more = some (n, rest')) ∧
        (isHigh n = true → NoLowNext rest) := by
  unfold readEscape at h
  split at h
  · obtain ⟨hvalid, hhalf⟩ := readNumbered_some h
    refine ⟨hvalid, fun n hn => ?_⟩
    obtain ⟨⟨rest', hunit⟩, hnext⟩ := hhalf n hn
    exact ⟨⟨_, rest', rfl, hunit⟩, hnext⟩
  · obtain ⟨rfl, -⟩ := Prod.mk.inj (Option.some.inj h)
    exact ⟨rfl, fun _ heq => nomatch heq⟩
  · obtain ⟨l, -, hl⟩ := Option.map_eq_some_iff.mp h
    obtain ⟨rfl, -⟩ := Prod.mk.inj hl
    exact ⟨rfl, fun _ heq => nomatch heq⟩
  · cases h

theorem Symbols.IsSettled.cons {x : Symbol} {t : Symbols} (hx : x.isValid = true) (h : t.IsSettled)
    (hnext : ∀ m n, x = .half m → isHigh m = true → t.head? = some (.half n) → isLow n = false) :
    IsSettled (x :: t) := by
  refine ⟨fun y hy => ?_, ?_⟩
  · rcases List.mem_cons.mp hy with rfl | hy
    · exact hx
    · exact h.valid y hy
  · cases t with
    | nil => exact List.IsChain.singleton x
    | cons y t =>
      refine List.isChain_cons_cons.mpr ⟨?_, h.apart⟩
      cases x with
      | char c => rfl
      | half m =>
        cases y with
        | char d => rfl
        | half n =>
          by_cases hhigh : isHigh m = true
          · rw [Symbol.joins, hnext m n rfl hhigh rfl, Bool.and_false]
          · rw [Symbol.joins, Bool.eq_false_iff.mpr hhigh, Bool.false_and]

/-- **A text that was read is settled**, and it begins with a second half only where the escape of
one stands. -/
theorem isSettled_readText : ∀ (fuel : Nat) {cs rest : List Char} {t : Symbols},
    readText fuel cs = some (t, rest) →
      t.IsSettled ∧ (NoLowNext cs → ∀ n, t.head? = some (.half n) → isLow n = false)
  | 0, _, _, _, h => by rw [readText] at h; cases h
  | fuel + 1, cs, rest, t, h => by
    unfold readText at h
    split at h
    · cases h
    · cases h
    · obtain ⟨rfl, -⟩ := Prod.mk.inj (Option.some.inj h)
      exact ⟨⟨fun _ hx => absurd hx List.not_mem_nil, List.IsChain.nil⟩, fun _ _ hn => by cases hn⟩
    · -- an escape
      rename_i fuel' cs' heq
      obtain rfl := Nat.succ.inj heq
      obtain ⟨⟨x, rest'⟩, hescape, h⟩ := Option.bind_eq_some_iff.mp h
      obtain ⟨⟨t', rest''⟩, htext, h⟩ := Option.bind_eq_some_iff.mp h
      obtain ⟨rfl, -⟩ := Prod.mk.inj (Option.some.inj h)
      obtain ⟨hvalid, hhalf⟩ := readEscape_some hescape
      obtain ⟨hsettled, hhead⟩ := isSettled_readText fuel htext
      refine ⟨hsettled.cons hvalid fun m n hm hhigh => hhead ((hhalf m hm).2 hhigh) n, ?_⟩
      intro hnext n hn
      obtain ⟨more, rest₁, rfl, hunit⟩ := (hhalf n (Option.some.inj hn)).1
      exact hnext more n rest₁ rfl hunit
    · -- a character that stands for itself
      rename_i c cs' _ _ heq
      obtain rfl := Nat.succ.inj heq
      split at h
      · cases h
      · obtain ⟨⟨t', rest'⟩, htext, h⟩ := Option.bind_eq_some_iff.mp h
        obtain ⟨rfl, -⟩ := Prod.mk.inj (Option.some.inj h)
        obtain ⟨hsettled, -⟩ := isSettled_readText fuel htext
        refine ⟨hsettled.cons rfl fun _ _ hm => ?_, fun _ _ hn => ?_⟩
        · cases hm
        · cases hn

/-! ## Values -/

/-- A value whose texts and names are settled, with distinct names in each object. -/
inductive Value.IsSettled : Value → Prop where
  | null : IsSettled .null
  | bool (b : Bool) : IsSettled (.bool b)
  | int (n : Int) : IsSettled (.int n)
  | float (x : Double) : IsSettled (.float x)
  | text {t : Symbols} (settled : t.IsSettled) : IsSettled (.text t)
  | list {items : List Value} (each : ∀ v ∈ items, v.IsSettled) : IsSettled (.list items)
  | dict {ms : List (Symbols × Value)} (names : ∀ m ∈ ms, m.1.IsSettled)
      (distinct : (ms.map (·.1)).Nodup) (values : ∀ m ∈ ms, m.2.IsSettled) : IsSettled (.dict ms)

theorem isSettled_readWord {cs rest : List Char} {v : Value} (h : readWord cs = some (v, rest)) :
    v.IsSettled := by
  unfold readWord at h
  obtain ⟨w, hw, h⟩ := Option.map_eq_some_iff.mp h
  obtain ⟨rfl, -⟩ := Prod.mk.inj h
  have hmem := List.mem_of_find?_eq_some hw
  simp only [words, List.mem_cons, List.not_mem_nil, or_false] at hmem
  rcases hmem with rfl | rfl | rfl | rfl | rfl | rfl
  · exact .null
  · exact .bool true
  · exact .bool false
  · exact .float .nan
  · exact .float (.infinite false)
  · exact .float (.infinite true)

theorem isSettled_readNumber {cs rest : List Char} {v : Value}
    (h : readNumber cs = some (v, rest)) :
    v.IsSettled := by
  unfold readNumber at h
  -- the sign leaves open which of the two kinds of number follows
  split at h
  obtain ⟨⟨whole, rest₁⟩, -, h⟩ := Option.bind_eq_some_iff.mp h
  simp only at h
  split at h
  · split at h
    · obtain ⟨rfl, -⟩ := Prod.mk.inj (Option.some.inj h)
      exact .int _
    · cases h
  · obtain ⟨x, -, h⟩ := Option.map_eq_some_iff.mp h
    obtain ⟨rfl, -⟩ := Prod.mk.inj h
    exact .float x

theorem mem_of_mem_set {k : Symbols} {v : Value} {x : Symbols × Value} :
    ∀ {ms : List (Symbols × Value)}, x ∈ set k v ms → x = (k, v) ∨ x ∈ ms
  | [], h => .inl (List.mem_singleton.mp h)
  | (j, w) :: ms, h => by
    rw [set] at h
    by_cases hj : j = k
    · rw [if_pos hj] at h
      exact (List.mem_cons.mp h).imp_right (List.mem_cons_of_mem _)
    · rw [if_neg hj] at h
      rcases List.mem_cons.mp h with rfl | h
      · exact .inr List.mem_cons_self
      · exact (mem_of_mem_set h).imp_right (List.mem_cons_of_mem _)

theorem map_fst_set {k : Symbols} (v : Value) :
    ∀ {ms : List (Symbols × Value)}, k ∈ ms.map (·.1) → (set k v ms).map (·.1) = ms.map (·.1)
  | [], h => absurd h List.not_mem_nil
  | (j, w) :: ms, h => by
    rw [set]
    by_cases hj : j = k
    · rw [if_pos hj, hj]
      rfl
    · rw [if_neg hj, List.map_cons, List.map_cons,
        map_fst_set v ((List.mem_cons.mp h).resolve_left (Ne.symm hj))]

/-- A member that is set keeps the names of an object distinct. -/
theorem Value.IsSettled.set {ms : List (Symbols × Value)} (h : (Value.dict ms).IsSettled)
    {k : Symbols} {v : Value} (hk : k.IsSettled) (hv : v.IsSettled) :
    (Value.dict (Json.set k v ms)).IsSettled := by
  cases h with
  | dict names distinct values =>
    refine .dict (fun x hx => ?_) ?_ (fun x hx => ?_)
    · rcases mem_of_mem_set hx with rfl | hx
      · exact hk
      · exact names x hx
    · by_cases hmem : k ∈ ms.map (·.1)
      · rw [map_fst_set v hmem]
        exact distinct
      · rw [set_of_fresh v hmem, List.map_append, List.nodup_append]
        refine ⟨distinct, List.nodup_singleton k, fun a ha b hb hab => hmem ?_⟩
        have hb : b = k := List.mem_singleton.mp hb
        rwa [← hb, ← hab]
    · rcases mem_of_mem_set hx with rfl | hx
      · exact hv
      · exact values x hx

/-! ## Reading -/

theorem bind_eq_ok {α β : Type} {m : Except Fault α} {f : α → Except Fault β} {b : β}
    (h : m.bind f = .ok b) : ∃ a, m = .ok a ∧ f a = .ok b := by
  cases m with
  | error e => cases h
  | ok a => exact ⟨a, rfl, h⟩

theorem orMalformed_eq_ok {α : Type} {o : Option α} {a : α} (h : orMalformed o = .ok a) :
    o = some a := by
  cases o with
  | none => cases h
  | some b => rw [Except.ok.inj h]

/-- With so much fuel nothing but settled values is read. -/
structure ReadsSettled (fuel : Nat) : Prop where
  value : ∀ {depth cs v rest}, readValue fuel depth cs = .ok (v, rest) → v.IsSettled
  items : ∀ {depth cs vs rest}, readItems fuel depth cs = .ok (vs, rest) → ∀ v ∈ vs, v.IsSettled
  members : ∀ {depth before cs ms rest}, (Value.dict before).IsSettled →
    readMembers fuel depth before cs = .ok (ms, rest) → (Value.dict ms).IsSettled

theorem isSettled_empty : (Value.dict []).IsSettled :=
  .dict (fun _ hm => absurd hm List.not_mem_nil) List.nodup_nil
    fun _ hm => absurd hm List.not_mem_nil

theorem readsSettled_value {fuel depth : Nat} {cs rest : List Char} {v : Value}
    (ih : ReadsSettled fuel) (h : readValue (fuel + 1) depth cs = .ok (v, rest)) : v.IsSettled := by
  unfold readValue at h
  split at h
  · cases ‹_ = 0›
  · rename_i fuel' _ _ heq
    obtain rfl := Nat.succ.inj heq
    obtain ⟨⟨t, rest'⟩, htext, h⟩ := bind_eq_ok h
    obtain ⟨rfl, -⟩ := Prod.mk.inj (Except.ok.inj h)
    exact .text (isSettled_readText _ (orMalformed_eq_ok htext)).1
  · rename_i fuel' _ _ heq
    obtain rfl := Nat.succ.inj heq
    split at h
    · cases h
    · split at h
      · obtain ⟨rfl, -⟩ := Prod.mk.inj (Except.ok.inj h)
        exact .list fun _ hv => absurd hv List.not_mem_nil
      · obtain ⟨⟨vs, rest'⟩, hitems, h⟩ := bind_eq_ok h
        obtain ⟨rfl, -⟩ := Prod.mk.inj (Except.ok.inj h)
        exact .list (ih.items hitems)
  · rename_i fuel' _ _ heq
    obtain rfl := Nat.succ.inj heq
    split at h
    · cases h
    · split at h
      · obtain ⟨rfl, -⟩ := Prod.mk.inj (Except.ok.inj h)
        exact isSettled_empty
      · obtain ⟨⟨ms, rest'⟩, hmembers, h⟩ := bind_eq_ok h
        obtain ⟨rfl, -⟩ := Prod.mk.inj (Except.ok.inj h)
        exact ih.members isSettled_empty hmembers
  · rcases Option.or_eq_some_iff.mp (orMalformed_eq_ok h) with hword | ⟨-, hnumber⟩
    · exact isSettled_readWord hword
    · exact isSettled_readNumber hnumber

theorem readsSettled_items {fuel depth : Nat} {cs rest : List Char} {vs : List Value}
    (ih : ReadsSettled fuel) (h : readItems (fuel + 1) depth cs = .ok (vs, rest)) :
    ∀ v ∈ vs, v.IsSettled := by
  rw [readItems] at h
  obtain ⟨⟨w, rest'⟩, hvalue, h⟩ := bind_eq_ok h
  simp only at h
  split at h
  · obtain ⟨rfl, -⟩ := Prod.mk.inj (Except.ok.inj h)
    intro v hv
    rw [List.mem_singleton.mp hv]
    exact ih.value hvalue
  · obtain ⟨⟨ws, rest''⟩, hitems, h⟩ := bind_eq_ok h
    obtain ⟨rfl, -⟩ := Prod.mk.inj (Except.ok.inj h)
    intro v hv
    rcases List.mem_cons.mp hv with rfl | hv
    · exact ih.value hvalue
    · exact ih.items hitems v hv
  · cases h

theorem readsSettled_members {fuel depth : Nat} {cs rest : List Char}
    {before ms : List (Symbols × Value)} (ih : ReadsSettled fuel)
    (hbefore : (Value.dict before).IsSettled)
    (h : readMembers (fuel + 1) depth before cs = .ok (ms, rest)) : (Value.dict ms).IsSettled := by
  unfold readMembers at h
  split at h
  · cases ‹_ = 0›
  · rename_i fuel' _ _ heq
    obtain rfl := Nat.succ.inj heq
    obtain ⟨⟨k, rest₁⟩, htext, h⟩ := bind_eq_ok h
    have hk := (isSettled_readText _ (orMalformed_eq_ok htext)).1
    simp only at h
    split at h
    · obtain ⟨⟨v, rest₂⟩, hvalue, h⟩ := bind_eq_ok h
      have hset := hbefore.set hk (ih.value hvalue)
      simp only at h
      split at h
      · obtain ⟨rfl, -⟩ := Prod.mk.inj (Except.ok.inj h)
        exact hset
      · exact ih.members hset h
      · cases h
    · cases h
  · cases h

theorem readsSettled : ∀ fuel, ReadsSettled fuel
  | 0 => ⟨fun h => by (rw [readValue] at h; cases h), fun h => by (rw [readItems] at h; cases h),
      fun _ h => by (rw [readMembers] at h; cases h)⟩
  | fuel + 1 => ⟨readsSettled_value (readsSettled fuel), readsSettled_items (readsSettled fuel),
      readsSettled_members (readsSettled fuel)⟩

/-- **All texts and names of a document are settled**, and the names in an object are distinct. -/
theorem isSettled_read {source : String} {v : Value} (h : read source = .ok v) : v.IsSettled := by
  unfold read at h
  obtain ⟨⟨w, rest⟩, hvalue, h⟩ := bind_eq_ok h
  simp only at h
  split at h
  · obtain rfl := Except.ok.inj h
    exact (readsSettled _).value hvalue
  · cases h

end FieldWiring.Json
