import FieldWiring.Json.Value
import Mathlib.Data.List.Nodup

/-!
# Documents that are read back

What `write` writes, `read` reads back as it was, for the values that manifests are made of: texts,
small numbers, and objects whose members have distinct names. `Plain n v` says that `v` is such a
value with at most `n` objects inside of each other. Of a text it asks that its halves stand apart:
a first half right before a second one is written as the character that the two make, and read as
that.

Reading goes by fuel. Every statement here asks for more fuel than there are characters left, which
each step of reading keeps.

Results:
* `isSettled_ofPlain`, `isSettled_ofString`: a text without first halves is settled.
* `readText_writeText`: a settled text is read back, whatever it holds.
* `readValue_write`: so is a plain value, with anything that may follow it.
* `return_not_mem_write`: it is written without carriage returns.
* `read_write`: a document with a plain value is read as that value.
-/

namespace FieldWiring.Json

/-! ## Texts -/

theorem isHigh_char (c : Char) : isHigh c.toNat = false := by
  have h := c.valid
  unfold isHigh
  simp only [Bool.and_eq_false_iff, decide_eq_false_iff_not]
  simp only [UInt32.isValidChar, Nat.isValidChar, Char.toNat] at h ⊢
  omega

theorem isLow_char (c : Char) : isLow c.toNat = false := by
  have h := c.valid
  unfold isLow
  simp only [Bool.and_eq_false_iff, decide_eq_false_iff_not]
  simp only [UInt32.isValidChar, Nat.isValidChar, Char.toNat] at h ⊢
  omega

/-- A symbol that a text of a document may hold. -/
def Symbol.isValid : Symbol → Bool
  | char _ => true
  | half n => isHigh n || isLow n

/-- Halves that make a pair when they stand next to each other. -/
def Symbol.joins : Symbol → Symbol → Bool
  | half m, half n => isHigh m && isLow n
  | _, _ => false

/-- A text whose halves are halves and make no pairs. -/
structure Symbols.IsSettled (t : Symbols) : Prop where
  valid : ∀ x ∈ t, x.isValid = true
  apart : t.IsChain fun x y => x.joins y = false

instance (t : Symbols) : Decidable t.IsSettled :=
  decidable_of_iff ((∀ x ∈ t, x.isValid = true) ∧ t.IsChain fun x y => x.joins y = false)
    ⟨fun h => ⟨h.1, h.2⟩, fun h => ⟨h.valid, h.apart⟩⟩

theorem isSettled_ofPlain (s : String) : (Symbols.ofPlain s).IsSettled := by
  have hchar : ∀ x ∈ Symbols.ofPlain s, ∃ c, x = .char c := by
    intro x hx
    obtain ⟨c, -, rfl⟩ := List.mem_map.mp hx
    exact ⟨c, rfl⟩
  refine ⟨fun x hx => ?_, List.Pairwise.isChain (List.pairwise_of_forall_mem_list ?_)⟩
  · obtain ⟨c, rfl⟩ := hchar x hx
    rfl
  · intro x hx y _
    obtain ⟨c, rfl⟩ := hchar x hx
    rfl

theorem isValid_ofChar (c : Char) : (Symbol.ofChar c).isValid = true := by
  unfold Symbol.ofChar Text.half?
  by_cases h : Text.halfBase ≤ c.toNat ∧ c.toNat < Text.halfBase + 0x800
  · simp only [if_pos h, Symbol.isValid, isHigh, isLow, Bool.or_eq_true, Bool.and_eq_true,
      decide_eq_true_eq]
    omega
  · rw [if_neg h]
    rfl

/-- A text without first halves is settled: what could make a pair is missing. -/
theorem isSettled_ofString {s : String}
    (h : ∀ c ∈ s.toList, ∀ n, Text.half? c = some n → isHigh n = false) :
    (Symbols.ofString s).IsSettled := by
  refine ⟨fun x hx => ?_, List.Pairwise.isChain (List.pairwise_of_forall_mem_list ?_)⟩
  · obtain ⟨c, -, rfl⟩ := List.mem_map.mp hx
    exact isValid_ofChar c
  · intro x hx y _
    obtain ⟨c, hc, rfl⟩ := List.mem_map.mp hx
    unfold Symbol.ofChar
    cases hhalf : Text.half? c with
    | none => rfl
    | some n =>
      cases y with
      | char d => rfl
      | half m => rw [Symbol.joins, h c hc n hhalf, Bool.false_and]

theorem Symbols.IsSettled.tail {x : Symbol} {t : Symbols} (h : IsSettled (x :: t)) : t.IsSettled :=
  ⟨fun y hy => h.valid y (List.mem_cons_of_mem x hy), h.apart.of_cons⟩

theorem lt_of_isHigh {n : Nat} (h : isHigh n = true) : n < 0x10000 := by
  simp only [isHigh, Bool.and_eq_true, decide_eq_true_eq] at h
  omega

theorem lt_of_isLow {n : Nat} (h : isLow n = true) : n < 0x10000 := by
  simp only [isLow, Bool.and_eq_true, decide_eq_true_eq] at h
  omega

theorem not_isLow_of_isHigh {n : Nat} (h : isHigh n = true) : isLow n = false := by
  simp only [isHigh, Bool.and_eq_true, decide_eq_true_eq] at h
  simp only [isLow, Bool.and_eq_false_iff, decide_eq_false_iff_not]
  omega

theorem lt_of_isValid {n : Nat} (h : (Symbol.half n).isValid = true) : n < 0x10000 :=
  ((Bool.or_eq_true _ _).mp h).elim lt_of_isHigh lt_of_isLow

/-- Two escapes that make a pair are read as one character. -/
theorem readNumbered_pair {m n : Nat} (hm : isHigh m = true) (hn : isLow n = true)
    (rest : List Char) :
    readNumbered (Text.hexDigits 4 m ++ '\\' :: 'u' :: (Text.hexDigits 4 n ++ rest)) =
      some (.char (Char.ofNat (0x10000 + (m - 0xD800) * 0x400 + (n - 0xDC00))), rest) := by
  unfold readNumbered
  simp only [readUnit_hexUnit (lt_of_isHigh hm), readUnit_hexUnit (lt_of_isLow hn),
    Option.bind_eq_bind, Option.bind_some, hm, hn, if_true]

theorem isHigh_firstHalf (c : Char) : isHigh (0xD800 + (c.toNat - 0x10000) / 0x400) = true := by
  have hv := c.valid
  simp only [UInt32.isValidChar, Nat.isValidChar] at hv
  simp only [isHigh, Bool.and_eq_true, decide_eq_true_eq, Char.toNat]
  omega

/-- The escapes of a character by its number are read as that character. -/
theorem readEscape_numbered (c : Char) (rest : List Char) :
    ∃ cs, numbered (.char c) ++ rest = '\\' :: cs ∧ readEscape cs = some (.char c, rest) := by
  by_cases h : c.toNat < 0x10000
  · refine ⟨'u' :: (Text.hexDigits 4 c.toNat ++ rest), ?_, ?_⟩
    · simp only [numbered, if_pos h, hexUnit, List.cons_append]
    · simp only [readEscape, readNumbered, readUnit_hexUnit h, Option.bind_eq_bind,
        Option.bind_some, isHigh_char, isLow_char, symbolOf, Bool.or_self,
        Bool.false_eq_true, if_false, Char.ofNat_toNat]
  · -- a character beyond the first plane is a pair
    have hlow : isLow (0xDC00 + (c.toNat - 0x10000) % 0x400) = true := by
      simp only [isLow, Bool.and_eq_true, decide_eq_true_eq]
      omega
    have hback : 0x10000 + (0xD800 + (c.toNat - 0x10000) / 0x400 - 0xD800) * 0x400 +
        (0xDC00 + (c.toNat - 0x10000) % 0x400 - 0xDC00) = c.toNat := by omega
    refine ⟨'u' :: (Text.hexDigits 4 (0xD800 + (c.toNat - 0x10000) / 0x400) ++ '\\' :: 'u' ::
      (Text.hexDigits 4 (0xDC00 + (c.toNat - 0x10000) % 0x400) ++ rest)), ?_, ?_⟩
    · simp only [numbered, if_neg h, hexUnit, List.cons_append, List.append_assoc]
    · rw [readEscape, readNumbered_pair (isHigh_firstHalf c) hlow, hback, Char.ofNat_toNat]

/-- What stands behind a symbol in writing makes no pair with it. -/
def KeepsApart (x : Symbol) (rest : List Char) : Prop :=
  ∀ n, x = .half n → isHigh n = true → ∀ more, rest = '\\' :: 'u' :: more →
    ∃ m rest', readUnit more = some (m, rest') ∧ isLow m = false

/-- The escape of a half is read as that half, unless the next one makes a pair with it. -/
theorem readEscape_half {n : Nat} (h : (Symbol.half n).isValid = true) {rest : List Char}
    (hrest : KeepsApart (.half n) rest) :
    readEscape ('u' :: (Text.hexDigits 4 n ++ rest)) = some (.half n, rest) := by
  have hunit := readUnit_hexUnit (lt_of_isValid h) rest
  unfold readEscape readNumbered
  simp only [hunit, Option.bind_eq_bind, Option.bind_some]
  by_cases hhigh : isHigh n = true
  · rw [if_pos hhigh]
    split
    · rename_i more
      obtain ⟨m, rest', hmore, hlow⟩ := hrest n rfl hhigh more rfl
      simp only [hmore, Option.bind_some, hlow, Bool.false_eq_true, if_false]
    · rfl
  · have hvalid : (isHigh n || isLow n) = true := h
    rw [if_neg hhigh, symbolOf, if_pos hvalid]

/-- An escape of four digits is that of the symbol's own number or of a first half. -/
theorem readUnit_of_escape {x : Symbol} (hx : x.isValid = true) {rest more : List Char}
    (h : escape x ++ rest = '\\' :: 'u' :: more) :
    ∃ m rest', readUnit more = some (m, rest') ∧ (isLow m = true → x = .half m) := by
  cases x with
  | half n =>
    simp only [escape, numbered, hexUnit, List.cons_append, List.cons.injEq, true_and] at h
    exact ⟨n, rest, h ▸ readUnit_hexUnit (lt_of_isValid hx) rest, fun _ => rfl⟩
  | char c =>
    cases hl : letters.find? fun l => decide (l.2 = c) with
    | some l =>
      have hletters : ∀ l ∈ letters, l.1 ≠ 'u' := by decide
      simp only [escape, hl, List.cons_append, List.cons.injEq, true_and] at h
      exact absurd h.1 (hletters l (List.mem_of_find?_eq_some hl))
    | none =>
      by_cases hp : isPlain c = true
      · simp only [escape, hl, if_pos hp, List.cons_append, List.cons.injEq] at h
        rw [h.1] at hl
        exact absurd hl (by decide)
      · simp only [escape, hl, if_neg hp, numbered] at h
        split at h
        · rename_i hsmall
          simp only [hexUnit, List.cons_append, List.cons.injEq, true_and] at h
          refine ⟨c.toNat, rest, h ▸ readUnit_hexUnit hsmall rest, fun hlow => ?_⟩
          rw [isLow_char] at hlow
          cases hlow
        · -- the first half of the pair that a character beyond the first plane is
          have hhigh := isHigh_firstHalf c
          simp only [hexUnit, List.cons_append, List.cons.injEq, true_and, List.append_assoc] at h
          refine ⟨_, _, h ▸ readUnit_hexUnit (lt_of_isHigh hhigh) _, fun hlow => ?_⟩
          rw [not_isLow_of_isHigh hhigh] at hlow
          cases hlow

theorem keepsApart_of_settled {x : Symbol} {t : Symbols} (h : Symbols.IsSettled (x :: t))
    (rest : List Char) : KeepsApart x (t.flatMap escape ++ '"' :: rest) := by
  rintro n rfl hhigh more hmore
  cases t with
  | nil => cases (List.cons.inj hmore).1
  | cons y t =>
    rw [List.flatMap_cons, List.append_assoc] at hmore
    obtain ⟨m, rest', hread, hsame⟩ :=
      readUnit_of_escape (h.valid y (List.mem_cons_of_mem _ List.mem_cons_self)) hmore
    refine ⟨m, rest', hread, Bool.eq_false_iff.mpr fun hlow => ?_⟩
    have hapart := (List.isChain_cons_cons.mp h.apart).1
    rw [hsame hlow, Symbol.joins, hhigh, hlow] at hapart
    cases hapart

/-- An escape that is read as a symbol is the beginning of a text that begins with that symbol. -/
theorem readText_of_readEscape {x : Symbol} {cs rest : List Char}
    (h : readEscape cs = some (x, rest))
    (fuel : Nat) :
    readText (fuel + 1) ('\\' :: cs) = (readText fuel rest).map fun p => (x :: p.1, p.2) := by
  simp only [readText, h, Option.bind_eq_bind, Option.bind_some]
  cases readText fuel rest <;> rfl

/-- A character in writing is read as itself. -/
theorem readText_escape_char (c : Char) (fuel : Nat) (rest : List Char) :
    readText (fuel + 1) (escape (.char c) ++ rest) =
      (readText fuel rest).map fun p => (.char c :: p.1, p.2) := by
  cases hl : letters.find? fun l => decide (l.2 = c) with
  | some l =>
    have hmem := List.mem_of_find?_eq_some hl
    have hc : l.2 = c := by simpa using List.find?_some hl
    simp only [escape, hl, List.cons_append, List.nil_append]
    refine readText_of_readEscape ?_ fuel
    rw [← hc]
    simp only [letters, List.mem_cons, List.not_mem_nil, or_false] at hmem
    rcases hmem with rfl | rfl | rfl | rfl | rfl | rfl | rfl <;> rfl
  | none =>
    by_cases hp : isPlain c = true
    · -- a plain character is none of those with a letter
      have hquote : c ≠ '"' := by
        rintro rfl
        exact absurd hl (by decide)
      have hback : c ≠ '\\' := by
        rintro rfl
        exact absurd hl (by decide)
      have hlarge : ¬ c.toNat < 0x20 := by
        simp only [isPlain, Bool.and_eq_true, decide_eq_true_eq] at hp
        omega
      simp only [escape, hl, if_pos hp, List.cons_append, List.nil_append]
      rw [readText]
      · rw [if_neg hlarge]
        cases readText fuel rest <;> rfl
      · exact hquote
      · exact hback
    · obtain ⟨cs, heq, hread⟩ := readEscape_numbered c rest
      simp only [escape, hl, if_neg hp, heq]
      exact readText_of_readEscape hread fuel

/-- A symbol in writing is read as itself, unless what follows makes a pair with it. -/
theorem readText_escape {x : Symbol} (hx : x.isValid = true) (fuel : Nat) {rest : List Char}
    (hrest : KeepsApart x rest) :
    readText (fuel + 1) (escape x ++ rest) = (readText fuel rest).map fun p => (x :: p.1, p.2) := by
  cases x with
  | char c => exact readText_escape_char c fuel rest
  | half n => exact readText_of_readEscape (readEscape_half hx hrest) fuel

theorem length_escape_pos (x : Symbol) : 0 < (escape x).length := by
  cases x with
  | half n => exact Nat.zero_lt_succ _
  | char c =>
    cases hl : letters.find? fun l => decide (l.2 = c) with
    | some l =>
      simp only [escape, hl]
      exact Nat.zero_lt_succ 1
    | none =>
      by_cases hp : isPlain c = true
      · simp only [escape, hl, if_pos hp]
        exact Nat.zero_lt_succ 0
      · obtain ⟨cs, heq, -⟩ := readEscape_numbered c []
        rw [List.append_nil] at heq
        simp only [escape, hl, if_neg hp, heq]
        exact Nat.zero_lt_succ _

/-- A settled text is read back up to its closing quote, whatever it holds. -/
theorem readText_writeText : ∀ {t : Symbols} (_ : t.IsSettled) (fuel : Nat) (rest : List Char),
    (t.flatMap escape ++ '"' :: rest).length ≤ fuel →
      readText fuel (t.flatMap escape ++ '"' :: rest) = some (t, rest)
  | [], _, 0, rest, hf => by simp at hf
  | [], _, fuel + 1, rest, _ => rfl
  | x :: t, h, fuel, rest, hf => by
    rw [List.flatMap_cons, List.append_assoc] at hf ⊢
    have hx := length_escape_pos x
    rw [List.length_append] at hf
    obtain ⟨fuel, rfl⟩ : ∃ f, fuel = f + 1 := ⟨fuel - 1, by omega⟩
    rw [readText_escape (h.valid x List.mem_cons_self) fuel (keepsApart_of_settled h rest),
      readText_writeText h.tail fuel rest (by omega)]
    rfl

/-! ## Blanks -/

theorem skip_newLine (depth : Nat) (cs : List Char) : skip (newLine depth ++ cs) = skip cs := by
  unfold newLine skip
  induction 2 * depth with
  | zero => rfl
  | succ n ih => exact ih

theorem skip_of_ne {c : Char} (h : (c == ' ' || c == '\t' || c == '\n' || c == '\r') = false)
    (cs : List Char) : skip (c :: cs) = c :: cs := by
  unfold skip
  rw [List.dropWhile_cons_of_neg]
  rw [h]
  exact Bool.false_ne_true

/-! ## Values -/

/-- A value of texts, digits and objects, with at most so many objects inside of each other. -/
inductive Plain : Nat → Value → Prop where
  | text (depth : Nat) {t : Symbols} (settled : t.IsSettled) : Plain depth (.text t)
  | digit (depth : Nat) {n : Nat} (h : n < 10) : Plain depth (.int n)
  | dict {depth : Nat} {ms : List (Symbols × Value)}
      (names : ∀ m ∈ ms, m.1.IsSettled) (distinct : (ms.map (·.1)).Nodup)
      (values : ∀ m ∈ ms, Plain depth m.2) : Plain (depth + 1) (.dict ms)

/-- What may stand behind a value: nothing, a comma or a line end. -/
def Closes (rest : List Char) : Prop := ∀ c cs, rest = c :: cs → c = ',' ∨ c = '\n'

theorem closes_newLine (depth : Nat) (cs : List Char) : Closes (newLine depth ++ cs) := by
  intro c cs' h
  exact .inr (List.cons.inj h).1.symm

theorem closes_writeMembers (depth : Nat) (ms : List (Symbols × Value)) {rest : List Char}
    (h : Closes rest) : Closes (writeMembers depth ms ++ rest) := by
  cases ms with
  | nil => simpa [writeMembers] using h
  | cons m ms =>
    intro c cs hcs
    simp only [writeMembers, List.cons_append] at hcs
    exact .inl (List.cons.inj hcs).1.symm

theorem readInt_digit :
    ∀ n < 10, Text.readInt (String.ofList [Nat.digitChar n]) = .ok (n : Int) := by
  decide +kernel

theorem isDigit_digitChar : ∀ n < 10, (Nat.digitChar n).isDigit = true := by decide

theorem isDigit_of_closes {c : Char} {cs : List Char} (hr : Closes (c :: cs)) :
    c.isDigit = false := by
  rcases hr c cs rfl with rfl | rfl <;> decide

theorem wholeAndRest_digit {n : Nat} (h : n < 10) {rest : List Char} (hr : Closes rest) :
    wholeAndRest (Nat.digitChar n :: rest) = some ([Nat.digitChar n], rest) := by
  have hdigit := isDigit_digitChar n h
  by_cases h0 : Nat.digitChar n = '0'
  · rw [h0]
    rfl
  · rw [wholeAndRest]
    · rw [if_pos hdigit, digitsAndRest, List.takeWhile_cons_of_pos hdigit,
        List.dropWhile_cons_of_pos hdigit]
      cases rest with
      | nil => rfl
      | cons c cs =>
        have hc : ¬ c.isDigit = true := by
          rw [isDigit_of_closes hr]
          exact Bool.false_ne_true
        rw [List.takeWhile_cons_of_neg hc, List.dropWhile_cons_of_neg hc]
    · exact h0

theorem intText_digit {n : Nat} (h : n < 10) : (Text.intText n).toList = [Nat.digitChar n] := by
  unfold Text.intText Text.natText
  rw [if_neg (by omega), String.toList_ofList, Int.natAbs_natCast, Nat.toDigits_of_lt_base h]

/-- A digit is read as a number, when nothing stands behind it that numbers are made of. -/
theorem readNumber_digit {n : Nat} (h : n < 10) {rest : List Char} (hr : Closes rest) :
    readNumber (Nat.digitChar n :: rest) = some (.int n, rest) := by
  have hfraction : fractionAndRest rest = ([], rest) := by
    cases rest with
    | nil => rfl
    | cons c cs => rcases hr c cs rfl with rfl | rfl <;> rfl
  have hexponent : exponentAndRest rest = ([], rest) := by
    cases rest with
    | nil => rfl
    | cons c cs => rcases hr c cs rfl with rfl | rfl <;> rfl
  have hsign : Nat.digitChar n ≠ '-' := by
    intro hminus
    have hdigit := isDigit_digitChar n h
    rw [hminus] at hdigit
    exact absurd hdigit (by decide)
  unfold readNumber
  split
  next sign rest' hs =>
    split at hs
    next hcs => exact absurd (List.cons.inj hcs).1 hsign
    next =>
      cases hs
      simp only [wholeAndRest_digit h hr, Option.bind_eq_bind, Option.bind_some, hfraction,
        hexponent, List.isEmpty_nil, Bool.and_self, if_true, List.nil_append, readInt_digit n h]

theorem readWord_digit {n : Nat} (h : n < 10) (rest : List Char) :
    readWord (Nat.digitChar n :: rest) = none := by
  have hall : ∀ m < 10, ∀ w ∈ words, w.1.toList.head? ≠ some (Nat.digitChar m) := by decide +kernel
  unfold readWord
  rw [List.find?_eq_none.mpr, Option.map_none]
  intro w hw hbegin
  have hne := hall n h w hw
  cases hl : w.1.toList with
  | nil =>
    have hsome : ∀ w ∈ words, w.1.toList ≠ [] := by decide +kernel
    exact hsome w hw hl
  | cons c cs =>
    rw [hl] at hbegin hne
    simp only [List.isPrefixOf, Bool.and_eq_true, beq_iff_eq] at hbegin
    exact hne (congrArg some hbegin.1)

theorem set_of_fresh {k : Symbols} (v : Value) :
    ∀ {ms : List (Symbols × Value)}, k ∉ ms.map (·.1) → set k v ms = ms ++ [(k, v)]
  | [], _ => rfl
  | (j, w) :: ms, h => by
    rw [List.map_cons, List.mem_cons, not_or] at h
    rw [set, if_neg (Ne.symm h.1), set_of_fresh v h.2]
    rfl

theorem foldl_set : ∀ (ms before : List (Symbols × Value)), ((before ++ ms).map (·.1)).Nodup →
    ms.foldl (fun b m => set m.1 m.2 b) before = before ++ ms
  | [], before, _ => (List.append_nil before).symm
  | m :: ms, before, h => by
    have hfresh : m.1 ∉ before.map (·.1) := by
      rw [List.map_append, List.map_cons] at h
      intro hm
      exact (List.nodup_append.mp h).2.2 _ hm _ List.mem_cons_self rfl
    rw [List.foldl_cons, set_of_fresh m.2 hfresh, foldl_set ms]
    · rw [List.append_assoc]
      rfl
    · rw [List.append_assoc]
      exact h

theorem orMalformed_some {α : Type} (a : α) : orMalformed (some a) = .ok a := rfl

theorem write_text (depth : Nat) (t : Symbols) : write depth (.text t) = writeText t := by
  rw [write]

theorem writeText_append (t : Symbols) (rest : List Char) :
    writeText t ++ rest = '"' :: (t.flatMap escape ++ '"' :: rest) := by
  simp only [writeText, List.cons_append, List.append_assoc, List.nil_append]

theorem skip_writeText (t : Symbols) (rest : List Char) :
    skip (writeText t ++ rest) = writeText t ++ rest := skip_of_ne (by decide) _

/-- A text is read as a value. -/
theorem readValue_text {fuel depth : Nat} {t : Symbols} (h : t.IsSettled) {rest : List Char}
    (hf : (writeText t ++ rest).length < fuel) :
    readValue fuel depth (writeText t ++ rest) = .ok (.text t, rest) := by
  obtain ⟨fuel, rfl⟩ : ∃ f, fuel = f + 1 := ⟨fuel - 1, by omega⟩
  rw [writeText_append] at hf ⊢
  rw [List.length_cons] at hf
  rw [readValue, readText_writeText h fuel rest (by omega), orMalformed_some]
  rfl

/-- The first character of a plain value in writing is no blank. -/
theorem write_head {n : Nat} {v : Value} (h : Plain n v) (depth : Nat) :
    ∃ c cs, write depth v = c :: cs ∧
      (c == ' ' || c == '\t' || c == '\n' || c == '\r') = false := by
  cases h with
  | text hsettled => exact ⟨'"', _, by rw [write]; rfl, by decide⟩
  | @digit _ n hn =>
    refine ⟨Nat.digitChar n, [], ?_, ?_⟩
    · rw [write]
      exact intText_digit hn
    · have hall : ∀ m < 10, (Nat.digitChar m == ' ' || Nat.digitChar m == '\t' ||
          Nat.digitChar m == '\n' || Nat.digitChar m == '\r') = false := by decide
      exact hall n hn
  | @dict n ms hnames hdistinct hvalues =>
    cases ms with
    | nil => exact ⟨'{', ['}'], by rw [write], by decide⟩
    | cons m ms =>
      rw [write]
      exact ⟨'{', _, rfl, by decide⟩

theorem skip_write {n : Nat} {v : Value} (h : Plain n v) (depth : Nat) (rest : List Char) :
    skip (write depth v ++ rest) = write depth v ++ rest := by
  obtain ⟨c, cs, heq, hc⟩ := write_head h depth
  rw [heq]
  exact skip_of_ne hc _

/-- A value inside of `depth` others is read back from its writing, with anything behind it. -/
def IsReadBack (depth : Nat) (v : Value) : Prop :=
  ∀ indent fuel rest, Closes rest → (write indent v ++ rest).length < fuel →
    readValue fuel depth (write indent v ++ rest) = .ok (v, rest)

/-- A member is read, and then what stands behind it tells whether there are more. -/
theorem readMembers_step {n depth indent fuel : Nat} {k : Symbols} {v : Value} (hk : k.IsSettled)
    (hv : Plain n v) (hback : IsReadBack depth v) (before : List (Symbols × Value))
    {tail : List Char} (hc : Closes tail)
    (hf : (writeText k ++ ':' :: ' ' :: (write indent v ++ tail)).length < fuel + 1) :
    readMembers (fuel + 1) depth before
        (writeText k ++ ':' :: ' ' :: (write indent v ++ tail)) =
      match skip tail with
      | '}' :: rest => .ok (set k v before, rest)
      | ',' :: rest => readMembers fuel depth (set k v before) (skip rest)
      | _ => .error .malformed := by
  have hcolon : ∀ cs, skip (':' :: cs) = ':' :: cs := skip_of_ne (by decide)
  have hblank : ∀ cs, skip (' ' :: cs) = skip cs := fun cs => rfl
  rw [writeText_append] at hf ⊢
  simp only [List.length_cons, List.length_append] at hf
  rw [readMembers, readText_writeText hk fuel _ (by
    simp only [List.length_cons, List.length_append]
    omega), orMalformed_some]
  simp only [bind, Except.bind, hcolon, hblank, skip_write hv]
  rw [hback indent fuel tail hc (by
    simp only [List.length_append]
    omega)]
  rfl

/-- Members are read one after the other, up to the closing brace. -/
theorem readMembers_write {n depth : Nat} (indent last : Nat) (rest : List Char) :
    ∀ (ms : List (Symbols × Value)) (k : Symbols) (v : Value) (before : List (Symbols × Value))
      (fuel : Nat),
      k.IsSettled → Plain n v → IsReadBack depth v →
      (∀ m ∈ ms, m.1.IsSettled ∧ Plain n m.2 ∧ IsReadBack depth m.2) →
      (writeText k ++ ':' :: ' ' :: (write indent v ++ (writeMembers indent ms ++
        (newLine last ++ '}' :: rest)))).length < fuel →
      readMembers fuel depth before (writeText k ++ ':' :: ' ' :: (write indent v ++
        (writeMembers indent ms ++ (newLine last ++ '}' :: rest)))) =
        .ok (ms.foldl (fun b m => set m.1 m.2 b) (set k v before), rest)
  | [], k, v, before, fuel, hk, hv, hback, _, hf => by
    obtain ⟨fuel, rfl⟩ : ∃ f, fuel = f + 1 := ⟨fuel - 1, by omega⟩
    rw [writeMembers, List.nil_append] at hf ⊢
    rw [readMembers_step hk hv hback before (closes_newLine last _) hf, skip_newLine,
      skip_of_ne (by decide)]
    rfl
  | (name, w) :: ms, k, v, before, fuel, hk, hv, hback, hms, hf => by
    obtain ⟨fuel, rfl⟩ : ∃ f, fuel = f + 1 := ⟨fuel - 1, by omega⟩
    obtain ⟨hname, hplain, hw⟩ := hms (name, w) List.mem_cons_self
    have hrest := fun x hx => hms x (List.mem_cons_of_mem (name, w) hx)
    -- behind the comma, the next member stands on a line of its own
    have htail : writeMembers indent ((name, w) :: ms) ++ (newLine last ++ '}' :: rest) =
        ',' :: (newLine indent ++ (writeText name ++ ':' :: ' ' :: (write indent w ++
          (writeMembers indent ms ++ (newLine last ++ '}' :: rest))))) := by
      rw [writeMembers]
      simp only [List.cons_append, List.append_assoc, List.nil_append]
    have hcloses := closes_writeMembers indent ((name, w) :: ms) (closes_newLine last ('}' :: rest))
    rw [readMembers_step hk hv hback before hcloses hf]
    rw [htail] at hf ⊢
    rw [skip_of_ne (by decide)]
    simp only [skip_newLine, skip_writeText]
    simp only [List.length_append, List.length_cons] at hf
    rw [readMembers_write indent last rest ms name w _ fuel hname hplain hw hrest (by
      simp only [List.length_append, List.length_cons]
      omega), List.foldl_cons]

/-- An object is read as its members are, when it has any. -/
theorem readValue_members {fuel depth : Nat} {cs tail rest : List Char}
    {members : List (Symbols × Value)} (hroom : ¬ maxDepth ≤ depth) (hcs : skip cs = '"' :: tail)
    (h : readMembers fuel (depth + 1) [] ('"' :: tail) = .ok (members, rest)) :
    readValue (fuel + 1) depth ('{' :: cs) = .ok (.dict members, rest) := by
  have hread : (readMembers fuel (depth + 1) [] ('"' :: tail) >>= fun x =>
      pure (Value.dict x.1, x.2)) = .ok (.dict members, rest) := by
    rw [h]
    rfl
  rw [readValue, if_neg hroom, hcs]
  exact hread

/-! ## Plain values -/

/-- **A plain value is read back from its writing**, with anything that may follow it. -/
theorem readValue_write {n : Nat} {v : Value} (h : Plain n v) :
    ∀ depth, depth + n ≤ maxDepth → IsReadBack depth v := by
  induction h with
  | text n hsettled =>
    intro depth _ indent fuel rest _ hf
    rw [write_text] at hf ⊢
    exact readValue_text hsettled hf
  | @digit n d hd =>
    intro depth _ indent fuel rest hr hf
    obtain ⟨fuel, rfl⟩ : ∃ f, fuel = f + 1 := ⟨fuel - 1, by omega⟩
    have hwrite : write indent (.int d) = [Nat.digitChar d] := by
      rw [write]
      exact intText_digit hd
    rw [hwrite, List.singleton_append]
    -- a digit begins neither a text nor a list nor an object
    have hall : ∀ m < 10, Nat.digitChar m ≠ '"' ∧ Nat.digitChar m ≠ '[' ∧
        Nat.digitChar m ≠ '{' := by
      decide
    obtain ⟨hquote, hlist, hobject⟩ := hall d hd
    rw [readValue, readWord_digit hd, readNumber_digit hd hr]
    · rfl
    · exact fun _ h => hquote (List.cons.inj h).1
    · exact fun _ h => hlist (List.cons.inj h).1
    · exact fun _ h => hobject (List.cons.inj h).1
  | @dict n ms hnames hdistinct hvalues ih =>
    intro depth hdepth indent fuel rest hr hf
    obtain ⟨fuel, rfl⟩ : ∃ f, fuel = f + 1 := ⟨fuel - 1, by omega⟩
    have hroom : ¬ maxDepth ≤ depth := by omega
    cases ms with
    | nil =>
      rw [write, List.cons_append, readValue, if_neg hroom]
      rfl
    | cons m ms =>
      obtain ⟨k, v⟩ := m
      have hback : ∀ x ∈ (k, v) :: ms, IsReadBack (depth + 1) x.2 :=
        fun x hx => ih x hx (depth + 1) (by omega)
      have hwrite : write indent (.dict ((k, v) :: ms)) ++ rest =
          '{' :: (newLine (indent + 1) ++ (writeText k ++ ':' :: ' ' ::
            (write (indent + 1) v ++ (writeMembers (indent + 1) ms ++
              (newLine indent ++ '}' :: rest))))) := by
        rw [write]
        simp only [List.cons_append, List.append_assoc, List.nil_append]
      rw [hwrite] at hf ⊢
      simp only [List.length_cons, List.length_append] at hf
      have hread := readMembers_write (indent + 1) indent rest ms k v [] fuel
        (hnames _ List.mem_cons_self) (hvalues _ List.mem_cons_self) (hback _ List.mem_cons_self)
        (fun x hx => ⟨hnames x (List.mem_cons_of_mem _ hx), hvalues x (List.mem_cons_of_mem _ hx),
          hback x (List.mem_cons_of_mem _ hx)⟩) (by
            simp only [List.length_cons, List.length_append]
            omega)
      have hset := foldl_set ((k, v) :: ms) [] hdistinct
      rw [List.foldl_cons, List.nil_append] at hset
      rw [hset] at hread
      refine readValue_members hroom ?_ hread
      rw [skip_newLine, skip_writeText]
      rfl

/-! ## Line ends -/

theorem hexDigit_ne_return (n : Nat) (h : n < 16) : Text.hexDigit n ≠ '\r' := by
  have hall : ∀ m < 16, Text.hexDigit m ≠ '\r' := by decide
  exact hall n h

theorem return_not_mem_hexUnit (n : Nat) : '\r' ∉ hexUnit n := by
  have hdigits : ∀ (width n : Nat), '\r' ∉ Text.hexDigits width n := by
    intro width
    induction width with
    | zero => exact fun n => List.not_mem_nil
    | succ width ih =>
      intro n hmem
      rcases List.mem_append.mp hmem with hmem | hmem
      · exact ih _ hmem
      · exact hexDigit_ne_return _ (Nat.mod_lt _ (by decide)) (List.mem_singleton.mp hmem).symm
  intro hmem
  unfold hexUnit at hmem
  rcases List.mem_cons.mp hmem with hmem | hmem
  · exact absurd hmem (by decide)
  · rcases List.mem_cons.mp hmem with hmem | hmem
    · exact absurd hmem (by decide)
    · exact hdigits 4 n hmem

theorem return_not_mem_escape_char (c : Char) : '\r' ∉ escape (.char c) := by
  intro hmem
  cases hl : letters.find? fun l => decide (l.2 = c) with
  | some l =>
    simp only [escape, hl] at hmem
    have hletters : ∀ l ∈ letters, '\r' ∉ ['\\', l.1] := by decide
    exact hletters l (List.mem_of_find?_eq_some hl) hmem
  | none =>
    by_cases hp : isPlain c = true
    · simp only [escape, hl, if_pos hp, List.mem_singleton] at hmem
      rw [← hmem] at hp
      exact absurd hp (by decide)
    · simp only [escape, hl, if_neg hp, numbered] at hmem
      split at hmem
      · exact return_not_mem_hexUnit _ hmem
      · rcases List.mem_append.mp hmem with hmem | hmem
        · exact return_not_mem_hexUnit _ hmem
        · exact return_not_mem_hexUnit _ hmem

theorem return_not_mem_escape : ∀ x : Symbol, '\r' ∉ escape x
  | .char c => return_not_mem_escape_char c
  | .half n => return_not_mem_hexUnit n

theorem return_not_mem_writeText (t : Symbols) : '\r' ∉ writeText t := by
  intro hmem
  unfold writeText at hmem
  rcases List.mem_cons.mp hmem with hmem | hmem
  · exact absurd hmem (by decide)
  · rcases List.mem_append.mp hmem with hmem | hmem
    · obtain ⟨x, -, hmem⟩ := List.mem_flatMap.mp hmem
      exact return_not_mem_escape x hmem
    · exact absurd hmem (by decide)

theorem return_not_mem_newLine (depth : Nat) : '\r' ∉ newLine depth := by
  intro hmem
  unfold newLine at hmem
  rcases List.mem_cons.mp hmem with hmem | hmem
  · exact absurd hmem (by decide)
  · exact absurd (List.eq_of_mem_replicate hmem) (by decide)

theorem return_not_mem_writeMembers {indent : Nat} : ∀ {ms : List (Symbols × Value)},
    (∀ m ∈ ms, '\r' ∉ write indent m.2) →
    '\r' ∉ writeMembers indent ms
  | [], _ => by
    rw [writeMembers]
    exact List.not_mem_nil
  | (k, v) :: ms, h => by
    have hv := h _ List.mem_cons_self
    have hms := return_not_mem_writeMembers fun m hm => h m (List.mem_cons_of_mem _ hm)
    rw [writeMembers]
    simp only [List.cons_append, List.mem_cons, List.mem_append, not_or, List.not_mem_nil]
    exact ⟨by decide,
      ⟨⟨⟨return_not_mem_newLine _, return_not_mem_writeText k⟩, by decide, by decide, not_false⟩,
        hv⟩, hms⟩

/-- A plain value is written without a carriage return. -/
theorem return_not_mem_write {n : Nat} {v : Value} (h : Plain n v) :
    ∀ indent, '\r' ∉ write indent v := by
  induction h with
  | text n _ =>
    intro indent
    rw [write_text]
    exact return_not_mem_writeText _
  | @digit n d hd =>
    intro indent hmem
    have hall : ∀ m < 10, '\r' ≠ Nat.digitChar m := by decide
    rw [write, intText_digit hd] at hmem
    exact hall d hd (List.mem_singleton.mp hmem)
  | @dict n ms hnames hdistinct hvalues ih =>
    intro indent
    cases ms with
    | nil =>
      rw [write]
      decide
    | cons m ms =>
      obtain ⟨k, v⟩ := m
      have hms : '\r' ∉ writeMembers (indent + 1) ms :=
        return_not_mem_writeMembers fun m hm => ih m (List.mem_cons_of_mem _ hm) _
      rw [write]
      simp only [List.cons_append, List.mem_cons, List.mem_append, not_or, List.not_mem_nil]
      exact ⟨by decide, ⟨⟨⟨⟨⟨return_not_mem_newLine _, return_not_mem_writeText k⟩, by decide,
        by decide, not_false⟩, ih _ List.mem_cons_self _⟩, hms⟩, return_not_mem_newLine _⟩,
        by decide, not_false⟩

/-! ## Whole documents -/

theorem closes_nil : Closes [] := fun _ _ h => nomatch h

/-- **A document with a plain value is read as that value.** -/
theorem read_write {n : Nat} {v : Value} (h : Plain n v) (hn : n ≤ maxDepth) :
    read (String.ofList (write 0 v)) = .ok v := by
  have hskip : skip (write 0 v) = write 0 v := by
    have := skip_write h 0 []
    rwa [List.append_nil] at this
  have hread := readValue_write h 0 (by omega) 0 ((write 0 v).length + 2) [] closes_nil (by
    rw [List.append_nil]
    omega)
  rw [List.append_nil] at hread
  unfold read
  simp only [String.toList_ofList, hskip, hread, bind, Except.bind]
  rfl

end FieldWiring.Json
