import FieldWiring.Text.Half

/-!
# Names of files

A file system knows a file by the bytes of its name. A text stands for the bytes of its encoding,
where each of the halves from U+DC80 to U+DCFF stands for the one byte that a directory lists by it;
a text with another half is the name of no file. `onDisk` is the text that a directory lists for the
file of a name. It is the name itself unless halves stand for bytes that together make up a
character, so that two texts can be names of one file.

Results:
* `onDisk_of_plain`: a text without halves is listed as it is.
* `onDisk_append_ascii`: an end of ASCII characters is listed as it is.
* `mem_onDisk_of_ascii`: no ASCII character of a name gets lost.
-/

namespace FieldWiring.FileName

/-! ## Bytes -/

/-- The text holds half of a surrogate pair, other than those that stand for single bytes. -/
def isUnencodable (name : String) : Bool :=
  name.toList.any fun c => (Text.half? c).any fun n => n < 0xDC80 || 0xDCFF < n

/-- The bytes that a character of a name stands for. -/
def bytesOf (c : Char) : List UInt8 :=
  match Text.half? c with
  | some n => [UInt8.ofNat n]
  | none => String.utf8EncodeChar c

/-- The bytes of a name. -/
def bytes (name : String) : List UInt8 := name.toList.flatMap bytesOf

/-- How many bytes a name has. -/
def size (name : String) : Nat := (bytes name).length

/-- The most bytes of a name. -/
def maxBytes : Nat := 255

/-- The name has more bytes than a system takes. -/
def isTooLong (name : String) : Bool := maxBytes < size name

/-! ## Listing -/

/-- How many bytes follow the first one of a character, and the range in which the next one lies. -/
def follow (lead : Nat) : Option (Nat × Nat × Nat) :=
  if 0xC2 ≤ lead ∧ lead ≤ 0xDF then some (1, 0x80, 0xBF)
  else if lead = 0xE0 then some (2, 0xA0, 0xBF)
  else if lead = 0xED then some (2, 0x80, 0x9F)
  else if 0xE1 ≤ lead ∧ lead ≤ 0xEF then some (2, 0x80, 0xBF)
  else if lead = 0xF0 then some (3, 0x90, 0xBF)
  else if 0xF1 ≤ lead ∧ lead ≤ 0xF3 then some (3, 0x80, 0xBF)
  else if lead = 0xF4 then some (3, 0x80, 0x8F)
  else none

/-- The state inside a character: its bytes so far, the value that they write, how many are still to
come, and the range of the next one. -/
structure Pending where
  bytes : List UInt8
  value : Nat
  left : Nat
  low : Nat
  high : Nat

/-- A byte goes on with a character. -/
def Pending.accepts (p : Pending) (b : UInt8) : Bool :=
  decide (0x80 ≤ b.toNat) && decide (p.low ≤ b.toNat) && decide (b.toNat ≤ p.high)

/-- A byte that belongs to no character, as directories list it. -/
def stray (b : UInt8) : Char := Text.ofHalf (0xDC00 + b.toNat)

/-- What is listed for the beginning of a character that does not go on. -/
def abandoned (state : Option Pending) : List Char := (state.map (·.bytes.map stray)).getD []

/-- Reads a byte that begins a character: the characters that it completes and the state after
it. -/
def begin (b : UInt8) : List Char × Option Pending :=
  if b.toNat < 0x80 then ([Char.ofNat b.toNat], none)
  else
    match follow b.toNat with
    | some (count, low, high) =>
      let bits := if count = 1 then 0x20 else if count = 2 then 0x10 else 0x08
      ([], some ⟨[b], b.toNat % bits, count, low, high⟩)
    | none => ([stray b], none)

/-- Reads a byte: the characters that it completes and the state after it. -/
def step (state : Option Pending) (b : UInt8) : List Char × Option Pending :=
  match state.filter (·.accepts b) with
  | some p =>
    let value := p.value * 0x40 + b.toNat % 0x40
    if p.left ≤ 1 then ([Char.ofNat value], none)
    else ([], some ⟨p.bytes ++ [b], value, p.left - 1, 0x80, 0xBF⟩)
  | none => (abandoned state ++ (begin b).1, (begin b).2)

/-- The characters that are listed for bytes, from a state on. -/
def listedFrom (state : Option Pending) : List UInt8 → List Char
  | [] => abandoned state
  | b :: bs => (step state b).1 ++ listedFrom (step state b).2 bs

/-- The text by which a directory lists the file of a name. -/
def onDisk (name : String) : String :=
  if Text.holdsHalf name then String.ofList (listedFrom none (bytes name)) else name

@[simp] theorem onDisk_of_plain {name : String} (h : Text.holdsHalf name = false) :
    onDisk name = name := by
  simp [onDisk, h]

/-! ## ASCII characters -/

theorem begin_ascii {b : UInt8} (h : b.toNat < 0x80) : begin b = ([Char.ofNat b.toNat], none) :=
  if_pos h

/-- An ASCII byte ends what was begun and is listed as its character. -/
theorem step_ascii (state : Option Pending) {b : UInt8} (h : b.toNat < 0x80) :
    step state b = (abandoned state ++ [Char.ofNat b.toNat], none) := by
  have hrefused : state.filter (·.accepts b) = none := by
    rw [Option.filter_eq_none_iff]
    intro p _
    simp only [Pending.accepts, Bool.and_eq_true, decide_eq_true_eq]
    omega
  rw [step, hrefused, begin_ascii h]

theorem listedFrom_ascii (state : Option Pending) {as : List UInt8}
    (h : ∀ a ∈ as, a.toNat < 0x80) :
    listedFrom state as = abandoned state ++ as.map fun a => Char.ofNat a.toNat := by
  induction as generalizing state with
  | nil => simp [listedFrom]
  | cons a as ih =>
    obtain ⟨ha, has⟩ := List.forall_mem_cons.mp h
    rw [listedFrom, step_ascii state ha, ih none has]
    simp [abandoned]

theorem listedFrom_append_ascii (state : Option Pending) (bs : List UInt8) {as : List UInt8}
    (h : ∀ a ∈ as, a.toNat < 0x80) :
    listedFrom state (bs ++ as) = listedFrom state bs ++ as.map fun a => Char.ofNat a.toNat := by
  induction bs generalizing state with
  | nil => rw [List.nil_append, listedFrom_ascii state h, listedFrom]
  | cons b bs ih => rw [List.cons_append, listedFrom, listedFrom, ih, List.append_assoc]

theorem mem_listedFrom (state : Option Pending) {bs : List UInt8} {b : UInt8} (hb : b ∈ bs)
    (h : b.toNat < 0x80) : Char.ofNat b.toNat ∈ listedFrom state bs := by
  induction bs generalizing state with
  | nil => exact absurd hb List.not_mem_nil
  | cons a bs ih =>
    rw [listedFrom, List.mem_append]
    rcases List.mem_cons.mp hb with rfl | hb
    · rw [step_ascii state h]
      exact .inl (List.mem_append_right _ List.mem_cons_self)
    · exact .inr (ih _ hb)

theorem bytesOf_ascii {c : Char} (h : c.toNat < 0x80) : bytesOf c = [UInt8.ofNat c.toNat] := by
  have hhalf : Text.half? c = none := by
    unfold Text.half? Text.halfBase
    rw [if_neg (by omega)]
  have hencode : String.utf8EncodeChar c = [UInt8.ofNat c.toNat] := by
    have hshort : c.val.toNat ≤ 0x7F := Nat.lt_succ_iff.mp h
    unfold String.utf8EncodeChar
    exact if_pos hshort
  rw [bytesOf, hhalf]
  exact hencode

theorem toNat_ofNat_ascii {c : Char} (h : c.toNat < 0x80) :
    (UInt8.ofNat c.toNat).toNat = c.toNat := by
  rw [UInt8.toNat_ofNat']
  omega

theorem bytes_ascii {cs : List Char} (h : ∀ c ∈ cs, c.toNat < 0x80) :
    cs.flatMap bytesOf = cs.map fun c => UInt8.ofNat c.toNat := by
  induction cs with
  | nil => rfl
  | cons c cs ih =>
    obtain ⟨hc, hcs⟩ := List.forall_mem_cons.mp h
    rw [List.flatMap_cons, bytesOf_ascii hc, ih hcs]
    rfl

/-- An end of ASCII characters is listed as it is. -/
theorem onDisk_append_ascii (name ending : String) (h : ∀ c ∈ ending.toList, c.toNat < 0x80) :
    ∃ start, onDisk (name ++ ending) = start ++ ending := by
  unfold onDisk
  split
  · refine ⟨String.ofList (listedFrom none (bytes name)), String.toList_inj.mp ?_⟩
    have hascii : ∀ b ∈ ending.toList.map fun c => UInt8.ofNat c.toNat, b.toNat < 0x80 := by
      intro b hb
      obtain ⟨c, hc, rfl⟩ := List.mem_map.mp hb
      rw [toNat_ofNat_ascii (h c hc)]
      exact h c hc
    have hback : (ending.toList.map fun c => UInt8.ofNat c.toNat).map
        (fun b => Char.ofNat b.toNat) = ending.toList := by
      rw [List.map_map]
      refine (List.map_congr_left fun c hc => ?_).trans (List.map_id _)
      show Char.ofNat (UInt8.ofNat c.toNat).toNat = c
      rw [toNat_ofNat_ascii (h c hc), Char.ofNat_toNat]
    rw [String.toList_append, String.toList_ofList, String.toList_ofList, bytes,
      String.toList_append, List.flatMap_append, bytes_ascii h,
      listedFrom_append_ascii none _ hascii, hback]
    rfl
  · exact ⟨name, rfl⟩

/-- No ASCII character of a name gets lost. -/
theorem mem_onDisk_of_ascii {name : String} {c : Char} (hc : c ∈ name.toList)
    (h : c.toNat < 0x80) : c ∈ (onDisk name).toList := by
  unfold onDisk
  split
  · have hmem : UInt8.ofNat c.toNat ∈ bytes name :=
      List.mem_flatMap.mpr ⟨c, hc, bytesOf_ascii h ▸ List.mem_singleton_self _⟩
    have hlisted := mem_listedFrom none hmem ((toNat_ofNat_ascii h).symm ▸ h)
    rwa [toNat_ofNat_ascii h, Char.ofNat_toNat, ← String.toList_ofList (l := listedFrom _ _)]
      at hlisted
  · exact hc

end FieldWiring.FileName
