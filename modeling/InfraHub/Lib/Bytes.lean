import Mathlib.Data.List.DropRight
import Mathlib.Data.List.Flatten

/-!
# Library — Bytes

UTF-8, and the lines of a string of bytes, as `bytes` of Python has them.

* `encode` and `decode` are `str.encode` and `bytes.decode`; `decode_eq_some` says that they undo each
  other.  `ascii_of_mem_encode`: a byte below 128 is a character of its own.
* `splitlines` cuts at CR, LF and CRLF.  Its lines have no end of line (`not_break_of_mem_splitlines`),
  and nothing that was not there (`splitlines_sublist`).
-/

namespace InfraHub.Lib

abbrev Bytes := List UInt8

/-! ### UTF-8 -/

def encode (s : List Char) : Bytes := s.flatMap String.utf8EncodeChar

def decode (b : Bytes) : Option (List Char) := (b.toByteArray.utf8Decode?).map Array.toList

section
variable {s : List Char} {b : Bytes}

@[simp] theorem encode_nil : encode [] = [] := rfl

@[simp] theorem encode_append (s t : List Char) : encode (s ++ t) = encode s ++ encode t :=
  List.flatMap_append

@[simp] theorem encode_cons (c : Char) (s : List Char) :
    encode (c :: s) = String.utf8EncodeChar c ++ encode s := rfl

theorem decode_eq_some : decode b = some s ↔ encode s = b := by
  have hencode (s : List Char) : s.utf8Encode = (encode s).toByteArray := rfl
  constructor
  · intro h
    obtain ⟨chars, hchars, rfl⟩ := Option.map_eq_some_iff.mp h
    have hback : (b.toByteArray.utf8Decode?.get (by simp [hchars])).toList.utf8Encode =
        b.toByteArray := ByteArray.utf8Encode_get_utf8Decode?
    simp only [hchars, Option.get_some, hencode] at hback
    simpa using congrArg (fun a => a.data.toList) hback
  · rintro rfl
    unfold decode
    rw [← hencode, List.utf8Decode?_utf8Encode]
    simp

/-- The code of one character: a byte, or a first byte with one, two or three that follow it. -/
theorem utf8EncodeChar_eq (c : Char) :
    String.utf8EncodeChar c =
      if c.toNat ≤ 0x7f then [UInt8.ofNat c.toNat]
      else if c.toNat ≤ 0x7ff then
        [UInt8.ofNat (c.toNat / 64 % 32 + 0xc0), UInt8.ofNat (c.toNat % 64 + 0x80)]
      else if c.toNat ≤ 0xffff then
        [UInt8.ofNat (c.toNat / 4096 % 16 + 0xe0), UInt8.ofNat (c.toNat / 64 % 64 + 0x80),
          UInt8.ofNat (c.toNat % 64 + 0x80)]
      else
        [UInt8.ofNat (c.toNat / 262144 % 8 + 0xf0), UInt8.ofNat (c.toNat / 4096 % 64 + 0x80),
          UInt8.ofNat (c.toNat / 64 % 64 + 0x80), UInt8.ofNat (c.toNat % 64 + 0x80)] := rfl

/-- A byte below 128 is a character. -/
theorem ascii_of_mem {c : Char} {x : UInt8} (h : x ∈ String.utf8EncodeChar c) (hx : x.toNat < 128) :
    c.toNat = x.toNat := by
  rw [utf8EncodeChar_eq] at h
  split_ifs at h with h₁ h₂ h₃
  · obtain rfl := List.mem_singleton.mp h
    simp only [UInt8.toNat_ofNat'] at hx ⊢
    omega
  -- all bytes of a longer code are above
  all_goals
    simp only [List.mem_cons, List.not_mem_nil, or_false] at h
    exfalso
  · rcases h with rfl | rfl
    all_goals
      simp only [UInt8.toNat_ofNat'] at hx
      omega
  · rcases h with rfl | rfl | rfl
    all_goals
      simp only [UInt8.toNat_ofNat'] at hx
      omega
  · rcases h with rfl | rfl | rfl | rfl
    all_goals
      simp only [UInt8.toNat_ofNat'] at hx
      omega

/-- The characters from U+F000 to U+FFFF. -/
def from_f000 (c : Char) : Bool := 0xF000 ≤ c.toNat ∧ c.toNat ≤ 0xFFFF

/-- They are those with the byte EF. -/
theorem count_ef (c : Char) :
    (String.utf8EncodeChar c).count 0xEF = if from_f000 c then 1 else 0 := by
  have hbyte (n : Nat) : (UInt8.ofNat n == 0xEF) = decide (n % 256 = 0xEF) := by
    rw [Bool.eq_iff_iff, beq_iff_eq, ← UInt8.toNat_inj, UInt8.toNat_ofNat', decide_eq_true_eq]
    rfl
  rw [utf8EncodeChar_eq, from_f000]
  simp only [decide_eq_true_eq]
  split_ifs with h₁ h₂ h₃ h₄
  all_goals
    simp only [List.count_cons, hbyte, List.count_nil, decide_eq_true_eq]
    split_ifs
    all_goals omega

theorem code_of_f000 {c : Char} (h : from_f000 c) :
    ∃ rest, String.utf8EncodeChar c = 0xEF :: rest := by
  simp only [from_f000, decide_eq_true_eq] at h
  rw [utf8EncodeChar_eq, if_neg (by omega), if_neg (by omega), if_pos h.2]
  have hfirst : c.toNat / 4096 % 16 + 0xe0 = 0xEF := by omega
  rw [hfirst]
  exact ⟨_, rfl⟩

/-- How many of them there are in a text can be seen in its bytes. -/
theorem count_encode (s : List Char) : (encode s).count 0xEF = s.countP from_f000 := by
  induction s with
  | nil => rfl
  | cons c s ih =>
      rw [encode_cons, List.count_append, count_ef, ih, List.countP_cons]
      omega

theorem ascii_of_mem_encode {x : UInt8} (h : x ∈ encode s) (hx : x.toNat < 128) :
    ∃ c ∈ s, c.toNat = x.toNat := by
  obtain ⟨c, hc, hmem⟩ := List.mem_flatMap.mp h
  exact ⟨c, hc, ascii_of_mem hmem hx⟩

theorem mem_encode_of_ascii {c : Char} (hc : c ∈ s) (hascii : c.toNat < 128) :
    UInt8.ofNat c.toNat ∈ encode s := by
  refine List.mem_flatMap.mpr ⟨c, hc, ?_⟩
  rw [utf8EncodeChar_eq, if_pos (by omega)]
  exact List.mem_singleton_self _

/-- A text that starts with a byte of the order mark starts with one of them. -/
theorem head_encode {x : UInt8} {rest : Bytes} (h : encode s = x :: rest)
    (hx : x = 0xEF ∨ x = 0xBB ∨ x = 0xBF) : ∃ c ∈ s.head?, from_f000 c := by
  cases s with
  | nil => cases h
  | cons c s =>
      refine ⟨c, rfl, ?_⟩
      have hx' : x.toNat = 0xEF ∨ x.toNat = 0xBB ∨ x.toNat = 0xBF := by
        rcases hx with rfl | rfl | rfl
        · exact .inl rfl
        · exact .inr (.inl rfl)
        · exact .inr (.inr rfl)
      have hhead : (String.utf8EncodeChar c).head? = some x := by
        obtain ⟨y, l, hcode⟩ := List.exists_cons_of_ne_nil (String.utf8EncodeChar_ne_nil (c := c))
        rw [encode_cons, hcode] at h
        rw [hcode, List.head?_cons, (List.cons.inj h).1]
      rw [utf8EncodeChar_eq] at hhead
      simp only [from_f000, decide_eq_true_eq]
      split_ifs at hhead
      all_goals
        obtain rfl := Option.some.inj hhead
        simp only [UInt8.toNat_ofNat'] at hx'
        omega

end

/-! ### Lines -/

/-- `b.splitlines()`; `cr` says that the byte before was CR. -/
def splitlinesAfter (cr : Bool) : Bytes → List Bytes
  | [] => []
  | x :: rest =>
    if x = 10 then if cr then splitlinesAfter false rest else [] :: splitlinesAfter false rest
    else if x = 13 then [] :: splitlinesAfter true rest
    else match splitlinesAfter false rest with
      | [] => [[x]]
      | line :: lines => (x :: line) :: lines

def splitlines (b : Bytes) : List Bytes := splitlinesAfter false b

section
variable {b : Bytes}

/-- The bytes at which lines end. -/
def line_break (x : UInt8) : Prop := x = 10 ∨ x = 13

theorem not_break_of_mem (cr : Bool) {line : Bytes} (h : line ∈ splitlinesAfter cr b) :
    ∀ x ∈ line, ¬ line_break x := by
  induction b generalizing cr line with
  | nil => cases h
  | cons x b ih =>
      unfold splitlinesAfter at h
      split_ifs at h with hlf hcr hcr'
      · exact ih false h
      · rcases List.mem_cons.mp h with rfl | h
        · exact nofun
        · exact ih false h
      · rcases List.mem_cons.mp h with rfl | h
        · exact nofun
        · exact ih true h
      · have hx : ¬ line_break x := not_or.mpr ⟨hlf, hcr'⟩
        split at h
        · obtain rfl := List.mem_singleton.mp h
          simpa using hx
        · next line' lines hlines =>
          rcases List.mem_cons.mp h with rfl | h
          · exact List.forall_mem_cons.mpr ⟨hx, ih false (hlines ▸ List.mem_cons_self)⟩
          · exact ih false (hlines ▸ List.mem_cons_of_mem _ h)

/-- The lines have no line break. -/
theorem not_break_of_mem_splitlines {line : Bytes} (h : line ∈ splitlines b) :
    ∀ x ∈ line, ¬ line_break x :=
  not_break_of_mem false h

theorem splitlinesAfter_sublist (cr : Bool) (b : Bytes) :
    (splitlinesAfter cr b).flatten.Sublist b := by
  induction b generalizing cr with
  | nil => exact .slnil
  | cons x b ih =>
      unfold splitlinesAfter
      split_ifs
      · exact (ih false).cons x
      · exact (ih false).cons x
      · exact (ih true).cons x
      · have hrest := ih false
        split
        · next hlines =>
          exact List.singleton_sublist.mpr List.mem_cons_self
        · next line lines hlines =>
          rw [hlines] at hrest
          exact hrest.cons_cons x

theorem splitlines_sublist (b : Bytes) : (splitlines b).flatten.Sublist b :=
  splitlinesAfter_sublist false b

/-- A line that ends with CRLF. -/
theorem splitlines_append {line : Bytes} (h : ∀ x ∈ line, ¬ line_break x) (rest : Bytes) :
    splitlines (line ++ 13 :: 10 :: rest) = line :: splitlines rest := by
  induction line with
  | nil => simp [splitlines, splitlinesAfter]
  | cons x line ih =>
      obtain ⟨hx, hline⟩ := List.forall_mem_cons.mp h
      obtain ⟨hlf, hcr⟩ := not_or.mp hx
      have hih := ih hline
      simp only [splitlines] at hih
      simp [splitlines, splitlinesAfter, hlf, hcr, hih]

end

/-! ### Stripping -/

/-- `b.strip(chars)`. -/
def bstrip (chars b : Bytes) : Bytes := (b.dropWhile (· ∈ chars)).rdropWhile (· ∈ chars)

end InfraHub.Lib
