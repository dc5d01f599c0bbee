import Mathlib.Data.List.DropRight

/-!
# Library — Text

Strings as lists of code points, as Python's `str` has them, with decimal digits and spaces.

* `decimal c` is the value of a decimal digit of any script (Unicode category Nd).
* `strOfNat` is `str(n)` and `int` is `int(s)`, for a string that starts with a digit; the second undoes
  the first (`int_strOfNat`).  `signedInt` is `int(s)` of any string.
-/

namespace InfraHub.Lib

/-- The code points. -/
abbrev Str := List Nat

instance : LawfulBEq Str := inferInstance

/-- A literal. -/
def str (s : String) : Str := s.toList.map Char.toNat

theorem toNat_ofNat {n : Nat} (h : n.isValidChar) : (Char.ofNat n).toNat = n := by
  rw [Char.ofNat, dif_pos h]
  rfl

theorem map_ofNat_str (s : String) : (str s).map Char.ofNat = s.toList := by
  rw [str, List.map_map]
  exact (List.map_congr_left fun c _ => Char.ofNat_toNat c).trans (List.map_id _)

/-! ### Classes of characters -/

/-- The zeros of all scripts. -/
def zeros : List Nat :=
  [0x30, 0x660, 0x6f0, 0x7c0, 0x966, 0x9e6, 0xa66, 0xae6, 0xb66, 0xbe6, 0xc66, 0xce6, 0xd66, 0xde6,
    0xe50, 0xed0, 0xf20, 0x1040, 0x1090, 0x17e0, 0x1810, 0x1946, 0x19d0, 0x1a80, 0x1a90, 0x1b50,
    0x1bb0, 0x1c40, 0x1c50, 0xa620, 0xa8d0, 0xa900, 0xa9d0, 0xa9f0, 0xaa50, 0xabf0, 0xff10, 0x104a0,
    0x10d30, 0x11066, 0x110f0, 0x11136, 0x111d0, 0x112f0, 0x11450, 0x114d0, 0x11650, 0x116c0, 0x11730,
    0x118e0, 0x11950, 0x11c50, 0x11d50, 0x11da0, 0x16a60, 0x16ac0, 0x16b50, 0x1d7ce, 0x1d7d8, 0x1d7e2,
    0x1d7ec, 0x1d7f6, 0x1e140, 0x1e2f0, 0x1e950, 0x1fbf0]

/-- The value of a decimal digit. -/
def decimal (c : Nat) : Option Nat := (zeros.find? fun z => z ≤ c ∧ c < z + 10).map (c - ·)

/-- `str.isspace` of one character. -/
def isspace (c : Nat) : Bool :=
  (0x9 ≤ c ∧ c ≤ 0xd) ∨ (0x1c ≤ c ∧ c ≤ 0x20) ∨ c = 0x85 ∨ c = 0xa0 ∨ c = 0x1680 ∨
    (0x2000 ≤ c ∧ c ≤ 0x200a) ∨ c = 0x2028 ∨ c = 0x2029 ∨ c = 0x202f ∨ c = 0x205f ∨ c = 0x3000

/-- `s.lstrip()` and `s.rstrip()`. -/
def lstrip (s : Str) : Str := s.dropWhile isspace

def rstrip (s : Str) : Str := s.rdropWhile isspace

def strip (s : Str) : Str := lstrip (rstrip s)

/-! ### Numbers -/

/-- `str(n)`. -/
def strOfNat (n : Nat) : Str := (Nat.toDigits 10 n).map Char.toNat

/-- `int(s)` of a string that starts with a digit: digits, with single underscores between them and
spaces after them. -/
def int (s : Str) : Option Nat :=
  let parts := (rstrip s).splitOn '_'.toNat
  if parts.all (· ≠ []) then
    (parts.flatten.mapM decimal).map fun digits => digits.foldl (fun n digit => 10 * n + digit) 0
  else none

theorem toNat_of_isDigit {c : Char} (h : c.isDigit) : 0x30 ≤ c.toNat ∧ c.toNat ≤ 0x39 := by
  simpa [Char.isDigit, UInt32.le_iff_toNat_le] using h

theorem decimal_of_ascii {c : Char} (h : c.isDigit) : decimal c.toNat = some (c.toNat - '0'.toNat) := by
  obtain ⟨hlow, hhigh⟩ := toNat_of_isDigit h
  have hfirst : 0x30 ≤ c.toNat ∧ c.toNat < 0x30 + 10 := ⟨hlow, by omega⟩
  unfold decimal zeros
  rw [List.find?_cons_of_pos (by simpa using hfirst)]
  rfl

theorem isspace_of_ascii {c : Char} (h : c.isDigit) : isspace c.toNat = false := by
  obtain ⟨hlow, hhigh⟩ := toNat_of_isDigit h
  simp only [isspace, decide_eq_false_iff_not]
  omega

theorem strOfNat_ne_nil (n : Nat) : strOfNat n ≠ [] := by
  simp [strOfNat, Nat.toDigits_ne_nil]

theorem mem_strOfNat {n c : Nat} (h : c ∈ strOfNat n) : ∃ a : Char, a.isDigit ∧ c = a.toNat := by
  obtain ⟨a, ha, rfl⟩ := List.mem_map.mp h
  exact ⟨a, Nat.isDigit_of_mem_toDigits (by decide) (by decide) ha, rfl⟩

theorem digit_of_mem_strOfNat {n c : Nat} (h : c ∈ strOfNat n) : 0x30 ≤ c ∧ c ≤ 0x39 := by
  obtain ⟨a, ha, rfl⟩ := mem_strOfNat h
  exact toNat_of_isDigit ha

theorem underscore_notMem_strOfNat (n : Nat) : '_'.toNat ∉ strOfNat n := by
  intro hmem
  have hdigit : 0x30 ≤ 0x5f ∧ 0x5f ≤ 0x39 := digit_of_mem_strOfNat hmem
  omega

/-- **`int` undoes `str`.** -/
theorem int_strOfNat (n : Nat) : int (strOfNat n) = some n := by
  have hspace : rstrip (strOfNat n) = strOfNat n := by
    refine List.rdropWhile_eq_self_iff.mpr fun hne => ?_
    obtain ⟨a, ha, hlast⟩ := mem_strOfNat (List.getLast_mem hne)
    simp [hlast, isspace_of_ascii ha]
  have hdigits (l : List Char) (hl : ∀ a ∈ l, a.isDigit) :
      (l.map Char.toNat).mapM decimal = some (l.map fun a => a.toNat - '0'.toNat) := by
    induction l with
    | nil => rfl
    | cons a l ih =>
        obtain ⟨ha, hl⟩ := List.forall_mem_cons.mp hl
        simp [decimal_of_ascii ha, ih hl]
  unfold int
  simp only [hspace, List.splitOn_eq_singleton (underscore_notMem_strOfNat n)]
  have hdecimal := hdigits (Nat.toDigits 10 n) fun a ha =>
    Nat.isDigit_of_mem_toDigits (by decide) (by decide) ha
  have hvalue : (Nat.toDigits 10 n).foldl (fun n a => 10 * n + (a.toNat - '0'.toNat)) 0 = n :=
    Nat.ofDigitChars_toDigits (by decide) (by decide)
  simp only [List.all_cons, strOfNat_ne_nil, ne_eq, not_false_eq_true, decide_true, List.all_nil,
    Bool.and_self, if_true, List.flatten_cons, List.flatten_nil, List.append_nil]
  rw [strOfNat, hdecimal, Option.map_some, List.foldl_map, hvalue]

theorem strOfNat_injective : Function.Injective strOfNat := by
  intro m n heq
  have hint := congrArg int heq
  rwa [int_strOfNat, int_strOfNat, Option.some.injEq] at hint

/-! ### The numbers as strings of Lean -/

theorem toString_injective : Function.Injective (toString : Nat → String) :=
  Function.LeftInverse.injective (g := fun s => Nat.ofDigitChars 10 s.toList 0) fun n => by
    rw [Nat.toString_eq_repr]
    dsimp only
    rw [Nat.toList_repr]
    exact Nat.ofDigitChars_toDigits (by decide) (by decide)

theorem isDigit_of_mem_toString {n : Nat} {c : Char} (h : c ∈ (toString n).toList) : c.isDigit := by
  rw [Nat.toString_eq_repr, Nat.toList_repr] at h
  exact Nat.isDigit_of_mem_toDigits (by decide) (by decide) h

theorem str_toString (n : Nat) : str (toString n) = strOfNat n := by
  rw [Nat.toString_eq_repr, str, Nat.toList_repr, strOfNat]

/-- `int(s)` of any string: spaces and a sign may come first. -/
def signedInt (s : Str) : Option Int :=
  let body := lstrip s
  if body.head? = some '+'.toNat then (int body.tail).map Int.ofNat
  else if body.head? = some '-'.toNat then (int body.tail).map fun n => -Int.ofNat n
  else (int body).map Int.ofNat

theorem signedInt_strOfNat (n : Nat) : signedInt (strOfNat n) = some (Int.ofNat n) := by
  cases htext : strOfNat n with
  | nil => exact absurd htext (strOfNat_ne_nil n)
  | cons c s =>
      obtain ⟨a, ha, rfl⟩ := mem_strOfNat (show c ∈ strOfNat n by simp [htext])
      obtain ⟨hlow, hhigh⟩ := toNat_of_isDigit ha
      have hbody : lstrip (a.toNat :: s) = a.toNat :: s := by
        rw [lstrip, List.dropWhile_cons_of_neg (by simp [isspace_of_ascii ha])]
      have hplus : a.toNat ≠ 0x2b := by omega
      have hminus : a.toNat ≠ 0x2d := by omega
      have hint : int (a.toNat :: s) = some n := htext ▸ int_strOfNat n
      simp [signedInt, hbody, hplus, hminus, hint]

/-! ### Parts -/

/-- One part more than there are separators. -/
theorem length_splitOn (sep : Nat) (s : Str) : (s.splitOn sep).length = s.count sep + 1 := by
  induction s with
  | nil => rfl
  | cons c s ih =>
      rw [List.splitOn_cons_eq_if_modifyHead]
      by_cases h : c = sep
      · simp [h, ih]
      · simp [h, ih]

end InfraHub.Lib
