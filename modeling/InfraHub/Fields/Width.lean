import InfraHub.Fields.Encrypted
import Mathlib.Logic.Function.Iterate
import Mathlib.Algebra.Group.Nat.Defs

/-!
# Fields — Width

The `max_length` of an `EncryptedCharField`: how it survives rebuilding, and whether tokens fit it.

The constructor doubles the length it is given, and the field reports the doubled length as the one to be
constructed with.  `rebuilt_iff`: every rebuilding doubles the length once more.  `token_fits_iff`: up to which
size of a text twice the declared length holds its token.
-/

namespace InfraHub.Fields
open InfraHub.Virt (Fernet get_prep_value toUInt8_comp_ofUInt8)

/-! ### The field -/

/-- Keyword arguments of a field; `rest` are those that an `EncryptedCharField` does not look at. -/
structure Kwargs (ρ : Type) where
  max_length : Option Nat
  rest : ρ
  deriving DecidableEq, Repr

/-- Django's `CharField`: what it is constructed with, its attribute, and what it reports of itself. -/
structure CharField (ρ φ : Type) where
  init : Kwargs ρ → φ
  max_length : φ → Option Nat
  deconstruct : φ → Kwargs ρ
  max_length_init : ∀ kwargs, max_length (init kwargs) = kwargs.max_length
  max_length_deconstruct : ∀ field, (deconstruct field).max_length = max_length field

section
variable {ρ φ : Type} (dj : CharField ρ φ)

/-- `EncryptedCharField.__init__` -/
def encryptedCharField (kwargs : Kwargs ρ) : φ :=
  dj.init { kwargs with max_length := kwargs.max_length.map (· * 2) }

/-- The field, rebuilt from what it reports of itself. -/
def clone (field : φ) : φ := encryptedCharField dj (dj.deconstruct field)

variable {dj} {m : Nat}

theorem max_length_encrypted (kwargs : Kwargs ρ) :
    dj.max_length (encryptedCharField dj kwargs) = kwargs.max_length.map (· * 2) :=
  dj.max_length_init _

theorem max_length_clone (field : φ) : dj.max_length (clone dj field) = (dj.max_length field).map (· * 2) := by
  rw [clone, max_length_encrypted, dj.max_length_deconstruct]

/-- **Rebuilding doubles.** -/
theorem max_length_clones {field : φ} (h : dj.max_length field = some m) (k : Nat) :
    dj.max_length ((clone dj)^[k] field) = some (2 ^ k * m) := by
  induction k with
  | zero => rw [Function.iterate_zero_apply, h, Nat.pow_zero, Nat.one_mul]
  | succ k ih =>
      rw [Function.iterate_succ_apply', max_length_clone, ih, Option.map_some, Nat.pow_succ, Nat.mul_right_comm]

/-- Two fields that were rebuilt differently often differ: a migration always finds something to change. -/
theorem clones_eq_iff {field : φ} (h : dj.max_length field = some m) (j k : Nat) :
    dj.max_length ((clone dj)^[j] field) = dj.max_length ((clone dj)^[k] field) ↔ j = k ∨ m = 0 := by
  rw [max_length_clones h, max_length_clones h, Option.some_inj]
  rcases Nat.eq_zero_or_pos m with rfl | hm
  · simp
  · rw [Nat.mul_left_inj (Nat.ne_of_gt hm), Nat.pow_right_inj (Nat.le_refl 2)]
    exact (or_iff_left (Nat.ne_of_gt hm)).symm

/-- **The rebuilt field is the declared one** if and only if it was never rebuilt, or the length is 0. -/
theorem rebuilt_iff (dj : CharField ρ φ) (m : Nat) (rest : ρ) (k : Nat) :
    dj.max_length ((clone dj)^[k] (encryptedCharField dj ⟨some m, rest⟩)) =
      dj.max_length (encryptedCharField dj ⟨some m, rest⟩) ↔ k = 0 ∨ m = 0 := by
  have hdeclared : dj.max_length (encryptedCharField dj ⟨some m, rest⟩) = some (m * 2) :=
    max_length_encrypted _
  refine (clones_eq_iff hdeclared k 0).trans (or_congr_right ?_)
  rw [Nat.mul_eq_zero]
  exact or_iff_left (by decide)

end

/-- A field that is what it was constructed with. -/
def plainCharField : CharField Unit (Kwargs Unit) where
  init := id
  max_length := Kwargs.max_length
  deconstruct := id
  max_length_init _ := rfl
  max_length_deconstruct _ := rfl

/-- **The password of a platform**: declared with 128, rebuilt once for the migration, and loaded from it. -/
theorem password_doubles :
    plainCharField.max_length (encryptedCharField plainCharField ⟨some 128, ()⟩) = some 256 ∧
    plainCharField.max_length
      ((clone plainCharField)^[1] (encryptedCharField plainCharField ⟨some 128, ()⟩)) = some 512 ∧
    plainCharField.max_length
      ((clone plainCharField)^[2] (encryptedCharField plainCharField ⟨some 128, ()⟩)) = some 1024 ∧
    ¬ ∀ m k, plainCharField.max_length
        ((clone plainCharField)^[k] (encryptedCharField plainCharField ⟨some m, ()⟩)) =
      plainCharField.max_length (encryptedCharField plainCharField ⟨some m, ()⟩) := by
  refine ⟨rfl, rfl, rfl, fun h => ?_⟩
  cases h 128 1

/-! ### Tokens -/

/-- The length of a token for a text of `n` bytes: `4 * ceil((57 + 16 * (n div 16 + 1)) / 3)`. -/
def token_length (n : Nat) : Nat := 4 * ((57 + 16 * (n / 16 + 1) + 2) / 3)

/-- The texts whose tokens fit twice the declared length have fewer bytes than this. -/
def limit (m : Nat) : Nat := if m < 50 then 0 else 16 * ((3 * ((m - 50) / 2) + 2) / 16 + 1)

theorem token_length_le_iff (n m : Nat) : token_length n ≤ 2 * m ↔ n < limit m := by
  rw [token_length, limit]
  split_ifs with hm
  · omega
  · omega

variable {F : Fernet} {v : String}

/-- **A token fits**: for a text that is itself a token, and for one with fewer bytes than the limit. -/
theorem token_fits_iff {ρ φ : Type} (dj : CharField ρ φ) (rest : ρ) {m : Nat} (hv : v ≠ "")
    (hlength : v.length ≤ m) {draw : Nat}
    (htoken : (F.encrypt draw v.toByteArray).length = token_length v.utf8ByteSize) :
    (∃ token width, get_prep_value F draw (some v) = some token ∧
      dj.max_length (encryptedCharField dj ⟨some m, rest⟩) = some width ∧ token.length ≤ width) ↔
      ¬ NoToken F v ∨ v.utf8ByteSize < limit m := by
  have hwidth : dj.max_length (encryptedCharField dj ⟨some m, rest⟩) = some (m * 2) := max_length_encrypted _
  simp only [hwidth, Option.some_inj]
  by_cases h : NoToken F v
  · rw [get_prep_value_text h hv draw, ← token_length_le_iff, ← htoken, Nat.mul_comm 2 m]
    simp [h]
  · simp only [NoToken, not_forall, not_not] at h
    obtain ⟨p, hp⟩ := h
    have hstored := get_prep_value_token hp draw
    refine iff_of_true ⟨v, m * 2, hstored, rfl, ?_⟩ (.inl fun habs => habs p hp)
    omega

/-! ### A password that fits, and one that does not -/

/-- A token of the right length: `sampleToken` with a filling that a minus sign closes. -/
def filledToken (data : ByteArray) : String :=
  String.ofList (['g', 'A', 'A', 'A', 'A', 'A'] ++
    List.replicate (token_length data.size - data.size - 7) 'A' ++ '-' :: data.data.toList.map Char.ofUInt8)

def filledData (t : String) : ByteArray :=
  ⟨(((t.toList.dropWhile (· != '-')).drop 1).map Char.toUInt8).toArray⟩

theorem filledToken_length (data : ByteArray) : (filledToken data).length = token_length data.size := by
  have hsize : data.data.size = data.size := rfl
  have hroom : data.size + 7 ≤ token_length data.size := by
    rw [token_length]
    omega
  simp only [filledToken, String.length_ofList, List.length_append, List.length_replicate, List.length_cons,
    List.length_nil, List.length_map, Array.length_toList, hsize]
  omega

theorem filledData_filledToken (data : ByteArray) : filledData (filledToken data) = data := by
  have hfilling : ∀ c ∈ ['g', 'A', 'A', 'A', 'A', 'A'] ++
      List.replicate (token_length data.size - data.size - 7) 'A', (c != '-') = true := by
    intro c hc
    rcases List.mem_append.mp hc with hstart | hfill
    · revert c hstart
      simp
    · rw [List.eq_of_mem_replicate hfill]
      simp
  rw [filledData, filledToken, String.toList_ofList, List.dropWhile_append_of_pos hfilling]
  simp [toUInt8_comp_ofUInt8]

/-- A cipher whose tokens have the length of Fernet's. -/
def filledFernet : Fernet where
  encrypt _ data := filledToken data
  decrypt t := if filledToken (filledData t) = t then some (filledData t) else none
  decrypt_encrypt _ data := by simp [filledData_filledToken]
  encrypt_of_decrypt h := by
    simp only [Option.ite_none_right_eq_some, Option.some.injEq] at h
    obtain ⟨ht, rfl⟩ := h
    exact ⟨0, ht⟩

/-- What does not start with a `g` is no token. -/
theorem noToken_filled {c : Char} {cs : List Char} (hc : c ≠ 'g') :
    NoToken filledFernet (String.ofList (c :: cs)) := by
  intro p hp
  rw [Virt.CryptoHandler.decrypt_invalid (by simp)] at hp
  · cases hp
  · rintro ⟨draw, data, h⟩
    have hfirst := congrArg (fun t => t.toList.head?) h
    simp only [filledFernet, filledToken, String.toList_ofList, List.cons_append, List.head?_cons,
      Option.some_inj] at hfirst
    exact hc hfirst.symm

theorem token_fits_iff_secret :
    ∃ token width, get_prep_value filledFernet 0 (some "secret") = some token ∧
      plainCharField.max_length (encryptedCharField plainCharField ⟨some 128, ()⟩) = some width ∧
      token.length ≤ width := by
  refine (token_fits_iff plainCharField () ?_ ?_ ?_).mpr (.inr ?_)
  · decide
  · decide
  · exact filledToken_length _
  · decide

/-- 128 letters, as many as the password of a platform may have. -/
def long_password : String := String.ofList (List.replicate 128 'a')

/-- **128 letters make a token of 268**, and the column has room for 256. -/
theorem token_is_wider :
    long_password ≠ "" ∧ long_password.length ≤ 128 ∧
    ∃ token, get_prep_value filledFernet 0 (some long_password) = some token ∧ token.length = 268 ∧
      plainCharField.max_length (encryptedCharField plainCharField ⟨some 128, ()⟩) = some 256 := by
  have hne : long_password ≠ "" := by decide +kernel
  have hsize : long_password.toByteArray.size = 128 := by decide +kernel
  have hno : NoToken filledFernet long_password := @noToken_filled 'a' (List.replicate 127 'a') (by decide)
  refine ⟨hne, by decide +kernel, _, get_prep_value_text hno hne 0, ?_, rfl⟩
  rw [show filledFernet.encrypt 0 long_password.toByteArray = filledToken long_password.toByteArray from rfl]
  rw [filledToken_length, hsize, token_length]

end InfraHub.Fields
