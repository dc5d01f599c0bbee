import InfraHub.Virt.Credential
import Mathlib.Data.List.Induction

/-!
# Fields — Encrypted

Whether a value goes through the encrypted fields unchanged.

`get_prep_value` takes a value that decrypts for one that is encrypted already, and stores it as it is.
`transparent_iff`: a text is read back, and is not stored in clear, if and only if it is no token of a text
under the key.
-/

namespace InfraHub.Fields
open InfraHub.Virt (Fernet sampleFernet sampleToken get_prep_value from_db_value)
open InfraHub.Virt.CryptoHandler (encrypt decrypt)

/-- The column after the value was saved with the first draw, and then read and saved again with each of the
others. -/
def stored (F : Fernet) (v : Option String) (draw : Nat) (draws : List Nat) : Option String :=
  draws.foldl (fun column draw => get_prep_value F draw (from_db_value F column)) (get_prep_value F draw v)

/-- **The field is transparent** for the text: it is read back, and a text that is not empty is not stored in
clear, however often what was read is saved again. -/
def Transparent (F : Fernet) (v : String) : Prop :=
  ∀ draw draws, from_db_value F (stored F (some v) draw draws) = some v ∧
    (v ≠ "" → stored F (some v) draw draws ≠ some v)

/-- **The condition**: the text is no token of a text. -/
def NoToken (F : Fernet) (v : String) : Prop := ∀ p, decrypt F v ≠ .ok p

variable {F : Fernet} {v : String} {draw : Nat}

theorem stored_concat (v : Option String) (draw : Nat) (draws : List Nat) (last : Nat) :
    stored F v draw (draws ++ [last]) = get_prep_value F last (from_db_value F (stored F v draw draws)) := by
  rw [stored, List.foldl_append]
  rfl

theorem noToken_empty (F : Fernet) : NoToken F "" := nofun

/-- A text that decrypts is stored as it is. -/
theorem get_prep_value_token {p : String} (h : decrypt F v = .ok p) (draw : Nat) :
    get_prep_value F draw (some v) = some v := by
  simp [get_prep_value, h]

theorem from_db_value_empty (F : Fernet) : from_db_value F (some "") = some "" := rfl

/-- A text that does not decrypt is encrypted. -/
theorem get_prep_value_text (h : NoToken F v) (hne : v ≠ "") (draw : Nat) :
    get_prep_value F draw (some v) = some (F.encrypt draw v.toByteArray) := by
  cases hd : decrypt F v with
  | ok p => exact absurd hd (h p)
  | error e => simp [get_prep_value, hd, Virt.CryptoHandler.encrypt_ok hne]

theorem from_db_value_token (ht : F.encrypt draw v.toByteArray ≠ "") :
    from_db_value F (some (F.encrypt draw v.toByteArray)) = some v := by
  simp [from_db_value, Virt.CryptoHandler.decrypt_encrypt ht]

/-- **What is in the column**, however often the value is saved: a token of the text, made with the last
draw. -/
theorem stored_text (h : NoToken F v) (hne : v ≠ "") (ht : ∀ draw, F.encrypt draw v.toByteArray ≠ "")
    (draw : Nat) (draws : List Nat) :
    ∃ last, stored F (some v) draw draws = some (F.encrypt last v.toByteArray) := by
  induction draws using List.reverseRecOn with
  | nil => exact ⟨draw, get_prep_value_text h hne draw⟩
  | append_singleton draws last ih =>
      obtain ⟨before, hbefore⟩ := ih
      rw [stored_concat, hbefore, from_db_value_token (ht before)]
      exact ⟨last, get_prep_value_text h hne last⟩

theorem stored_empty (F : Fernet) (draw : Nat) (draws : List Nat) :
    stored F (some "") draw draws = some "" := by
  induction draws using List.reverseRecOn with
  | nil => rfl
  | append_singleton draws last ih =>
      rw [stored_concat, ih]
      rfl

/-- **The field is transparent** for the texts that are no tokens of a text, and for no others. -/
theorem transparent_iff (ht : ∀ draw, F.encrypt draw v.toByteArray ≠ "")
    (hne : ∀ draw, F.encrypt draw v.toByteArray ≠ v) : Transparent F v ↔ NoToken F v := by
  constructor
  · intro h p hp
    have hstored : stored F (some v) 0 [] = some v := get_prep_value_token hp 0
    have hempty : v ≠ "" := by
      rintro rfl
      exact noToken_empty F p hp
    exact (h 0 []).2 hempty hstored
  · intro h draw draws
    by_cases hempty : v = ""
    · subst hempty
      rw [stored_empty]
      exact ⟨from_db_value_empty F, fun habs => absurd rfl habs⟩
    · obtain ⟨last, hlast⟩ := stored_text h hempty ht draw draws
      rw [hlast]
      exact ⟨from_db_value_token (ht last), fun _ heq => hne last (Option.some.inj heq)⟩

/-! ### A password, and a token as a password -/

theorem noToken_secret : NoToken sampleFernet "secret" := by
  intro p hp
  rw [Virt.CryptoHandler.decrypt_invalid (by decide) Virt.secret_not_token] at hp
  cases hp

theorem transparent_iff_secret : Transparent sampleFernet "secret" := by
  have htoken : sampleToken "secret".toByteArray ≠ "" ∧ sampleToken "secret".toByteArray ≠ "secret" := by
    decide
  exact (transparent_iff (fun _ => htoken.1) fun _ => htoken.2).mpr noToken_secret

/-- **A token is stored in clear, and read as its text.** -/
theorem token_is_decrypted :
    get_prep_value sampleFernet 0 (some (sampleToken "secret".toByteArray)) =
      some (sampleToken "secret".toByteArray) ∧
    from_db_value sampleFernet (get_prep_value sampleFernet 0 (some (sampleToken "secret".toByteArray))) =
      some "secret" ∧
    ¬ Transparent sampleFernet (sampleToken "secret".toByteArray) := by
  have hempty : sampleFernet.encrypt 0 "secret".toByteArray ≠ "" := by decide
  have htoken : decrypt sampleFernet (sampleToken "secret".toByteArray) = .ok "secret" :=
    Virt.CryptoHandler.decrypt_encrypt hempty
  have hsame := get_prep_value_token htoken 0
  refine ⟨hsame, ?_, fun h => ?_⟩
  · rw [hsame]
    exact from_db_value_token hempty
  · exact (h 0 []).2 (by decide) hsame

end InfraHub.Fields
