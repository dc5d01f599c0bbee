import Mathlib.Data.List.Basic

/-!
# Virt — Credential

The password of a `PlatformCredential`, from the form that saves it to the client that uses it.

* `Fernet`: the cipher under the key derived from `SECRET_KEY`, as the code relies on it.
* `get_prep_value`, `from_db_value`: the encrypted fields encrypt on the way into the database and
  decrypt on the way out.
* `get_vsphere_client`: decrypts what the field hands it.
* `get_vsphere_client_after_save`: what the factory makes of a saved password, layer by layer.
-/

namespace InfraHub.Virt

/-- The cipher; `draw` is the time stamp and the initialization vector of a token. -/
structure Fernet where
  encrypt : (draw : Nat) → ByteArray → String
  decrypt : String → Option ByteArray
  decrypt_encrypt : ∀ draw data, decrypt (encrypt draw data) = some data
  encrypt_of_decrypt : ∀ {token data}, decrypt token = some data → ∃ draw, encrypt draw data = token

/-- A token produced with the key. -/
def Fernet.IsToken (F : Fernet) (t : String) : Prop := ∃ draw data, F.encrypt draw data = t

theorem Fernet.decrypt_eq_none {F : Fernet} {t : String} (h : ¬ F.IsToken t) :
    F.decrypt t = none := by
  cases hd : F.decrypt t with
  | none => rfl
  | some data =>
      obtain ⟨draw, he⟩ := F.encrypt_of_decrypt hd
      exact absurd ⟨draw, data, he⟩ h

inductive CryptoFault
  | valueError (text : String)
  | invalidToken
  | unicodeDecodeError
  | dataError
  | relatedObjectDoesNotExist
  deriving DecidableEq, Repr

/-! ### `CryptoHandler` -/

namespace CryptoHandler

variable (F : Fernet)

def encrypt (draw : Nat) (plaintext : String) : Except CryptoFault String :=
  if plaintext = "" then .error (.valueError "加密数据不能为空")
  else .ok (F.encrypt draw plaintext.toByteArray)

def decrypt (ciphertext : String) : Except CryptoFault String :=
  if ciphertext = "" then .error (.valueError "解密数据不能为空")
  else
    match F.decrypt ciphertext with
    | none => .error .invalidToken
    | some data =>
        match String.fromUTF8? data with
        | none => .error .unicodeDecodeError
        | some plaintext => .ok plaintext

variable {F}

theorem encrypt_ok {p : String} (hp : p ≠ "") (draw : Nat) :
    encrypt F draw p = .ok (F.encrypt draw p.toByteArray) := by
  simp [encrypt, hp]

theorem fromUTF8?_toByteArray (s : String) : String.fromUTF8? s.toByteArray = some s := by
  simp only [String.fromUTF8?, dif_pos s.isValidUTF8]
  rfl

/-- Decrypting undoes encrypting. -/
theorem decrypt_encrypt {draw : Nat} {p : String} (ht : F.encrypt draw p.toByteArray ≠ "") :
    decrypt F (F.encrypt draw p.toByteArray) = .ok p := by
  simp [decrypt, ht, F.decrypt_encrypt, fromUTF8?_toByteArray]

theorem decrypt_invalid {t : String} (ht : t ≠ "") (h : ¬ F.IsToken t) :
    decrypt F t = .error .invalidToken := by
  simp [decrypt, ht, Fernet.decrypt_eq_none h]

end CryptoHandler

def decrypt_password (F : Fernet) (encrypted_password : String) : Except CryptoFault String :=
  CryptoHandler.decrypt F encrypted_password

/-! ### The encrypted fields

`EncryptedCharField` and `EncryptedTextField` have the same two methods. -/

section Field

variable (F : Fernet)

/-- Read from the database: the value itself where it does not decrypt. -/
def from_db_value : Option String → Option String
  | none => none
  | some value =>
      match CryptoHandler.decrypt F value with
      | .ok plaintext => some plaintext
      | .error _ => some value

/-- Written to the database: a value that decrypts is taken for encrypted already. -/
def get_prep_value (draw : Nat) : Option String → Option String
  | none => none
  | some value =>
      match CryptoHandler.decrypt F value with
      | .ok _ => some value
      | .error _ =>
          match CryptoHandler.encrypt F draw value with
          | .ok token => some token
          | .error _ => some value

variable {F}

theorem get_prep_value_plain {p : String} (hp : p ≠ "") (h : ¬ F.IsToken p) (draw : Nat) :
    get_prep_value F draw (some p) = some (F.encrypt draw p.toByteArray) := by
  simp [get_prep_value, CryptoHandler.decrypt_invalid hp h, CryptoHandler.encrypt_ok hp]

/-- **What the field writes it reads back**, for every value but the tokens. -/
theorem from_db_value_get_prep_value {p : String} {draw : Nat} (hp : p ≠ "")
    (h : ¬ F.IsToken p) (ht : F.encrypt draw p.toByteArray ≠ "") :
    from_db_value F (get_prep_value F draw (some p)) = some p := by
  simp [get_prep_value_plain hp h, from_db_value, CryptoHandler.decrypt_encrypt ht]

end Field

/-! ### The tables -/

structure Platform where
  id : Nat
  host : String
  port : Nat
  ssl_verify : Bool
  is_active : Bool
  deriving DecidableEq, Repr

structure PlatformCredential where
  platform : Nat
  username : Option String
  password : Option String
  token : Option String
  session_id : Option String
  deriving DecidableEq, Repr

/-- The draws of one save, a field each. -/
structure Draws where
  password : Nat
  token : Nat
  session_id : Nat

/-- The row the fields write. -/
def PlatformCredential.prep (F : Fernet) (d : Draws) (c : PlatformCredential) :
    PlatformCredential :=
  { c with
    password := get_prep_value F d.password c.password
    token := get_prep_value F d.token c.token
    session_id := get_prep_value F d.session_id c.session_id }

/-- The instance the fields read. -/
def PlatformCredential.load (F : Fernet) (c : PlatformCredential) : PlatformCredential :=
  { c with
    password := from_db_value F c.password
    token := from_db_value F c.token
    session_id := from_db_value F c.session_id }

/-- The rows by platform, which is one to one, and the width of a `varchar` column. -/
structure Credentials where
  row : Nat → Option PlatformCredential
  width : (column : String) → Nat

/-- The value fits the column; null fits every column. -/
def fits (width : Nat) : Option String → Bool
  | none => true
  | some value => value.length ≤ width

def PlatformCredential.fits (width : String → Nat) (c : PlatformCredential) : Bool :=
  Virt.fits (width "username") c.username &&
  Virt.fits (width "password") c.password &&
  Virt.fits (width "session_id") c.session_id

/-- `credential.save()`, the row of its platform inserted or updated. -/
def PlatformCredential.save (F : Fernet) (d : Draws) (c : PlatformCredential) (db : Credentials) :
    Except CryptoFault Credentials :=
  if (c.prep F d).fits db.width then
    .ok { db with row := fun p => if p = c.platform then some (c.prep F d) else db.row p }
  else .error .dataError

/-- `platform.credential`. -/
def Platform.credential (F : Fernet) (p : Platform) (db : Credentials) :
    Except CryptoFault PlatformCredential :=
  match db.row p.id with
  | some row => .ok (row.load F)
  | none => .error .relatedObjectDoesNotExist

theorem credential_of_save {F : Fernet} {d : Draws} {c : PlatformCredential}
    {db db' : Credentials} (h : c.save F d db = .ok db') {p : Platform} (hp : p.id = c.platform) :
    p.credential F db' = .ok ((c.prep F d).load F) := by
  rw [PlatformCredential.save] at h
  split at h
  · cases h
    simp [Platform.credential, hp]
  · cases h

/-! ### The client -/

structure VSphereClient where
  host : String
  username : Option String
  password : String
  port : Nat
  ssl_verify : Bool
  deriving DecidableEq, Repr

/-- `decrypt_password(credential.password) if credential.password else ""`. -/
def client_password (F : Fernet) : Option String → Except CryptoFault String
  | none => .ok ""
  | some password => if password = "" then .ok "" else decrypt_password F password

def get_vsphere_client (F : Fernet) (platform : Platform) (db : Credentials) :
    Except CryptoFault VSphereClient := do
  let credential ← platform.credential F db
  let password ← client_password F credential.password
  return {
    host := platform.host
    username := credential.username
    password
    port := platform.port
    ssl_verify := platform.ssl_verify }

/-- The factory returns a client that logs in with `p`. -/
def Usable (F : Fernet) (platform : Platform) (p : String) (db : Credentials) : Prop :=
  ∃ client, get_vsphere_client F platform db = .ok client ∧ client.password = p

/-- **The second decryption.** The field has decrypted the password already; the factory decrypts
the plaintext once more, which is no token. -/
theorem get_vsphere_client_after_save {F : Fernet} {d : Draws} {c : PlatformCredential}
    {db db' : Credentials} {platform : Platform} {p : String} (hpl : platform.id = c.platform)
    (hc : c.password = some p) (hp : p ≠ "") (h : ¬ F.IsToken p)
    (ht : F.encrypt d.password p.toByteArray ≠ "") (hs : c.save F d db = .ok db') :
    get_vsphere_client F platform db' = .error .invalidToken := by
  have hload : ((c.prep F d).load F).password = some p := by
    simp [PlatformCredential.load, PlatformCredential.prep, hc,
      from_db_value_get_prep_value hp h ht]
  have hpw : client_password F (some p) = .error .invalidToken := by
    simp [client_password, hp, decrypt_password, CryptoHandler.decrypt_invalid hp h]
  simp [get_vsphere_client, credential_of_save hs hpl, bind, Except.bind, hload, hpw]

/-- A cipher whose tokens may be empty loses the password instead. -/
theorem get_vsphere_client_of_empty_token {F : Fernet} {d : Draws} {c : PlatformCredential}
    {db db' : Credentials} {platform : Platform} {p : String} (hpl : platform.id = c.platform)
    (hc : c.password = some p) (hp : p ≠ "") (h : ¬ F.IsToken p)
    (ht : F.encrypt d.password p.toByteArray = "") (hs : c.save F d db = .ok db') :
    ∃ client, get_vsphere_client F platform db' = .ok client ∧ client.password = "" := by
  have hload : ((c.prep F d).load F).password = some "" := by
    simp [PlatformCredential.load, PlatformCredential.prep, hc, get_prep_value_plain hp h, ht,
      from_db_value, CryptoHandler.decrypt]
  simp [get_vsphere_client, credential_of_save hs hpl, bind, Except.bind, hload, client_password,
    pure, Except.pure]

/-- **No saved password can be used**: whatever the plaintext, short of a token under the key. -/
theorem saved_password_unusable {F : Fernet} {d : Draws} {c : PlatformCredential}
    {db db' : Credentials} {platform : Platform} {p : String} (hpl : platform.id = c.platform)
    (hc : c.password = some p) (hp : p ≠ "") (h : ¬ F.IsToken p) (hs : c.save F d db = .ok db') :
    ¬ Usable F platform p db' := by
  rintro ⟨client, hok, hpass⟩
  by_cases ht : F.encrypt d.password p.toByteArray = ""
  · obtain ⟨client', hok', hempty⟩ := get_vsphere_client_of_empty_token hpl hc hp h ht hs
    rw [hok] at hok'
    cases hok'
    exact hp (hpass.symm.trans hempty)
  · rw [get_vsphere_client_after_save hpl hc hp h ht hs] at hok
    cases hok

/-! ### A saved credential -/

/-- The bytes in clear behind the letters every token starts with. -/
def sampleToken (data : ByteArray) : String :=
  String.ofList (['g', 'A', 'A', 'A', 'A', 'A'] ++ data.data.toList.map Char.ofUInt8)

def sampleData (t : String) : ByteArray :=
  ⟨((t.toList.drop 6).map Char.toUInt8).toArray⟩

/-- A byte, as a character and back. -/
theorem toUInt8_comp_ofUInt8 : Char.toUInt8 ∘ Char.ofUInt8 = id := by
  funext u
  exact UInt8.toUInt8_toUInt32 u

theorem sampleData_sampleToken (data : ByteArray) : sampleData (sampleToken data) = data := by
  simp [sampleData, sampleToken, toUInt8_comp_ofUInt8]

def sampleFernet : Fernet where
  encrypt _ data := sampleToken data
  decrypt t := if sampleToken (sampleData t) = t then some (sampleData t) else none
  decrypt_encrypt _ data := by simp [sampleData_sampleToken]
  encrypt_of_decrypt h := by
    simp only [Option.ite_none_right_eq_some, Option.some.injEq] at h
    obtain ⟨ht, rfl⟩ := h
    exact ⟨0, ht⟩

def samplePlatform : Platform where
  id := 1
  host := "vcenter.example.com"
  port := 443
  ssl_verify := false
  is_active := true

def sampleCredential : PlatformCredential where
  platform := 1
  username := some "root"
  password := some "secret"
  token := none
  session_id := none

/-- No credential yet; every column is 512 wide. -/
def sampleCredentials : Credentials := ⟨fun _ => none, fun _ => 512⟩

theorem secret_not_token : ¬ sampleFernet.IsToken "secret" := by
  rintro ⟨draw, data, h⟩
  have hd : (sampleToken data).toList.head? = "secret".toList.head? := by rw [← h]; rfl
  rw [show "secret".toList.head? = some 's' by decide] at hd
  simp [sampleToken] at hd

theorem sampleCredential_saved :
    ∃ db, sampleCredential.save sampleFernet ⟨0, 0, 0⟩ sampleCredentials = .ok db := by
  have hp := get_prep_value_plain (p := "secret") (by decide) secret_not_token 0
  refine ⟨_, if_pos ?_⟩
  simp only [PlatformCredential.fits, PlatformCredential.prep, sampleCredential, hp]
  decide

theorem saved_password_unusable_secret :
    ∃ db, sampleCredential.save sampleFernet ⟨0, 0, 0⟩ sampleCredentials = .ok db ∧
      ¬ Usable sampleFernet samplePlatform "secret" db := by
  obtain ⟨db, hs⟩ := sampleCredential_saved
  exact ⟨db, hs, saved_password_unusable rfl rfl (by decide) secret_not_token hs⟩

/-- The password `secret`, saved and read back, is refused as a token. -/
theorem saved_password_refused :
    ∃ db, sampleCredential.save sampleFernet ⟨0, 0, 0⟩ sampleCredentials = .ok db ∧
      get_vsphere_client sampleFernet samplePlatform db = .error .invalidToken := by
  obtain ⟨db, hs⟩ := sampleCredential_saved
  have ht : sampleFernet.encrypt 0 "secret".toByteArray ≠ "" := by decide
  exact ⟨db, hs, get_vsphere_client_after_save rfl rfl (by decide) secret_not_token ht hs⟩

end InfraHub.Virt
