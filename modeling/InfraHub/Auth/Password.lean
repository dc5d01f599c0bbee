import InfraHub.Lib.Bytes
import InfraHub.Lib.Text

/-!
# Auth — Password

What the paths that set a password store: the plaintext, of which the hash is made.

A client sends a password encrypted, with the username or the verify token as the key.  All paths but
one check what they have decrypted.  `UserSerializer.validate` checks what was sent, so that a text
which passes the rules as it is may be stored as something else: `stored_iff`.
-/

namespace InfraHub.Auth.Password
open InfraHub.Lib

/-! ### `base64.b64decode` -/

/-- The place of a character in the alphabet. -/
def b64_value (c : Char) : Option Nat :=
  if 'A' ≤ c ∧ c ≤ 'Z' then some (c.toNat - 'A'.toNat)
  else if 'a' ≤ c ∧ c ≤ 'z' then some (c.toNat - 'a'.toNat + 26)
  else if '0' ≤ c ∧ c ≤ '9' then some (c.toNat - '0'.toNat + 52)
  else if c = '+' then some 62
  else if c = '/' then some 63
  else none

/-- `binascii.a2b_base64`, not strict: `quad_pos` characters of a group are read and `leftchar` are
the bits not yet written.  Characters outside the alphabet are skipped, and enough `=` end the text. -/
def a2b_base64 (quad_pos leftchar pads : Nat) : List Char → Option Bytes
  | [] => if quad_pos = 0 then some [] else none
  | c :: cs =>
    if c = '=' then
      if 2 ≤ quad_pos then
        if 4 ≤ quad_pos + (pads + 1) then some [] else a2b_base64 quad_pos leftchar (pads + 1) cs
      else a2b_base64 quad_pos leftchar pads cs
    else match b64_value c with
      | none => a2b_base64 quad_pos leftchar pads cs
      | some v =>
        match quad_pos with
        | 0 => a2b_base64 1 v 0 cs
        | 1 => (a2b_base64 2 (v % 16) 0 cs).map (UInt8.ofNat (leftchar * 4 + v / 16) :: ·)
        | 2 => (a2b_base64 3 (v % 4) 0 cs).map (UInt8.ofNat (leftchar * 16 + v / 4) :: ·)
        | _ => (a2b_base64 0 0 0 cs).map (UInt8.ofNat (leftchar * 64 + v) :: ·)

/-- `base64.b64decode` of a `str`; `none` when it raises. -/
def b64decode (s : String) : Option Bytes :=
  if s.toList.all (·.toNat < 128) then a2b_base64 0 0 0 s.toList else none

/-! ### `AESCipherV2` -/

/-- The hash and the cipher, which is called with a key of 32 bytes, an `iv` of 16 and whole blocks. -/
structure Primitives where
  md5 : Bytes → Bytes
  md5_length : ∀ b, (md5 b).length = 16
  aes_cbc_decrypt : Bytes → Bytes → Bytes → Bytes

section
variable (prim : Primitives)

/-- The `while` loop of `_make_key`. -/
def extend_key (key salt : Bytes) (output : Nat) (last final_key : Bytes) : Bytes :=
  if final_key.length < output then
    extend_key key salt output (prim.md5 (last ++ key ++ salt))
      (final_key ++ prim.md5 (last ++ key ++ salt))
  else final_key
termination_by output - final_key.length
decreasing_by
  rw [List.length_append, prim.md5_length]
  omega

def make_key (key salt : Bytes) (output : Nat) : Bytes :=
  (extend_key prim key salt output (prim.md5 (key ++ salt)) (prim.md5 (key ++ salt))).take output

/-- `_unpack_data`: the last byte says how many are cut off, and no byte is kept where it says none. -/
def unpack_data (s : Bytes) : Option String :=
  match s.getLast? with
  | none => none
  | some n => (decode (if n = 0 then [] else s.take (s.length - n.toNat))).map String.ofList

/-- `b"Salted__"`. -/
def salted : Bytes := encode "Salted__".toList

/-- `AESCipherV2(key).decrypt(enc)`; `none` when it raises. -/
def decrypt (key enc : String) : Option String :=
  (b64decode enc).bind fun data =>
    if data.take 8 ≠ salted then some ""
    else
      let key_iv := make_key prim (encode key.toList) ((data.drop 8).take 8) (32 + 16)
      let blocks := data.drop 16
      if blocks.length % 16 = 0 then
        unpack_data (prim.aes_cbc_decrypt (key_iv.take 32) (key_iv.drop 32) blocks)
      else none

end

/-! ### `check_password_rules` -/

structure Rules where
  SECURITY_PASSWORD_UPPER_CASE : Bool := false
  SECURITY_PASSWORD_LOWER_CASE : Bool := false
  SECURITY_PASSWORD_NUMBER : Bool := false
  SECURITY_PASSWORD_SPECIAL_CHAR : Bool := false
  SECURITY_PASSWORD_MIN_LENGTH : Int := 6
  SECURITY_ADMIN_USER_PASSWORD_MIN_LENGTH : Int := 6

/-- `\d` -/
def digit (c : Char) : Bool := (decimal c.toNat).isSome

/-- The class of the lookahead for special characters. -/
def special (c : Char) : Bool := c ∈ "`~!@#$%^&*()-=_+[]\x7b\x7d|;:'\",.<>/?".toList

/-- The class of the first character, in which `\)-=` is a range. -/
def first (c : Char) : Bool :=
  c.isAlpha || digit c || c ∈ "`~!@#$%^&*(_+[]\x7b\x7d|;:'\",.<>/?".toList || (')' ≤ c && c ≤ '=')

/-- The text before the first newline, where `.*` ends. -/
def line (s : List Char) : List Char := s.takeWhile (· ≠ '\n')

/-- `(?=.*[...])` -/
def ahead (required : Bool) (cls : Char → Bool) (s : List Char) : Bool := !required || (line s).any cls

/-- `$` -/
def at_end (s : List Char) : Bool := s = [] || s = ['\n']

/-- `.{n,}$`.  A bound that is no number is no bound: then the braces stand for themselves. -/
def repeated (n : Int) (s : List Char) : Bool :=
  if 0 ≤ n then n ≤ (line s).length && at_end (s.drop (line s).length)
  else match s with
    | [] => false
    | c :: s =>
      let braces := ("\x7b" ++ toString n ++ ",\x7d").toList
      c ≠ '\n' && braces.isPrefixOf s && at_end (s.drop braces.length)

/-- The first bound that `re` refuses. -/
def MAXREPEAT : Int := 4294967295

/-- `none` when `re` raises `OverflowError`. -/
def check_password_rules (rules : Rules) (password : String) (is_super_admin : Bool) : Option Bool :=
  let min_length := if is_super_admin then rules.SECURITY_ADMIN_USER_PASSWORD_MIN_LENGTH
    else rules.SECURITY_PASSWORD_MIN_LENGTH
  if MAXREPEAT ≤ min_length - 1 then none
  else
    let s := password.toList
    some (ahead rules.SECURITY_PASSWORD_UPPER_CASE Char.isUpper s &&
      ahead rules.SECURITY_PASSWORD_LOWER_CASE Char.isLower s &&
      ahead rules.SECURITY_PASSWORD_NUMBER digit s &&
      ahead rules.SECURITY_PASSWORD_SPECIAL_CHAR special s &&
      match s with
      | [] => false
      | c :: s => first c && repeated (min_length - 1) s)

/-! ### The paths -/

/-- What a client sends for a password: nothing, `null`, a text, a number with its text, or another
value. -/
inductive Payload where
  | missing
  | null
  | str (s : String)
  | number (text : String)
  | other

/-- `s.strip()` -/
def stripped (s : String) : String :=
  String.ofList ((s.toList.dropWhile (isspace ·.toNat)).rdropWhile (isspace ·.toNat))

/-- A `CharField` with `max_length=128`. -/
def password_field (min_length : Nat) (password : Payload) : Option String :=
  let validated (s : String) : Option String :=
    if s = "" ∨ '\x00' ∈ s.toList ∨ s.length < min_length ∨ 128 < s.length then none else some s
  match password with
  | .str s | .number s => validated (stripped s)
  | .missing | .null | .other => none

section
variable (rules : Rules) (prim : Primitives)

/-- The password, if the rules let it pass. -/
def checked (is_superuser : Bool) (password : String) : Option String :=
  if check_password_rules rules password is_superuser = some true then some password else none

/-- The password in the data of the register and the reset view.  What is no text is missing, or
raises. -/
def received (encrypted : Bool) (verify_token : String) : Payload → Option String
  | .str s => if s = "" then none else if encrypted then decrypt prim verify_token s else some s
  | .missing | .null | .number _ | .other => none

/-- `UserSerializer.validate`: the plaintext of the hash. -/
def validate (method username password : String) : Option String :=
  if method = "POST" then
    -- a text that cannot be decrypted is hashed as it is
    let plaintext := (decrypt prim username password).getD password
    if check_password_rules rules password false = some true then some plaintext else none
  else none

/-- A request that sets a password. -/
inductive Path where
  | register (encrypted : Bool) (verify_token : String) (password : Payload)
  | reset_password (encrypted : Bool) (verify_token : String) (is_superuser : Bool) (password : Payload)
  /-- `UserSerializer` -/
  | create (username : String) (password : Payload)
  /-- `ResetPasswordSerializer` -/
  | admin_reset (username : String) (is_superuser : Bool) (password : Payload)
  /-- `ChangePasswordSerializer`, with what `check_password` says of the old password -/
  | change (username : String) (is_superuser : Bool) (check_password : String → Bool)
      (old_password sure_password : Payload)

/-- The user whose password is set; who registers or is created is no superuser. -/
def Path.is_superuser : Path → Bool
  | register .. | create .. => false
  | reset_password _ _ is_superuser _ | admin_reset _ is_superuser _ | change _ is_superuser .. =>
    is_superuser

/-- The plaintext whose hash is stored, if the request succeeds. -/
def Path.stored : Path → Option String
  | register encrypted verify_token password =>
    (received prim encrypted verify_token password).bind (checked rules false)
  | reset_password encrypted verify_token is_superuser password =>
    (received prim encrypted verify_token password).bind (checked rules is_superuser)
  | create username password => (password_field 0 password).bind (validate rules prim "POST" username)
  | admin_reset username is_superuser password =>
    (password_field 5 password).bind fun password =>
      (decrypt prim username password).bind (checked rules is_superuser)
  | change username is_superuser check_password old_password sure_password => do
    let old_password ← password_field 5 old_password
    let sure_password ← password_field 5 sure_password
    let sure_password ← decrypt prim username sure_password
    let old_password ← decrypt prim username old_password
    if check_password old_password then checked rules is_superuser sure_password else none

/-- A new user's text that passes the rules decrypts to one that does, or not at all. -/
def Path.Safe : Path → Prop
  | create username password => ∀ sent plaintext, password_field 0 password = some sent →
      check_password_rules rules sent false = some true → decrypt prim username sent = some plaintext →
      check_password_rules rules plaintext false = some true
  | register .. | reset_password .. | admin_reset .. | change .. => True

end

section
variable {rules : Rules} {prim : Primitives}

theorem checked_eq_some {is_superuser : Bool} {password p : String}
    (h : checked rules is_superuser password = some p) :
    check_password_rules rules p is_superuser = some true := by
  obtain ⟨hcheck, heq⟩ := Option.ite_none_right_eq_some.mp h
  exact Option.some.inj heq ▸ hcheck

theorem bind_checked {is_superuser : Bool} {plaintext : Option String} {p : String}
    (h : plaintext.bind (checked rules is_superuser) = some p) :
    check_password_rules rules p is_superuser = some true := by
  obtain ⟨_, -, h⟩ := Option.bind_eq_some_iff.mp h
  exact checked_eq_some h

/-- What a text that passes the rules is stored as. -/
theorem validate_eq_some {username password p : String} :
    validate rules prim "POST" username password = some p ↔
      check_password_rules rules password false = some true ∧
        (decrypt prim username password).getD password = p := by
  rw [validate, if_pos rfl, Option.ite_none_right_eq_some, Option.some.injEq]

theorem create_iff (username : String) (password : Payload) :
    (∀ p, (Path.create username password).stored rules prim = some p →
      check_password_rules rules p false = some true) ↔
      (Path.create username password).Safe rules prim := by
  constructor
  · intro h sent plaintext hfield hsent hdecrypt
    refine h plaintext (Option.bind_eq_some_iff.mpr ⟨sent, hfield, ?_⟩)
    exact validate_eq_some.mpr ⟨hsent, by rw [hdecrypt, Option.getD_some]⟩
  · intro h p hstored
    obtain ⟨sent, hfield, hvalidate⟩ := Option.bind_eq_some_iff.mp hstored
    obtain ⟨hsent, hp⟩ := validate_eq_some.mp hvalidate
    cases hdecrypt : decrypt prim username sent with
    | none =>
        rw [hdecrypt, Option.getD_none] at hp
        exact hp ▸ hsent
    | some plaintext =>
        rw [hdecrypt, Option.getD_some] at hp
        exact hp ▸ h sent plaintext hfield hsent hdecrypt

/-- **A stored password satisfies the rules**, on every path but the creation of a user; and there if
and only if the text that was sent does not pass the rules, is not decrypted, or is decrypted to one
that satisfies them. -/
theorem stored_iff (rules : Rules) (prim : Primitives) (path : Path) :
    (∀ p, path.stored rules prim = some p →
      check_password_rules rules p path.is_superuser = some true) ↔ path.Safe rules prim := by
  cases path with
  | create username password => exact create_iff username password
  | register | reset_password => exact iff_of_true (fun _ h => bind_checked h) trivial
  | admin_reset username is_superuser password =>
      refine iff_of_true (fun p h => ?_) trivial
      obtain ⟨_, -, h⟩ := Option.bind_eq_some_iff.mp h
      exact bind_checked h
  | change username is_superuser check_password old_password sure_password =>
      refine iff_of_true (fun p h => ?_) trivial
      obtain ⟨_, -, h⟩ := Option.bind_eq_some_iff.mp h
      obtain ⟨_, -, h⟩ := Option.bind_eq_some_iff.mp h
      obtain ⟨_, -, h⟩ := Option.bind_eq_some_iff.mp h
      obtain ⟨_, -, h⟩ := Option.bind_eq_some_iff.mp h
      exact checked_eq_some (Option.ite_none_right_eq_some.mp h).2

/-- No settings let the empty password pass. -/
theorem check_empty (is_superuser : Bool) : check_password_rules rules "" is_superuser ≠ some true := by
  rw [check_password_rules]
  split_ifs <;> simp

/-- What is base64 but not of the cipher is decrypted to the empty text: such a password is stored
as the empty one. -/
theorem decrypt_not_salted {data : Bytes} {key enc : String} (h : b64decode enc = some data)
    (hsalted : data.take 8 ≠ salted) : decrypt prim key enc = some "" := by
  rw [decrypt, h, Option.bind_some, if_pos hsalted]

theorem not_safe_of_not_salted {data : Bytes} {username sent : String} {password : Payload}
    (hfield : password_field 0 password = some sent)
    (hsent : check_password_rules rules sent false = some true) (h : b64decode sent = some data)
    (hsalted : data.take 8 ≠ salted) : ¬ (Path.create username password).Safe rules prim := fun hsafe =>
  check_empty false (hsafe sent "" hfield hsent (decrypt_not_salted h hsalted))

end

/-- A hash and a cipher that do nothing. -/
def samplePrimitives : Primitives where
  md5 _ := List.replicate 16 0
  md5_length _ := rfl
  aes_cbc_decrypt _ _ blocks := blocks

/-- `abcdefgh` is base64 of six bytes, and passes the default rules. -/
theorem stored_empty : (Path.create "bob" (.str "abcdefgh")).stored {} samplePrimitives = some "" ∧
    check_password_rules {} "" false ≠ some true := by
  decide +kernel

end InfraHub.Auth.Password
