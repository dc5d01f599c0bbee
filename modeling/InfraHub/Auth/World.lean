import InfraHub.Lib.Prog
import InfraHub.Lib.Store
import Mathlib.Data.List.Nodup

/-!
# Auth — World

What the unauthenticated endpoints of `system/views/auth` work on: the settings, the shared
cache, the user table, the captcha table, and the messages handed to the mail and SMS queues.

The cache is one store with string keys.  Every helper of `common/utils` and `settings/utils`
formats its own key, so two helpers meet exactly where their formatted keys are equal; the keys
are therefore kept as strings.  Entries carry no time: an entry that times out is a deletion, and
`Endpoints.lean` lets any entry time out between two requests.
-/

namespace InfraHub.Auth
open InfraHub.Lib

/-- The JSON object a client sends as `extra`. -/
abbrev Extra := List (String × String)

/-- `extra[k] = v`. -/
def Extra.setItem (extra : Extra) (k v : String) : Extra :=
  extra.filter (fun e => e.1 ≠ k) ++ [(k, v)]

/-- The field of `UserInfo` a verification target is looked up by (`query_key`). -/
inductive QueryKey where
  | phone | username | email
  deriving DecidableEq, Repr

/-- `form_type` after `"phone"` became `"sms"`: the backend of `SendAndVerifyCodeUtil`. -/
inductive Backend where
  | sms | username | email
  deriving DecidableEq, Repr

/-- The categories `getattr(self, "get_%s_config" % category)` finds. -/
inductive Category where
  | login | register | reset | bind_email | bind_phone
  deriving DecidableEq, Repr

/-- The dictionary `send-verify-code` keeps under a verify token. -/
structure TokenData where
  target : String
  form_type : Backend
  query_key : QueryKey
  extra : Extra
  deriving DecidableEq, Repr

/-- A value in the cache. -/
inductive CacheValue where
  /-- a string: a verification code, the name of a temporary token, a time -/
  | str (s : String)
  /-- a failure counter -/
  | count (n : Nat)
  /-- `True` -/
  | flag
  /-- the dictionary under a verify token; its `time` is never read -/
  | tokenTemp (data : TokenData)
  /-- the dictionary under a temporary token; its `atime` and `ext_data` are never read -/
  | tmpToken (data : String)
  deriving DecidableEq, Repr

abbrev Cache := Store String CacheValue

/-- `bool(value)`, for the result of `cache.get`. -/
def truthy : Option CacheValue → Bool
  | none => false
  | some (.str s) => s ≠ ""
  | some (.count n) => n ≠ 0
  | some .flag | some (.tokenTemp _) | some (.tmpToken _) => true

/-- The value of `cache.get(key, 0)` as the left operand of `+ 1`; `none` is a `TypeError`. -/
def asInt : Option CacheValue → Option Nat
  | none => some 0
  | some (.count n) => some n
  | some .flag => some 1
  | some (.str _) | some (.tokenTemp _) | some (.tmpToken _) => none

/-- A row of `UserInfo`. -/
structure User where
  id : Nat
  username : String
  nickname : String
  avatar : String
  phone : String
  email : String
  password : String
  is_active : Bool
  is_superuser : Bool
  modifier : Option Nat
  deriving DecidableEq, Repr

/-- `getattr(user, query_key)`. -/
def User.field (u : User) : QueryKey → String
  | .phone => u.phone
  | .username => u.username
  | .email => u.email

/-- `setattr(user, query_key, value)`. -/
def User.setField (u : User) (k : QueryKey) (v : String) : User :=
  match k with
  | .phone => { u with phone := v }
  | .username => { u with username := v }
  | .email => { u with email := v }

@[simp] theorem User.field_setField_self (u : User) (k : QueryKey) (v : String) :
    (u.setField k v).field k = v := by
  cases k <;> rfl

theorem User.field_setField_ne (u : User) {k k' : QueryKey} (v : String) (h : k' ≠ k) :
    (u.setField k v).field k' = u.field k' := by
  cases k <;> cases k' <;> first | rfl | exact absurd rfl h

@[simp] theorem User.id_setField (u : User) (k : QueryKey) (v : String) :
    (u.setField k v).id = u.id := by
  cases k <;> rfl

/-- The user table, in the model's default order.  `id` is its primary key and `username` is
unique. -/
structure UserTable where
  rows : List User
  ids : (rows.map User.id).Nodup
  usernames : (rows.map User.username).Nodup

namespace UserTable

/-- The rows with `f` applied to the one with primary key `id`. -/
def writeRows (f : User → User) (id : Nat) (rows : List User) : List User :=
  rows.map fun u => if u.id = id then f u else u

theorem ids_writeRows {f : User → User} (hf : ∀ u, (f u).id = u.id) (id : Nat) (rows : List User) :
    (writeRows f id rows).map User.id = rows.map User.id := by
  rw [writeRows, List.map_map]
  refine List.map_congr_left fun u _ => ?_
  simp only [Function.comp]
  split
  · exact hf u
  · rfl

/-- `save(update_fields=…)` of the row `id`, `f` writing the named columns; `none` is the
`IntegrityError` of the unique `username`. -/
def save (t : UserTable) (id : Nat) (f : User → User) (hf : ∀ u, (f u).id = u.id) :
    Option UserTable :=
  if h : ((writeRows f id t.rows).map User.username).Nodup then
    some ⟨writeRows f id t.rows, ids_writeRows hf id t.rows ▸ t.ids, h⟩
  else none

theorem save_eq_some {t t' : UserTable} {id : Nat} {f : User → User} {hf : ∀ u, (f u).id = u.id}
    (h : t.save id f hf = some t') : t'.rows = writeRows f id t.rows := by
  unfold save at h
  split at h
  · cases h; rfl
  · cases h

theorem mem_writeRows {f : User → User} {id : Nat} {rows : List User} {u : User} :
    u ∈ writeRows f id rows ↔ ∃ v ∈ rows, u = if v.id = id then f v else v := by
  simp [writeRows, eq_comm]

/-- The primary key names one row. -/
theorem eq_of_id (t : UserTable) {u v : User} (hu : u ∈ t.rows) (hv : v ∈ t.rows)
    (h : u.id = v.id) : u = v :=
  List.inj_on_of_nodup_map t.ids hu hv h

end UserTable

/-- A captcha that has not expired. -/
structure CaptchaStore where
  hashkey : String
  response : String
  deriving DecidableEq, Repr

/-- A message handed to a queue: by SMS to a phone number, or by mail to an address. -/
structure Delivery where
  backend : Backend
  target : String
  code : String
  deriving DecidableEq, Repr

structure World where
  cache : Cache
  users : UserTable
  captchas : List CaptchaStore
  outbox : List Delivery

/-- The switches of one category, as its `get_…_config` returns them. -/
structure Config where
  access : Bool
  captcha : Bool
  token : Bool
  encrypted : Bool
  email : Bool := false
  sms : Bool := false
  basic : Bool := false
  deriving DecidableEq, Repr

/-- The settings the endpoints read. -/
structure Settings where
  SECURITY_LOGIN_ACCESS_ENABLED : Bool := true
  SECURITY_LOGIN_CAPTCHA_ENABLED : Bool := true
  SECURITY_LOGIN_ENCRYPTED_ENABLED : Bool := true
  SECURITY_LOGIN_TEMP_TOKEN_ENABLED : Bool := true
  SECURITY_LOGIN_BY_EMAIL_ENABLED : Bool := true
  SECURITY_LOGIN_BY_SMS_ENABLED : Bool := false
  SECURITY_LOGIN_BY_BASIC_ENABLED : Bool := true
  SECURITY_REGISTER_ACCESS_ENABLED : Bool := true
  SECURITY_REGISTER_CAPTCHA_ENABLED : Bool := true
  SECURITY_REGISTER_ENCRYPTED_ENABLED : Bool := true
  SECURITY_REGISTER_TEMP_TOKEN_ENABLED : Bool := true
  SECURITY_REGISTER_BY_EMAIL_ENABLED : Bool := true
  SECURITY_REGISTER_BY_SMS_ENABLED : Bool := false
  SECURITY_REGISTER_BY_BASIC_ENABLED : Bool := true
  SECURITY_RESET_PASSWORD_ACCESS_ENABLED : Bool := true
  SECURITY_RESET_PASSWORD_CAPTCHA_ENABLED : Bool := true
  SECURITY_RESET_PASSWORD_TEMP_TOKEN_ENABLED : Bool := true
  SECURITY_RESET_PASSWORD_ENCRYPTED_ENABLED : Bool := true
  SECURITY_RESET_PASSWORD_BY_EMAIL_ENABLED : Bool := true
  SECURITY_RESET_PASSWORD_BY_SMS_ENABLED : Bool := false
  SECURITY_BIND_EMAIL_ACCESS_ENABLED : Bool := true
  SECURITY_BIND_EMAIL_CAPTCHA_ENABLED : Bool := true
  SECURITY_BIND_EMAIL_TEMP_TOKEN_ENABLED : Bool := true
  SECURITY_BIND_EMAIL_ENCRYPTED_ENABLED : Bool := true
  SECURITY_BIND_PHONE_ACCESS_ENABLED : Bool := true
  SECURITY_BIND_PHONE_CAPTCHA_ENABLED : Bool := true
  SECURITY_BIND_PHONE_TEMP_TOKEN_ENABLED : Bool := true
  SECURITY_BIND_PHONE_ENCRYPTED_ENABLED : Bool := true
  EMAIL_ENABLED : Bool := false
  SMS_ENABLED : Bool := false
  SECURITY_LOGIN_LIMIT_COUNT : Nat := 7
  SECURITY_LOGIN_LIMIT_TIME : Nat := 30
  SECURITY_LOGIN_IP_LIMIT_COUNT : Nat := 50
  SECURITY_LOGIN_IP_LIMIT_TIME : Nat := 30

/-- The settings, with the functions the endpoints call that are not part of their logic. -/
structure Env where
  settings : Settings
  /-- `AESCipherV2(key).decrypt(enc)`; `none` when it raises -/
  aesDecrypt : String → String → Option String
  /-- `check_password_rules(password, is_superuser)` -/
  check_password_rules : String → Bool → Bool
  /-- the hash `set_password` stores -/
  make_password : String → String
  /-- `contains_ip(ip, SECURITY_LOGIN_IP_WHITE_LIST)` -/
  ip_in_white_list : String → Bool
  /-- `contains_ip(ip, SECURITY_LOGIN_IP_BLACK_LIST)` -/
  ip_in_black_list : String → Bool
  /-- `get_file_absolute_uri` -/
  get_file_absolute_uri : String → String
  /-- `cache.ttl(key)`, as text -/
  ttl : String → String
  /-- `timezone.now().isoformat()` -/
  isoformat : String

/-- An exception: an `APIException` with its detail, an `IntegrityError` of the database, or any
other, by name. -/
inductive Fault where
  | api (detail : String)
  | integrity
  | python (name : String)
  deriving DecidableEq, Repr

/-- A request handler or a helper of one. -/
abbrev Handler (α : Type) := Prog World Fault α

/-- `cache.get(key)`. -/
def cacheGet (key : String) : Handler (Option CacheValue) := Prog.read fun w => w.cache.get key

/-- `cache.set(key, value)`. -/
def cacheSet (key : String) (value : CacheValue) : Handler Unit :=
  Prog.update fun w => { w with cache := w.cache.set key value }

/-- `cache.delete(key)`. -/
def cacheDelete (key : String) : Handler Unit :=
  Prog.update fun w => { w with cache := w.cache.delete key }

/-- `save(update_fields=…)` of the row `id` of `UserInfo`. -/
def saveUser (id : Nat) (f : User → User) (hf : ∀ u, (f u).id = u.id) : Handler Unit := do
  let users ← Prog.read fun w => w.users
  let users ← Prog.orRaise .integrity (users.save id f hf)
  Prog.update fun w => { w with users }

/-! ### Keys that differ in their fixed part -/

/-- Two formatted keys whose fixed parts disagree at some character are different. -/
theorem append_ne_append {p q : String} (h : ¬ p.toList <+: q.toList) (h' : ¬ q.toList <+: p.toList)
    (x y : String) : p ++ x ≠ q ++ y := by
  intro e
  have e := congrArg String.toList e
  rw [String.toList_append, String.toList_append, List.append_eq_append_iff] at e
  rcases e with ⟨l, e, -⟩ | ⟨l, e, -⟩
  · exact h ⟨l, e.symm⟩
  · exact h' ⟨l, e.symm⟩

end InfraHub.Auth
