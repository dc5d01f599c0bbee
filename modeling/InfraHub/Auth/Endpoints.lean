import InfraHub.Auth.Helpers
import InfraHub.Lib.Run

/-!
# Auth — Endpoints

The temp-token, captcha, send-verify-code and reset-password endpoints, and the bind action of a
signed-in user, as they answer one request; then the machine whose steps are requests to the four
unauthenticated endpoints and entries of the cache timing out.

Random draws (a code, a token, a captcha) are part of the label of a step, so nothing is assumed
about them.
-/

namespace InfraHub.Auth
open InfraHub.Lib
open InfraHub.Lib.Prog (raise orRaise attempt update read)

/-- What a response carries that the endpoints decide. -/
inductive Reply where
  /-- `ApiResponse(code=…, detail=…)` -/
  | api (code : Nat) (detail : String)
  /-- `send-verify-code` with a code sent -/
  | verify (verify_token : String) (extra : Extra) (verify_code : Option String)
  /-- `temp-token` -/
  | token (token : String)
  /-- `captcha` -/
  | captcha (captcha_key : String) (length : Nat)
  /-- an exception, as the exception handler reports it -/
  | error (e : Fault)
  deriving DecidableEq, Repr

/-- The `verify_token` of the data of a response. -/
def Reply.verify_token : Reply → Option String
  | .verify t _ _ => some t
  | _ => none

/-- The `verify_code` of the data of a response. -/
def Reply.verify_code : Reply → Option String
  | .verify _ _ c => c
  | _ => none

/-- A response without a verify token has no code. -/
theorem Reply.verify_code_eq_none {r : Reply} (h : r.verify_token = none) : r.verify_code = none := by
  cases r <;> first | rfl | cases h

/-! ### `send-verify-code` -/

/-- `get_login_config`, `get_register_config`, …: the configuration of a category. -/
def get_config (st : Settings) : Category → Config
  | .register =>
      { access := st.SECURITY_REGISTER_ACCESS_ENABLED
        captcha := st.SECURITY_REGISTER_CAPTCHA_ENABLED
        token := st.SECURITY_REGISTER_TEMP_TOKEN_ENABLED
        encrypted := st.SECURITY_REGISTER_ENCRYPTED_ENABLED
        email := st.SECURITY_REGISTER_BY_EMAIL_ENABLED && st.EMAIL_ENABLED
        sms := st.SECURITY_REGISTER_BY_SMS_ENABLED && st.SMS_ENABLED
        basic := st.SECURITY_REGISTER_BY_BASIC_ENABLED }
  | .login =>
      { access := st.SECURITY_LOGIN_ACCESS_ENABLED
        captcha := st.SECURITY_LOGIN_CAPTCHA_ENABLED
        token := st.SECURITY_LOGIN_TEMP_TOKEN_ENABLED
        encrypted := st.SECURITY_LOGIN_ENCRYPTED_ENABLED
        email := st.SECURITY_LOGIN_BY_EMAIL_ENABLED && st.EMAIL_ENABLED
        sms := st.SECURITY_LOGIN_BY_SMS_ENABLED && st.SMS_ENABLED
        basic := st.SECURITY_LOGIN_BY_BASIC_ENABLED }
  | .reset =>
      { access := st.SECURITY_RESET_PASSWORD_ACCESS_ENABLED
        captcha := st.SECURITY_RESET_PASSWORD_CAPTCHA_ENABLED
        token := st.SECURITY_RESET_PASSWORD_TEMP_TOKEN_ENABLED
        encrypted := st.SECURITY_RESET_PASSWORD_ENCRYPTED_ENABLED
        email := st.SECURITY_RESET_PASSWORD_BY_EMAIL_ENABLED && st.EMAIL_ENABLED
        sms := st.SECURITY_RESET_PASSWORD_BY_SMS_ENABLED && st.SMS_ENABLED }
  | .bind_email =>
      { access := st.SECURITY_BIND_EMAIL_ACCESS_ENABLED
        captcha := st.SECURITY_BIND_EMAIL_CAPTCHA_ENABLED
        token := st.SECURITY_BIND_EMAIL_TEMP_TOKEN_ENABLED
        encrypted := st.SECURITY_BIND_EMAIL_ENCRYPTED_ENABLED
        email := st.EMAIL_ENABLED }
  | .bind_phone =>
      { access := st.SECURITY_BIND_PHONE_ACCESS_ENABLED
        captcha := st.SECURITY_BIND_PHONE_CAPTCHA_ENABLED
        token := st.SECURITY_BIND_PHONE_TEMP_TOKEN_ENABLED
        encrypted := st.SECURITY_BIND_PHONE_ENCRYPTED_ENABLED
        sms := st.SMS_ENABLED }

/-- The form types a configuration offers. -/
def Config.form_types (config : Config) : List QueryKey :=
  (if config.sms then [.phone] else []) ++ (if config.basic then [.username] else []) ++
    (if config.email then [.email] else [])

/-- `form_type`, once `"phone"` became `"sms"`. -/
def QueryKey.backend : QueryKey → Backend
  | .phone => .sms
  | .username => .username
  | .email => .email

/-- `UserInfo.objects.filter(**{query_key: target})`. -/
def usersWith (k : QueryKey) (target : String) (users : List User) : List User :=
  users.filter fun u => u.field k = target

/-- The text naming the looked-up field in the refusals of `check_…_config`. -/
def Backend.label : Backend → String
  | .sms => "Phone"
  | .email => "Email"
  | .username => "Username"

def check_register_config (form_type : Backend) (query_key : QueryKey) (target : String)
    (extra : Extra) : Handler (String × Extra) := do
  let users ← read (·.users.rows)
  if (usersWith query_key target users).isEmpty then return ("", extra)
  else raise (.python (form_type.label ++ " already exist"))

def check_reset_config (form_type : Backend) (query_key : QueryKey) (target : String)
    (extra : Extra) : Handler (String × Extra) := do
  let users ← read (·.users.rows)
  match ((users.filter (·.is_active)).filter fun u => u.field query_key = target).head? with
  | some user => return (user.username, extra)
  | none => raise (.python (form_type.label ++ " does not exist"))

def check_bind_email_config (env : Env) (query_key : QueryKey) (target : String)
    (extra : Extra) : Handler (String × Extra) := do
  let users ← read (·.users.rows)
  match (usersWith query_key target users).head? with
  | some user =>
      let extra := extra.setItem "avatar" (env.get_file_absolute_uri user.avatar)
      let extra := extra.setItem "username" user.username
      return ("", extra.setItem "nickname" user.nickname)
  | none => return ("", extra)

/-- `check_login_config`, `check_register_config`, …. -/
def check_config (env : Env) (category : Category) (form_type : Backend) (query_key : QueryKey)
    (target : String) (extra : Extra) : Handler (String × Extra) :=
  match category with
  | .register => check_register_config form_type query_key target extra
  | .reset | .login => check_reset_config form_type query_key target extra
  | .bind_email | .bind_phone => check_bind_email_config env query_key target extra

structure SendVerifyCodeRequest where
  /-- `get_request_ip(request)` -/
  ip : String
  /-- `get_request_ident(request)` -/
  ident : String
  /-- `none`: a category without a `get_…_config` -/
  category : Option Category
  /-- `none`: any value that is not the name of a form type -/
  form_type : Option QueryKey
  target : String := ""
  token : Option String := none
  captcha_key : Option String := none
  captcha_code : Option String := none
  extra : Extra := []

/-- What `send-verify-code` draws: a code, or the text of the `ValueError` of `random_string`; the
token; whether the message queue takes the message. -/
structure Draw where
  code : Except String String
  verify_token : String
  queued : Bool := true

/-- The target, decrypted with the temporary token where the category asks for it. -/
def SendVerifyCodeRequest.plain_target (env : Env) (config : Config)
    (req : SendVerifyCodeRequest) : Option String :=
  if config.encrypted then req.token.bind (env.aesDecrypt · req.target) else some req.target

/-- The end of `SendVerifyCodeAPIView.post`: the code is sent and a verify token is minted. -/
def send_and_mint (env : Env) (draw : Draw) (target : String) (query_key : QueryKey)
    (extra : Extra) : Handler Reply := do
  let form_type := query_key.backend
  let dryrun : Bool := form_type = .username
  match draw.code with
  | .error detail => return .api 1002 detail
  | .ok code => do
      SendAndVerifyCodeUtil.gen_and_send_async env target code form_type dryrun draw.queued
      let verify_token ← TokenTempCache.generate_cache_token draw.verify_token
        ⟨target, form_type, query_key, extra⟩
      return .verify verify_token extra (if dryrun then some code else none)

/-- `SendVerifyCodeAPIView.post` from the decrypted target on. -/
def send_to_target (env : Env) (req : SendVerifyCodeRequest) (draw : Draw) (category : Category)
    (query_key : QueryKey) (target : String) : Handler Reply := do
  check_is_block env target req.ip SendVerifyCodeBlockUtil
  SendVerifyCodeBlockUtil.incr_failed_count env target req.ip
  let checked ← attempt
    (do return .ok (← check_config env category query_key.backend query_key target req.extra))
    (fun e => do
      LoginIpBlockUtil.set_block_if_need env req.ip
      return Except.error e.text)
  match checked with
  | .error detail => return .api 1001 detail
  | .ok (_, extra) => send_and_mint env draw target query_key extra

/-- `SendVerifyCodeAPIView.post`. -/
def send_verify_code (env : Env) (req : SendVerifyCodeRequest) (draw : Draw) : Handler Reply := do
  match req.category with
  | none => raise (.python "AttributeError")
  | some category => do
      let config := get_config env.settings category
      if !config.access then return .api 1001 "Forbidden send verification code"
      else
        match req.form_type with
        | none => return .api 1004 "Operation failed. Abnormal data"
        | some form_type =>
            if req.target = "" ∨ form_type ∉ config.form_types then
              return .api 1004 "Operation failed. Abnormal data"
            else do
              check_tmp_token config.token req.token req.ident
              check_captcha config.captcha req.captcha_key req.captcha_code
              let target ← orRaise (.python "ValueError") (req.plain_target env config)
              send_to_target env req draw category form_type target

/-! ### `reset-password` and `bind` -/

structure ResetPasswordRequest extends VerifyRequest where
  password : Option String

/-- `instance.set_password(password); instance.modifier = instance`, given the hash. -/
def User.set_password (password : String) (u : User) : User :=
  { u with password, modifier := some u.id }

/-- `ResetPasswordAPIView.post`. -/
def reset_password (env : Env) (req : ResetPasswordRequest) : Handler Reply := do
  let (query_key, target, verify_token) ←
    verify_sms_email_code env req.toVerifyRequest ResetBlockUtil
  if !given req.password then return .api 1004 "Operation failed. Abnormal data"
  else do
    let password := req.password.getD ""
    let password ← orRaise (.python "ValueError")
      (if env.settings.SECURITY_RESET_PASSWORD_ENCRYPTED_ENABLED then
        env.aesDecrypt verify_token password
      else some password)
    let users ← read (·.users.rows)
    -- `UserInfo.objects.get`
    match usersWith query_key target users with
    | [] => raise (.python "DoesNotExist")
    | _ :: _ :: _ => raise (.python "MultipleObjectsReturned")
    | [user] =>
        if !env.check_password_rules password user.is_superuser then
          return .api 1002 "Password does not match security rules"
        else do
          saveUser user.id (User.set_password (env.make_password password)) fun _ => rfl
          TokenTempCache.expired_cache_token verify_token
          return .api 1000 "Reset password success, return to login page"

/-- `setattr(user, query_key, value)` and the `save` after it. -/
def set_field (id : Nat) (query_key : QueryKey) (value : String) : Handler Unit :=
  saveUser id (·.setField query_key value) fun u => u.id_setField query_key value

/-- `UserInfoViewSet.bind`, `user` being the caller's primary key. -/
def bind (env : Env) (user : Nat) (req : VerifyRequest) : Handler Reply := do
  let (query_key, target, verify_token) ← verify_sms_email_code env req ResetBlockUtil
  let users ← read (·.users.rows)
  match (usersWith query_key target users).head? with
  | some holder => set_field holder.id query_key ""
  | none => pure ()
  set_field user query_key target
  TokenTempCache.expired_cache_token verify_token
  return .api 1000 ""

/-! ### The unauthenticated endpoints as a machine -/

/-- `set_rollback` by the exception handler, or by the database itself. -/
def Fault.rolls_back : Fault → Bool
  | .api _ | .integrity => true
  | .python _ => false

/-- A request, answered.  Every request runs in one transaction, which an exception may roll back;
the cache and the message queues are outside it. -/
def serve (m : Handler Reply) (w : World) : Reply × World :=
  match m.exec w with
  | (.ok r, w') => (r, w')
  | (.error e, w') =>
      (.error e, if e.rolls_back then { w' with users := w.users, captchas := w.captchas } else w')

/-- A request to one of the endpoints that need no login, with what is drawn for it. -/
inductive Request where
  /-- `temp-token`, for the client `ident` -/
  | temp_token (ident rand : String)
  | captcha (hashkey response : String)
  | send_verify_code (req : SendVerifyCodeRequest) (draw : Draw)
  | reset_password (req : ResetPasswordRequest)

def Request.handler (env : Env) : Request → Handler Reply
  | .temp_token ident rand => .token <$> make_token_cache ident rand
  | .captcha hashkey response => (fun r => .captcha r.1 r.2) <$> CaptchaAuth.generate hashkey response
  | .send_verify_code req draw => Auth.send_verify_code env req draw
  | .reset_password req => Auth.reset_password env req

/-- One thing that happens: a request with its response, or something timing out. -/
inductive Label where
  | request (q : Request) (r : Reply)
  | cache_timeout (key : String)
  | captcha_timeout (hashkey : String)

inductive Step (env : Env) : World → Label → World → Prop where
  | request {w w' : World} {r : Reply} (q : Request) (h : serve (q.handler env) w = (r, w')) :
      Step env w (.request q r) w'
  | cache_timeout (w : World) (key : String) :
      Step env w (.cache_timeout key) { w with cache := w.cache.delete key }
  | captcha_timeout (w : World) (hashkey : String) :
      Step env w (.captcha_timeout hashkey)
        { w with captchas := w.captchas.filter fun c => c.hashkey ≠ hashkey }

/-! ### A small installation -/

/-- The default settings with mail switched on, and the captcha, the temporary token and the
encryption switched off for logins, resets and mail bindings. -/
def sampleEnv : Env where
  settings :=
    { SECURITY_LOGIN_CAPTCHA_ENABLED := false
      SECURITY_LOGIN_ENCRYPTED_ENABLED := false
      SECURITY_LOGIN_TEMP_TOKEN_ENABLED := false
      SECURITY_RESET_PASSWORD_CAPTCHA_ENABLED := false
      SECURITY_RESET_PASSWORD_ENCRYPTED_ENABLED := false
      SECURITY_RESET_PASSWORD_TEMP_TOKEN_ENABLED := false
      SECURITY_BIND_EMAIL_CAPTCHA_ENABLED := false
      SECURITY_BIND_EMAIL_ENCRYPTED_ENABLED := false
      SECURITY_BIND_EMAIL_TEMP_TOKEN_ENABLED := false
      EMAIL_ENABLED := true }
  aesDecrypt _ _ := none
  check_password_rules _ _ := true
  make_password password := "pbkdf2$" ++ password
  ip_in_white_list _ := false
  ip_in_black_list _ := false
  get_file_absolute_uri uri := uri
  ttl _ := "60"
  isoformat := "2025-01-01T00:00:00"

def sampleAdmin : User where
  id := 1
  username := "admin"
  nickname := "Admin"
  avatar := ""
  phone := "13800000000"
  email := "admin@example.com"
  password := "pbkdf2$secret"
  is_active := true
  is_superuser := true
  modifier := none

/-- `sampleAdmin` with the password of `sampleReset`. -/
def sampleOwned : User := sampleAdmin.set_password "pbkdf2$owned"

/-- One user, nothing cached, nothing sent. -/
def sampleWorld : World where
  cache := Store.empty
  users := ⟨[sampleAdmin], by decide, by decide⟩
  captchas := []
  outbox := []

/-- `send-verify-code` for `target`, answered with the code `123456` and the token `T`. -/
def sampleSend (category : Category) (form_type : QueryKey) (target : String) : Request :=
  .send_verify_code
    { ip := "10.0.0.1", ident := "c", category := some category, form_type := some form_type, target }
    { code := .ok "123456", verify_token := "T" }

/-- `reset-password` with the token `T` and the code `123456`. -/
def sampleReset : ResetPasswordRequest where
  ip := "10.0.0.1"
  verify_token := some "T"
  verify_code := some "123456"
  password := some "owned"

end InfraHub.Auth
