import InfraHub.Auth.World

/-!
# Auth — Helpers

The helpers of `settings/utils/security.py`, `common/utils/verify_code.py`,
`common/utils/token.py` and `system/utils/auth.py`, as programs over the world.
-/

namespace InfraHub.Auth
open InfraHub.Lib
open InfraHub.Lib.Prog (raise orRaise attempt update read)

/-! ### `settings/utils/security.py` -/

/-- A subclass of `BlockUtilBase`: the fixed parts of its two keys. -/
structure BlockUtil where
  LIMIT_KEY_TMPL : String
  BLOCK_KEY_TMPL : String

def LoginBlockUtil : BlockUtil := ⟨"_LOGIN_LIMIT_", "_LOGIN_BLOCK_"⟩
def ResetBlockUtil : BlockUtil := ⟨"_RESET_LIMIT_", "_RESET_BLOCK_"⟩
def RegisterBlockUtil : BlockUtil := ⟨"_REGISTER_LIMIT_", "_REGISTER_BLOCK_"⟩
def SendVerifyCodeBlockUtil : BlockUtil :=
  ⟨"_SEND_VERIFY_CODE_LIMIT_", "_SEND_VERIFY_CODE_BLOCK_"⟩

namespace BlockUtil

def limit_key (b : BlockUtil) (username ip : String) : String :=
  b.LIMIT_KEY_TMPL ++ (username ++ "_" ++ ip)

def block_key (b : BlockUtil) (username : String) : String := b.BLOCK_KEY_TMPL ++ username

def is_block (b : BlockUtil) (username : String) : Handler Bool := do
  return truthy (← cacheGet (b.block_key username))

def get_failed_count (b : BlockUtil) (username ip : String) : Handler Nat := do
  orRaise (.python "TypeError") (asInt (← cacheGet (b.limit_key username ip)))

def incr_failed_count (env : Env) (b : BlockUtil) (username ip : String) : Handler Unit := do
  let count ← orRaise (.python "TypeError") (asInt (← cacheGet (b.limit_key username ip)))
  cacheSet (b.limit_key username ip) (.count (count + 1))
  if env.settings.SECURITY_LOGIN_LIMIT_COUNT ≤ count + 1 then
    cacheSet (b.block_key username) .flag
  else pure ()

/-- `int(times_up) - int(times_failed)`. -/
def get_remainder_times (env : Env) (b : BlockUtil) (username ip : String) : Handler Int := do
  let times_failed ← b.get_failed_count username ip
  return (env.settings.SECURITY_LOGIN_LIMIT_COUNT : Int) - times_failed

end BlockUtil

namespace LoginIpBlockUtil

def limit_key (ip : String) : String := "_LOGIN_LIMIT_" ++ ip
def block_key (ip : String) : String := "_LOGIN_BLOCK_IP_" ++ ip

theorem limit_key_eq (ip : String) : limit_key ip = "_LOGIN_LIMIT_" ++ ip := rfl

theorem block_key_eq (ip : String) : block_key ip = "_LOGIN_BLOCK_IP_" ++ ip := rfl

def set_block_if_need (env : Env) (ip : String) : Handler Unit := do
  if env.ip_in_white_list ip || env.ip_in_black_list ip then pure () else do
    let count ← orRaise (.python "TypeError") (asInt (← cacheGet (limit_key ip)))
    cacheSet (limit_key ip) (.count (count + 1))
    if count + 1 < env.settings.SECURITY_LOGIN_IP_LIMIT_COUNT then pure () else
      cacheSet (block_key ip) (.str env.isoformat)

def is_block (env : Env) (ip : String) : Handler Bool := do
  if env.ip_in_white_list ip then return false
  else if env.ip_in_black_list ip then return true
  else return truthy (← cacheGet (block_key ip))

end LoginIpBlockUtil

/-! ### `common/utils/token.py` -/

/-- `TokenManagerCache("", key).cache_key`. -/
def makeTokenKey (ident : String) : String := "make_token__" ++ ident

/-- `make_token_cache(ident, time_limit=600, force_new=True)`; `rand` is the hexadecimal text of
the two `uuid`s. -/
def make_token_cache (ident rand : String) : Handler String := do
  let token := "tmp_token_" ++ rand
  cacheSet (makeTokenKey ident) (.tmpToken ident)
  cacheSet token (.tmpToken ident)
  cacheSet (makeTokenKey ident) (.str token)
  return token

/-- The cache is read at `token` itself, whatever entry that is. -/
def verify_token_cache (token key : String) (success_once : Bool) : Handler Bool := do
  match ← cacheGet token with
  | some (.tmpToken data) =>
      if key = data then do
        (if success_once then cacheDelete token else pure ())
        return true
      else return false
  -- a string, a number or `True` has no `get`: the `except` branch returns `False`; the
  -- `data` of a verify token is a dictionary, never equal to a string
  | _ => return false

/-! ### `common/utils/verify_code.py` -/

namespace SendAndVerifyCodeUtil

def key (target : String) : String := "auth_verify_code_" ++ target
def limit_key (target : String) : String := "auth_verify_code_send_at_" ++ target

/-- `__clear`. -/
def clear (target : String) : Handler Unit := do
  cacheDelete (key target)
  cacheDelete (limit_key target)

/-- `__send`; `queued` is whether the message queue takes the message. -/
def send (target code : String) (backend : Backend) (dryrun queued : Bool) : Handler Unit := do
  if dryrun then pure ()
  else if queued then update fun w => { w with outbox := w.outbox ++ [⟨backend, target, code⟩] }
  else raise (.python "OperationalError")
  cacheSet (key target) (.str code)
  cacheSet (limit_key target) (.str code)

/-- `gen_and_send`, with a code given. -/
def gen_and_send (target code : String) (backend : Backend) (dryrun queued : Bool) :
    Handler Unit :=
  attempt (send target code backend dryrun queued) fun e => do
    clear target
    raise e

/-- `gen_and_send_async`. -/
def gen_and_send_async (env : Env) (target code : String) (backend : Backend)
    (dryrun queued : Bool) : Handler Unit := do
  let token_send_at ← cacheGet (limit_key target)
  if truthy token_send_at then
    raise (.api ("Please wait " ++ env.ttl (limit_key target) ++ " seconds before sending"))
  else gen_and_send target code backend dryrun queued

def verify (target code : String) : Handler Unit := do
  let right ← cacheGet (key target)
  if !truthy right then raise (.api "The verification code has expired. Please resend it")
  else if right ≠ some (.str code) then raise (.api "The verification code is incorrect")
  else clear target

end SendAndVerifyCodeUtil

namespace TokenTempCache

def key (token : String) : String := "_KEY_TOKEN_TEMP_CACHE_" ++ token

/-- `generate_cache_token`, the `random_string(50)` it draws given as `token`. -/
def generate_cache_token (token : String) (data : TokenData) : Handler String := do
  cacheSet (key token) (.tokenTemp data)
  return token

/-- `validate_cache_token`: only `generate_cache_token` writes under these keys, so an entry that
is not its dictionary is an entry that is not there. -/
def validate_cache_token (token : String) : Handler (Option TokenData) := do
  match ← cacheGet (key token) with
  | some (.tokenTemp data) => return some data
  | _ => return none

def expired_cache_token (token : String) : Handler Unit := cacheDelete (key token)

end TokenTempCache

/-! ### `captcha/utils.py` -/

/-- `s.strip(" ")`. -/
def stripSpaces (s : String) : String :=
  String.ofList (((s.toList.dropWhile (· = ' ')).reverse.dropWhile (· = ' ')).reverse)

namespace CaptchaAuth

/-- `generate`: a new captcha with the key and the response drawn for it. -/
def generate (hashkey response : String) : Handler (String × Nat) := do
  update fun w => { w with captchas := w.captchas ++ [⟨hashkey, response.map Char.toLower⟩] }
  return (hashkey, response.length)

/-- `valid`: the captcha with this key and response, deleted. -/
def valid (captcha_key : String) (verify_code : Option String) : Handler Bool := do
  match verify_code with
  | none => raise (.python "AttributeError")
  | some code => do
      let obj : CaptchaStore := ⟨captcha_key, (stripSpaces code).map Char.toLower⟩
      let found ← read fun w => w.captchas.contains obj
      if found then do
        update fun w => { w with captchas := w.captchas.filter (· ≠ obj) }
        return true
      else return false

end CaptchaAuth

/-! ### `system/utils/auth.py` -/

/-- A text of a form that may be missing, as a condition. -/
def given (s : Option String) : Bool := s.any (· ≠ "")

def check_captcha (need : Bool) (captcha_key captcha_code : Option String) : Handler Unit := do
  if !need then pure () else
    match captcha_key with
    | some k => do
        if k = "" then raise (.api "Captcha validation failed. Please try again")
        else if ← CaptchaAuth.valid k captcha_code then pure ()
        else raise (.api "Captcha validation failed. Please try again")
    | none => raise (.api "Captcha validation failed. Please try again")

def check_tmp_token (need : Bool) (token : Option String) (client_id : String) : Handler Unit := do
  if !need then pure () else
    match token with
    | some t => do
        if client_id = "" ∨ t = "" then
          raise (.api "Temporary Token validation failed. Please try again")
        else if ← verify_token_cache t client_id true then pure ()
        else raise (.api "Temporary Token validation failed. Please try again")
    | none => raise (.api "Temporary Token validation failed. Please try again")

def check_is_block (env : Env) (username ipaddr : String) (login_block : BlockUtil) :
    Handler Unit := do
  if ← LoginIpBlockUtil.is_block env ipaddr then do
    LoginIpBlockUtil.set_block_if_need env ipaddr
    raise (.api ("The address has been locked (please contact admin to unlock it or try again after "
      ++ toString env.settings.SECURITY_LOGIN_IP_LIMIT_TIME ++ " minutes)"))
  else if ← login_block.is_block username then
    raise (.api ("The account has been locked (please contact admin to unlock it or try again after "
      ++ toString env.settings.SECURITY_LOGIN_LIMIT_TIME ++ " minutes)"))
  else pure ()

/-- The part of a request `verify_sms_email_code` reads. -/
structure VerifyRequest where
  /-- `get_request_ip(request)` -/
  ip : String
  verify_token : Option String
  verify_code : Option String
  /-- what `save_login_log` raises, a header of the request missing -/
  login_log : Option Fault := none

/-- The text of an exception, `str(e)`. -/
def Fault.text : Fault → String
  | .api detail => detail
  | .integrity => "IntegrityError"
  | .python name => name

/-- `save_login_log`.  No endpoint here reads a login record, so only what it raises is kept. -/
def save_login_log (req : VerifyRequest) : Handler Unit :=
  match req.login_log with
  | some e => raise e
  | none => pure ()

/-- The `except` branch of `verify_sms_email_code`. -/
def code_refused (env : Env) (req : VerifyRequest) (target : String) (b : BlockUtil) (e : Fault) :
    Handler Unit := do
  let ipaddr := req.ip
  b.incr_failed_count env target ipaddr
  LoginIpBlockUtil.set_block_if_need env ipaddr
  save_login_log req
  let times_remainder ← b.get_remainder_times env target ipaddr
  let block_time := toString env.settings.SECURITY_LOGIN_LIMIT_TIME
  if 0 < times_remainder then
    raise (.api (e.text ++ " please enter it again. You can also try " ++ toString times_remainder
      ++ " times (The account will be temporarily locked for " ++ block_time ++ " minutes)"))
  else
    raise (.api ("The account has been locked (please contact admin to unlock it or try again after "
      ++ block_time ++ " minutes)"))

def verify_sms_email_code (env : Env) (req : VerifyRequest) (block_utils : BlockUtil) :
    Handler (QueryKey × String × String) := do
  if !given req.verify_token || !given req.verify_code then
    raise (.api "Operation failed. Abnormal data")
  else do
    let verify_token := req.verify_token.getD ""
    let verify_code := req.verify_code.getD ""
    match ← TokenTempCache.validate_cache_token verify_token with
    | none => do
        LoginIpBlockUtil.set_block_if_need env req.ip
        raise (.api "Token is invalid or expired")
    | some data => do
        check_is_block env data.target req.ip block_utils
        attempt (SendAndVerifyCodeUtil.verify data.target verify_code)
          (code_refused env req data.target block_utils)
        return (data.query_key, data.target, verify_token)

end InfraHub.Auth
