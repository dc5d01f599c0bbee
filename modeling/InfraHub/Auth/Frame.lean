import InfraHub.Auth.Endpoints

/-!
# Auth — Frame

What the endpoints leave alone.  The cache entries that matter to a password are the codes
(`SendAndVerifyCodeUtil.key`) and the verify tokens (`TokenTempCache.key`); a helper is *quiet*
when on those it only deletes, and it neither writes the user table nor sends anything.

* Every helper but the end of `send-verify-code` and the saves of `reset-password` and `bind` is
  quiet (`Quiet`).
* `send_verify_code_cases`, `reset_password_cases`: a request to either endpoint is quiet, or it
  does the one thing it is for.
* `verify_sms_email_code_ok`: what was in the cache when a code is accepted.
-/

namespace InfraHub.Auth
open InfraHub.Lib
open InfraHub.Lib.Prog (exec exec_bind_ok Keeps)

/-! ### The keys -/

/-- The key of a code or of a verify token. -/
def Sensitive (k : String) : Prop :=
  (∃ target, k = SendAndVerifyCodeUtil.key target) ∨ ∃ token, k = TokenTempCache.key token

/-- A fixed part none of whose keys is sensitive. -/
def Apart (p : String) : Prop := ∀ s, ¬ Sensitive (p ++ s)

theorem apart_of_disagree {p : String}
    (h : ¬ p.toList <+: "auth_verify_code_".toList ∧ ¬ "auth_verify_code_".toList <+: p.toList ∧
      ¬ p.toList <+: "_KEY_TOKEN_TEMP_CACHE_".toList ∧
      ¬ "_KEY_TOKEN_TEMP_CACHE_".toList <+: p.toList) : Apart p := by
  rintro s (⟨target, e⟩ | ⟨token, e⟩)
  · exact append_ne_append h.1 h.2.1 s target e
  · exact append_ne_append h.2.2.1 h.2.2.2 s token e

/-- A `BlockUtil` whose keys are not sensitive. -/
structure BlockUtil.Apart (b : BlockUtil) : Prop where
  limit : Auth.Apart b.LIMIT_KEY_TMPL
  block : Auth.Apart b.BLOCK_KEY_TMPL

theorem ResetBlockUtil_apart : ResetBlockUtil.Apart :=
  ⟨apart_of_disagree (by decide), apart_of_disagree (by decide)⟩

theorem SendVerifyCodeBlockUtil_apart : SendVerifyCodeBlockUtil.Apart :=
  ⟨apart_of_disagree (by decide), apart_of_disagree (by decide)⟩

theorem login_limit_apart : Apart "_LOGIN_LIMIT_" := apart_of_disagree (by decide)

theorem login_block_ip_apart : Apart "_LOGIN_BLOCK_IP_" := apart_of_disagree (by decide)

theorem make_token_apart : Apart "make_token__" := apart_of_disagree (by decide)

theorem tmp_token_apart : Apart "tmp_token_" := apart_of_disagree (by decide)

@[simp] theorem key_inj {s t : String} :
    SendAndVerifyCodeUtil.key s = SendAndVerifyCodeUtil.key t ↔ s = t :=
  String.append_right_inj _

@[simp] theorem token_key_inj {s t : String} :
    TokenTempCache.key s = TokenTempCache.key t ↔ s = t :=
  String.append_right_inj _

/-- The rate key of a target is the code key of another one. -/
theorem limit_key_eq_key (target : String) :
    SendAndVerifyCodeUtil.limit_key target = SendAndVerifyCodeUtil.key ("send_at_" ++ target) := by
  unfold SendAndVerifyCodeUtil.limit_key SendAndVerifyCodeUtil.key
  rw [← String.append_assoc]
  congr 1

theorem key_ne_token_key (target token : String) :
    SendAndVerifyCodeUtil.key target ≠ TokenTempCache.key token :=
  append_ne_append (by decide) (by decide) target token

/-! ### Quiet helpers -/

/-- On the sensitive keys nothing but deletions; users and messages as before. -/
structure Quiet (w w' : World) : Prop where
  users : w'.users = w.users
  outbox : w'.outbox = w.outbox
  cache : Store.Shrinks Sensitive w.cache w'.cache

instance : IsPreorder World Quiet where
  refl _ := ⟨rfl, rfl, .refl _⟩
  trans _ _ _ h h' :=
    ⟨h'.users.trans h.users, h'.outbox.trans h.outbox, h.cache.trans h'.cache⟩

variable {α : Type} {env : Env}

theorem cacheGet_quiet (k : String) : Keeps Quiet (cacheGet k) := Keeps.read _

theorem cacheSet_quiet {k : String} (v : CacheValue) (hk : ¬ Sensitive k) :
    Keeps Quiet (cacheSet k v) :=
  Keeps.update fun _ => ⟨rfl, rfl, .set v hk⟩

theorem cacheDelete_quiet (k : String) : Keeps Quiet (cacheDelete k) :=
  Keeps.update fun _ => ⟨rfl, rfl, .delete k⟩

theorem is_block_quiet (b : BlockUtil) (username : String) : Keeps Quiet (b.is_block username) :=
  (cacheGet_quiet _).bind fun _ => Keeps.ret _

theorem get_remainder_times_quiet (b : BlockUtil) (username ip : String) :
    Keeps Quiet (b.get_remainder_times env username ip) :=
  Keeps.bind ((cacheGet_quiet _).bind fun _ => Keeps.orRaise _ _) fun _ => Keeps.ret _

theorem incr_failed_count_quiet {b : BlockUtil} (hb : b.Apart) (username ip : String) :
    Keeps Quiet (b.incr_failed_count env username ip) :=
  (cacheGet_quiet _).bind fun _ => (Keeps.orRaise _ _).bind fun _ =>
    (cacheSet_quiet _ (hb.limit _)).bind fun _ =>
      Keeps.ite (cacheSet_quiet _ (hb.block _)) (Keeps.ret _)

theorem set_block_if_need_quiet (ip : String) :
    Keeps Quiet (LoginIpBlockUtil.set_block_if_need env ip) :=
  Keeps.ite (Keeps.ret _) <| (cacheGet_quiet _).bind fun _ => (Keeps.orRaise _ _).bind fun _ =>
    (cacheSet_quiet _ (login_limit_apart ip)).bind fun _ =>
      Keeps.ite (Keeps.ret _) (cacheSet_quiet _ (login_block_ip_apart ip))

theorem ip_is_block_quiet (ip : String) : Keeps Quiet (LoginIpBlockUtil.is_block env ip) :=
  Keeps.ite (Keeps.ret _) <| Keeps.ite (Keeps.ret _) <|
    (cacheGet_quiet _).bind fun _ => Keeps.ret _

theorem check_is_block_quiet (username ip : String) (b : BlockUtil) :
    Keeps Quiet (check_is_block env username ip b) :=
  (ip_is_block_quiet ip).bind fun _ => Keeps.ite
    ((set_block_if_need_quiet ip).bind fun _ => Keeps.raise _)
    ((is_block_quiet b username).bind fun _ => Keeps.ite (Keeps.raise _) (Keeps.ret _))

theorem make_token_cache_quiet (ident rand : String) : Keeps Quiet (make_token_cache ident rand) :=
  (cacheSet_quiet _ (make_token_apart ident)).bind fun _ =>
    (cacheSet_quiet _ (tmp_token_apart rand)).bind fun _ =>
      (cacheSet_quiet _ (make_token_apart ident)).bind fun _ => Keeps.ret _

theorem verify_token_cache_quiet (token key : String) (once : Bool) :
    Keeps Quiet (verify_token_cache token key once) := by
  refine (cacheGet_quiet _).bind fun v => ?_
  rcases v with _ | (_ | _ | _ | _ | data) <;> try exact Keeps.ret _
  exact Keeps.ite ((Keeps.ite (cacheDelete_quiet _) (Keeps.ret _)).bind fun _ => Keeps.ret _)
    (Keeps.ret _)

theorem generate_quiet (hashkey response : String) :
    Keeps Quiet (CaptchaAuth.generate hashkey response) :=
  (Keeps.update fun _ => ⟨rfl, rfl, .refl _⟩).bind fun _ => Keeps.ret _

theorem valid_quiet (captcha_key : String) (verify_code : Option String) :
    Keeps Quiet (CaptchaAuth.valid captcha_key verify_code) := by
  cases verify_code with
  | none => exact Keeps.raise _
  | some code =>
      exact (Keeps.read _).bind fun _ => Keeps.ite
        ((Keeps.update fun _ => ⟨rfl, rfl, .refl _⟩).bind fun _ => Keeps.ret _) (Keeps.ret _)

theorem check_captcha_quiet (need : Bool) (captcha_key captcha_code : Option String) :
    Keeps Quiet (check_captcha need captcha_key captcha_code) := by
  refine Keeps.ite (Keeps.ret _) ?_
  cases captcha_key with
  | none => exact Keeps.raise _
  | some k =>
      exact Keeps.ite (Keeps.raise _) <| (valid_quiet k captcha_code).bind fun _ =>
        Keeps.ite (Keeps.ret _) (Keeps.raise _)

theorem check_tmp_token_quiet (need : Bool) (token : Option String) (client_id : String) :
    Keeps Quiet (check_tmp_token need token client_id) := by
  refine Keeps.ite (Keeps.ret _) ?_
  cases token with
  | none => exact Keeps.raise _
  | some t =>
      exact Keeps.ite (Keeps.raise _) <| (verify_token_cache_quiet t client_id true).bind fun _ =>
        Keeps.ite (Keeps.ret _) (Keeps.raise _)

theorem clear_quiet (target : String) : Keeps Quiet (SendAndVerifyCodeUtil.clear target) :=
  (cacheDelete_quiet _).bind fun _ => cacheDelete_quiet _

theorem verify_quiet (target code : String) :
    Keeps Quiet (SendAndVerifyCodeUtil.verify target code) :=
  (cacheGet_quiet _).bind fun _ => Keeps.ite (Keeps.raise _) <|
    Keeps.ite (Keeps.raise _) (clear_quiet target)

theorem save_login_log_quiet (req : VerifyRequest) : Keeps Quiet (save_login_log req) := by
  unfold save_login_log
  cases req.login_log with
  | none => exact Keeps.ret _
  | some e => exact Keeps.raise _

theorem code_refused_quiet {b : BlockUtil} (hb : b.Apart) (req : VerifyRequest) (target : String)
    (e : Fault) : Keeps Quiet (code_refused env req target b e) := by
  exact (incr_failed_count_quiet hb _ _).bind fun _ => (set_block_if_need_quiet _).bind fun _ =>
    (save_login_log_quiet req).bind fun _ => (get_remainder_times_quiet _ _ _).bind fun _ =>
      Keeps.ite (Keeps.raise _) (Keeps.raise _)

theorem validate_cache_token_quiet (token : String) :
    Keeps Quiet (TokenTempCache.validate_cache_token token) := by
  refine (cacheGet_quiet _).bind fun v => ?_
  rcases v with _ | (_ | _ | _ | _ | _) <;> exact Keeps.ret _

theorem verify_sms_email_code_quiet {b : BlockUtil} (hb : b.Apart) (req : VerifyRequest) :
    Keeps Quiet (verify_sms_email_code env req b) := by
  refine Keeps.ite (Keeps.raise _) <| (validate_cache_token_quiet _).bind fun data => ?_
  cases data with
  | none => exact (set_block_if_need_quiet _).bind fun _ => Keeps.raise _
  | some data =>
      exact (check_is_block_quiet _ _ _).bind fun _ =>
        (Keeps.attempt (verify_quiet _ _) fun e => code_refused_quiet hb _ _ e).bind fun _ =>
          Keeps.ret _

theorem check_config_quiet (category : Category) (form_type : Backend) (query_key : QueryKey)
    (target : String) (extra : Extra) :
    Keeps Quiet (check_config env category form_type query_key target extra) := by
  have register : Keeps Quiet (check_register_config form_type query_key target extra) :=
    (Keeps.read _).bind fun _ => Keeps.ite (Keeps.ret _) (Keeps.raise _)
  have reset : Keeps Quiet (check_reset_config form_type query_key target extra) := by
    refine (Keeps.read _).bind fun users => ?_
    cases ((users.filter (·.is_active)).filter fun u => u.field query_key = target).head? with
    | none => exact Keeps.raise _
    | some _ => exact Keeps.ret _
  have bind_email : Keeps Quiet (check_bind_email_config env query_key target extra) := by
    refine (Keeps.read _).bind fun users => ?_
    cases (usersWith query_key target users).head? with
    | none => exact Keeps.ret _
    | some _ => exact Keeps.ret _
  cases category with
  | register => exact register
  | reset | login => exact reset
  | bind_email | bind_phone => exact bind_email

/-! ### `verify_sms_email_code` -/

/-- A code that `verify` accepts is the one in the cache. -/
theorem verify_ok {target code : String} {w w' : World} {a : Unit}
    (h : exec (SendAndVerifyCodeUtil.verify target code) w = (.ok a, w')) :
    w.cache.get (SendAndVerifyCodeUtil.key target) = some (.str code) := by
  unfold SendAndVerifyCodeUtil.verify cacheGet at h
  rw [Prog.exec_read_bind, Prog.exec_guard_ok, Prog.exec_guard_ok] at h
  exact not_not.mp h.2.1

theorem code_refused_error {req : VerifyRequest} {target : String} {b : BlockUtil} {e : Fault}
    {w w' : World} {a : Unit} : exec (code_refused env req target b e) w ≠ (.ok a, w') := by
  intro h
  unfold code_refused at h
  obtain ⟨_, _, -, h⟩ := exec_bind_ok.mp h
  obtain ⟨_, _, -, h⟩ := exec_bind_ok.mp h
  obtain ⟨_, _, -, h⟩ := exec_bind_ok.mp h
  obtain ⟨times_remainder, _, -, h⟩ := exec_bind_ok.mp h
  split at h <;> cases h

theorem validate_cache_token_ok {token : String} {data : TokenData} {w w' : World}
    (h : exec (TokenTempCache.validate_cache_token token) w = (.ok (some data), w')) :
    w.cache.get (TokenTempCache.key token) = some (.tokenTemp data) := by
  unfold TokenTempCache.validate_cache_token cacheGet at h
  rw [Prog.exec_read_bind] at h
  split at h
  · cases h; assumption
  · cases h

/-- **What an accepted code proves.**  The presented token's entry names the field and the target,
and the presented code is the cached one for that target. -/
theorem verify_sms_email_code_ok {req : VerifyRequest} {b : BlockUtil} {w w' : World}
    {k : QueryKey} {target token : String} (hb : b.Apart)
    (h : exec (verify_sms_email_code env req b) w = (.ok (k, target, token), w')) :
    Quiet w w' ∧ req.verify_token = some token ∧ ∃ data code,
      w.cache.get (TokenTempCache.key token) = some (.tokenTemp data) ∧
      data.query_key = k ∧ data.target = target ∧ req.verify_code = some code ∧
      w.cache.get (SendAndVerifyCodeUtil.key target) = some (.str code) := by
  refine ⟨(verify_sms_email_code_quiet hb req).of_exec h, ?_⟩
  unfold verify_sms_email_code at h
  obtain ⟨hgiven, h⟩ := Prog.exec_guard_ok.mp h
  obtain ⟨data, w₁, h₁, h⟩ := exec_bind_ok.mp h
  have q₁ := (validate_cache_token_quiet _).of_exec h₁
  cases data with
  | none =>
      obtain ⟨_, _, -, h⟩ := exec_bind_ok.mp h
      cases h
  | some data =>
      obtain ⟨_, w₂, h₂, h⟩ := exec_bind_ok.mp h
      have q₂ := (check_is_block_quiet _ _ _).of_exec h₂
      obtain ⟨_, w₃, h₃, h⟩ := exec_bind_ok.mp h
      cases h
      -- the code was accepted, not refused
      have hv : ∃ t, exec (SendAndVerifyCodeUtil.verify data.target (req.verify_code.getD "")) w₂ =
          (.ok (), t) := by
        rw [Prog.exec_attempt] at h₃
        split at h₃
        · exact ⟨_, ‹_›⟩
        · exact absurd h₃ code_refused_error
      obtain ⟨t, hv⟩ := hv
      have hc := q₁.cache.get_some (.inl ⟨_, rfl⟩) (q₂.cache.get_some (.inl ⟨_, rfl⟩) (verify_ok hv))
      obtain ⟨vt, vc⟩ : (∃ s, req.verify_token = some s) ∧ ∃ s, req.verify_code = some s := by
        cases ht : req.verify_token <;> cases hc : req.verify_code <;>
          simp [ht, hc, given] at hgiven ⊢
      obtain ⟨vt, ht⟩ := vt
      obtain ⟨vc, hvc⟩ := vc
      rw [ht] at h₁ ⊢
      rw [hvc] at hc ⊢
      exact ⟨rfl, data, vc, validate_cache_token_ok h₁, rfl, rfl, rfl, hc⟩

/-! ### `send-verify-code` -/

/-- The request passes the switches of its category: for the form type `k` it would send a code to
`target`. -/
structure SendVerifyCodeRequest.Accepted (env : Env) (req : SendVerifyCodeRequest) (c : Category)
    (k : QueryKey) (target : String) : Prop where
  category : req.category = some c
  form_type : req.form_type = some k
  access : (get_config env.settings c).access = true
  offered : k ∈ (get_config env.settings c).form_types
  target : req.plain_target env (get_config env.settings c) = some target

/-- The world once a code is sent to `target` and a token minted for it. -/
def World.minted (w : World) (k : QueryKey) (target code token : String) (extra : Extra) : World :=
  { w with
    outbox := if k = .username then w.outbox else w.outbox ++ [⟨k.backend, target, code⟩]
    cache := ((w.cache.set (SendAndVerifyCodeUtil.key target) (.str code)).set
        (SendAndVerifyCodeUtil.limit_key target) (.str code)).set
      (TokenTempCache.key token) (.tokenTemp ⟨target, k.backend, k, extra⟩) }

theorem QueryKey.backend_username {k : QueryKey} : k.backend = .username ↔ k = .username := by
  cases k <;> simp [QueryKey.backend]

/-- `gen_and_send` raises, and then it is quiet, or the code is sent and cached. -/
theorem gen_and_send_cases (target code : String) (k : QueryKey) (queued : Bool) (w : World) :
    (∃ e w', Quiet w w' ∧
      exec (SendAndVerifyCodeUtil.gen_and_send target code k.backend
        (decide (k.backend = .username)) queued) w = (.error e, w')) ∨
    exec (SendAndVerifyCodeUtil.gen_and_send target code k.backend
        (decide (k.backend = .username)) queued) w =
      (.ok (), { w with
        outbox := if k = .username then w.outbox else w.outbox ++ [⟨k.backend, target, code⟩]
        cache := (w.cache.set (SendAndVerifyCodeUtil.key target) (.str code)).set
          (SendAndVerifyCodeUtil.limit_key target) (.str code) }) := by
  by_cases hk : k = .username
  · right
    subst hk
    rfl
  · have hb : k.backend ≠ .username := fun h => hk (QueryKey.backend_username.mp h)
    cases queued with
    | true =>
        right
        simp only [hk, hb, decide_false, if_false]
        rfl
    | false =>
        left
        simp only [hb, decide_false]
        exact ⟨_, _, (clear_quiet target).of_exec rfl, rfl⟩

/-- What a request to `send-verify-code` may come to in `w`: it is quiet and its response carries
no token, or it is accepted, sends a code and mints a token. -/
def SendOutcome (env : Env) (req : SendVerifyCodeRequest) (draw : Draw) (w : World)
    (p : Except Fault Reply × World) : Prop :=
  (Quiet w p.2 ∧ ∀ r, p.1 = .ok r → r.verify_token = none) ∨
    ∃ c k target code extra w₁, req.Accepted env c k target ∧ Quiet w w₁ ∧
      p = (.ok (.verify draw.verify_token extra (if k = .username then some code else none)),
        w₁.minted k target code draw.verify_token extra)

namespace SendOutcome

variable {req : SendVerifyCodeRequest} {draw : Draw} {w w₁ : World}

theorem ret {r : Reply} (h : r.verify_token = none) (w : World) :
    SendOutcome env req draw w (.ok r, w) :=
  .inl ⟨refl_of Quiet w, by rintro _ ⟨⟩; exact h⟩

theorem raised (e : Fault) (w : World) : SendOutcome env req draw w (.error e, w) :=
  .inl ⟨refl_of Quiet w, by rintro _ ⟨⟩⟩

theorem after {p : Except Fault Reply × World} (q : Quiet w w₁)
    (h : SendOutcome env req draw w₁ p) : SendOutcome env req draw w p := by
  rcases h with ⟨q', h⟩ | ⟨c, k, target, code, extra, w₂, ha, q', h⟩
  · exact .inl ⟨trans_of Quiet q q', h⟩
  · exact .inr ⟨c, k, target, code, extra, w₂, ha, trans_of Quiet q q', h⟩

theorem bind {m : Handler α} {f : α → Handler Reply} (hm : Keeps Quiet m)
    (hf : ∀ a w, SendOutcome env req draw w (exec (f a) w)) (w : World) :
    SendOutcome env req draw w (exec (m >>= f) w) :=
  Keeps.bind_outcome (C := SendOutcome env req draw) after hm raised hf w

theorem of_mint {c : Category} {k : QueryKey} {target : String} (ha : req.Accepted env c k target)
    (extra : Extra) (w : World) :
    SendOutcome env req draw w (exec (send_and_mint env draw target k extra) w) := by
  unfold send_and_mint
  cases hd : draw.code with
  | error detail => exact ret rfl w
  | ok code =>
      simp only [SendAndVerifyCodeUtil.gen_and_send_async, cacheGet, Prog.exec_bind, Prog.exec_read]
      by_cases hlimit : truthy (w.cache.get (SendAndVerifyCodeUtil.limit_key target)) = true
      · -- a code was sent too recently
        rw [if_pos hlimit]
        exact raised _ w
      · rw [if_neg hlimit]
        rcases gen_and_send_cases target code k draw.queued w with ⟨e, w₁, q, he⟩ | he
        · rw [he]
          exact (raised e w₁).after q
        · rw [he]
          refine .inr ⟨c, k, target, code, extra, w, ha, refl_of Quiet w, ?_⟩
          simp only [decide_eq_true_eq, QueryKey.backend_username]
          rfl

theorem of_target {c : Category} {k : QueryKey} {target : String}
    (ha : req.Accepted env c k target) (w : World) :
    SendOutcome env req draw w (exec (send_to_target env req draw c k target) w) := by
  refine bind (check_is_block_quiet _ _ _) (fun _ w => ?_) w
  refine bind (incr_failed_count_quiet SendVerifyCodeBlockUtil_apart _ _) (fun _ w => ?_) w
  refine bind (Keeps.attempt
    ((check_config_quiet c k.backend k target req.extra).bind fun r => Keeps.ret (Except.ok r))
    fun e => (set_block_if_need_quiet req.ip).bind fun _ => Keeps.ret (Except.error e.text))
    (fun checked w => ?_) w
  rcases checked with detail | ⟨_, extra⟩
  · exact ret rfl w
  · exact of_mint ha extra w

end SendOutcome

/-- **`send-verify-code`, case by case.** -/
theorem send_verify_code_outcome (env : Env) (req : SendVerifyCodeRequest) (draw : Draw)
    (w : World) : SendOutcome env req draw w (exec (send_verify_code env req draw) w) := by
  unfold send_verify_code
  cases hc : req.category with
  | none => exact .raised _ w
  | some c =>
      by_cases ha : (get_config env.settings c).access = true
      swap
      · simp only [ha, Bool.not_false, if_true]
        exact .ret rfl w
      simp only [ha, Bool.not_true, Bool.false_eq_true, if_false]
      cases hk : req.form_type with
      | none => exact .ret rfl w
      | some k =>
          by_cases ho : req.target = "" ∨ k ∉ (get_config env.settings c).form_types
          · simp only [ho, if_true]
            exact .ret rfl w
          simp only [ho, if_false]
          refine .bind (check_tmp_token_quiet _ _ _) (fun _ w => ?_) w
          refine .bind (check_captcha_quiet _ _ _) (fun _ w => ?_) w
          cases ht : req.plain_target env (get_config env.settings c) with
          | none => exact .raised _ w
          | some target => exact .of_target ⟨hc, hk, ha, not_not.mp (not_or.mp ho).2, ht⟩ w

/-! ### `reset-password` -/

/-- A save raises and writes nothing, or it writes the table. -/
theorem saveUser_cases (id : Nat) (f : User → User) (hf : ∀ u, (f u).id = u.id) (w : World) :
    (w.users.save id f hf = none ∧ exec (saveUser id f hf) w = (.error .integrity, w)) ∨
      ∃ users, w.users.save id f hf = some users ∧
        exec (saveUser id f hf) w = (.ok (), { w with users }) := by
  unfold saveUser
  simp only [Prog.exec_read_bind]
  rcases h : w.users.save id f hf with _ | users
  · exact .inl ⟨rfl, rfl⟩
  · exact .inr ⟨users, rfl, rfl⟩

/-- What a request to `reset-password` may come to in `w`: it is quiet, or it sets the password of
the one user with the target of the presented token. -/
def ResetOutcome (env : Env) (req : ResetPasswordRequest) (w : World)
    (p : Except Fault Reply × World) : Prop :=
  (Quiet w p.2 ∧ ∀ r, p.1 = .ok r → r.verify_token = none) ∨
  ∃ code detail, p.1 = .ok (.api code detail) ∧
    ∃ token code data password, ∃ user ∈ w.users.rows,
    req.verify_token = some token ∧ req.verify_code = some code ∧
    w.cache.get (TokenTempCache.key token) = some (.tokenTemp data) ∧
    w.cache.get (SendAndVerifyCodeUtil.key data.target) = some (.str code) ∧
    user.field data.query_key = data.target ∧
    p.2.users.rows =
      UserTable.writeRows (User.set_password (env.make_password password)) user.id w.users.rows ∧
    p.2.outbox = w.outbox ∧ Store.Shrinks Sensitive w.cache p.2.cache

theorem mem_usersWith {k : QueryKey} {target : String} {users : List User} {u : User} :
    u ∈ usersWith k target users ↔ u ∈ users ∧ u.field k = target := by
  simp [usersWith]

/-- **`reset-password`, case by case.** -/
theorem reset_password_outcome (env : Env) (req : ResetPasswordRequest) (w : World) :
    ResetOutcome env req w (exec (reset_password env req) w) := by
  unfold reset_password
  rcases hv : exec (verify_sms_email_code env req.toVerifyRequest ResetBlockUtil) w with
    ⟨e | ⟨k, target, token⟩, w₁⟩
  · rw [Prog.exec_bind_of_error hv]
    exact .inl ⟨(verify_sms_email_code_quiet ResetBlockUtil_apart _).of_exec hv, by rintro _ ⟨⟩⟩
  obtain ⟨q, ht, data, code, hd, rfl, rfl, hc, hcode⟩ :=
    verify_sms_email_code_ok ResetBlockUtil_apart hv
  rw [Prog.exec_bind_of_ok hv]
  by_cases hp : (!given req.password) = true
  · simp only [hp, if_true]
    exact .inl ⟨q, by rintro _ ⟨⟩; try rfl⟩
  simp only [hp, Bool.false_eq_true, if_false]
  rcases hdec : (if env.settings.SECURITY_RESET_PASSWORD_ENCRYPTED_ENABLED = true then
      env.aesDecrypt token (req.password.getD "") else some (req.password.getD "")) with _ | password
  · exact .inl ⟨q, by rintro _ ⟨⟩; try rfl⟩
  simp only [Prog.orRaise, Prog.exec_pure_bind, Prog.exec_read_bind]
  rcases hu : usersWith data.query_key data.target w₁.users.rows with _ | ⟨user, _ | ⟨_, _⟩⟩
  · exact .inl ⟨q, by rintro _ ⟨⟩; try rfl⟩
  swap
  · exact .inl ⟨q, by rintro _ ⟨⟩; try rfl⟩
  simp only
  by_cases hrules : (!env.check_password_rules password user.is_superuser) = true
  · simp only [hrules, if_true]
    exact .inl ⟨q, by rintro _ ⟨⟩; try rfl⟩
  simp only [hrules, Bool.false_eq_true, if_false]
  have hmem : user ∈ w.users.rows ∧ user.field data.query_key = data.target := by
    rw [← q.users, ← mem_usersWith, hu]
    exact .head _
  rcases saveUser_cases user.id (User.set_password (env.make_password password))
      (fun _ => rfl) w₁ with ⟨-, he⟩ | ⟨users, hs, he⟩
  · rw [Prog.exec_bind_of_error he]
    exact .inl ⟨q, by rintro _ ⟨⟩; try rfl⟩
  · rw [Prog.exec_bind_of_ok he]
    refine .inr ⟨_, _, rfl, token, code, data, password, user, hmem.1, ht, hc, hd, hcode, hmem.2,
      ?_, q.outbox, q.cache.trans (.delete _)⟩
    rw [← q.users]
    exact UserTable.save_eq_some hs

/-! ### Requests -/

theorem serve_of_ok {m : Handler Reply} {w w' : World} {r : Reply} (h : exec m w = (.ok r, w')) :
    serve m w = (r, w') := by
  unfold serve
  rw [h]

/-- A quiet handler serves quietly, rolled back or not. -/
theorem serve_quiet {m : Handler Reply} {w : World} (h : Quiet w (exec m w).2) :
    Quiet w (serve m w).2 := by
  unfold serve
  rcases he : exec m w with ⟨e | r, w'⟩
  · rw [he] at h
    simp only
    split
    · exact ⟨rfl, h.outbox, h.cache⟩
    · exact h
  · rw [he] at h
    exact h

theorem serve_verify_token {m : Handler Reply} {w : World}
    (h : ∀ r, (exec m w).1 = .ok r → r.verify_token = none) :
    (serve m w).1.verify_token = none := by
  unfold serve
  rcases he : exec m w with ⟨e | r, w'⟩
  · rfl
  · exact h r (by rw [he])

/-- A handler that wraps what a quiet program returns. -/
theorem map_quiet {m : Handler α} (h : Keeps Quiet m) (f : α → Reply) : Keeps Quiet (f <$> m) :=
  h.bind fun _ => Keeps.ret _

theorem map_reply {m : Handler α} {f : α → Reply} {w : World} {r : Reply}
    (h : (exec (f <$> m) w).1 = .ok r) : ∃ a, r = f a := by
  change (exec (m >>= fun a => pure (f a)) w).1 = .ok r at h
  rcases he : exec m w with ⟨e | a, w'⟩
  · rw [Prog.exec_bind_of_error he] at h
    cases h
  · rw [Prog.exec_bind_of_ok he] at h
    cases h
    exact ⟨a, rfl⟩

end InfraHub.Auth
