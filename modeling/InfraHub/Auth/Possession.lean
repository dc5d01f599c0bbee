import InfraHub.Auth.Frame
import InfraHub.Lib.Run

/-!
# Auth — Possession

What `reset-password` proves about the client.  In a run of the four endpoints the password of a
user should change only for a client that shows a token minted for a reset and a code that went to
the user's own mailbox or phone (`Possession`).

* The endpoints do not keep this: a verify token carries no category, and the `username` form of
  `send-verify-code` returns the code to the client (`reset_by_login_token`).
* They keep it while every `send-verify-code` request that is accepted is safe (`SafeSend`): it
  asks for delivery, and what it writes into the cache is nobody's code, or the code of a reset
  request delivered to the target's holders (`reset_needs_possession`).

The invariant (`Inv`) says of every cached code of a user that it was delivered to the user, of
every cached token that could reset someone that it was last minted for a reset, and of the log
that no response carried a code.
-/

namespace InfraHub.Auth
open InfraHub.Lib
open InfraHub.Lib.Prog (exec)

/-! ### The statement -/

/-- The response recorded by a label. -/
def Label.reply : Label → Option Reply
  | .request _ r => some r
  | .cache_timeout _ | .captcha_timeout _ => none

/-- The label mints the verify token `token`. -/
def Label.Mints (l : Label) (token : String) : Prop :=
  l.reply.bind Reply.verify_token = some token

/-- The label is a `send-verify-code` request with category `c`. -/
def Label.OfCategory (c : Category) : Label → Prop
  | .request (.send_verify_code req _) _ => req.category = some c
  | _ => False

/-- The last label of `log` to mint `token` is a `send-verify-code` request with category `c`. -/
def MintedUnder (c : Category) (log : List Label) (token : String) : Prop :=
  ∃ pre l post, log = pre ++ l :: post ∧ l.Mints token ∧ l.OfCategory c ∧ ∀ m ∈ post, ¬ m.Mints token

/-- The response of some label of `log` carries `code`. -/
def Disclosed (log : List Label) (code : String) : Prop :=
  ∃ l ∈ log, l.reply.bind Reply.verify_code = some code

/-- `code` was sent to the phone or to the mailbox of `u`. -/
def Delivered (w : World) (u : User) (code : String) : Prop :=
  ⟨.sms, u.phone, code⟩ ∈ w.outbox ∨ ⟨.email, u.email, code⟩ ∈ w.outbox

/-- The request proves, after `log`, that its client received a reset code of `u`. -/
def Possession (log : List Label) (w : World) (req : ResetPasswordRequest) (u : User) : Prop :=
  ∃ token code, req.verify_token = some token ∧ req.verify_code = some code ∧
    MintedUnder .reset log token ∧ Delivered w u code ∧ ¬ Disclosed log code

/-- No code and no verify token is in the cache. -/
def World.Fresh (w : World) : Prop := ∀ k, Sensitive k → w.cache.get k = none

/-- `k` is a way to reach the user. -/
def QueryKey.Contact (k : QueryKey) : Prop := k ≠ .username

/-- The step is no accepted `send-verify-code` request, or one that asks for delivery to a target
such that every user with this target as phone or email has it in the field asked for, and then
the request is for a reset; and no user's phone or email is `send_at_` and the target. -/
def SafeSend (env : Env) (w : World) (l : Label) : Prop :=
  ∀ req draw r, l = .request (.send_verify_code req draw) r →
    ∀ c k target, req.Accepted env c k target →
      k.Contact ∧ ∀ u ∈ w.users.rows, ∀ k' : QueryKey, k'.Contact →
        (u.field k' = target → c = .reset ∧ u.field k = target) ∧
        u.field k' ≠ "send_at_" ++ target

/-! ### The invariant -/

structure Inv (log : List Label) (w : World) : Prop where
  codes : ∀ u ∈ w.users.rows, ∀ k : QueryKey, k.Contact → ∀ v,
    w.cache.get (SendAndVerifyCodeUtil.key (u.field k)) = some v →
      ∃ code, v = .str code ∧ Delivered w u code
  tokens : ∀ token data, w.cache.get (TokenTempCache.key token) = some (.tokenTemp data) →
    data.query_key.Contact ∧
      ∀ u ∈ w.users.rows, u.field data.query_key = data.target → MintedUnder .reset log token
  silent : ∀ code, ¬ Disclosed log code

theorem MintedUnder.snoc {c : Category} {log : List Label} {token : String} {l : Label}
    (h : MintedUnder c log token) (hl : ¬ l.Mints token) : MintedUnder c (log ++ [l]) token := by
  obtain ⟨pre, m, post, rfl, hm, hc, hp⟩ := h
  refine ⟨pre, m, post ++ [l], by simp, hm, hc, fun n hn => ?_⟩
  rcases List.mem_append.mp hn with hn | hn
  · exact hp n hn
  · rw [List.mem_singleton.mp hn]
    exact hl

theorem MintedUnder.last {c : Category} (log : List Label) {token : String} {l : Label}
    (hl : l.Mints token) (hc : l.OfCategory c) : MintedUnder c (log ++ [l]) token :=
  ⟨log, l, [], rfl, hl, hc, by simp⟩

theorem Disclosed.of_snoc {log : List Label} {l : Label} {code : String}
    (h : Disclosed (log ++ [l]) code) (hl : l.reply.bind Reply.verify_code = none) :
    Disclosed log code := by
  obtain ⟨m, hm, hc⟩ := h
  rcases List.mem_append.mp hm with hm | hm
  · exact ⟨m, hm, hc⟩
  · rw [List.mem_singleton.mp hm, hl] at hc
    cases hc

theorem inv_fresh {w : World} (h : w.Fresh) : Inv [] w where
  codes u _ k _ v hv := by rw [h _ (.inl ⟨_, rfl⟩)] at hv; cases hv
  tokens token data hd := by rw [h _ (.inr ⟨_, rfl⟩)] at hd; cases hd
  silent code := by rintro ⟨l, hl, -⟩; cases hl

/-- Every user after the step was there before, with the same contacts. -/
def SameContacts (w w' : World) : Prop :=
  ∀ u' ∈ w'.users.rows, ∃ u ∈ w.users.rows, u.id = u'.id ∧ ∀ k, u.field k = u'.field k

theorem Quiet.sameContacts {w w' : World} (q : Quiet w w') : SameContacts w w' := fun u hu =>
  ⟨u, q.users ▸ hu, rfl, fun _ => rfl⟩

/-- A step of the world that mints nothing, sends nothing and only deletes codes and tokens. -/
theorem Inv.keep {log : List Label} {w w' : World} (hi : Inv log w) (hu : SameContacts w w')
    (ho : w'.outbox = w.outbox) (hc : Store.Shrinks Sensitive w.cache w'.cache) : Inv log w' where
  codes u' hu' k hk v hv := by
    obtain ⟨u, hmem, -, hf⟩ := hu u' hu'
    rw [← hf] at hv
    obtain ⟨code, rfl, hd⟩ := hi.codes u hmem k hk v (hc.get_some (.inl ⟨_, rfl⟩) hv)
    have hphone : u.phone = u'.phone := hf .phone
    have hemail : u.email = u'.email := hf .email
    refine ⟨code, rfl, ?_⟩
    rwa [Delivered, ho, ← hphone, ← hemail]
  tokens token data hd := by
    obtain ⟨hk, h⟩ := hi.tokens token data (hc.get_some (.inr ⟨_, rfl⟩) hd)
    refine ⟨hk, fun u' hu' ht => ?_⟩
    obtain ⟨u, hmem, -, hf⟩ := hu u' hu'
    exact h u hmem ((hf _).trans ht)
  silent := hi.silent

/-- A label that mints nothing. -/
theorem Inv.snoc {log : List Label} {w : World} {l : Label} (hi : Inv log w)
    (hl : l.reply.bind Reply.verify_token = none) : Inv (log ++ [l]) w where
  codes := hi.codes
  tokens token data hd := by
    obtain ⟨hk, h⟩ := hi.tokens token data hd
    refine ⟨hk, fun u hu ht => (h u hu ht).snoc fun hm => ?_⟩
    rw [Label.Mints, hl] at hm
    cases hm
  silent code hcode := by
    refine hi.silent code (hcode.of_snoc ?_)
    rcases hr : l.reply with _ | r
    · rfl
    · rw [hr] at hl
      exact Reply.verify_code_eq_none hl

theorem Delivered.minted {w : World} {u : User} {code : String} (h : Delivered w u code)
    (k : QueryKey) (target code' token : String) (extra : Extra) :
    Delivered (w.minted k target code' token extra) u code := by
  have sub : w.outbox ⊆ (w.minted k target code' token extra).outbox := by
    unfold World.minted
    split
    · exact fun _ h => h
    · exact List.subset_append_left _ _
  exact h.imp (fun h => sub h) (fun h => sub h)

/-- A code sent to `u.field k` is delivered to `u`. -/
theorem delivered_minted {w : World} {u : User} {k : QueryKey} (hk : k.Contact)
    (code token : String) (extra : Extra) :
    Delivered (w.minted k (u.field k) code token extra) u code := by
  cases k with
  | phone => exact .inl (List.mem_append_right _ (.head _))
  | email => exact .inr (List.mem_append_right _ (.head _))
  | username => exact absurd rfl hk

/-- A safe send. -/
theorem Inv.mint {log : List Label} {w : World} (hi : Inv log w)
    {req : SendVerifyCodeRequest} {draw : Draw} {c : Category} {k : QueryKey}
    {target code : String} {extra : Extra} (hc : req.category = some c) (hk : k.Contact)
    (hsafe : ∀ u ∈ w.users.rows, ∀ k' : QueryKey, k'.Contact →
      (u.field k' = target → c = .reset ∧ u.field k = target) ∧
      u.field k' ≠ "send_at_" ++ target) :
    Inv (log ++ [.request (.send_verify_code req draw) (.verify draw.verify_token extra none)])
      (w.minted k target code draw.verify_token extra) where
  codes u hu k' hk' v hv := by
    obtain ⟨hsame, hrate⟩ := hsafe u hu k' hk'
    change Store.get (Store.set _ _ _) _ = _ at hv
    rw [Store.get_set_ne _ _ (key_ne_token_key _ _), limit_key_eq_key,
      Store.get_set_ne _ _ fun h => hrate (key_inj.mp h), Store.get_set] at hv
    by_cases ht : u.field k' = target
    · rw [if_pos (key_inj.mpr ht)] at hv
      cases hv
      obtain ⟨-, rfl⟩ := hsame ht
      exact ⟨code, rfl, delivered_minted hk _ _ _⟩
    · rw [if_neg fun h => ht (key_inj.mp h)] at hv
      obtain ⟨code', rfl, hd⟩ := hi.codes u hu k' hk' v hv
      exact ⟨code', rfl, hd.minted _ _ _ _ _⟩
  tokens token data hd := by
    change Store.get (Store.set _ _ _) _ = _ at hd
    by_cases ht : token = draw.verify_token
    · subst ht
      rw [Store.get_set_self] at hd
      cases hd
      refine ⟨hk, fun u hu hf => ?_⟩
      obtain ⟨rfl, -⟩ := (hsafe u hu k hk).1 hf
      exact .last log rfl hc
    · rw [Store.get_set_ne _ _ fun h => ht (token_key_inj.mp h),
        Store.get_set_ne _ _ (by rw [limit_key_eq_key]; exact (key_ne_token_key _ _).symm),
        Store.get_set_ne _ _ (key_ne_token_key _ _).symm] at hd
      obtain ⟨hk', h⟩ := hi.tokens token data hd
      refine ⟨hk', fun u hu hf => (h u hu hf).snoc fun hm => ht ?_⟩
      exact (Option.some.inj hm).symm
  silent code' hcode := hi.silent code' (hcode.of_snoc rfl)

theorem sameContacts_writeRows {w w' : World} {password : String} {id : Nat}
    (h : w'.users.rows = UserTable.writeRows (User.set_password password) id w.users.rows) :
    SameContacts w w' := by
  intro u' hu'
  rw [h] at hu'
  obtain ⟨u, hu, rfl⟩ := UserTable.mem_writeRows.mp hu'
  refine ⟨u, hu, ?_⟩
  split
  · exact ⟨rfl, fun k => by cases k <;> rfl⟩
  · exact ⟨rfl, fun _ => rfl⟩

theorem Inv.quiet {log : List Label} {w w' : World} (hi : Inv log w) (q : Quiet w w') :
    Inv log w' :=
  hi.keep q.sameContacts q.outbox q.cache

/-- A quiet request whose response mints nothing. -/
theorem Inv.serve {log : List Label} {w : World} {q : Request} {m : Handler Reply}
    (hi : Inv log w) (hq : Quiet w (exec m w).2)
    (hr : ∀ r, (exec m w).1 = .ok r → r.verify_token = none) :
    Inv (log ++ [.request q (Auth.serve m w).1]) (Auth.serve m w).2 :=
  (hi.quiet (serve_quiet hq)).snoc (serve_verify_token hr)

/-- Every safe step keeps the invariant. -/
theorem Inv.step {env : Env} {log : List Label} {w w' : World} {l : Label} (hi : Inv log w)
    (h : guarded (Step env) (SafeSend env) w l w') : Inv (log ++ [l]) w' := by
  obtain ⟨h, hsafe⟩ := h
  cases h with
  | cache_timeout key =>
      refine .snoc (hi.quiet ?_) rfl
      exact ⟨rfl, rfl, .delete key⟩
  | captcha_timeout hashkey =>
      refine .snoc (hi.quiet ?_) rfl
      exact ⟨rfl, rfl, .refl _⟩
  | request q h =>
      obtain ⟨rfl, rfl⟩ : _ ∧ _ := ⟨congrArg Prod.fst h, congrArg Prod.snd h⟩
      cases q with
      | temp_token ident rand =>
          refine hi.serve (map_quiet (make_token_cache_quiet ident rand) _ w) fun r hr => ?_
          obtain ⟨_, rfl⟩ := map_reply hr
          rfl
      | captcha hashkey response =>
          refine hi.serve (map_quiet (generate_quiet hashkey response) _ w) fun r hr => ?_
          obtain ⟨_, rfl⟩ := map_reply hr
          rfl
      | send_verify_code req draw =>
          rcases send_verify_code_outcome env req draw w with
            ⟨q, hr⟩ | ⟨c, k, target, code, extra, w₁, ha, q, he⟩
          · exact hi.serve q hr
          · obtain ⟨hk, hs⟩ := hsafe req draw _ rfl c k target ha
            have hserve := serve_of_ok he
            rw [if_neg hk] at hserve
            change Inv (log ++ [.request _ (Auth.serve (send_verify_code env req draw) w).1])
              (Auth.serve (send_verify_code env req draw) w).2
            rw [hserve]
            rw [← q.users] at hs
            exact (hi.quiet q).mint ha.category hk hs
      | reset_password req =>
          rcases reset_password_outcome env req w with
            ⟨q, hr⟩ | ⟨_, _, he, _, _, _, _, _, -, -, -, -, -, -, hu, ho, hc⟩
          · exact hi.serve q hr
          · have hserve := serve_of_ok (Prod.ext he rfl)
            change Inv (log ++ [.request _ (Auth.serve (reset_password env req) w).1])
              (Auth.serve (reset_password env req) w).2
            rw [hserve]
            exact (hi.keep (sameContacts_writeRows hu) ho hc).snoc rfl

end InfraHub.Auth
