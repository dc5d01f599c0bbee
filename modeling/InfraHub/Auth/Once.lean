import InfraHub.Auth.Endpoints
import InfraHub.Lib.Threads

/-!
# Auth — Once

Requests that present a one-time credential at the same time: the verify code of
`SendAndVerifyCodeUtil`, or a temporary token that is checked with `success_once=True`.

Either is read with one command and deleted with another, so that all requests that read before the
first deletion are accepted.  `once_iff` says that no order is safe for more than one request, and
that no more than one is accepted where none reads between the read and the deletion of another.
-/

namespace InfraHub.Auth.Once
open InfraHub.Lib

/-- What a request presents: a code for a target, or a token with the identity of its client. -/
inductive Credential where
  | verify_code (target code : String)
  | tmp_token (token client_id : String)

namespace Credential

/-- The key that is read. -/
def key : Credential → String
  | verify_code target _ => SendAndVerifyCodeUtil.key target
  | tmp_token token _ => token

/-- Whether what is read is what the request presents. -/
def right : Credential → Option CacheValue → Bool
  | verify_code _ code, value => truthy value && value == some (.str code)
  | tmp_token _ client_id, some (.tmpToken data) => client_id == data
  | tmp_token _ _, _ => false

/-- The keys that are deleted then, in this order. -/
def clear : Credential → List String
  | verify_code target _ => [SendAndVerifyCodeUtil.key target, SendAndVerifyCodeUtil.limit_key target]
  | tmp_token token _ => [token]

/-- The check as it is written, and whether it accepts. -/
def check : Credential → Handler Bool
  | verify_code target code =>
    Prog.attempt (do SendAndVerifyCodeUtil.verify target code; return true) fun _ => return false
  | tmp_token token client_id => verify_token_cache token client_id true

theorem right_none (cr : Credential) : cr.right none = false := by
  cases cr <;> rfl

theorem key_mem_clear (cr : Credential) : cr.key ∈ cr.clear := by
  cases cr <;> exact List.mem_cons_self

end Credential

/-! ### The requests -/

/-- Where a request is: before the read, or with the keys it still deletes. -/
inductive Pc where
  | get
  | delete (keys : List String)
  | accepted
  | refused
  deriving DecidableEq

def act (cr : Credential) (c : Cache) : Pc → Option (Cache × Pc)
  | .get => some (c, if cr.right (c.get cr.key) then .delete cr.clear else .refused)
  | .delete [] => some (c, .accepted)
  | .delete (key :: keys) => some (c.delete key, .delete keys)
  | .accepted | .refused => none

abbrev State := Threads Cache Pc

abbrev Step (cr : Credential) : State → Nat → State → Prop := Threads.Step (act cr)

/-- `k` requests at the same time. -/
def start (c : Cache) (k : Nat) : State := Threads.start c k .get

def accepted (s : State) : Nat := s.pcs.count .accepted

/-- The request has read the credential and not yet deleted it. -/
def Pc.Holds (cr : Credential) : Pc → Prop
  | .delete keys => cr.key ∈ keys
  | .get | .accepted | .refused => False

/-- A request reads only while none is between the read and the deletion. -/
def Alone (cr : Credential) (s : State) (i : Nat) : Prop :=
  s.pcs[i]? = some .get → ∀ pc ∈ s.pcs, ¬ pc.Holds cr

/-- Whatever the order, at no time more than one is accepted. -/
def Unique (cr : Credential) (c : Cache) (k : Nat) : Prop :=
  ∀ l t, Run (Step cr) (start c k) l t → accepted t ≤ 1

section
variable {cr : Credential} {c c' : Cache} {pc pc' : Pc} {k i : Nat} {s t : State}

/-! ### One request alone -/

theorem one (h : act cr c pc = some (c', pc')) :
    Run (Step cr) (Threads.start c 1 pc) [0] (Threads.start c' 1 pc') :=
  .one (Threads.step_of rfl h)

theorem exec_verify (target code : String) (w : World) :
    Prog.exec (SendAndVerifyCodeUtil.verify target code) w =
      if !truthy (w.cache.get (SendAndVerifyCodeUtil.key target)) then
        (.error (.api "The verification code has expired. Please resend it"), w)
      else if w.cache.get (SendAndVerifyCodeUtil.key target) ≠ some (.str code) then
        (.error (.api "The verification code is incorrect"), w)
      else (.ok (), { w with
        cache := (w.cache.delete (SendAndVerifyCodeUtil.key target)).delete
          (SendAndVerifyCodeUtil.limit_key target) }) := by
  rw [SendAndVerifyCodeUtil.verify, cacheGet, Prog.exec_read_bind]
  split_ifs <;> rfl

/-- The check accepts what is right, and deletes the keys then. -/
theorem exec_check (cr : Credential) (w : World) : Prog.exec cr.check w =
    (.ok (cr.right (w.cache.get cr.key)),
      if cr.right (w.cache.get cr.key) then { w with cache := cr.clear.foldl Store.delete w.cache } else w) := by
  cases cr with
  | verify_code target code =>
      rw [Credential.check, Prog.exec_attempt, Prog.exec_bind, exec_verify]
      by_cases htruthy : truthy (w.cache.get (SendAndVerifyCodeUtil.key target))
      · by_cases heq : w.cache.get (SendAndVerifyCodeUtil.key target) = some (.str code)
        · rw [heq] at htruthy
          simp [Credential.right, Credential.key, htruthy, heq, Credential.clear]
        · simp [Credential.right, Credential.key, htruthy, heq]
      · simp [Credential.right, Credential.key, htruthy]
  | tmp_token token client_id =>
      rw [Credential.check, verify_token_cache, cacheGet, Prog.exec_read_bind, Credential.key]
      generalize w.cache.get token = value
      cases value with
      | none => rfl
      | some value =>
          cases value with
          | str | count | flag | tokenTemp => rfl
          | tmpToken data =>
              by_cases heq : client_id = data
              · have hright : (Credential.tmp_token token client_id).right (some (.tmpToken data)) = true := by
                  simp [Credential.right, heq]
                rw [hright, if_pos rfl, heq]
                simp only [if_pos]
                rfl
              · have hright : (Credential.tmp_token token client_id).right (some (.tmpToken data)) = false := by
                  simp [Credential.right, heq]
                rw [hright]
                simp only [if_neg heq]
                rfl

variable (cr) in
/-- A request deletes its keys. -/
theorem solo_delete (keys : List String) (c : Cache) : ∃ l, Run (Step cr)
    (Threads.start c 1 (.delete keys)) l (Threads.start (keys.foldl Store.delete c) 1 .accepted) := by
  induction keys generalizing c with
  | nil => exact ⟨_, one rfl⟩
  | cons key keys ih =>
      obtain ⟨l, r⟩ := ih (c.delete key)
      exact ⟨_, (one rfl).append r⟩

/-- A request alone does what the check does. -/
theorem solo (cr : Credential) (w : World) : ∃ l, Run (Step cr) (start w.cache 1) l
    (Threads.start (Prog.exec cr.check w).2.cache 1
      (if cr.right (w.cache.get cr.key) then .accepted else .refused)) := by
  rw [exec_check]
  split_ifs with hright
  · have hget : act cr w.cache .get = some (w.cache, .delete cr.clear) := by rw [act, if_pos hright]
    obtain ⟨l, r⟩ := solo_delete cr cr.clear w.cache
    exact ⟨_, (one hget).append r⟩
  · have hget : act cr w.cache .get = some (w.cache, .refused) := by rw [act, if_neg hright]
    exact ⟨_, one hget⟩

/-! ### Whatever the order -/

theorem unique_of_wrong (h : cr.right (c.get cr.key) = false) : Unique cr c k := by
  intro l t r
  have hget : ∀ pc ∈ (start c k).pcs, pc = .get ∨ pc = .refused := fun pc hpc =>
    .inl (List.eq_of_mem_replicate hpc)
  have hkeep := Threads.invariant (J := fun c => cr.right (c.get cr.key) = false)
    (K := fun (_ : Cache) (pc : Pc) => pc = .get ∨ pc = .refused) ?_ (fun _ _ _ _ _ _ _ _ hp => hp) r h hget
  · have hzero : accepted t = 0 := by
      refine List.count_eq_zero.mpr fun hmem => ?_
      rcases hkeep.2 _ hmem with h | h <;> cases h
    exact hzero ▸ Nat.zero_le 1
  · rintro c pc c' pc' hc (rfl | rfl) hact
    · rw [act, hc] at hact
      obtain ⟨rfl, rfl⟩ := Prod.mk.inj (Option.some.inj hact)
      exact ⟨hc, .inr rfl⟩
    · exact absurd hact (by simp [act])

variable (cr) in
/-- All requests delete, one after another. -/
theorem all_delete (hk : 0 < k) (keys : List String) (c : Cache) :
    ∃ l c', Run (Step cr) (Threads.start c k (.delete keys)) l (Threads.start c' k .accepted) := by
  induction keys generalizing c with
  | nil => exact ⟨_, c, Threads.round_read rfl hk⟩
  | cons key keys ih =>
      have hdelete (c : Cache) : act cr c (.delete (key :: keys)) = some (c.delete key, .delete keys) := rfl
      have hagain := hdelete (c.delete key)
      rw [Store.delete_delete] at hagain
      obtain ⟨l, c', r⟩ := ih (c.delete key)
      exact ⟨_, c', (Threads.round (hdelete c) hagain hk).append r⟩

theorem unique_iff : Unique cr c k ↔ k ≤ 1 ∨ cr.right (c.get cr.key) = false := by
  constructor
  · intro h
    by_contra hnot
    obtain ⟨hk, hright⟩ := not_or.mp hnot
    have hpos : 0 < k := by omega
    have hget : act cr c .get = some (c, .delete cr.clear) := by
      rw [act, if_pos (Bool.not_eq_false _ ▸ hright)]
    obtain ⟨l, c', r⟩ := all_delete cr hpos cr.clear c
    have hle := h _ _ ((Threads.round_read hget hpos).append r)
    rw [accepted, Threads.start, List.count_replicate_self] at hle
    exact hk hle
  · rintro (hk | hwrong)
    · intro l t r
      have hlength : t.pcs.length = k := (Threads.length_pcs r).trans List.length_replicate
      exact Nat.le_trans List.count_le_length (hlength ▸ hk)
    · exact unique_of_wrong hwrong

/-! ### No request reads between a read and a deletion -/

/-- The request has read the credential. -/
def Pc.hasRead : Pc → Bool
  | .get | .refused => false
  | .delete _ | .accepted => true

/-- One request has read the credential, and it still holds it or the credential is gone. -/
structure Spent (cr : Credential) (s : State) : Prop where
  one : s.pcs.countP Pc.hasRead ≤ 1
  gone : ∀ pc ∈ s.pcs, pc.hasRead → pc.Holds cr ∨ s.shared.get cr.key = none

/-- A request that deletes: what is gone stays gone, and a credential that was held still is or is
gone. -/
theorem delete_act {keys : List String} (h : act cr c (.delete keys) = some (c', pc')) : pc'.hasRead ∧
    (c.get cr.key = none → c'.get cr.key = none) ∧
    (Pc.Holds cr (.delete keys) → pc'.Holds cr ∨ c'.get cr.key = none) := by
  cases keys with
  | nil =>
      obtain ⟨rfl, rfl⟩ := Prod.mk.inj (Option.some.inj h)
      exact ⟨rfl, id, fun hholds => absurd hholds List.not_mem_nil⟩
  | cons key keys =>
      obtain ⟨rfl, rfl⟩ := Prod.mk.inj (Option.some.inj h)
      refine ⟨rfl, fun hnone => ?_, fun hholds => ?_⟩
      · rw [Store.get_delete]
        split_ifs
        · rfl
        · exact hnone
      · rcases List.mem_cons.mp hholds with heq | hrest
        · exact .inr (heq ▸ Store.get_delete_self c key)
        · exact .inl hrest

theorem spent_step (h : guarded (Step cr) (Alone cr) s i t) (hs : Spent cr s) : Spent cr t := by
  obtain ⟨hstep, halone⟩ := h
  obtain ⟨pc, c', pc', hpc, hact, rfl⟩ := Threads.step_cases hstep
  have hadd := countP_set_add (a := pc') Pc.hasRead hpc
  cases pc with
  | get =>
      by_cases hright : cr.right (s.shared.get cr.key)
      · rw [act, if_pos hright] at hact
        obtain ⟨rfl, rfl⟩ := Prod.mk.inj (Option.some.inj hact)
        -- what is still there nobody has read
        have hnone : s.pcs.countP Pc.hasRead = 0 := by
          refine List.countP_eq_zero.mpr fun p hp hread => ?_
          rcases hs.gone p hp hread with hholds | hgone
          · exact halone hpc p hp hholds
          · exact absurd (hgone ▸ hright) (by simp [cr.right_none])
        refine ⟨Nat.le_of_eq (by rw [hnone] at hadd; exact hadd), fun p hp hread => ?_⟩
        rcases List.mem_or_eq_of_mem_set hp with hold | rfl
        · exact hs.gone p hold hread
        · exact .inl cr.key_mem_clear
      · rw [act, if_neg hright] at hact
        obtain ⟨rfl, rfl⟩ := Prod.mk.inj (Option.some.inj hact)
        refine ⟨Nat.le_trans (Nat.le_of_eq hadd) hs.one, fun p hp hread => ?_⟩
        rcases List.mem_or_eq_of_mem_set hp with hold | rfl
        · exact hs.gone p hold hread
        · exact absurd hread (by simp [Pc.hasRead])
  | delete keys =>
      obtain ⟨hread', hgone⟩ := delete_act hact
      rw [hread'] at hadd
      refine ⟨Nat.le_trans (Nat.le_of_eq (Nat.add_right_cancel hadd)) hs.one, fun p hp hread => ?_⟩
      rcases List.mem_or_eq_of_mem_set hp with hold | rfl
      · exact (hs.gone p hold hread).imp_right hgone.1
      · rcases hs.gone _ (List.mem_of_getElem? hpc) rfl with hholds | hnone
        · exact hgone.2 hholds
        · exact .inr (hgone.1 hnone)
  | accepted | refused => exact absurd hact (by simp [act])

theorem spent_start : Spent cr (start c k) := by
  have hread : ∀ pc ∈ (start c k).pcs, ¬ pc.hasRead := fun pc hpc hread =>
    absurd (List.eq_of_mem_replicate hpc ▸ hread) (by simp [Pc.hasRead])
  refine ⟨?_, fun pc hpc h => absurd h (hread pc hpc)⟩
  rw [List.countP_eq_zero.mpr hread]
  exact Nat.zero_le 1

theorem accepted_le (hs : Spent cr s) : accepted s ≤ 1 := by
  refine Nat.le_trans (List.countP_mono_left fun pc _ h => ?_) hs.one
  obtain rfl := eq_of_beq h
  rfl

/-- **A one-time credential is accepted once** in every order only if there is one request, or the
credential is not right.  Where no request reads between the read and the deletion of another, no
more than one is accepted. -/
theorem once_iff (cr : Credential) (c : Cache) (k : Nat) :
    (Unique cr c k ↔ k ≤ 1 ∨ cr.right (c.get cr.key) = false) ∧
    ∀ l t, Run (guarded (Step cr) (Alone cr)) (start c k) l t → accepted t ≤ 1 :=
  ⟨unique_iff, fun _ _ r => accepted_le (r.invariant (fun _ _ _ hs h => spent_step h hs) spent_start)⟩

end

/-! ### Two requests -/

/-- The code `123456`, sent to `target`. -/
def sampleCode (target : String) : Cache :=
  (Store.empty.set (SendAndVerifyCodeUtil.key target) (.str "123456")).set
    (SendAndVerifyCodeUtil.limit_key target) (.str "123456")

/-- The token `T` of the client `c`. -/
def sampleToken : Cache := Store.empty.set "T" (.tmpToken "c")

/-- The requests of a run are at some time both accepted. -/
theorem not_unique_of_exec {cr : Credential} {c : Cache} {k : Nat} (l : List Nat)
    (h : (exec (Threads.next (act cr)) (start c k) l).any (1 < accepted ·)) : ¬ Unique cr c k := by
  intro hunique
  obtain ⟨t, ht, haccepted⟩ := (Option.any_eq_true _ _).mp h
  exact Nat.not_le.mpr (of_decide_eq_true haccepted) (hunique l t (Run.of_exec ht))

/-- Both read before one deletes: the code and the token are accepted twice. -/
theorem accepted_twice :
    ¬ Unique (.verify_code "admin@example.com" "123456") (sampleCode "admin@example.com") 2 ∧
    ¬ Unique (.tmp_token "T" "c") sampleToken 2 :=
  ⟨not_unique_of_exec [0, 1, 0, 0, 0, 1, 1, 1] (by decide +kernel),
    not_unique_of_exec [0, 1, 0, 0, 1, 1] (by decide +kernel)⟩

end InfraHub.Auth.Once
