import InfraHub.Auth.Frame

/-!
# Auth — Bind

What `bind` writes when it accepts a verify token.  It should write the email or phone of the
caller, and clear that field of whoever held the value before (`OnlyBinds`).

The field is the `query_key` of the token's entry, which for a token of the `username` form is the
user name, and only the first holder is cleared.  So `bind` does what it should exactly when the
field is an email or phone that at most one other user holds, or when the caller is given the user
name the caller has (`bind_frame_iff`).
-/

namespace InfraHub.Auth
open InfraHub.Lib
open InfraHub.Lib.Prog (exec)

/-! ### The statement -/

/-- From `w` to `w'` the value `target` of the field `k` was bound to the user `c`, and nothing
else was done to the users. -/
structure OnlyBinds (w w' : World) (c : Nat) (k : QueryKey) (target : String) : Prop where
  /-- nobody is created or deleted -/
  ids : w'.users.rows.map User.id = w.users.rows.map User.id
  /-- of the caller, only an email or a phone changes -/
  caller : ∀ u ∈ w.users.rows, ∀ u' ∈ w'.users.rows, u'.id = u.id → u.id = c →
    ∃ k' v, k' ≠ .username ∧ u' = u.setField k' v
  /-- of anyone else, only the same field, from `target` to nothing -/
  others : ∀ u ∈ w.users.rows, ∀ u' ∈ w'.users.rows, u'.id = u.id → u.id ≠ c →
    u' = u ∨ k ≠ .username ∧ u.field k = target ∧ u' = u.setField k ""
  usernames : ∀ u ∈ w.users.rows, ∀ u' ∈ w'.users.rows, u'.id = u.id → u'.username = u.username
  /-- nobody loses the user name -/
  named : ∀ u ∈ w.users.rows, ∀ u' ∈ w'.users.rows, u'.id = u.id → u.username ≠ "" →
    u'.username ≠ ""
  sole : ∀ u' ∈ w'.users.rows, u'.field k = target ↔ u'.id = c

/-- The field is an email or phone, and the first holder of the value is the only one, the caller
apart; or the field is the user name, and the value is the caller's. -/
def Bindable (users : List User) (c : Nat) (k : QueryKey) (target : String) : Prop :=
  (k ≠ .username ∧ ∀ u ∈ users, u.id ≠ c → u.field k = target →
    target ≠ "" ∧ (usersWith k target users).head?.map User.id = some u.id) ∨
  (k = .username ∧ ∀ u ∈ users, u.id = c → u.username = target)

/-! ### What `bind` writes -/

/-- The row `u` once `bind` has cleared the holder and written the caller. -/
def bindRow (holder : Option Nat) (c : Nat) (k : QueryKey) (target : String) (u : User) : User :=
  if u.id = c then u.setField k target else if holder = some u.id then u.setField k "" else u

theorem setField_setField (u : User) (k : QueryKey) (v v' : String) :
    (u.setField k v).setField k v' = u.setField k v' := by
  cases k <;> rfl

@[simp] theorem id_bindRow (holder : Option Nat) (c : Nat) (k : QueryKey) (target : String)
    (u : User) : (bindRow holder c k target u).id = u.id := by
  unfold bindRow
  split
  · simp
  · split <;> simp

/-- The two saves of `bind`, as one pass over the table. -/
theorem writeRows_writeRows (h c : Nat) (k : QueryKey) (target : String) (rows : List User) :
    UserTable.writeRows (·.setField k target) c (UserTable.writeRows (·.setField k "") h rows) =
      rows.map (bindRow (some h) c k target) := by
  simp only [UserTable.writeRows, List.map_map]
  refine List.map_congr_left fun u _ => ?_
  simp only [Function.comp, bindRow, Option.some.injEq]
  by_cases hh : u.id = h
  · rw [if_pos hh, User.id_setField, setField_setField, if_pos hh.symm]
  · rw [if_neg hh, if_neg (fun e => hh e.symm : ¬ h = u.id)]

theorem writeRows_eq_map (c : Nat) (k : QueryKey) (target : String) (rows : List User) :
    UserTable.writeRows (·.setField k target) c rows = rows.map (bindRow none c k target) := by
  refine List.map_congr_left fun u _ => ?_
  simp [bindRow]

/-- **What `bind` does**, when it answers. -/
theorem bind_ok {env : Env} {c : Nat} {req : VerifyRequest} {w w' : World} {token : String}
    {data : TokenData} (h : serve (bind env c req) w = (.api 1000 "", w'))
    (ht : req.verify_token = some token)
    (hd : w.cache.get (TokenTempCache.key token) = some (.tokenTemp data)) :
    w'.users.rows = w.users.rows.map (bindRow
      ((usersWith data.query_key data.target w.users.rows).head?.map User.id) c data.query_key
      data.target) := by
  have h : exec (bind env c req) w = (.ok (.api 1000 ""), w') := by
    unfold serve at h
    rcases he : exec (bind env c req) w with ⟨e | r, w₁⟩
    · rw [he] at h; cases h
    · rw [he] at h; cases h; rfl
  unfold bind at h
  obtain ⟨⟨k, target, token'⟩, w₁, hv, h⟩ := Prog.exec_bind_ok.mp h
  obtain ⟨q, ht', data', _, hd', rfl, rfl, -, -⟩ := verify_sms_email_code_ok ResetBlockUtil_apart hv
  obtain rfl : token = token' := Option.some.inj (ht.symm.trans ht')
  obtain rfl : data = data' := by rw [hd] at hd'; cases hd'; rfl
  rw [← q.users]
  simp only [Prog.exec_read_bind] at h
  -- the one save, or the two
  have saved {w₁ w₂ : World} {id : Nat} {v : String} {a : Unit}
      (hs : exec (set_field id data.query_key v) w₁ = (.ok a, w₂)) :
      w₂.users.rows = UserTable.writeRows (·.setField data.query_key v) id w₁.users.rows := by
    rcases saveUser_cases id (·.setField data.query_key v) (fun u => u.id_setField _ _) w₁
      with ⟨-, he⟩ | ⟨users, hsave, he⟩
    · rw [set_field, he] at hs; cases hs
    · rw [set_field, he] at hs; cases hs
      exact UserTable.save_eq_some hsave
  rcases hh : (usersWith data.query_key data.target w₁.users.rows).head? with _ | holder
  · rw [hh] at h
    obtain ⟨_, w₂, hs, h⟩ := Prog.exec_bind_ok.mp h
    cases h
    exact (saved hs).trans (writeRows_eq_map _ _ _ _)
  · rw [hh] at h
    obtain ⟨_, w₂, hs, h⟩ := Prog.exec_bind_ok.mp h
    obtain ⟨_, w₃, hs', h⟩ := Prog.exec_bind_ok.mp h
    cases h
    refine (saved hs').trans ?_
    rw [saved hs]
    exact writeRows_writeRows _ _ _ _ _

/-! ### The exact condition -/

section
variable {holder : Option Nat} {c : Nat} {k : QueryKey} {target : String} {u : User}

theorem bindRow_caller (h : u.id = c) : bindRow holder c k target u = u.setField k target :=
  if_pos h

theorem bindRow_holder (h : u.id ≠ c) (hh : holder = some u.id) :
    bindRow holder c k target u = u.setField k "" := by
  rw [bindRow, if_neg h, if_pos hh]

theorem bindRow_other (h : u.id ≠ c) (hh : holder ≠ some u.id) :
    bindRow holder c k target u = u := by
  rw [bindRow, if_neg h, if_neg hh]

/-- The row a table is mapped to, found again by its primary key. -/
theorem eq_bindRow {users : UserTable} {rows : List User}
    (hrows : rows = users.rows.map (bindRow holder c k target)) (hu : u ∈ users.rows) {u' : User}
    (hu' : u' ∈ rows) (hid : u'.id = u.id) : u' = bindRow holder c k target u := by
  rw [hrows] at hu'
  obtain ⟨v, hv, rfl⟩ := List.mem_map.mp hu'
  rw [id_bindRow] at hid
  rw [users.eq_of_id hv hu hid]

/-- The first holder of a value holds it. -/
theorem holder_field {users : UserTable} (hu : u ∈ users.rows)
    (h : (usersWith k target users.rows).head?.map User.id = some u.id) : u.field k = target := by
  obtain ⟨v, hv, hid⟩ := Option.map_eq_some_iff.mp h
  obtain ⟨hmem, hf⟩ := mem_usersWith.mp (List.mem_of_mem_head? hv)
  rwa [← users.eq_of_id hmem hu hid]

end

theorem username_setField {u : User} {k : QueryKey} (v : String) (hk : k ≠ .username) :
    (u.setField k v).username = u.username :=
  u.field_setField_ne v hk.symm

/-- Writing to the caller the user name it has changes nothing. -/
theorem bindRow_username {users : UserTable} {c : Nat} {target : String}
    (hc : ∃ u ∈ users.rows, u.id = c) (h : ∀ u ∈ users.rows, u.id = c → u.username = target)
    {u : User} (hu : u ∈ users.rows) :
    bindRow ((usersWith .username target users.rows).head?.map User.id) c .username target u = u := by
  by_cases hid : u.id = c
  · rw [bindRow_caller hid, ← h u hu hid]
    rfl
  · refine bindRow_other hid fun hh => hid ?_
    obtain ⟨v, hv, rfl⟩ := hc
    have hname : u.username = v.username := (holder_field hu hh).trans (h v hv rfl).symm
    exact congrArg User.id (List.inj_on_of_nodup_map users.usernames hu hv hname)

section
variable {w w' : World} {c : Nat} {k : QueryKey} {target : String}
  (hrows : w'.users.rows = w.users.rows.map (bindRow
    ((usersWith k target w.users.rows).head?.map User.id) c k target))
include hrows

theorem ids_bound : w'.users.rows.map User.id = w.users.rows.map User.id := by
  rw [hrows, List.map_map]
  exact List.map_congr_left fun u _ => id_bindRow _ _ _ _ _

/-- A contact with at most one other holder. -/
theorem onlyBinds_contact (hk : k ≠ .username)
    (hsole : ∀ u ∈ w.users.rows, u.id ≠ c → u.field k = target →
      target ≠ "" ∧ (usersWith k target w.users.rows).head?.map User.id = some u.id) :
    OnlyBinds w w' c k target := by
  have usernames : ∀ u ∈ w.users.rows, ∀ u' ∈ w'.users.rows, u'.id = u.id →
      u'.username = u.username := by
    intro u hu u' hu' hid
    rw [eq_bindRow hrows hu hu' hid]
    unfold bindRow
    split
    · exact username_setField _ hk
    · split
      · exact username_setField _ hk
      · rfl
  refine ⟨ids_bound hrows, ?_, ?_, usernames, ?_, ?_⟩
  · intro u hu u' hu' hid hc
    exact ⟨k, target, hk, (eq_bindRow hrows hu hu' hid).trans (bindRow_caller hc)⟩
  · intro u hu u' hu' hid hc
    by_cases hh : (usersWith k target w.users.rows).head?.map User.id = some u.id
    · exact .inr ⟨hk, holder_field hu hh, (eq_bindRow hrows hu hu' hid).trans (bindRow_holder hc hh)⟩
    · exact .inl ((eq_bindRow hrows hu hu' hid).trans (bindRow_other hc hh))
  · intro u hu u' hu' hid hne
    rwa [usernames u hu u' hu' hid]
  · intro u' hu'
    rw [hrows] at hu'
    obtain ⟨u, hu, rfl⟩ := List.mem_map.mp hu'
    rw [id_bindRow]
    constructor
    · intro hf
      by_contra hc
      by_cases hh : (usersWith k target w.users.rows).head?.map User.id = some u.id
      · rw [bindRow_holder hc hh, User.field_setField_self] at hf
        exact (hsole u hu hc (holder_field hu hh)).1 hf.symm
      · rw [bindRow_other hc hh] at hf
        exact hh (hsole u hu hc hf).2
    · intro hc
      rw [bindRow_caller hc, User.field_setField_self]

/-- The caller's own user name. -/
theorem onlyBinds_username (hk : k = .username) (hc : ∃ u ∈ w.users.rows, u.id = c)
    (h : ∀ u ∈ w.users.rows, u.id = c → u.username = target) : OnlyBinds w w' c k target := by
  subst hk
  have same : ∀ u ∈ w.users.rows, ∀ u' ∈ w'.users.rows, u'.id = u.id → u' = u :=
    fun u hu u' hu' hid => (eq_bindRow hrows hu hu' hid).trans (bindRow_username hc h hu)
  refine ⟨ids_bound hrows, ?_, ?_, ?_, ?_, ?_⟩
  · intro u hu u' hu' hid _
    exact ⟨.email, u.email, nofun, same u hu u' hu' hid⟩
  · intro u hu u' hu' hid _
    exact .inl (same u hu u' hu' hid)
  · intro u hu u' hu' hid
    rw [same u hu u' hu' hid]
  · intro u hu u' hu' hid hne
    rwa [same u hu u' hu' hid]
  · intro u' hu'
    rw [hrows] at hu'
    obtain ⟨u, hu, rfl⟩ := List.mem_map.mp hu'
    rw [bindRow_username hc h hu]
    constructor
    · intro hf
      obtain ⟨v, hv, rfl⟩ := hc
      have hname : u.username = v.username := hf.trans (h v hv rfl).symm
      exact congrArg User.id (List.inj_on_of_nodup_map w.users.usernames hu hv hname)
    · exact h u hu

theorem bindable_of_onlyBinds (h : OnlyBinds w w' c k target) :
    Bindable w.users.rows c k target := by
  have mem {u : User} (hu : u ∈ w.users.rows) :
      bindRow ((usersWith k target w.users.rows).head?.map User.id) c k target u ∈ w'.users.rows :=
    hrows ▸ List.mem_map_of_mem hu
  by_cases hk : k = .username
  · refine .inr ⟨hk, fun u hu hc => ?_⟩
    rw [← h.usernames u hu _ (mem hu) (id_bindRow _ _ _ _ _), bindRow_caller hc, hk]
    rfl
  · refine .inl ⟨hk, fun u hu hc hf => ?_⟩
    have hs := h.sole _ (mem hu)
    rw [id_bindRow] at hs
    by_cases hh : (usersWith k target w.users.rows).head?.map User.id = some u.id
    · refine ⟨fun ht => hc (hs.mp ?_), hh⟩
      rw [bindRow_holder hc hh, User.field_setField_self, ht]
    · exact absurd (hs.mp (by rw [bindRow_other hc hh, hf])) hc

end

def sampleUser : User where
  id := 2
  username := "mallory"
  nickname := "Mallory"
  avatar := ""
  phone := ""
  email := "mallory@example.com"
  password := "pbkdf2$m"
  is_active := true
  is_superuser := false
  modifier := none

/-- `sampleWorld` with a second user. -/
def sampleUsers : World :=
  { sampleWorld with users := ⟨[sampleUser, sampleAdmin], by decide, by decide⟩ }

/-- `bind` with the token `T` and the code `123456`. -/
def sampleBind : VerifyRequest where
  ip := "10.0.0.1"
  verify_token := some "T"
  verify_code := some "123456"

/-- `sampleUsers` once a code is sent to a new address. -/
def sampleSent : World :=
  (serve ((sampleSend .bind_email .email "new@example.com").handler sampleEnv) sampleUsers).2

end InfraHub.Auth
