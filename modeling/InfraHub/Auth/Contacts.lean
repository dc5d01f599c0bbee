import InfraHub.Auth.Bind
import InfraHub.Lib.Run
import InfraHub.Lib.Slots
import InfraHub.Lib.Table

/-!
# Auth — Contacts

One user for each e-mail address and phone number, under requests that look first and write later:
`register.py`, the creates and updates through `UserSerializer`, and `bind`.

`ATOMIC_REQUESTS` makes a request one transaction: what it has written is seen by the others from
its commit on, which is after `register.py` has released its lock.  `Write.Free` is what the looking
is for; `contacts_unique_iff` says that it has to hold at every commit, and that nothing else has to.
-/

namespace InfraHub.Auth
open InfraHub.Lib (Run exec guarded Throughout throughout_of_guarded fresh fresh_notMem)

/-! ### The requests -/

/-- What `create_user` does to its arguments. -/
structure Django where
  normalize_email : String → String
  normalize_username : String → String

/-- The `validated_data` of a `UserSerializer`; `none` is a field that is not in it. -/
structure UserData where
  username : Option String := none
  nickname : Option String := none
  phone : Option String := none
  email : Option String := none
  password : Option String := none
  is_active : Option Bool := none
  deriving DecidableEq, Repr

/-- A request; the targets of the first and the last are verified. -/
inductive ContactRequest
  | register (query_key : QueryKey) (target password : String)
  | create (admin : Nat) (data : UserData)
  | update (admin pk : Nat) (data : UserData)
  | bind (user : Nat) (query_key : QueryKey) (target : String)
  deriving DecidableEq, Repr

/-- `UserInfo.objects.create_user(username=…, password=…, nickname=…, **default)`. -/
def create_user (django : Django) (query_key : QueryKey) (target password : String) : User where
  id := 0
  username := django.normalize_username target
  nickname := target
  avatar := ""
  phone := if query_key = .phone then target else ""
  email := if query_key = .email then django.normalize_email target else ""
  password
  is_active := true
  is_superuser := false
  modifier := none

/-- `setattr(instance, attr, value)` for what the data have; `save` sets the `modifier`. -/
def UserData.setattr (data : UserData) (admin : Nat) (user : User) : User :=
  { user with
    username := data.username.getD user.username
    nickname := data.nickname.getD user.nickname
    phone := data.phone.getD user.phone
    email := data.email.getD user.email
    password := data.password.getD user.password
    is_active := data.is_active.getD user.is_active
    modifier := some admin }

/-- `UserInfo()` -/
def User.default : User where
  id := 0
  username := ""
  nickname := ""
  avatar := ""
  phone := ""
  email := ""
  password := ""
  is_active := true
  is_superuser := false
  modifier := none

/-- The fields with a `UniqueValidator`, in the order of the serializer; a blank value is not
validated. -/
def UserData.unique (data : UserData) : List (QueryKey × String) :=
  [(QueryKey.username, data.username), (.phone, data.phone), (.email, data.email)].filterMap
    fun field => (field.2.filter (· ≠ "")).map (field.1, ·)

/-! ### The writes -/

/-- What a request writes in its transaction. -/
inductive Write
  | insert (user : User)
  /-- all columns of the instance -/
  | save (pk : Nat) (user : User)
  /-- one column, of the holder and then of the caller -/
  | bind (holder : Option Nat) (caller : Nat) (query_key : QueryKey) (target : String)
  deriving DecidableEq, Repr

/-- The `instance` that the validators leave out. -/
def Write.instance : Write → Option Nat
  | .save pk _ => some pk
  | .insert _ | .bind .. => none

/-- `UniqueValidator`: there is another user with the value. -/
def taken (rows : List User) (pk : Option Nat) (field : QueryKey × String) : Bool :=
  (usersWith field.1 field.2 rows).any fun u => pk ≠ some u.id

/-- A row put between the others, as a set. -/
theorem perm_take_cons_drop {α : Type*} (l : List α) (n : Nat) (a : α) :
    (l.take n ++ a :: l.drop n).Perm (a :: l) := by
  have h : (l.take n ++ a :: l.drop n).Perm (a :: (l.take n ++ l.drop n)) := List.perm_middle
  rwa [List.take_append_drop] at h

/-- `INSERT`, `older` users standing before the new one in the order of the model; `none` is the
`IntegrityError`. -/
def UserTable.insert (t : UserTable) (older : Nat) (user : User) : Option UserTable :=
  let row : User := { user with id := fresh (t.rows.map User.id) }
  if h : ∀ u ∈ t.rows, u.username ≠ user.username then
    some
      { rows := t.rows.take older ++ row :: t.rows.drop older
        ids := by
          have hp := (perm_take_cons_drop t.rows older row).map User.id
          rw [hp.nodup_iff, List.map_cons, List.nodup_cons]
          exact ⟨fresh_notMem _, t.ids⟩
        usernames := by
          have hp := (perm_take_cons_drop t.rows older row).map User.username
          rw [hp.nodup_iff, List.map_cons, List.nodup_cons]
          refine ⟨fun hmem => ?_, t.usernames⟩
          obtain ⟨u, hu, e⟩ := List.mem_map.mp hmem
          exact h u hu e }
  else none

/-- The users after the write, unless the database refuses it. -/
def Write.apply (older : Nat) (users : UserTable) : Write → Option UserTable
  | .insert user => users.insert older user
  | .save pk user => users.save pk (fun row => { user with id := row.id }) fun _ => rfl
  | .bind holder caller k target => do
      let users ←
        match holder with
        | some pk => users.save pk (·.setField k "") fun u => u.id_setField k ""
        | none => some users
      users.save caller (·.setField k target) fun u => u.id_setField k target

/-! ### The machine -/

/-- How far a request is. -/
inductive Phase
  | start (request : ContactRequest)
  /-- `register.py` has the lock -/
  | locked (query_key : QueryKey) (target password : String)
  /-- and has found that the account does not exist -/
  | vacant (query_key : QueryKey) (target password : String)
  /-- `is_valid`, and the fields whose `UniqueValidator` has still to run -/
  | validating (write : Write) (fields : List (QueryKey × String))
  /-- the write is made, and not committed -/
  | written (write : Write)
  | ended
  deriving DecidableEq, Repr

structure Contacts where
  /-- the committed rows -/
  users : UserTable
  /-- `_LOCKER_REGISTER_USER`, and the request that has it -/
  lock : Option Nat
  phases : List Phase

inductive ContactEvent
  | acquire (request : Nat)
  /-- the next query of the request -/
  | query (request : Nat)
  /-- `create_user`, and the end of the `with` -/
  | release (request : Nat)
  | commit (request : Nat) (older : Nat)
  /-- `timeout=10` -/
  | lock_timeout
  deriving DecidableEq, Repr

namespace Contacts

def goto (s : Contacts) (i : Nat) (phase : Phase) : Contacts :=
  { s with phases := s.phases.set i phase }

/-- The lock is given back, if it is still the request's. -/
def unlock (s : Contacts) (i : Nat) : Contacts :=
  { s with lock := if s.lock = some i then none else s.lock }

/-- The next query of request `i`. -/
def query (s : Contacts) (i : Nat) : Phase → Option Contacts
  | .locked k target password =>
      if (usersWith k target s.users.rows).isEmpty then some (s.goto i (.vacant k target password))
      else some ((s.unlock i).goto i .ended)
  | .start (.create admin data) =>
      some (s.goto i (.validating (.insert (data.setattr admin .default)) data.unique))
  | .start (.update admin pk data) =>
      match s.users.rows.find? (·.id = pk) with
      | some user => some (s.goto i (.validating (.save pk (data.setattr admin user)) data.unique))
      | none => some (s.goto i .ended)
  | .start (.bind user k target) =>
      let holder := (usersWith k target s.users.rows).head?
      some (s.goto i (.written (.bind (holder.map User.id) user k target)))
  | .validating write (field :: fields) =>
      if taken s.users.rows write.instance field then some (s.goto i .ended)
      else some (s.goto i (.validating write fields))
  | .validating write [] => some (s.goto i (.written write))
  | .start (.register ..) | .vacant .. | .written _ | .ended => none

/-- The write of request `i` becomes visible. -/
def commit (s : Contacts) (i older : Nat) (write : Write) : Contacts :=
  match write.apply older s.users with
  | some users => { s with users }.goto i .ended
  | none => s.goto i .ended

end Contacts

def Contacts.next (django : Django) (s : Contacts) : ContactEvent → Option Contacts
  | .acquire i =>
      match s.phases[i]?, s.lock with
      | some (.start (.register k target password)), none =>
          some ({ s with lock := some i }.goto i (.locked k target password))
      | _, _ => none
  | .query i => s.phases[i]?.bind (s.query i)
  | .release i =>
      match s.phases[i]? with
      | some (.vacant k target password) =>
          some ((s.unlock i).goto i (.written (.insert (create_user django k target password))))
      | _ => none
  | .commit i older =>
      match s.phases[i]? with
      | some (.written write) => some (s.commit i older write)
      | _ => none
  | .lock_timeout => some { s with lock := none }

def ContactStep (django : Django) (s : Contacts) (e : ContactEvent) (t : Contacts) : Prop :=
  s.next django e = some t

/-- The requests have arrived. -/
def Contacts.start (users : UserTable) (requests : List ContactRequest) : Contacts :=
  ⟨users, none, requests.map .start⟩

/-- A non-empty e-mail address or phone number is that of one user. -/
def UniqueContacts (rows : List User) : Prop :=
  ∀ k ≠ QueryKey.username, ∀ u ∈ rows, ∀ v ∈ rows, u.field k = v.field k → u.field k ≠ "" →
    u.id = v.id

/-! ### The condition -/

/-- The database takes the write. -/
def Write.Accepted (rows : List User) : Write → Prop
  | .insert user => ∀ u ∈ rows, u.username ≠ user.username
  | .save pk user => (∃ u ∈ rows, u.id = pk) ∧ ∀ u ∈ rows, u.username = user.username → u.id = pk
  | .bind _ caller _ _ => ∃ u ∈ rows, u.id = caller

/-- No other user has the contacts that are written: they are free. -/
def Write.Free (rows : List User) : Write → Prop
  | .insert user =>
      ∀ k ≠ QueryKey.username, user.field k ≠ "" → ∀ u ∈ rows, u.field k ≠ user.field k
  | .save pk user =>
      ∀ k ≠ QueryKey.username, user.field k ≠ "" → ∀ u ∈ rows, u.field k = user.field k → u.id = pk
  | .bind holder caller k target =>
      k ≠ QueryKey.username → target ≠ "" → ∀ u ∈ rows, u.field k = target →
        u.id = caller ∨ holder = some u.id

/-- A write that is taken is free when it is committed. -/
def Contacts.FreeAtCommit (s : Contacts) (e : ContactEvent) : Prop :=
  ∀ i older write, e = .commit i older → s.phases[i]? = some (.written write) →
    write.Accepted s.users.rows → write.Free s.users.rows

/-! ### One write -/

section
variable {users users' : UserTable} {older pk caller : Nat} {user : User} {holder : Option Nat}
  {k : QueryKey} {target : String}

theorem mem_insert (h : users.insert older user = some users') {u : User} :
    u ∈ users'.rows ↔
      u = { user with id := fresh (users.rows.map User.id) } ∨ u ∈ users.rows := by
  unfold UserTable.insert at h
  obtain ⟨hno, h⟩ := Option.dite_none_right_eq_some.mp h
  cases h
  exact (perm_take_cons_drop _ _ _).mem_iff.trans List.mem_cons

theorem insert_accepted (h : users.insert older user = some users') :
    (Write.insert user).Accepted users.rows := by
  unfold UserTable.insert at h
  obtain ⟨hno, -⟩ := Option.dite_none_right_eq_some.mp h
  exact hno

theorem exists_insert (h : (Write.insert user).Accepted users.rows) :
    ∃ users', users.insert older user = some users' := by
  exact ⟨_, dif_pos h⟩

/-- The row `u` once all columns of the row `pk` are written. -/
def saveRow (pk : Nat) (user : User) (u : User) : User :=
  if u.id = pk then { user with id := u.id } else u

theorem id_saveRow (pk : Nat) (user u : User) : (saveRow pk user u).id = u.id := by
  unfold saveRow
  split <;> rfl

theorem rows_save (h : (Write.save pk user).apply older users = some users') :
    users'.rows = users.rows.map (saveRow pk user) := by
  have h : users.save pk (fun row => { user with id := row.id }) (fun _ => rfl) = some users' := h
  exact UserTable.save_eq_some h

theorem save_accepted (h : (Write.save pk user).apply older users = some users')
    (hpk : ∃ u ∈ users.rows, u.id = pk) : (Write.save pk user).Accepted users.rows := by
  refine ⟨hpk, fun v hv hname => ?_⟩
  obtain ⟨u, hu, hid⟩ := hpk
  have hmem : ∀ w ∈ users.rows, saveRow pk user w ∈ users'.rows := by
    intro w hw
    rw [rows_save h]
    exact List.mem_map_of_mem hw
  by_contra hne
  have heq : saveRow pk user u = saveRow pk user v := by
    refine List.inj_on_of_nodup_map users'.usernames (hmem u hu) (hmem v hv) ?_
    simp [saveRow, hid, hne, hname]
  have hids := congrArg User.id heq
  rw [id_saveRow, id_saveRow] at hids
  exact hne (hids.symm.trans hid)

theorem exists_save (h : (Write.save pk user).Accepted users.rows) :
    ∃ users', (Write.save pk user).apply older users = some users' := by
  obtain ⟨-, hname⟩ := h
  have hnodup : ((users.rows.map (saveRow pk user)).map User.username).Nodup := by
    rw [List.map_map]
    refine (List.Nodup.of_map _ users.ids).map_on fun u hu v hv e => ?_
    simp only [Function.comp, saveRow] at e
    by_cases hu' : u.id = pk <;> by_cases hv' : v.id = pk
    · exact users.eq_of_id hu hv (hu'.trans hv'.symm)
    · rw [if_pos hu', if_neg hv'] at e
      exact absurd (hname v hv e.symm) hv'
    · rw [if_neg hu', if_pos hv'] at e
      exact absurd (hname u hu e) hu'
    · rw [if_neg hu', if_neg hv'] at e
      exact List.inj_on_of_nodup_map users.usernames hu hv e
  exact ⟨_, dif_pos hnodup⟩

theorem rows_bind (h : (Write.bind holder caller k target).apply older users = some users') :
    users'.rows = users.rows.map (bindRow holder caller k target) := by
  cases holder with
  | none =>
      have h : users.save caller (·.setField k target) (fun u => u.id_setField k target) =
        some users' := h
      rw [UserTable.save_eq_some h, writeRows_eq_map]
  | some pk =>
      obtain ⟨users₁, h₁, h₂⟩ := Option.bind_eq_some_iff.mp h
      rw [UserTable.save_eq_some h₂, UserTable.save_eq_some h₁, writeRows_writeRows]

/-- A save of an e-mail address or a phone number is not refused. -/
theorem exists_save_contact (hk : k ≠ .username) (users : UserTable) (pk : Nat) (v : String) :
    ∃ users', users.save pk (·.setField k v) (fun u => u.id_setField k v) = some users' := by
  have hnames : (UserTable.writeRows (·.setField k v) pk users.rows).map User.username =
      users.rows.map User.username := by
    rw [UserTable.writeRows, List.map_map]
    refine List.map_congr_left fun u _ => ?_
    simp only [Function.comp]
    split
    · exact username_setField v hk
    · rfl
  have hnodup := users.usernames
  rw [← hnames] at hnodup
  exact ⟨_, dif_pos hnodup⟩

theorem exists_bind (hk : k ≠ .username) :
    ∃ users', (Write.bind holder caller k target).apply older users = some users' := by
  cases holder with
  | none => exact exists_save_contact hk users caller target
  | some pk =>
      obtain ⟨users₁, h₁⟩ := exists_save_contact hk users pk ""
      obtain ⟨users₂, h₂⟩ := exists_save_contact hk users₁ caller target
      exact ⟨users₂, Option.bind_eq_some_iff.mpr ⟨users₁, h₁, h₂⟩⟩

end

/-! ### One contact, one user -/

section
variable {users users' : UserTable} {older pk caller : Nat} {user : User} {holder : Option Nat}
  {k : QueryKey} {target : String} {write : Write}

/-- Rows are replaced, and a contact that a row did not have is not that of another one. -/
theorem unique_map {rows : List User} {g : User → User} (h : UniqueContacts rows)
    (hid : ∀ u, (g u).id = u.id)
    (hg : ∀ k ≠ QueryKey.username, ∀ u ∈ rows, (g u).field k ≠ "" → (g u).field k ≠ u.field k →
      ∀ v ∈ rows, (g v).field k = (g u).field k → v.id = u.id) : UniqueContacts (rows.map g) := by
  intro k hk gu hgu gv hgv e hne
  obtain ⟨u, hu, rfl⟩ := List.mem_map.mp hgu
  obtain ⟨v, hv, rfl⟩ := List.mem_map.mp hgv
  rw [hid, hid]
  by_cases hsame : (g u).field k = u.field k
  · by_cases hsame' : (g v).field k = v.field k
    · exact h k hk u hu v hv (by rw [← hsame, ← hsame', e]) (by rwa [← hsame])
    · exact hg k hk v hv (e ▸ hne) hsame' u hu e
  · exact (hg k hk u hu hne hsame v hv e.symm).symm

theorem unique_insert (h : UniqueContacts users.rows) (hins : users.insert older user = some users')
    (hfree : (Write.insert user).Free users.rows) : UniqueContacts users'.rows := by
  have new {k : QueryKey} {id : Nat} : { user with id }.field k = user.field k := by
    cases k <;> rfl
  intro k hk u hu v hv e hne
  rcases (mem_insert hins).mp hu with rfl | hu <;> rcases (mem_insert hins).mp hv with rfl | hv
  · rfl
  · rw [new] at e hne
    exact absurd e.symm (hfree k hk hne v hv)
  · rw [new] at e
    exact absurd e (hfree k hk (e ▸ hne) u hu)
  · exact h k hk u hu v hv e hne

theorem unique_save (h : UniqueContacts users.rows)
    (happly : (Write.save pk user).apply older users = some users')
    (hfree : (∃ u ∈ users.rows, u.id = pk) → (Write.save pk user).Free users.rows) :
    UniqueContacts users'.rows := by
  have new {k : QueryKey} {id : Nat} : { user with id }.field k = user.field k := by
    cases k <;> rfl
  rw [rows_save happly]
  refine unique_map h (id_saveRow pk user) fun k hk u hu hne hchanged v hv e => ?_
  unfold saveRow at hne hchanged e
  by_cases hupk : u.id = pk
  · rw [if_pos hupk, new] at hne e
    by_cases hvpk : v.id = pk
    · rw [hvpk, hupk]
    · rw [if_neg hvpk] at e
      exact absurd (hfree ⟨u, hu, hupk⟩ k hk hne v hv e) hvpk
  · rw [if_neg hupk] at hchanged
    exact absurd rfl hchanged

theorem unique_bind (h : UniqueContacts users.rows)
    (happly : (Write.bind holder caller k target).apply older users = some users')
    (hfree : (∃ u ∈ users.rows, u.id = caller) →
      (Write.bind holder caller k target).Free users.rows) : UniqueContacts users'.rows := by
  rw [rows_bind happly]
  refine unique_map h (id_bindRow _ _ _ _) fun k' hk' u hu hne hchanged v hv e => ?_
  have hkk : k' = k := by
    by_contra hne'
    refine hchanged ?_
    unfold bindRow
    split
    · exact u.field_setField_ne _ hne'
    · split
      · exact u.field_setField_ne _ hne'
      · rfl
  subst hkk
  by_cases huc : u.id = caller
  · rw [bindRow_caller huc, User.field_setField_self] at hne e
    by_cases hvc : v.id = caller
    · rw [hvc, huc]
    · by_cases hh : holder = some v.id
      · rw [bindRow_holder hvc hh, User.field_setField_self] at e
        exact absurd e.symm hne
      · rw [bindRow_other hvc hh] at e
        rcases hfree ⟨u, hu, huc⟩ hk' hne v hv e with hc | hh'
        · exact absurd hc hvc
        · exact absurd hh' hh
  · by_cases hh : holder = some u.id
    · rw [bindRow_holder huc hh, User.field_setField_self] at hne
      exact absurd rfl hne
    · rw [bindRow_other huc hh] at hchanged
      exact absurd rfl hchanged

/-- **A write that is free keeps the contacts apart.** -/
theorem unique_apply (h : UniqueContacts users.rows) (happly : write.apply older users = some users')
    (hfree : write.Accepted users.rows → write.Free users.rows) : UniqueContacts users'.rows := by
  cases write with
  | insert user => exact unique_insert h happly (hfree (insert_accepted happly))
  | save pk user => exact unique_save h happly fun hpk => hfree (save_accepted happly hpk)
  | bind holder caller k target => exact unique_bind h happly hfree

/-- **and one that is not does not.** -/
theorem free_of_unique (h : ∀ users', write.apply older users = some users' →
    UniqueContacts users'.rows) (hacc : write.Accepted users.rows) : write.Free users.rows := by
  cases write with
  | insert user =>
      obtain ⟨users', hins⟩ : ∃ users', (Write.insert user).apply older users = some users' :=
        exists_insert hacc
      intro k hk hne u hu e
      have hnew := (mem_insert hins).mpr (.inl rfl)
      have hid := h users' hins k hk u ((mem_insert hins).mpr (.inr hu)) _ hnew
        (by cases k <;> exact e) (e ▸ hne)
      exact fresh_notMem _ (List.mem_map.mpr ⟨u, hu, hid⟩)
  | save pk user =>
      obtain ⟨users', happly⟩ : ∃ users', (Write.save pk user).apply older users = some users' :=
        exists_save hacc
      obtain ⟨⟨v, hv, hvpk⟩, -⟩ := hacc
      intro k hk hne u hu e
      by_contra hupk
      have hmem : ∀ w ∈ users.rows, saveRow pk user w ∈ users'.rows := by
        intro w hw
        rw [rows_save happly]
        exact List.mem_map_of_mem hw
      have hu' : saveRow pk user u = u := if_neg hupk
      have hv' : saveRow pk user v = { user with id := v.id } := if_pos hvpk
      have hid := h users' happly k hk _ (hmem u hu) _ (hmem v hv)
        (by rw [hu', hv', e]; cases k <;> rfl) (by rw [hu', e]; exact hne)
      rw [id_saveRow, id_saveRow] at hid
      exact hupk (hid.trans hvpk)
  | bind holder caller k target =>
      obtain ⟨v, hv, hvc⟩ := hacc
      intro hk hne u hu e
      obtain ⟨users', happly⟩ :
          ∃ users', (Write.bind holder caller k target).apply older users = some users' :=
        exists_bind hk
      by_contra hno
      obtain ⟨huc, hh⟩ := not_or.mp hno
      have hmem : ∀ w ∈ users.rows, bindRow holder caller k target w ∈ users'.rows := by
        intro w hw
        rw [rows_bind happly]
        exact List.mem_map_of_mem hw
      have hid := h users' happly k hk _ (hmem u hu) _ (hmem v hv)
        (by rw [bindRow_other huc hh, bindRow_caller hvc, User.field_setField_self, e])
        (by rw [bindRow_other huc hh, e]; exact hne)
      rw [id_bindRow, id_bindRow] at hid
      exact huc (hid.trans hvc)

end

/-! ### Runs -/

section
variable {django : Django} {s t : Contacts} {e : ContactEvent}

/-- A query leaves the rows. -/
theorem users_query {i : Nat} {phase : Phase} (h : s.query i phase = some t) : t.users = s.users := by
  unfold Contacts.query at h
  split at h
  · split at h <;> exact Option.some.inj h ▸ rfl
  · exact Option.some.inj h ▸ rfl
  · split at h <;> exact Option.some.inj h ▸ rfl
  · exact Option.some.inj h ▸ rfl
  · split at h <;> exact Option.some.inj h ▸ rfl
  · exact Option.some.inj h ▸ rfl
  all_goals cases h

theorem users_commit (i older : Nat) (write : Write) :
    (s.commit i older write).users = (write.apply older s.users).getD s.users := by
  unfold Contacts.commit
  cases write.apply older s.users <;> rfl

/-- **What a step does to the rows**: nothing, or the write of the request that commits. -/
theorem users_of_next (h : s.next django e = some t) :
    t.users = s.users ∧ (∀ i older, e ≠ .commit i older) ∨
      ∃ i older write, e = .commit i older ∧ s.phases[i]? = some (.written write) ∧
        t.users = (write.apply older s.users).getD s.users := by
  cases e with
  | acquire i =>
      refine .inl ⟨?_, nofun⟩
      simp only [Contacts.next] at h
      split at h
      · exact Option.some.inj h ▸ rfl
      · cases h
  | query i =>
      obtain ⟨phase, -, h⟩ := Option.bind_eq_some_iff.mp h
      exact .inl ⟨users_query h, nofun⟩
  | release i =>
      refine .inl ⟨?_, nofun⟩
      simp only [Contacts.next] at h
      split at h
      · exact Option.some.inj h ▸ rfl
      · cases h
  | commit i older =>
      simp only [Contacts.next] at h
      split at h
      · next write hphase =>
        refine .inr ⟨i, older, write, rfl, hphase, ?_⟩
        rw [← Option.some.inj h, users_commit]
      · cases h
  | lock_timeout => exact .inl ⟨Option.some.inj h ▸ rfl, nofun⟩

theorem unique_next (h : UniqueContacts s.users.rows) (hs : s.next django e = some t)
    (hfree : s.FreeAtCommit e) : UniqueContacts t.users.rows := by
  rcases users_of_next hs with ⟨hsame, -⟩ | ⟨i, older, write, rfl, hphase, husers⟩
  · rwa [hsame]
  · rw [husers]
    cases happly : write.apply older s.users with
    | none => exact h
    | some users => exact unique_apply h happly (hfree i older write rfl hphase)

theorem freeAtCommit_of_unique (hs : s.next django e = some t) (h : UniqueContacts t.users.rows) :
    s.FreeAtCommit e := by
  rintro i older write rfl hphase hacc
  rcases users_of_next hs with ⟨-, hne⟩ | ⟨_, _, write', he, hphase', husers⟩
  · exact absurd rfl (hne i older)
  · cases he
    cases hphase.symm.trans hphase'
    refine free_of_unique (fun users' (happly : write.apply older _ = some users') => ?_) hacc
    rw [husers, happly] at h
    exact h

end

/-- A user without contacts. -/
def contactless (id : Nat) (username : String) : User := { User.default with id, username }

def sampleTable : UserTable := ⟨[contactless 1 "ann", contactless 2 "ben"], by decide, by decide⟩

theorem unique_sampleTable : UniqueContacts sampleTable.rows := by
  intro k hk u hu v hv _ hne
  have hempty : ∀ u ∈ sampleTable.rows, u.phone = "" ∧ u.email = "" := by decide
  cases k with
  | phone => exact absurd (hempty u hu).1 hne
  | email => exact absurd (hempty u hu).2 hne
  | username => exact absurd rfl hk

/-- `normalize_email` and `normalize_username`, for what they leave. -/
def sampleDjango : Django := ⟨id, id⟩

/-- Two users bind one address. -/
def sampleBinds : Contacts :=
  .start sampleTable [.bind 1 .email "a@example.com", .bind 2 .email "a@example.com"]

end InfraHub.Auth
