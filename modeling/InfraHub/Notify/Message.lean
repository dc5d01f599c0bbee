import InfraHub.Lib.Prog
import Mathlib.Data.List.Nodup

/-!
# Notify — Message

The site messages, and `MessageUserRead`, which is two things at once: the read mark a user leaves
on a message, and the through table that addresses a message to a user.

* `list`: what a user sees.
* `read_message`: marks messages as read, whoever they are addressed to.
* `batch_read`, `all_read`: one request each, in a transaction of its own.
-/

namespace InfraHub.Notify
open InfraHub.Lib (Prog)
open InfraHub.Lib.Prog (exec forEach)

inductive NoticeChoices
  | SYSTEM
  | NOTICE
  | USER
  | DEPT
  | ROLE
  deriving DecidableEq, Repr

structure MessageContent where
  id : Nat
  notice_type : NoticeChoices
  notice_dept : List Nat
  notice_role : List Nat
  publish : Bool
  deriving DecidableEq, Repr

def get_user_choices : List NoticeChoices := [.USER, .SYSTEM]

structure MessageUserRead where
  owner : Nat
  notice : Nat
  unread : Bool
  updated_time : Nat
  deriving DecidableEq, Repr

/-- `unique_together`. -/
def MessageUserRead.key (r : MessageUserRead) : Nat × Nat := (r.owner, r.notice)

structure UserInfo where
  id : Nat
  dept : Option Nat
  roles : List Nat
  deriving DecidableEq, Repr

/-! ### The tables -/

/-- The tables inside a transaction; `clock` is the time of the next save. -/
@[ext]
structure Tables where
  messages : List MessageContent
  reads : List MessageUserRead
  clock : Nat
  ids : (messages.map MessageContent.id).Nodup
  unique : (reads.map MessageUserRead.key).Nodup
  stamped : ∀ r ∈ reads, r.updated_time < clock

namespace Tables

/-- There is a message `pk`. -/
def existing (t : Tables) (pk : Nat) : Bool := pk ∈ t.messages.map MessageContent.id

/-- The foreign key `notice` points somewhere. -/
def References (t : Tables) : Prop := ∀ r ∈ t.reads, t.existing r.notice

instance (t : Tables) : Decidable t.References :=
  inferInstanceAs (Decidable (∀ r ∈ t.reads, t.existing r.notice))

/-- There is a row of `owner` for `pk`. -/
def Has (t : Tables) (owner pk : Nat) : Prop := (owner, pk) ∈ t.reads.map MessageUserRead.key

instance (t : Tables) (owner pk : Nat) : Decidable (t.Has owner pk) :=
  inferInstanceAs (Decidable (_ ∈ _))

/-- Change the columns of some rows, but not their keys. -/
def edit (t : Tables) (f : MessageUserRead → MessageUserRead) (clock : Nat)
    (hkey : ∀ r, (f r).key = r.key)
    (htime : ∀ r, r.updated_time < t.clock → (f r).updated_time < clock) : Tables where
  messages := t.messages
  reads := t.reads.map f
  clock
  ids := t.ids
  unique := by
    rw [List.map_map, show MessageUserRead.key ∘ f = MessageUserRead.key from funext hkey]
    exact t.unique
  stamped := by
    intro r hr
    obtain ⟨s, hs, rfl⟩ := List.mem_map.mp hr
    exact htime s (t.stamped s hs)

/-- `filter(notice__id__in=pks, owner=owner, unread=True).update(unread=False)`. -/
def update_unread (owner : Nat) (pks : List Nat) (t : Tables) : Tables :=
  t.edit
    (fun r => if r.owner = owner ∧ r.notice ∈ pks ∧ r.unread then { r with unread := false } else r)
    t.clock (fun r => by split <;> rfl) (fun r h => by split <;> exact h)

/-- Save the row of `owner` for `pk` as read. -/
def touch (owner pk : Nat) (t : Tables) : Tables :=
  t.edit
    (fun r => if r.key = (owner, pk) then { r with unread := false, updated_time := t.clock } else r)
    (t.clock + 1) (fun r => by split <;> rfl)
    (fun r h => by
      split
      · exact Nat.lt_succ_self _
      · exact Nat.lt_succ_of_lt h)

/-- Insert a read row of `owner` for `pk`. -/
def insert (owner pk : Nat) (t : Tables) (h : ¬ t.Has owner pk) : Tables where
  messages := t.messages
  reads := t.reads ++ [⟨owner, pk, false, t.clock⟩]
  clock := t.clock + 1
  ids := t.ids
  unique := by
    rw [List.map_append, List.map_singleton, ← List.concat_eq_append]
    exact t.unique.concat h
  stamped := by
    intro r hr
    rcases List.mem_append.mp hr with hr | hr
    · exact Nat.lt_succ_of_lt (t.stamped r hr)
    · rw [List.mem_singleton.mp hr]
      exact Nat.lt_succ_self _

/-- The tables after `update_or_create(owner=…, notice_id=pk, defaults={"unread": False})`. -/
def stamp (owner : Nat) (t : Tables) (pk : Nat) : Tables :=
  if h : t.Has owner pk then t.touch owner pk else t.insert owner pk h

end Tables

/-- The tables between requests. -/
structure MessageDb extends Tables where
  references : toTables.References

/-! ### What a user sees -/

/-- `notice_dept=user_obj.dept`; a user without department gets the messages without one. -/
def MessageContent.for_dept (m : MessageContent) : Option Nat → Bool
  | some dept => dept ∈ m.notice_dept
  | none => m.notice_dept.isEmpty

def get_users_notice_q (u : UserInfo) (m : MessageContent) : Bool :=
  m.notice_type = .NOTICE ||
  (m.notice_type = .DEPT && m.for_dept u.dept) ||
  (m.notice_type = .ROLE && m.notice_role.any (· ∈ u.roles))

def get_user_unread_q1 (u : UserInfo) (t : Tables) (m : MessageContent) : Bool :=
  get_users_notice_q u m && !decide (t.Has u.id m.id)

def get_user_unread_q2 (u : UserInfo) (t : Tables) (m : MessageContent) : Bool :=
  m.notice_type ∈ get_user_choices && t.reads.any fun r => r.key = (u.id, m.id) && r.unread

def get_user_unread_q (u : UserInfo) (t : Tables) (m : MessageContent) : Bool :=
  get_user_unread_q1 u t m || get_user_unread_q2 u t m

/-- The messages of `UserSiteMessageViewSet.list`, with no query parameters. -/
def list (u : UserInfo) (t : Tables) : List MessageContent :=
  t.messages.filter fun m =>
    m.publish &&
      (get_users_notice_q u m || (m.notice_type ∈ get_user_choices && t.Has u.id m.id))

/-- The user sees the message `pk`. -/
def Visible (u : UserInfo) (t : Tables) (pk : Nat) : Prop := ∃ m ∈ list u t, m.id = pk

instance (u : UserInfo) (t : Tables) (pk : Nat) : Decidable (Visible u t pk) :=
  inferInstanceAs (Decidable (∃ m ∈ _, _))

/-! ### Marking as read -/

/-- When the database checks a foreign key: at the statement (MySQL) or at the commit
(PostgreSQL, SQLite). -/
inductive ForeignKeys
  | immediate
  | deferred
  deriving DecidableEq, Repr

inductive Fault
  | integrity
  deriving DecidableEq, Repr

/-- `update_or_create`; an insert without a message is refused where foreign keys are checked at the
statement. -/
def update_or_create (fk : ForeignKeys) (owner pk : Nat) : Prog Tables Fault Unit := do
  let refused ← Prog.read fun t => decide (fk = .immediate ∧ ¬ t.Has owner pk ∧ ¬ t.existing pk)
  if refused then Prog.raise .integrity else Prog.update fun t => t.stamp owner pk

def read_message (fk : ForeignKeys) (owner : Nat) (pks : List Nat) : Prog Tables Fault Unit :=
  if pks = [] then pure ()
  else do
    Prog.update (Tables.update_unread owner pks)
    forEach (update_or_create fk owner) pks

/-- A request in its transaction.  A refused statement has undone itself alone and the exception
handler answers without a rollback, so what was written before it is committed; a foreign key that
fails at the commit undoes everything. -/
def serve (m : Prog Tables Fault Unit) (db : MessageDb) : Except Fault Unit × MessageDb :=
  if h : (exec m db.toTables).2.References then
    ((exec m db.toTables).1, ⟨(exec m db.toTables).2, h⟩)
  else (.error .integrity, db)

/-- `PATCH batch-read` with the ids the client sends. -/
def batch_read (fk : ForeignKeys) (u : UserInfo) (pks : List Nat) (db : MessageDb) :
    Except Fault Unit × MessageDb :=
  serve (read_message fk u.id pks) db

/-- `PATCH all-read`; `filter_queryset` is the filter of the query parameters. -/
def all_read (fk : ForeignKeys) (u : UserInfo) (filter_queryset : MessageContent → Bool)
    (db : MessageDb) : Except Fault Unit × MessageDb :=
  let queryset := db.messages.filter fun m =>
    m.publish && filter_queryset m && get_user_unread_q u db.toTables m
  serve (read_message fk u.id (queryset.map MessageContent.id)) db

end InfraHub.Notify
