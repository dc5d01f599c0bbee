import InfraHub.Lib.Run
import InfraHub.Notify.Read
import Mathlib.Data.List.Dedup

/-!
# Notify — Inbox

Creating and updating messages, and what the filters on the unread mark show then.

A row of `MessageUserRead` for an announcement, a department or a role message stands for having read
it, whatever its mark says; but `notice_user` of such a message writes rows marked as unread.  Those
users find the message under neither filter (`partition_iff`), and `partition_of_run` says that only
this goes wrong.
-/

namespace InfraHub.Notify
open InfraHub.Lib (Run guarded)

/-! ### The filters -/

def get_notice_choices : List NoticeChoices := [.NOTICE, .DEPT, .ROLE]

/-- `UserSiteMessageViewSetFilter.unread_filter`; the two conditions on a row are on the same row. -/
def unread_filter (value : Bool) (u : UserInfo) (t : Tables) (m : MessageContent) : Bool :=
  if value then get_user_unread_q u t m
  else t.reads.any fun r => r.key = (u.id, m.id) && !r.unread

/-- `UserNoticeSerializer.get_unread`. -/
def get_unread (u : UserInfo) (t : Tables) (m : MessageContent) : Bool :=
  let queryset := t.reads.filter fun r => r.key = (u.id, m.id)
  if m.notice_type ∈ get_user_choices then queryset.any MessageUserRead.unread
  else if m.notice_type ∈ get_notice_choices then queryset.isEmpty
  else true

/-- Of what the user sees, each message is under one filter, and under `unread=true` where it is
serialised as unread. -/
def Partition (u : UserInfo) (t : Tables) : Prop :=
  ∀ m ∈ list u t, (unread_filter false u t m = !unread_filter true u t m) ∧
    unread_filter true u t m = get_unread u t m

instance (u : UserInfo) (t : Tables) : Decidable (Partition u t) :=
  inferInstanceAs (Decidable (∀ m ∈ _, _))

section
variable {u : UserInfo} {t : Tables} {m : MessageContent} {r : MessageUserRead}

theorem mem_notice_choices {c : NoticeChoices} : c ∈ get_notice_choices ↔ c ∉ get_user_choices := by
  cases c <;> decide

theorem users_notice_q_of_user (h : m.notice_type ∈ get_user_choices) : get_users_notice_q u m = false := by
  cases hm : m.notice_type <;> simp_all [get_users_notice_q, get_user_choices]

/-- The row of the user for the message. -/
theorem row_unique (hr : r ∈ t.reads) (hk : r.key = (u.id, m.id)) {s : MessageUserRead}
    (hs : s ∈ t.reads) (hks : s.key = (u.id, m.id)) : s = r :=
  List.inj_on_of_nodup_map t.unique hs hr (hks.trans hk.symm)

theorem unread_filter_false_iff :
    unread_filter false u t m = true ↔ ∃ r ∈ t.reads, r.key = (u.id, m.id) ∧ r.unread = false := by
  simp [unread_filter]

theorem has_iff : t.Has u.id m.id ↔ ∃ r ∈ t.reads, r.key = (u.id, m.id) := by
  simp [Tables.Has]

theorem partition_of_row {b : Bool} (hr : r ∈ t.reads) (hk : r.key = (u.id, m.id))
    (htrue : unread_filter true u t m = b) (hb : b = r.unread) :
    unread_filter false u t m = !unread_filter true u t m := by
  rw [htrue, hb, Bool.eq_iff_iff, unread_filter_false_iff]
  constructor
  · rintro ⟨s, hs, hks, hread⟩
    rw [← row_unique hr hk hs hks, hread]
    rfl
  · intro h
    exact ⟨r, hr, hk, by simpa using h⟩

/-- A message of the user's own: the mark of the row decides. -/
theorem partition_user (hr : r ∈ t.reads) (hk : r.key = (u.id, m.id))
    (htype : m.notice_type ∈ get_user_choices) :
    (unread_filter false u t m = !unread_filter true u t m) ∧
      unread_filter true u t m = get_unread u t m := by
  have htrue : unread_filter true u t m = r.unread := by
    rw [Bool.eq_iff_iff]
    simp only [unread_filter, if_true, get_user_unread_q, get_user_unread_q1, users_notice_q_of_user htype,
      Bool.false_and, Bool.false_or, get_user_unread_q2, htype, decide_true, Bool.true_and,
      List.any_eq_true, Bool.and_eq_true, decide_eq_true_eq]
    constructor
    · rintro ⟨s, hs, hks, hunread⟩
      exact row_unique hr hk hs hks ▸ hunread
    · intro h
      exact ⟨r, hr, hk, h⟩
  have hserialised : get_unread u t m = r.unread := by
    rw [Bool.eq_iff_iff, get_unread, if_pos htype]
    simp only [List.any_eq_true, List.mem_filter, decide_eq_true_eq]
    constructor
    · rintro ⟨s, ⟨hs, hks⟩, hunread⟩
      exact row_unique hr hk hs hks ▸ hunread
    · intro h
      exact ⟨r, ⟨hr, hk⟩, h⟩
  exact ⟨partition_of_row hr hk htrue rfl, htrue.trans hserialised.symm⟩

theorem unread_filter_true_notice (htype : m.notice_type ∉ get_user_choices)
    (hq : get_users_notice_q u m = true) : unread_filter true u t m = !decide (t.Has u.id m.id) := by
  simp [unread_filter, get_user_unread_q, get_user_unread_q1, get_user_unread_q2, htype, hq]

theorem get_unread_notice (htype : m.notice_type ∉ get_user_choices) :
    get_unread u t m = !decide (t.Has u.id m.id) := by
  rw [get_unread, if_neg htype, if_pos (mem_notice_choices.mpr htype), Bool.eq_iff_iff]
  simp only [List.isEmpty_iff, List.filter_eq_nil_iff, decide_eq_true_eq, Bool.not_eq_true',
    decide_eq_false_iff_not, has_iff, not_exists, not_and]

/-- A message to all, to departments or to roles: a row that is marked as unread is under neither
filter. -/
theorem partition_notice (htype : m.notice_type ∉ get_user_choices) (hq : get_users_notice_q u m = true) :
    ((unread_filter false u t m = !unread_filter true u t m) ∧
      unread_filter true u t m = get_unread u t m) ↔
      ∀ r ∈ t.reads, r.key = (u.id, m.id) → r.unread = false := by
  rw [unread_filter_true_notice htype hq, get_unread_notice htype, Bool.not_not]
  refine (and_iff_left rfl).trans ⟨fun h r hr hk => ?_, fun h => ?_⟩
  · rw [decide_eq_true (has_iff.mpr ⟨r, hr, hk⟩)] at h
    obtain ⟨s, hs, hks, hread⟩ := unread_filter_false_iff.mp h
    exact row_unique hs hks hr hk ▸ hread
  · rw [Bool.eq_iff_iff, unread_filter_false_iff, decide_eq_true_eq, has_iff]
    constructor
    · rintro ⟨r, hr, hk, -⟩
      exact ⟨r, hr, hk⟩
    · rintro ⟨r, hr, hk⟩
      exact ⟨r, hr, hk, h r hr hk⟩

end

/-- **The filters part what the user sees** if and only if the user's rows for messages to all, to
departments and to roles are marked as read. -/
theorem partition_iff (u : UserInfo) (t : Tables) :
    Partition u t ↔ ∀ m ∈ list u t, m.notice_type ∉ get_user_choices →
      ∀ r ∈ t.reads, r.key = (u.id, m.id) → r.unread = false := by
  refine forall₂_congr fun m hm => ?_
  have hshown := (List.mem_filter.mp hm).2
  simp only [Bool.and_eq_true, Bool.or_eq_true, decide_eq_true_eq] at hshown
  by_cases htype : m.notice_type ∈ get_user_choices
  · have hhas : t.Has u.id m.id := by
      rcases hshown.2 with hq | ⟨-, hhas⟩
      · rw [users_notice_q_of_user htype] at hq
        cases hq
      · exact hhas
    obtain ⟨r, hr, hk⟩ := has_iff.mp hhas
    exact iff_of_true (partition_user hr hk htype) fun hn => absurd htype hn
  · have hq : get_users_notice_q u m = true := hshown.2.resolve_right fun h => htype h.1
    rw [partition_notice htype hq]
    exact (imp_iff_right htype).symm

/-! ### `NoticeMessageSerializer` and `AnnouncementSerializer` -/

inductive Method
  | POST
  | PUT
  | PATCH
  deriving DecidableEq, Repr

inductive Serializer
  | NoticeMessage
  | Announcement
  deriving DecidableEq, Repr

/-- The fields of a request that its tables depend on. -/
structure Attrs where
  notice_type : Option NoticeChoices := none
  notice_user : Option (List Nat) := none
  notice_dept : Option (List Nat) := none
  notice_role : Option (List Nat) := none
  publish : Option Bool := none

def Serializer.validate_notice_type : Serializer → Method → NoticeChoices → Bool
  | .NoticeMessage, method, val => !(val = .NOTICE && method = .POST)
  | .Announcement, _, val => val = .NOTICE

/-- The defaults of the model are those of the fields, but in a partial update. -/
def Attrs.with_defaults (method : Method) (attrs : Attrs) : Attrs :=
  if method = .PATCH then attrs
  else { attrs with
    notice_type := some (attrs.notice_type.getD .USER), publish := some (attrs.publish.getD true) }

/-- `validate`. -/
def Attrs.validate (attrs : Attrs) : Option Attrs :=
  match attrs.notice_type with
  | some .ROLE =>
    if attrs.notice_role.getD [] = [] then none
    else some { attrs with notice_dept := none, notice_user := none }
  | some .DEPT =>
    if attrs.notice_dept.getD [] = [] then none
    else some { attrs with notice_user := none, notice_role := none }
  | some .USER =>
    if attrs.notice_user.getD [] = [] then none
    else some { attrs with notice_role := none, notice_dept := none }
  | some .SYSTEM | some .NOTICE | none => some attrs

/-- `is_valid`: the validated data, or nothing when an error is raised. -/
def is_valid (s : Serializer) (method : Method) (attrs : Attrs) : Option Attrs :=
  let attrs := attrs.with_defaults method
  if attrs.notice_type.all (s.validate_notice_type method) then attrs.validate else none

namespace Tables

/-- `notice_user.set(users)` of the message `pk`: the rows of others are deleted, and who has none
gets one that is marked as unread. -/
def set_users (pk : Nat) (users : List Nat) (t : Tables) : Tables where
  messages := t.messages
  reads := (t.reads.filter fun r => r.notice ≠ pk ∨ r.owner ∈ users) ++
    (users.dedup.filter fun owner => ¬ t.Has owner pk).map fun owner => ⟨owner, pk, true, t.clock⟩
  clock := t.clock + 1
  ids := t.ids
  unique := by
    rw [List.map_append, List.map_map]
    refine List.nodup_append.mpr ⟨t.unique.sublist (List.filter_sublist.map _), ?_, ?_⟩
    · exact ((List.nodup_dedup users).filter _).map fun _ _ h => (Prod.mk.inj h).1
    · rintro key hkey _ hnew rfl
      obtain ⟨r, hr, rfl⟩ := List.mem_map.mp hkey
      obtain ⟨owner, howner, heq⟩ := List.mem_map.mp hnew
      have hno := of_decide_eq_true (List.mem_filter.mp howner).2
      exact hno (List.mem_map.mpr ⟨r, List.mem_of_mem_filter hr, heq.symm⟩)
  stamped := by
    intro r hr
    rcases List.mem_append.mp hr with hr | hr
    · exact Nat.lt_succ_of_lt (t.stamped r (List.mem_of_mem_filter hr))
    · obtain ⟨owner, -, rfl⟩ := List.mem_map.mp hr
      exact Nat.lt_succ_self _

/-- The row of a new message. -/
def add (m : MessageContent) (t : Tables) (h : ¬ t.existing m.id) : Tables where
  messages := t.messages ++ [m]
  reads := t.reads
  clock := t.clock
  ids := by
    rw [List.map_append, List.map_singleton, ← List.concat_eq_append]
    exact t.ids.concat fun hmem => h (decide_eq_true hmem)
  unique := t.unique
  stamped := t.stamped

/-- Change the columns of the message `pk`, but not its key. -/
def change (pk : Nat) (f : MessageContent → MessageContent) (hid : ∀ m, (f m).id = m.id) (t : Tables) :
    Tables where
  messages := t.messages.map fun m => if m.id = pk then f m else m
  reads := t.reads
  clock := t.clock
  ids := by
    have hkey : MessageContent.id ∘ (fun m => if m.id = pk then f m else m) = MessageContent.id := by
      funext m
      rw [Function.comp_apply]
      split_ifs
      · exact hid m
      · rfl
    rw [List.map_map, hkey]
    exact t.ids
  unique := t.unique
  stamped := t.stamped

end Tables

/-- The columns and the other many-to-many fields that the validated data sets. -/
def Attrs.set (attrs : Attrs) (m : MessageContent) : MessageContent :=
  { m with
    notice_dept := attrs.notice_dept.getD m.notice_dept
    notice_role := attrs.notice_role.getD m.notice_role
    publish := attrs.publish.getD m.publish }

theorem Attrs.id_set (attrs : Attrs) (m : MessageContent) : (attrs.set m).id = m.id := rfl

def Tables.set_notice_user (pk : Nat) (attrs : Attrs) (t : Tables) : Tables :=
  match attrs.notice_user with
  | some users => t.set_users pk users
  | none => t

/-- A message that is inserted with the columns of the validated data. -/
def Attrs.message (attrs : Attrs) (id : Nat) : MessageContent :=
  attrs.set ⟨id, attrs.notice_type.getD .USER, [], [], true⟩

/-- `create`, the database giving `id` to the message. -/
def create (s : Serializer) (id : Nat) (attrs : Attrs) (t : Tables) : Tables :=
  match is_valid s .POST attrs with
  | none => t
  | some attrs =>
    if h : t.existing id then t else (t.add (attrs.message id) h).set_notice_user id attrs

/-- `update`: the type of a message stays, and a system message is not updated. -/
def update (s : Serializer) (method : Method) (pk : Nat) (attrs : Attrs) (t : Tables) : Tables :=
  match t.messages.find? (·.id = pk), is_valid s method attrs with
  | some instance_, some attrs =>
    if instance_.notice_type = .SYSTEM then t
    else (t.change pk attrs.set attrs.id_set).set_notice_user pk attrs
  | _, _ => t

/-! ### The requests -/

section
variable {t t' : Tables} {owner pk : Nat} {users : List Nat} {attrs : Attrs} {r : MessageUserRead}

theorem existing_iff : t.existing pk = true ↔ ∃ m ∈ t.messages, m.id = pk := by
  simp [Tables.existing]

theorem existing_change {f : MessageContent → MessageContent} (hid : ∀ m, (f m).id = m.id) (q : Nat) :
    (t.change pk f hid).existing q = t.existing q := by
  rw [Bool.eq_iff_iff, existing_iff, existing_iff]
  constructor
  · rintro ⟨m, hm, rfl⟩
    obtain ⟨m, hm', rfl⟩ := List.mem_map.mp hm
    refine ⟨m, hm', ?_⟩
    split_ifs
    · exact (hid m).symm
    · rfl
  · rintro ⟨m, hm, rfl⟩
    refine ⟨_, List.mem_map.mpr ⟨m, hm, rfl⟩, ?_⟩
    split_ifs
    · exact hid m
    · rfl

/-- The rows after `notice_user.set`: rows of before, and new ones of the message. -/
theorem mem_set_users : r ∈ (t.set_users pk users).reads ↔
    (r ∈ t.reads ∧ (r.notice ≠ pk ∨ r.owner ∈ users)) ∨
      ∃ owner ∈ users, ¬ t.Has owner pk ∧ r = ⟨owner, pk, true, t.clock⟩ := by
  rw [Tables.set_users, List.mem_append, List.mem_filter, decide_eq_true_eq, List.mem_map]
  refine or_congr_right (exists_congr fun owner => ?_)
  rw [List.mem_filter, List.mem_dedup, decide_eq_true_eq, and_assoc, eq_comm (a := r)]

theorem references_set_notice_user (h : t.References) (hpk : t.existing pk) :
    (t.set_notice_user pk attrs).References := by
  rw [Tables.set_notice_user]
  split
  · intro r hr
    rcases mem_set_users.mp hr with ⟨hr, -⟩ | ⟨_, -, -, rfl⟩
    · exact h r hr
    · exact hpk
  · exact h

theorem references_create (s : Serializer) (id : Nat) (h : t.References) :
    (create s id attrs t).References := by
  rw [create]
  split
  · exact h
  · split_ifs with hid
    · exact h
    · refine references_set_notice_user (fun r hr => ?_) ?_
      · obtain ⟨m, hm, hid⟩ := existing_iff.mp (h r hr)
        exact existing_iff.mpr ⟨m, List.mem_append_left _ hm, hid⟩
      · exact existing_iff.mpr ⟨_, List.mem_append_right _ (List.mem_singleton.mpr rfl), rfl⟩

theorem references_update (s : Serializer) (method : Method) (h : t.References) :
    (update s method pk attrs t).References := by
  rw [update]
  split
  · next m _ hm _ =>
    split_ifs
    · exact h
    · refine references_set_notice_user (fun r hr => ?_) ?_
      · rw [existing_change]
        exact h r hr
      · rw [existing_change]
        exact existing_iff.mpr ⟨m, List.mem_of_find?_eq_some hm, by simpa using List.find?_some hm⟩
  · exact h

end

/-- A request. -/
inductive Edit
  | create (s : Serializer) (id : Nat) (attrs : Attrs)
  | update (s : Serializer) (method : Method) (pk : Nat) (attrs : Attrs)
  | batch_read (u : UserInfo) (pks : List Nat)
  | all_read (u : UserInfo) (filter_queryset : MessageContent → Bool)

def Edit.serve (fk : ForeignKeys) (db : MessageDb) : Edit → MessageDb
  | .create s id attrs => ⟨Notify.create s id attrs db.toTables, references_create s id db.references⟩
  | .update s method pk attrs =>
    ⟨Notify.update s method pk attrs db.toTables, references_update s method db.references⟩
  | .batch_read u pks => (Notify.batch_read fk u pks db).2
  | .all_read u filter_queryset => (Notify.all_read fk u filter_queryset db).2

/-- No user is added to `notice_user` of a message to all, to departments or to roles. -/
def Edit.Safe (db : MessageDb) : Edit → Prop
  | .create s _ attrs => ∀ valid ∈ is_valid s .POST attrs,
      valid.notice_type.getD .USER ∉ get_user_choices → valid.notice_user.getD [] = []
  | .update s method pk attrs => ∀ m ∈ db.messages, m.id = pk → m.notice_type ∉ get_user_choices →
      ∀ valid ∈ is_valid s method attrs, ∀ owner ∈ valid.notice_user.getD [], db.Has owner pk
  | .batch_read .. | .all_read .. => True

instance (db : MessageDb) (q : Edit) : Decidable (q.Safe db) :=
  match q with
  | .create s _ attrs => inferInstanceAs (Decidable (∀ valid ∈ is_valid s .POST attrs, _))
  | .update .. => inferInstanceAs (Decidable (∀ m ∈ _, _))
  | .batch_read .. | .all_read .. => .isTrue trivial

/-- Rows that are marked as unread are of messages to users. -/
def Addressed (t : Tables) : Prop :=
  ∀ r ∈ t.reads, r.unread = true → ∀ m ∈ t.messages, m.id = r.notice → m.notice_type ∈ get_user_choices

section
variable {t t' : Tables} {owner pk : Nat} {pks : List Nat} {attrs : Attrs} {r : MessageUserRead}

/-! ### What a request leaves -/

/-- Reading marks no row as unread. -/
theorem mem_of_unread_update (hr : r ∈ (t.update_unread owner pks).reads) (h : r.unread = true) :
    r ∈ t.reads := by
  obtain ⟨s, hs, rfl⟩ := List.mem_map.mp hr
  split_ifs at h ⊢
  exact hs

theorem mem_of_unread_stamp (hr : r ∈ (t.stamp owner pk).reads) (h : r.unread = true) : r ∈ t.reads := by
  rw [Tables.stamp] at hr
  split_ifs at hr
  · obtain ⟨s, hs, rfl⟩ := List.mem_map.mp hr
    split_ifs at h ⊢
    exact hs
  · rcases List.mem_append.mp hr with hr | hr
    · exact hr
    · rw [List.mem_singleton.mp hr] at h
      cases h

theorem mem_of_unread_stampAll (hr : r ∈ (t.stampAll owner pks).reads) (h : r.unread = true) :
    r ∈ t.reads := by
  induction pks generalizing t with
  | nil => exact hr
  | cons pk pks ih => exact mem_of_unread_stamp (ih hr) h

theorem addressed_read_message (fk : ForeignKeys) (u : UserInfo) (pks : List Nat) {db : MessageDb}
    (h : Addressed db.toTables) : Addressed (serve (read_message fk u.id pks) db).2.toTables := by
  by_cases hrolled : RolledBack fk pks db.toTables
  · rwa [serve_read_message_of_rolledBack hrolled]
  · rw [serve_read_message hrolled]
    intro r hr hunread m hm
    rw [(frame_committed u pks db.toTables).messages] at hm
    exact h r (mem_of_unread_update (mem_of_unread_stampAll hr hunread) hunread) hunread m hm

/-- Rows that are added are of a message to users, or there were none to add. -/
theorem addressed_set_notice_user (h : Addressed t)
    (hpk : ∀ m ∈ t.messages, m.id = pk → m.notice_type ∉ get_user_choices →
      ∀ owner ∈ attrs.notice_user.getD [], t.Has owner pk) :
    Addressed (t.set_notice_user pk attrs) := by
  rw [Tables.set_notice_user]
  split
  · next users husers =>
    rw [husers] at hpk
    intro r hr hunread m hm hid
    rcases mem_set_users.mp hr with ⟨hr, -⟩ | ⟨owner, howner, hno, rfl⟩
    · exact h r hr hunread m hm hid
    · by_contra htype
      exact hno (hpk m hm hid htype owner howner)
  · exact h

theorem addressed_create {s : Serializer} {id : Nat} (href : t.References)
    (hsafe : ∀ valid, is_valid s .POST attrs = some valid →
      valid.notice_type.getD .USER ∉ get_user_choices → valid.notice_user.getD [] = [])
    (h : Addressed t) : Addressed (create s id attrs t) := by
  rw [create]
  split
  · exact h
  · next valid hvalid =>
    split_ifs with hid
    · exact h
    -- the new message has no rows, and the old ones have no message of that id
    have hadd : Addressed (t.add (valid.message id) hid) := by
      intro r hr hunread m hm hnotice
      rcases List.mem_append.mp hm with hm | hm
      · exact h r hr hunread m hm hnotice
      · obtain rfl := List.mem_singleton.mp hm
        have hsame : r.notice = id := hnotice.symm
        exact absurd (hsame ▸ href r hr) hid
    refine addressed_set_notice_user hadd fun m hm hnotice htype owner howner => ?_
    rcases List.mem_append.mp hm with hm | hm
    · exact absurd (existing_iff.mpr ⟨m, hm, hnotice⟩) hid
    · obtain rfl := List.mem_singleton.mp hm
      rw [hsafe valid hvalid htype] at howner
      exact absurd howner List.not_mem_nil

theorem mem_change {f : MessageContent → MessageContent} {hid : ∀ m, (f m).id = m.id} {m : MessageContent}
    (hf : ∀ m, (f m).notice_type = m.notice_type) (hm : m ∈ (t.change pk f hid).messages) :
    ∃ m' ∈ t.messages, m'.id = m.id ∧ m'.notice_type = m.notice_type := by
  obtain ⟨m', hm', rfl⟩ := List.mem_map.mp hm
  refine ⟨m', hm', ?_⟩
  split_ifs
  · exact ⟨(hid m').symm, (hf m').symm⟩
  · exact ⟨rfl, rfl⟩

theorem addressed_update {s : Serializer} {method : Method}
    (hsafe : ∀ m ∈ t.messages, m.id = pk → m.notice_type ∉ get_user_choices →
      ∀ valid, is_valid s method attrs = some valid →
        ∀ owner ∈ valid.notice_user.getD [], t.Has owner pk)
    (h : Addressed t) : Addressed (update s method pk attrs t) := by
  rw [update]
  split
  · next instance_ valid _ hvalid =>
    split_ifs
    · exact h
    have hchange : Addressed (t.change pk valid.set valid.id_set) := by
      intro r hr hunread m hm hnotice
      obtain ⟨m', hm', hid, htype⟩ := mem_change (f := valid.set) (fun _ => rfl) hm
      exact htype ▸ h r hr hunread m' hm' (hid.trans hnotice)
    refine addressed_set_notice_user hchange fun m hm hid htype => ?_
    obtain ⟨m', hm', hid', htype'⟩ := mem_change (f := valid.set) (fun _ => rfl) hm
    exact hsafe m' hm' (hid'.trans hid) (htype' ▸ htype) valid hvalid
  · exact h

end

theorem addressed_serve (fk : ForeignKeys) {db : MessageDb} {q : Edit} (hsafe : q.Safe db)
    (h : Addressed db.toTables) : Addressed (q.serve fk db).toTables := by
  cases q with
  | create s id attrs => exact addressed_create db.references hsafe h
  | update s method pk attrs => exact addressed_update hsafe h
  | batch_read u pks => exact addressed_read_message fk u pks h
  | all_read u filter_queryset => exact addressed_read_message fk u _ h

theorem partition_of_addressed {t : Tables} (h : Addressed t) (u : UserInfo) : Partition u t := by
  refine (partition_iff u t).mpr fun m hm htype r hr hk => ?_
  by_contra hread
  exact htype (h r hr (Bool.not_eq_false _ ▸ hread) m (List.mem_of_mem_filter hm) (congrArg Prod.snd hk).symm)

/-! ### Runs -/

/-- No messages. -/
def MessageDb.empty : MessageDb where
  messages := []
  reads := []
  clock := 0
  ids := List.nodup_nil
  unique := List.nodup_nil
  stamped := nofun
  references := nofun

abbrev Edited (fk : ForeignKeys) (db : MessageDb) (q : Edit) (db' : MessageDb) : Prop := q.serve fk db = db'

/-- **Read and unread part what the user sees** after every run in which no user is added to
`notice_user` of a message to all, to departments or to roles. -/
theorem partition_of_run (fk : ForeignKeys) {l : List Edit} {db : MessageDb}
    (r : Run (guarded (Edited fk) fun db q => q.Safe db) .empty l db) (u : UserInfo) :
    Partition u db.toTables := by
  refine partition_of_addressed (r.invariant (I := fun db => Addressed db.toTables) ?_ nofun) u
  rintro db q _ h ⟨rfl, hsafe⟩
  exact addressed_serve fk hsafe h

/-- A message to user 1, which user 1 reads. -/
theorem partition_message : Partition ⟨1, none, []⟩
    ((Edit.batch_read ⟨1, none, []⟩ [7]).serve .deferred
      ((Edit.create .NoticeMessage 7 { notice_user := some [1] }).serve .deferred .empty)).toTables :=
  partition_of_run .deferred
    (l := [.create .NoticeMessage 7 { notice_user := some [1] }, .batch_read ⟨1, none, []⟩ [7]])
    (.cons ⟨rfl, by decide⟩ (.one ⟨rfl, trivial⟩)) _

/-- An announcement that is addressed to user 1 is under neither filter. -/
theorem announcement_under_neither : ∃ db, Run (Edited .deferred) .empty
    [.create .Announcement 7 { notice_type := some .NOTICE, notice_user := some [1] }] db ∧
    ¬ Partition ⟨1, none, []⟩ db.toTables :=
  ⟨_, .one rfl, by decide⟩

end InfraHub.Notify
