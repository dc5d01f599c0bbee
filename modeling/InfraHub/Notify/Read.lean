import InfraHub.Notify.Message
import Mathlib.Data.List.TakeWhile

/-!
# Notify — Read

Whether marking messages as read changes what a user sees.

A request writes a row of the user for every id up to the first that names no message, and takes
the unread flag off the rows the user has; whether the message is the user's is never asked, so a
row of a message addressed to somebody else makes it visible.  `batch_read_grants_nothing_iff` is the
exact condition on the ids; `all_read` takes its ids from the user's own messages and meets it.
-/

namespace InfraHub.Notify
open InfraHub.Lib (Prog)
open InfraHub.Lib.Prog (exec forEach)

namespace Tables

/-! ### What a request writes -/

/-- From `t` to `t'` only rows of `owner` for the ids of `S` were written; no row went away. -/
structure Frame (owner : Nat) (S : Nat → Prop) (t t' : Tables) : Prop where
  messages : t'.messages = t.messages
  clock : t.clock ≤ t'.clock
  written : ∀ r ∈ t'.reads, r ∉ t.reads → r.owner = owner ∧ S r.notice
  kept : ∀ {o pk}, t.Has o pk → t'.Has o pk

variable {owner pk : Nat} {S : Nat → Prop} {t t' t'' : Tables} {pks : List Nat}

theorem Frame.refl (t : Tables) : Frame owner S t t :=
  ⟨rfl, Nat.le_refl _, fun _ h hn => absurd h hn, fun h => h⟩

theorem Frame.trans (h : Frame owner S t t') (h' : Frame owner S t' t'') :
    Frame owner S t t'' where
  messages := h'.messages.trans h.messages
  clock := Nat.le_trans h.clock h'.clock
  written := by
    intro r hr hn
    by_cases hr' : r ∈ t'.reads
    · exact h.written r hr' hn
    · exact h'.written r hr hr'
  kept hk := h'.kept (h.kept hk)

theorem Frame.existing (h : Frame owner S t t') (pk : Nat) : t'.existing pk = t.existing pk := by
  rw [Tables.existing, Tables.existing, h.messages]

/-- The keys of the rows afterwards. -/
theorem Frame.has (h : Frame owner S t t') {o pk : Nat} (hk : t'.Has o pk) :
    t.Has o pk ∨ o = owner ∧ S pk := by
  obtain ⟨r, hr, hkey⟩ := List.mem_map.mp hk
  by_cases hmem : r ∈ t.reads
  · exact .inl (List.mem_map.mpr ⟨r, hmem, hkey⟩)
  · obtain ⟨ho, hs⟩ := h.written r hr hmem
    cases hkey
    exact .inr ⟨ho, hs⟩

/-- An edit writes the rows it changes. -/
theorem frame_edit {f : MessageUserRead → MessageUserRead} {clock : Nat}
    {hkey : ∀ r, (f r).key = r.key}
    {htime : ∀ r, r.updated_time < t.clock → (f r).updated_time < clock} (hclock : t.clock ≤ clock)
    (hS : ∀ r ∈ t.reads, f r ≠ r → r.owner = owner ∧ S r.notice) :
    Frame owner S t (t.edit f clock hkey htime) where
  messages := rfl
  clock := hclock
  written := by
    intro r hr hn
    obtain ⟨s, hs, rfl⟩ := List.mem_map.mp hr
    have hne : f s ≠ s := fun e => hn (e.symm ▸ hs)
    have hk := hkey s
    simp only [MessageUserRead.key, Prod.mk.injEq] at hk
    rw [hk.1, hk.2]
    exact hS s hs hne
  kept := by
    intro o pk h
    obtain ⟨r, hr, e⟩ := List.mem_map.mp h
    exact List.mem_map.mpr ⟨f r, List.mem_map_of_mem hr, (hkey r).trans e⟩

theorem frame_update_unread
    (hS : ∀ r ∈ t.reads, r.owner = owner → r.notice ∈ pks → r.unread → S r.notice) :
    Frame owner S t (t.update_unread owner pks) := by
  refine frame_edit (Nat.le_refl _) fun r hr hne => ?_
  split at hne
  · next h => exact ⟨h.1, hS r hr h.1 h.2.1 h.2.2⟩
  · exact absurd rfl hne

theorem frame_stamp (hS : S pk) : Frame owner S t (t.stamp owner pk) := by
  unfold stamp
  split
  · refine frame_edit (Nat.le_succ _) fun r _ hne => ?_
    split at hne
    · next h =>
      cases h
      exact ⟨rfl, hS⟩
    · exact absurd rfl hne
  · refine ⟨rfl, Nat.le_succ _, fun r hr hn => ?_, fun h => ?_⟩
    · rcases List.mem_append.mp hr with hr | hr
      · exact absurd hr hn
      · rw [List.mem_singleton.mp hr]
        exact ⟨rfl, hS⟩
    · obtain ⟨r, hr, e⟩ := List.mem_map.mp h
      exact List.mem_map.mpr ⟨r, List.mem_append_left _ hr, e⟩

/-- One stamp after another. -/
def stampAll (owner : Nat) (t : Tables) (pks : List Nat) : Tables := pks.foldl (stamp owner) t

@[simp] theorem stampAll_nil : t.stampAll owner [] = t := rfl

@[simp] theorem stampAll_cons : t.stampAll owner (pk :: pks) = (t.stamp owner pk).stampAll owner pks :=
  rfl

theorem frame_stampAll (hS : ∀ pk ∈ pks, S pk) : Frame owner S t (t.stampAll owner pks) := by
  induction pks generalizing t with
  | nil => exact Frame.refl t
  | cons pk pks ih =>
      exact (frame_stamp (hS pk (by simp))).trans (ih fun q hq => hS q (List.mem_cons_of_mem pk hq))

/-! ### The rows that are written -/

/-- A row of `owner` for `pk`, saved since `clock`. -/
def Saved (owner pk clock : Nat) (t : Tables) : Prop :=
  ∃ r ∈ t.reads, r.key = (owner, pk) ∧ clock ≤ r.updated_time

theorem saved_stamp (owner pk : Nat) (t : Tables) : (t.stamp owner pk).Saved owner pk t.clock := by
  unfold stamp
  split
  · next h =>
    obtain ⟨r, hr, e⟩ := List.mem_map.mp h
    refine ⟨{ r with unread := false, updated_time := t.clock },
      List.mem_map.mpr ⟨r, hr, if_pos e⟩, e, Nat.le_refl _⟩
  · exact ⟨_, List.mem_append_right _ (List.mem_singleton.mpr rfl), rfl, Nat.le_refl _⟩

theorem Saved.stamp {o clock : Nat} (h : t.Saved o pk clock) (hc : clock ≤ t.clock) (q : Nat) :
    (t.stamp owner q).Saved o pk clock := by
  obtain ⟨r, hr, hk, ht⟩ := h
  unfold Tables.stamp
  split
  · by_cases hq : r.key = (owner, q)
    · exact ⟨_, List.mem_map.mpr ⟨r, hr, if_pos hq⟩, hk, hc⟩
    · exact ⟨_, List.mem_map.mpr ⟨r, hr, if_neg hq⟩, hk, ht⟩
  · exact ⟨r, List.mem_append_left _ hr, hk, ht⟩

theorem saved_stampAll {clock : Nat} (hc : clock ≤ t.clock) (h : pk ∈ pks ∨ t.Saved owner pk clock) :
    (t.stampAll owner pks).Saved owner pk clock := by
  induction pks generalizing t with
  | nil => exact h.resolve_left (by simp)
  | cons q pks ih =>
      have hq : t.clock ≤ (t.stamp owner q).clock := (frame_stamp (S := fun _ => True) trivial).clock
      refine ih (Nat.le_trans hc hq) ?_
      rcases h with h | h
      · rcases List.mem_cons.mp h with rfl | h
        · obtain ⟨r, hr, hk, ht⟩ := saved_stamp owner pk t
          exact .inr ⟨r, hr, hk, Nat.le_trans hc ht⟩
        · exact .inl h
      · exact .inr (h.stamp hc q)

/-- No row of `owner` for `pk` is unread. -/
def AllRead (owner pk : Nat) (t : Tables) : Prop :=
  ∀ r ∈ t.reads, r.key = (owner, pk) → r.unread = false

theorem allRead_update_unread (h : pk ∈ pks) : (t.update_unread owner pks).AllRead owner pk := by
  intro r hr hk
  obtain ⟨s, _, rfl⟩ := List.mem_map.mp hr
  split
  · rfl
  · next hn =>
    rw [if_neg hn] at hk
    cases hk
    simpa [h] using hn

theorem AllRead.stamp {o : Nat} (h : t.AllRead o pk) (q : Nat) :
    (t.stamp owner q).AllRead o pk := by
  unfold Tables.stamp
  split
  · intro r hr hk
    obtain ⟨s, hs, rfl⟩ := List.mem_map.mp hr
    by_cases hq : s.key = (owner, q)
    · rw [if_pos hq]
    · rw [if_neg hq] at hk ⊢
      exact h s hs hk
  · intro r hr hk
    rcases List.mem_append.mp hr with hr | hr
    · exact h r hr hk
    · rw [List.mem_singleton.mp hr]

theorem AllRead.stampAll {o : Nat} (h : t.AllRead o pk) : (t.stampAll owner pks).AllRead o pk := by
  induction pks generalizing t with
  | nil => exact h
  | cons q pks ih => exact ih (h.stamp q)

/-! ### The loop of `read_message` -/

theorem stamp_existing (q : Nat) : (t.stamp owner pk).existing q = t.existing q :=
  (frame_stamp (S := fun _ => True) trivial).existing q

theorem references_stamp (h : t.References) (hpk : t.existing pk) :
    (t.stamp owner pk).References := by
  intro r hr
  rw [stamp_existing]
  by_cases hmem : r ∈ t.reads
  · exact h r hmem
  · have hf : Frame owner (· = pk) t (t.stamp owner pk) := frame_stamp rfl
    rw [(hf.written r hr hmem).2]
    exact hpk

theorem references_update_unread (h : t.References) : (t.update_unread owner pks).References := by
  intro r hr
  obtain ⟨s, hs, rfl⟩ := List.mem_map.mp hr
  split <;> exact h s hs

end Tables

open Tables

variable {owner : Nat} {t : Tables} {pks : List Nat}

theorem exec_update_or_create (fk : ForeignKeys) (owner pk : Nat) (t : Tables) :
    exec (update_or_create fk owner pk) t =
      if fk = .immediate ∧ ¬ t.Has owner pk ∧ ¬ t.existing pk then (.error .integrity, t)
      else (.ok (), t.stamp owner pk) := by
  simp only [update_or_create, Prog.exec_read_bind, decide_eq_true_eq]
  split
  · rfl
  · rfl

/-- Checked at the statement, the loop stops at the first id without a message. -/
theorem exec_loop_immediate (h : t.References) :
    (exec (forEach (update_or_create .immediate owner) pks) t).2 =
      t.stampAll owner (pks.takeWhile t.existing) := by
  induction pks generalizing t with
  | nil => rfl
  | cons pk pks ih =>
      by_cases hpk : t.existing pk
      · have hok : exec (update_or_create .immediate owner pk) t = (.ok (), t.stamp owner pk) := by
          simp [exec_update_or_create, hpk]
        rw [forEach, Prog.exec_bind_of_ok hok, ih (references_stamp h hpk),
          List.takeWhile_cons_of_pos hpk, stampAll_cons, funext stamp_existing]
      · have hno : ¬ t.Has owner pk := by
          intro hk
          obtain ⟨r, hr, e⟩ := List.mem_map.mp hk
          cases e
          exact hpk (h r hr)
        have herr : exec (update_or_create .immediate owner pk) t = (.error .integrity, t) := by
          simp [exec_update_or_create, hpk, hno]
        rw [forEach, Prog.exec_bind_of_error herr, List.takeWhile_cons_of_neg hpk, stampAll_nil]

/-- Checked at the commit, the loop writes a row for every id. -/
theorem exec_loop_deferred :
    exec (forEach (update_or_create .deferred owner) pks) t = (.ok (), t.stampAll owner pks) := by
  induction pks generalizing t with
  | nil => rfl
  | cons pk pks ih =>
      have hok : exec (update_or_create .deferred owner pk) t = (.ok (), t.stamp owner pk) := by
        simp [exec_update_or_create]
      rw [forEach, Prog.exec_bind_of_ok hok, ih, stampAll_cons]

/-! ### The request -/

/-- The foreign keys are checked at the commit and an id names no message. -/
def RolledBack (fk : ForeignKeys) (pks : List Nat) (t : Tables) : Prop :=
  fk = .deferred ∧ ∃ pk ∈ pks, ¬ t.existing pk

/-- What the request commits otherwise. -/
def committed (owner : Nat) (pks : List Nat) (t : Tables) : Tables :=
  (t.update_unread owner pks).stampAll owner (pks.takeWhile t.existing)

theorem committed_nil (owner : Nat) (t : Tables) : committed owner [] t = t := by
  refine Tables.ext rfl ?_ rfl
  simp [committed, update_unread, edit]

theorem exec_read_message_deferred (h : pks ≠ []) :
    (exec (read_message .deferred owner pks) t).2 =
      (t.update_unread owner pks).stampAll owner pks := by
  simp [read_message, h, exec_loop_deferred]

theorem exec_read_message {fk : ForeignKeys} (ht : t.References) (h : ¬ RolledBack fk pks t) :
    (exec (read_message fk owner pks) t).2 = committed owner pks t := by
  by_cases hnil : pks = []
  · subst hnil
    simp [read_message, committed_nil]
  · cases fk with
    | immediate =>
        simp only [read_message, hnil, if_false, Prog.exec_update_bind]
        exact exec_loop_immediate (references_update_unread ht)
    | deferred =>
        have hall : ∀ pk ∈ pks, t.existing pk := by
          intro pk hpk
          by_contra hn
          exact h ⟨rfl, pk, hpk, hn⟩
        rw [exec_read_message_deferred hnil, committed, List.takeWhile_eq_self_iff.mpr hall]

theorem references_stampAll (ht : t.References) (h : ∀ pk ∈ pks, t.existing pk) :
    (t.stampAll owner pks).References := by
  induction pks generalizing t with
  | nil => exact ht
  | cons pk pks ih =>
      refine ih (references_stamp ht (h pk (by simp))) fun q hq => ?_
      rw [stamp_existing]
      exact h q (List.mem_cons_of_mem pk hq)

theorem references_committed (ht : t.References) : (committed owner pks t).References :=
  references_stampAll (references_update_unread ht) fun _ hpk => List.mem_takeWhile_imp hpk

theorem serve_read_message {fk : ForeignKeys} {db : MessageDb}
    (h : ¬ RolledBack fk pks db.toTables) :
    (serve (read_message fk owner pks) db).2.toTables = committed owner pks db.toTables := by
  have he : (exec (read_message fk owner pks) db.toTables).2 = committed owner pks db.toTables :=
    exec_read_message db.references h
  unfold serve
  rw [dif_pos (he ▸ references_committed db.references)]
  exact he

theorem serve_read_message_of_rolledBack {fk : ForeignKeys} {db : MessageDb}
    (h : RolledBack fk pks db.toTables) : (serve (read_message fk owner pks) db).2 = db := by
  obtain ⟨rfl, pk, hpk, hno⟩ := h
  unfold serve
  refine congrArg Prod.snd (dif_neg ?_)
  rw [exec_read_message_deferred (List.ne_nil_of_mem hpk)]
  intro href
  -- the row of the missing message is there, and dangles
  have hsaved : ((db.update_unread owner pks).stampAll owner pks).Saved owner pk db.clock :=
    saved_stampAll (Nat.le_refl _) (.inl hpk)
  obtain ⟨r, hr, hk, -⟩ := hsaved
  have hex := href r hr
  cases hk
  rw [(frame_stampAll (S := fun _ => True) fun _ _ => trivial).existing] at hex
  exact hno hex

/-! ### What the user sees afterwards -/

/-- The request leaves alone what the user sees, and writes rows only for what the user saw. -/
def GrantsNothing (u : UserInfo) (db db' : Tables) : Prop :=
  (∀ pk, Visible u db' pk ↔ Visible u db pk) ∧
    ∀ r ∈ db'.reads, r ∉ db.reads → Visible u db r.notice

theorem grantsNothing_refl (u : UserInfo) (t : Tables) : GrantsNothing u t t :=
  ⟨fun _ => Iff.rfl, fun _ h hn => absurd h hn⟩

/-- The ids the request writes a row for: those before the first that names no message, and those of
which the user has an unread row. -/
def Written (u : UserInfo) (pks : List Nat) (t : Tables) (pk : Nat) : Prop :=
  pk ∈ pks.takeWhile t.existing ∨
    pk ∈ pks ∧ ∃ r ∈ t.reads, r.key = (u.id, pk) ∧ r.unread = true

theorem frame_committed (u : UserInfo) (pks : List Nat) (t : Tables) :
    Frame u.id (Written u pks t) t (committed u.id pks t) := by
  refine (frame_update_unread fun r hr ho hpk hun => ?_).trans (frame_stampAll fun pk hpk => .inl hpk)
  exact .inr ⟨hpk, r, hr, by rw [MessageUserRead.key, ho], hun⟩

/-- A row is written for each of them. -/
theorem exists_written {u : UserInfo} {pk : Nat} (h : Written u pks t pk) :
    ∃ r ∈ (committed u.id pks t).reads, r.key = (u.id, pk) ∧ r ∉ t.reads := by
  rcases h with h | ⟨hpk, s, hs, hk, hun⟩
  · have hsaved : (committed u.id pks t).Saved u.id pk t.clock :=
      saved_stampAll (Nat.le_refl _) (.inl h)
    obtain ⟨r, hr, hk, htime⟩ := hsaved
    exact ⟨r, hr, hk, fun hmem => absurd (t.stamped r hmem) (Nat.not_lt.mpr htime)⟩
  · have hhas : t.Has u.id pk := List.mem_map.mpr ⟨s, hs, hk⟩
    obtain ⟨r, hr, hkr⟩ := List.mem_map.mp ((frame_committed u pks t).kept hhas)
    refine ⟨r, hr, hkr, fun hmem => ?_⟩
    -- the user has one row for the message, and it was unread
    have : r = s := List.inj_on_of_nodup_map t.unique hmem hs (hkr.trans hk.symm)
    have hread : (committed u.id pks t).AllRead u.id pk := (allRead_update_unread hpk).stampAll
    have hr' := hread r hr hkr
    rw [this, hun] at hr'
    cases hr'

theorem visible_iff {u : UserInfo} {pk : Nat} :
    Visible u t pk ↔ ∃ m ∈ t.messages, m.id = pk ∧ m.publish = true ∧
      (get_users_notice_q u m = true ∨ m.notice_type ∈ get_user_choices ∧ t.Has u.id pk) := by
  constructor
  · rintro ⟨m, hm, rfl⟩
    simp only [list, List.mem_filter, Bool.and_eq_true, Bool.or_eq_true, decide_eq_true_eq] at hm
    exact ⟨m, hm.1, rfl, hm.2⟩
  · rintro ⟨m, hm, rfl, hp⟩
    refine ⟨m, ?_, rfl⟩
    simp only [list, List.mem_filter, Bool.and_eq_true, Bool.or_eq_true, decide_eq_true_eq]
    exact ⟨hm, hp⟩

/-- Rows written for visible messages make nothing visible. -/
theorem visible_of_frame {u : UserInfo} {S : Nat → Prop} {t' : Tables} (h : Frame u.id S t t')
    (hS : ∀ pk, S pk → Visible u t pk) (pk : Nat) : Visible u t' pk ↔ Visible u t pk := by
  constructor
  · intro hv
    obtain ⟨m, hm, hid, hp, hq⟩ := visible_iff.mp hv
    rw [h.messages] at hm
    rcases hq with hq | ⟨hty, hhas⟩
    · exact visible_iff.mpr ⟨m, hm, hid, hp, .inl hq⟩
    · rcases h.has hhas with hold | ⟨-, hs⟩
      · exact visible_iff.mpr ⟨m, hm, hid, hp, .inr ⟨hty, hold⟩⟩
      · exact hS pk hs
  · intro hv
    obtain ⟨m, hm, hid, hp, hq⟩ := visible_iff.mp hv
    rw [← h.messages] at hm
    exact visible_iff.mpr ⟨m, hm, hid, hp, hq.imp_right fun hq => ⟨hq.1, h.kept hq.2⟩⟩

theorem grantsNothing_committed_iff (u : UserInfo) (pks : List Nat) (t : Tables) :
    GrantsNothing u t (committed u.id pks t) ↔ ∀ pk, Written u pks t pk → Visible u t pk := by
  constructor
  · intro h pk hw
    obtain ⟨r, hr, hk, hnew⟩ := exists_written hw
    have hn : r.notice = pk := congrArg Prod.snd hk
    exact hn ▸ h.2 r hr hnew
  · intro h
    have hf := frame_committed u pks t
    exact ⟨visible_of_frame hf h, fun r hr hn => h _ (hf.written r hr hn).2⟩

theorem serve_grants_nothing_iff (fk : ForeignKeys) (u : UserInfo) (pks : List Nat)
    (db : MessageDb) :
    GrantsNothing u db.toTables (serve (read_message fk u.id pks) db).2.toTables ↔
      RolledBack fk pks db.toTables ∨
        ∀ pk, Written u pks db.toTables pk → Visible u db.toTables pk := by
  by_cases h : RolledBack fk pks db.toTables
  · rw [serve_read_message_of_rolledBack h]
    exact iff_of_true (grantsNothing_refl u _) (.inl h)
  · rw [serve_read_message h, grantsNothing_committed_iff]
    exact ⟨.inr, fun hw => hw.resolve_left h⟩

/-- **When marking as read grants nothing**: the request is rolled back, or the user sees every
message a row is written for. -/
theorem batch_read_grants_nothing_iff (fk : ForeignKeys) (u : UserInfo) (pks : List Nat)
    (db : MessageDb) :
    GrantsNothing u db.toTables (batch_read fk u pks db).2.toTables ↔
      RolledBack fk pks db.toTables ∨
        ∀ pk, Written u pks db.toTables pk → Visible u db.toTables pk :=
  serve_grants_nothing_iff fk u pks db

/-- Two messages, an announcement and one that is user 2's. -/
def sampleDb : MessageDb where
  messages := [⟨6, .NOTICE, [], [], true⟩, ⟨7, .USER, [], [], true⟩]
  reads := [⟨2, 7, true, 0⟩]
  clock := 1
  ids := by decide
  unique := by decide
  stamped := by decide
  references := by decide

/-- User 1 marks the message of user 2 as read, and sees it. -/
theorem batch_read_shows_message :
    let u : UserInfo := ⟨1, none, []⟩
    let db' := (batch_read .deferred u [7] sampleDb).2
    ¬ Visible u sampleDb.toTables 7 ∧ Visible u db'.toTables 7 := by
  decide

/-! ### `all_read` -/

theorem visible_of_unread {u : UserInfo} {m : MessageContent} (hm : m ∈ t.messages)
    (hp : m.publish = true) (hq : get_user_unread_q u t m = true) : Visible u t m.id := by
  refine visible_iff.mpr ⟨m, hm, rfl, hp, ?_⟩
  simp only [get_user_unread_q, get_user_unread_q1, get_user_unread_q2, Bool.or_eq_true,
    Bool.and_eq_true, decide_eq_true_eq, List.any_eq_true] at hq
  rcases hq with ⟨hq, -⟩ | ⟨hty, r, hr, hk, -⟩
  · exact .inl hq
  · exact .inr ⟨hty, List.mem_map.mpr ⟨r, hr, hk⟩⟩

/-- **`all_read` grants nothing**, whatever the filters. -/
theorem all_read_grants_nothing (fk : ForeignKeys) (u : UserInfo)
    (filter_queryset : MessageContent → Bool) (db : MessageDb) :
    GrantsNothing u db.toTables (all_read fk u filter_queryset db).2.toTables := by
  refine (serve_grants_nothing_iff fk u _ db).mpr (.inr fun pk hw => ?_)
  have hpk := hw.elim (fun h => List.takeWhile_subset _ h) And.left
  obtain ⟨m, hm, rfl⟩ := List.mem_map.mp hpk
  simp only [List.mem_filter, Bool.and_eq_true] at hm
  exact visible_of_unread hm.1 hm.2.1.1 hm.2.2

end InfraHub.Notify
