import InfraHub.Lib.Run
import Mathlib.Data.List.Count
import Mathlib.Logic.Function.Basic

/-!
# Virt — FirstSync

`auto_sync_platform_on_created`: the first save of a platform starts its synchronisation, if the
platform has a credential.

The row of a credential needs the row of its platform, so at the first save there is none.  What the
handler can see is a credential that was attached to the instance in memory before: `first_sync_iff`.
-/

namespace InfraHub.Virt.FirstSync
open InfraHub.Lib (Run)

/-! ### Rows and instances -/

/-- An object of `Platform`, for the row of its primary key. -/
structure Instance where
  object : Nat
  pk : Nat
  deriving DecidableEq

structure World where
  /-- the primary keys of `Platform` -/
  platforms : List Nat
  /-- the platform of each `PlatformCredential` -/
  credentials : List Nat
  /-- `fields_cache["credential"]`: whether an object or `None` is there -/
  cached : Instance → Option Bool
  /-- the arguments of `sync_all_platform_data.delay` -/
  dispatched : List Nat

/-- `hasattr(instance, "credential")`, which is looked up once. -/
def credential (w : World) (i : Instance) : Bool × World :=
  match w.cached i with
  | some there => (there, w)
  | none =>
    let there := decide (i.pk ∈ w.credentials)
    (there, { w with cached := Function.update w.cached i (some there) })

/-- `broker` says whether `delay` returns; an error of it is only logged. -/
def auto_sync_platform_on_created (w : World) (i : Instance) (created is_active broker : Bool) :
    World :=
  if !created then w
  else if !is_active then w
  else
    let (there, w) := credential w i
    if !there then w
    else if broker then { w with dispatched := w.dispatched ++ [i.pk] }
    else w

/-! ### What is done -/

inductive Op
  /-- `PlatformCredential(platform=i)` or `i.credential = ...`, without a save -/
  | attach (i : Instance)
  | read (i : Instance)
  | save_platform (i : Instance) (is_active broker : Bool)
  /-- the credential of the platform `pk` -/
  | save_credential (pk : Nat)
  deriving DecidableEq

/-- A second row is refused, and so is one without its platform. -/
def next (w : World) : Op → World
  | .attach i => { w with cached := Function.update w.cached i (some true) }
  | .read i => (credential w i).2
  | .save_platform i is_active broker =>
      let created := decide (i.pk ∉ w.platforms)
      auto_sync_platform_on_created
        (if created then { w with platforms := i.pk :: w.platforms } else w) i created is_active
        broker
  | .save_credential pk =>
      if pk ∈ w.platforms ∧ pk ∉ w.credentials then { w with credentials := pk :: w.credentials }
      else w

def Step (w : World) (op : Op) (w' : World) : Prop := next w op = w'

def init : World := ⟨[], [], fun _ => none, []⟩

/-- It saves the platform `pk`. -/
def Op.Saves (pk : Nat) : Op → Prop
  | .save_platform i .. => i.pk = pk
  | _ => False

/-! ### Steps -/

section
variable {w w' : World} {op : Op} {i : Instance} {pk : Nat} {before after : List Op}

@[simp] theorem platforms_credential : (credential w i).2.platforms = w.platforms := by
  unfold credential
  split <;> rfl

@[simp] theorem credentials_credential : (credential w i).2.credentials = w.credentials := by
  unfold credential
  split <;> rfl

@[simp] theorem dispatched_credential : (credential w i).2.dispatched = w.dispatched := by
  unfold credential
  split <;> rfl

/-- A credential that has no row is found only where it was attached. -/
theorem cached_credential (hrow : i.pk ∉ w.credentials) (j : Instance) :
    (credential w j).2.cached i = some true ↔ w.cached i = some true := by
  unfold credential
  cases hj : w.cached j with
  | some there => rfl
  | none =>
      by_cases hij : i = j
      · subst hij
        simp [hrow, hj]
      · simp [Function.update_of_ne hij]

theorem credential_fst (hrow : i.pk ∉ w.credentials) :
    (credential w i).1 = true ↔ w.cached i = some true := by
  unfold credential
  cases h : w.cached i with
  | some there => simp
  | none => simp [hrow]

/-- The handler adds no row, and what it dispatches is the platform of its instance. -/
theorem auto_sync_cases (w : World) (i : Instance) (created is_active broker : Bool) :
    auto_sync_platform_on_created w i created is_active broker = w ∨
    auto_sync_platform_on_created w i created is_active broker = (credential w i).2 ∨
    created = true ∧ auto_sync_platform_on_created w i created is_active broker =
      { (credential w i).2 with dispatched := w.dispatched ++ [i.pk] } := by
  unfold auto_sync_platform_on_created
  cases created <;> cases is_active <;> cases broker <;> cases h : (credential w i).1 <;> simp [h]

/-- A platform that has a row stays, and is dispatched no more. -/
theorem next_of_mem (op : Op) (h : pk ∈ w.platforms) :
    pk ∈ (next w op).platforms ∧ (next w op).dispatched.count pk = w.dispatched.count pk := by
  cases op with
  | attach j => exact ⟨h, rfl⟩
  | read j => simpa [next] using h
  | save_credential k =>
      rw [next]
      split <;> exact ⟨h, rfl⟩
  | save_platform j is_active broker =>
      by_cases hj : j.pk ∈ w.platforms
      · simp [next, auto_sync_platform_on_created, hj, h]
      · have hne : pk ≠ j.pk := fun e => hj (e ▸ h)
        simp only [next, hj, not_false_eq_true, decide_true, if_true]
        rcases auto_sync_cases { w with platforms := j.pk :: w.platforms } j true is_active broker with
          he | he | ⟨-, he⟩ <;> rw [he]
        · exact ⟨List.mem_cons_of_mem _ h, rfl⟩
        · simp [h]
        · simp [h, List.count_append, hne.symm]

theorem run_of_mem (r : Run Step w after w') (h : pk ∈ w.platforms) :
    w'.dispatched.count pk = w.dispatched.count pk := by
  have hinv := r.invariant (I := fun u => pk ∈ u.platforms ∧
    u.dispatched.count pk = w.dispatched.count pk) (fun u op v hu hs => ?_) ⟨h, rfl⟩
  · exact hinv.2
  · obtain ⟨hmem, hcount⟩ := next_of_mem op hu.1
    exact hs ▸ ⟨hmem, hcount.trans hu.2⟩

/-! ### Before the first save -/

/-- What holds after some operations: rows of credentials have platforms, and a platform that was not
saved has no row, was not dispatched, and is seen with a credential where one was attached. -/
structure Before (ops : List Op) (w : World) : Prop where
  references : ∀ pk ∈ w.credentials, pk ∈ w.platforms
  saved : ∀ pk ∈ w.platforms, ∃ op ∈ ops, op.Saves pk
  counted : ∀ pk ∈ w.dispatched, ∃ op ∈ ops, op.Saves pk
  attached : ∀ i : Instance, (∀ op ∈ ops, ¬ op.Saves i.pk) →
    (w.cached i = some true ↔ Op.attach i ∈ ops)

theorem before_init : Before [] init :=
  ⟨nofun, nofun, nofun, fun i _ => by simp [init]⟩

/-- What a step has to leave: it adds no row but that of a platform that it saves, dispatches nothing
else, and attaches a credential only if it says so. -/
theorem Before.snoc (h : Before before w)
    (hrefs : ∀ pk ∈ w'.credentials, pk ∈ w'.platforms)
    (hplatforms : ∀ pk ∈ w'.platforms, pk ∈ w.platforms ∨ op.Saves pk)
    (hdispatched : ∀ pk ∈ w'.dispatched, pk ∈ w.dispatched ∨ op.Saves pk)
    (hcached : ∀ i : Instance, i.pk ∉ w.credentials →
      (w'.cached i = some true ↔ w.cached i = some true ∨ op = .attach i)) :
    Before (before ++ [op]) w' := by
  have hlast {pk : Nat} (hs : op.Saves pk) : ∃ op' ∈ before ++ [op], op'.Saves pk :=
    ⟨op, List.mem_append_right _ (List.mem_singleton_self op), hs⟩
  have hold {pk : Nat} (hs : ∃ op' ∈ before, op'.Saves pk) : ∃ op' ∈ before ++ [op], op'.Saves pk := by
    obtain ⟨op', hop, hs⟩ := hs
    exact ⟨op', List.mem_append_left _ hop, hs⟩
  refine ⟨hrefs, fun pk hpk => ?_, fun pk hpk => ?_, fun i hi => ?_⟩
  · exact (hplatforms pk hpk).elim (fun hpk => hold (h.saved pk hpk)) hlast
  · exact (hdispatched pk hpk).elim (fun hpk => hold (h.counted pk hpk)) hlast
  · have hfirst : ∀ op' ∈ before, ¬ op'.Saves i.pk :=
      fun op' hop => hi op' (List.mem_append_left _ hop)
    -- where nothing was saved, there is no row
    have hrow : i.pk ∉ w.credentials := by
      intro hrow
      obtain ⟨op', hop, hs⟩ := h.saved _ (h.references _ hrow)
      exact hfirst op' hop hs
    rw [hcached i hrow, h.attached i hfirst, List.mem_append, List.mem_singleton, eq_comm (a := op)]

theorem before_save_platform (h : Before before w) (j : Instance) (is_active broker : Bool) :
    Before (before ++ [.save_platform j is_active broker])
      (next w (.save_platform j is_active broker)) := by
  by_cases hj : j.pk ∈ w.platforms
  · have hsame : next w (.save_platform j is_active broker) = w := by
      simp [next, auto_sync_platform_on_created, hj]
    rw [hsame]
    exact h.snoc h.references (fun _ => .inl) (fun _ => .inl) fun i _ => by simp
  · have hrefs : ∀ pk ∈ w.credentials, pk ∈ j.pk :: w.platforms := fun pk hpk =>
      List.mem_cons_of_mem _ (h.references pk hpk)
    have hplatforms : ∀ pk ∈ j.pk :: w.platforms,
        pk ∈ w.platforms ∨ (Op.save_platform j is_active broker).Saves pk :=
      List.forall_mem_cons.mpr ⟨.inr rfl, fun _ => .inl⟩
    have hread (i : Instance) (hrow : i.pk ∉ w.credentials) :
        (credential { w with platforms := j.pk :: w.platforms } j).2.cached i = some true ↔
          w.cached i = some true ∨ Op.save_platform j is_active broker = .attach i :=
      (cached_credential (w := { w with platforms := j.pk :: w.platforms }) hrow j).trans (by simp)
    simp only [next, hj, not_false_eq_true, decide_true, if_true]
    rcases auto_sync_cases { w with platforms := j.pk :: w.platforms } j true is_active broker with
      he | he | ⟨-, he⟩ <;> rw [he]
    · exact h.snoc hrefs hplatforms (fun _ => .inl) fun i _ => by simp
    · exact h.snoc (by simpa using hrefs) (by simpa using hplatforms) (fun pk => by simp +contextual)
        hread
    · refine h.snoc (by simpa using hrefs) (by simpa using hplatforms) (fun pk hpk => ?_) hread
      exact (List.mem_append.mp hpk).imp_right fun hpk => (List.mem_singleton.mp hpk).symm

theorem before_save_credential (h : Before before w) (k : Nat) :
    Before (before ++ [.save_credential k]) (next w (.save_credential k)) := by
  by_cases hk : k ∈ w.platforms ∧ k ∉ w.credentials
  · rw [next, if_pos hk]
    exact h.snoc (List.forall_mem_cons.mpr ⟨hk.1, h.references⟩) (fun _ => .inl) (fun _ => .inl)
      fun i _ => by simp
  · rw [next, if_neg hk]
    exact h.snoc h.references (fun _ => .inl) (fun _ => .inl) fun i _ => by simp

theorem before_step (ops : List Op) (w : World) (op : Op) (w' : World) (h : Before ops w)
    (hs : Step w op w') : Before (ops ++ [op]) w' := by
  rw [Step] at hs
  subst hs
  cases op with
  | attach j =>
      refine h.snoc h.references (fun _ => .inl) (fun _ => .inl) fun i _ => ?_
      by_cases hij : i = j
      · simp [next, hij]
      · simp [next, hij, Ne.symm hij]
  | read j =>
      refine h.snoc (by simpa [next] using h.references) (fun pk => by simp +contextual [next])
        (fun pk => by simp +contextual [next]) fun i hrow => ?_
      rw [next, cached_credential hrow]
      simp
  | save_credential k => exact before_save_credential h k
  | save_platform j is_active broker => exact before_save_platform h j is_active broker

/-! ### The first save -/

/-- What the first save of a platform that is active dispatches. -/
theorem count_first_save (h : Before before w) (hfirst : ∀ op ∈ before, ¬ op.Saves i.pk)
    (broker : Bool) : (next w (.save_platform i true broker)).dispatched.count i.pk =
      if Op.attach i ∈ before ∧ broker then 1 else 0 := by
  have hplatform : i.pk ∉ w.platforms := fun hmem => by
    obtain ⟨op, hop, hs⟩ := h.saved _ hmem
    exact hfirst op hop hs
  have hcount : w.dispatched.count i.pk = 0 := by
    refine List.count_eq_zero.mpr fun hmem => ?_
    obtain ⟨op, hop, hs⟩ := h.counted _ hmem
    exact hfirst op hop hs
  have hrow : i.pk ∉ w.credentials := fun hmem => hplatform (h.references _ hmem)
  have hseen : (credential { w with platforms := i.pk :: w.platforms } i).1 = true ↔
      Op.attach i ∈ before :=
    (credential_fst (w := { w with platforms := i.pk :: w.platforms }) hrow).trans
      (h.attached i hfirst)
  simp only [next, hplatform, not_false_eq_true, decide_true, if_true]
  rw [auto_sync_platform_on_created]
  by_cases hattach : Op.attach i ∈ before
  · cases broker <;> simp [hseen.mpr hattach, hattach, hcount, List.count_append]
  · have hnot : (credential { w with platforms := i.pk :: w.platforms } i).1 = false := by
      simpa using mt hseen.mp hattach
    simp [hnot, hattach, hcount]

end

/-- After its first save, active, a platform has been dispatched once exactly if a credential was
attached to the instance before, and the broker took the task. -/
theorem first_sync_iff {before after : List Op} {i : Instance} {broker : Bool} {w : World}
    (hfirst : ∀ op ∈ before, ¬ op.Saves i.pk)
    (r : Run Step init (before ++ .save_platform i true broker :: after) w) :
    w.dispatched.count i.pk = 1 ↔ Op.attach i ∈ before ∧ broker = true := by
  obtain ⟨u, u', r₁, hs, r₂⟩ := r.split
  have hbefore : Before before u := r₁.invariant_log before_step before_init
  have hcount := count_first_save hbefore hfirst broker
  rw [hs] at hcount
  have hmem : i.pk ∈ u'.platforms := by
    have hplatform : i.pk ∉ u.platforms := fun hmem => by
      obtain ⟨op, hop, hsv⟩ := hbefore.saved _ hmem
      exact hfirst op hop hsv
    rw [← hs]
    simp only [next, hplatform, not_false_eq_true, decide_true, if_true]
    rcases auto_sync_cases { u with platforms := i.pk :: u.platforms } i true true broker with
      he | he | ⟨-, he⟩ <;> simp [he]
  rw [run_of_mem r₂ hmem, hcount]
  simp

/-! ### The order of the view -/

/-- The platform, then its credential, and both once more. -/
def saves (i : Instance) : List Op :=
  [.save_platform i true true, .save_credential i.pk, .save_platform i true true,
    .save_credential i.pk]

def after (w : World) (ops : List Op) : World := ops.foldl next w

theorem run_after (w : World) (ops : List Op) : Run Step w ops (after w ops) := by
  induction ops generalizing w with
  | nil => exact .nil w
  | cons op ops ih => exact .cons rfl (ih (next w op))

theorem first_sync_attached : (after init (.attach ⟨1, 1⟩ :: saves ⟨1, 1⟩)).dispatched.count 1 = 1 ↔
    Op.attach ⟨1, 1⟩ ∈ [Op.attach ⟨1, 1⟩] ∧ true = true :=
  have hbefore : ∀ op ∈ [Op.attach ⟨1, 1⟩], ¬ op.Saves (⟨1, 1⟩ : Instance).pk := by simp [Op.Saves]
  first_sync_iff hbefore (run_after init (.attach ⟨1, 1⟩ :: saves ⟨1, 1⟩))

/-- Nothing is dispatched, though both rows are there. -/
theorem saved_not_synced : Run Step init (saves ⟨1, 1⟩) (after init (saves ⟨1, 1⟩)) ∧
    (after init (saves ⟨1, 1⟩)).platforms = [1] ∧ (after init (saves ⟨1, 1⟩)).credentials = [1] ∧
    (after init (saves ⟨1, 1⟩)).dispatched = [] :=
  ⟨run_after .., by decide, by decide, by decide⟩

end InfraHub.Virt.FirstSync
