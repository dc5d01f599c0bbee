import InfraHub.Lib.Run
import InfraHub.Lib.Slots
import Mathlib.Data.List.Perm.Subperm
import Mathlib.Data.List.Sort

/-!
# Task — Batch

A batch import or deletion: `run_view_by_celery_task` cuts the rows into batches and enqueues a
`background_task_view_set_job` for each, and the job that finds all results in the shared list
publishes the message of completion.

The jobs run at the same time.  Each command on the list is one step, and only the check is under the
lock.  `CacheList` keeps no more than `max_size` results, so with more batches than that the count is
not reached: `reports_iff`.
-/

namespace InfraHub.Task
open InfraHub.Lib (Run getElem?_set_cases getElem?_set_same getElem?_set_other countP_set_add mem_set_same
  mem_set_of_ne)

variable {α ρ : Type}

/-! ### `run_view_by_celery_task` -/

/-- What is enqueued: the part of `meta` that differs from job to job, and the rows. -/
structure Job (α : Type) where
  task_index : Nat
  task_count : Nat
  data : List α

/-- `itertools.batched(data, n)`, for a positive `n`. -/
def batched (n : Nat) (data : List α) : List (List α) :=
  match data with
  | [] => []
  | row :: rows => (row :: rows.take (n - 1)) :: batched n (rows.drop (n - 1))
termination_by data.length
decreasing_by rw [List.length_cons, List.length_drop]; omega

/-- `math.ceil(len(data) / batch_length)`. -/
def task_count (n batch_length : Nat) : Nat := (n + batch_length - 1) / batch_length

def run_view_by_celery_task (data : List α) (batch_length : Nat) : List (Job α) :=
  (batched batch_length data).mapIdx fun index batch =>
    ⟨index, task_count data.length batch_length, batch⟩

theorem length_batched {n : Nat} (hn : 0 < n) (data : List α) :
    (batched n data).length = task_count data.length n := by
  fun_induction batched n data with
  | case1 => exact (Nat.div_eq_of_lt (by simp; omega)).symm
  | case2 row rows ih =>
      rw [List.length_cons, ih, List.length_drop, task_count, task_count, List.length_cons]
      rcases Nat.lt_or_ge rows.length n with h | h
      · have hone : (rows.length + 1 + n - 1) / n = 1 :=
          Nat.div_eq_of_lt_le (by rw [Nat.one_mul]; omega) (by omega)
        rw [Nat.div_eq_of_lt (by omega), hone]
      · have hsplit : rows.length + 1 + n - 1 = (rows.length - (n - 1) + n - 1) + n := by omega
        rw [hsplit, Nat.add_div_right _ hn]

/-! ### The list -/

def max_size : Nat := 1024

/-- `LTRIM`, for places counted from the start. -/
def ltrim (list : List α) (start stop : Nat) : List α := (list.take (stop + 1)).drop start

structure TaskInfo (ρ : Type) where
  task_index : Nat
  status : Bool
  result : ρ

structure Message (ρ : Type) where
  state : Bool
  tasks : List (TaskInfo ρ)

def message (task_results : List (TaskInfo ρ)) : Message ρ :=
  ⟨task_results.all TaskInfo.status, task_results.mergeSort fun a b => a.task_index ≤ b.task_index⟩

/-! ### `background_task_view_set_job` -/

/-- Where a job is, after `view_func`: before each command. -/
inductive Pc (ρ : Type) where
  | push
  | llen
  | ltrim (stop : Nat)
  | expire
  | lock
  | len
  | len_again
  | get_all
  | delete (task_results : List (TaskInfo ρ))
  | publish (task_results : List (TaskInfo ρ))
  | release
  | done

/-- What the jobs share. -/
structure Shared (ρ : Type) where
  list : List (TaskInfo ρ)
  lock : Option Nat
  published : List (Message ρ)

structure State (ρ : Type) where
  shared : Shared ρ
  pcs : List (Pc ρ)

/-- `run` is what `view_func` gives: whether the code is 1000, and the detail. -/
def task_info (run : Job α → Bool × ρ) (job : Job α) : TaskInfo ρ :=
  ⟨job.task_index, (run job).1, (run job).2⟩

/-- The next command of job `i`. -/
def act (run : Job α → Bool × ρ) (job : Job α) (i : Nat) (w : Shared ρ) :
    Pc ρ → Option (Shared ρ × Pc ρ)
  | .push => some ({ w with list := task_info run job :: w.list }, .llen)
  | .llen => some (w, if max_size < w.list.length then .ltrim w.list.length else .expire)
  | .ltrim stop => some ({ w with list := ltrim w.list (stop - max_size) stop }, .expire)
  | .expire => some (w, .lock)
  | .lock => if w.lock = none then some ({ w with lock := some i }, .len) else none
  | .len => some (w, if w.list.length ≠ 0 then .len_again else .release)
  | .len_again => some (w, if w.list.length = job.task_count then .get_all else .release)
  | .get_all => some (w, .delete w.list)
  | .delete task_results => some ({ w with list := [] }, .publish task_results)
  | .publish task_results =>
    some ({ w with published := w.published ++ [message task_results] }, .release)
  | .release => some ({ w with lock := none }, .done)
  | .done => none

def next (jobs : List (Job α)) (run : Job α → Bool × ρ) (s : State ρ) (i : Nat) : Option (State ρ) :=
  match jobs[i]?, s.pcs[i]? with
  | some job, some pc => (act run job i s.shared pc).map fun (w, pc) => ⟨w, s.pcs.set i pc⟩
  | _, _ => none

abbrev Step (jobs : List (Job α)) (run : Job α → Bool × ρ) (s : State ρ) (i : Nat) (t : State ρ) : Prop :=
  next jobs run s i = some t

/-- All jobs are enqueued. -/
def start (jobs : List (Job α)) : State ρ :=
  ⟨⟨[], none, []⟩, List.replicate jobs.length .push⟩

def Finished (s : State ρ) : Prop := ∀ pc ∈ s.pcs, pc = .done

/-- The message with the results of all jobs, in order. -/
def complete (jobs : List (Job α)) (run : Job α → Bool × ρ) : Message ρ :=
  ⟨(jobs.map (task_info run)).all TaskInfo.status, jobs.map (task_info run)⟩

/-- In whatever order the jobs take their steps, there is one message, and it is complete. -/
def Reports (jobs : List (Job α)) (run : Job α → Bool × ρ) : Prop :=
  ∀ l s, Run (Step jobs run) (start jobs) l s → Finished s → s.shared.published = [complete jobs run]

/-! ### The jobs and their results -/

section
variable {jobs : List (Job α)} {run : Job α → Bool × ρ} {s t : State ρ} {i : Nat}

/-- What is enqueued: the jobs know their number, and how many they are. -/
structure Numbered (jobs : List (Job α)) : Prop where
  index : ∀ (i : Nat) (job : Job α), jobs[i]? = some job → job.task_index = i
  count : ∀ job ∈ jobs, job.task_count = jobs.length

theorem length_run_view {n : Nat} (hn : 0 < n) (data : List α) :
    (run_view_by_celery_task data n).length = task_count data.length n := by
  rw [run_view_by_celery_task, List.length_mapIdx, length_batched hn]

theorem numbered_run_view {n : Nat} (hn : 0 < n) (data : List α) :
    Numbered (run_view_by_celery_task data n) where
  index i job h := by
    rw [run_view_by_celery_task, List.getElem?_mapIdx] at h
    obtain ⟨batch, -, rfl⟩ := Option.map_eq_some_iff.mp h
    rfl
  count job h := by
    rw [length_run_view hn]
    obtain ⟨i, -, rfl⟩ := List.mem_mapIdx.mp h
    rfl

theorem index_results (hjobs : Numbered jobs) :
    (jobs.map (task_info run)).map TaskInfo.task_index = List.range jobs.length := by
  refine List.ext_getElem (by simp) fun i hi _ => ?_
  simp only [List.getElem_map, List.getElem_range, task_info]
  exact hjobs.index i _ (List.getElem?_eq_getElem _)

theorem nodup_index (hjobs : Numbered jobs) :
    ((jobs.map (task_info run)).map TaskInfo.task_index).Nodup := by
  rw [index_results hjobs]
  exact List.nodup_range

/-- **The message of all results**, in whatever order they were pushed. -/
theorem message_of_perm (hjobs : Numbered jobs) {l : List (TaskInfo ρ)}
    (h : l.Perm (jobs.map (task_info run))) : message l = complete jobs run := by
  have hperm := List.mergeSort_perm l fun a b => a.task_index ≤ b.task_index
  have hsorted : l.mergeSort (fun a b => a.task_index ≤ b.task_index) = jobs.map (task_info run) := by
    refine @List.Perm.eq_of_pairwise _ (fun a b => a.task_index ≤ b.task_index) _ _ ?_ ?_ ?_
      (hperm.trans h)
    · intro a b ha hb hab hba
      exact List.inj_on_of_nodup_map (nodup_index hjobs) (h.subset (hperm.subset ha)) hb
        (Nat.le_antisymm hab hba)
    · have hle := @List.pairwise_mergeSort _ (fun a b : TaskInfo ρ => a.task_index ≤ b.task_index)
        (fun a b c hab hbc => by simp only [decide_eq_true_eq] at *; omega)
        (fun a b => by simp only [Bool.or_eq_true, decide_eq_true_eq]; omega) l
      exact hle.imp fun hab => of_decide_eq_true hab
    · have hrange : ((jobs.map (task_info run)).map TaskInfo.task_index).Pairwise (· ≤ ·) := by
        rw [index_results hjobs]
        exact List.pairwise_le_range
      exact List.pairwise_map.mp hrange
  have hall : l.all TaskInfo.status = (jobs.map (task_info run)).all TaskInfo.status := by
    rw [Bool.eq_iff_iff, List.all_eq_true, List.all_eq_true]
    exact forall_congr' fun x => imp_congr_left h.mem_iff
  rw [message, hsorted, hall, complete]

/-! ### Up to `max_size` jobs -/

/-- The result is in the list, or was. -/
def Pc.pushed : Pc ρ → Bool
  | .push => false
  | _ => true

def Pc.holds : Pc ρ → Bool
  | .len | .len_again | .get_all | .delete _ | .publish _ | .release => true
  | _ => false

/-- The job has seen the count, or found all results. -/
def Pc.found : Pc ρ → Bool
  | .len_again | .get_all | .delete _ | .publish _ => true
  | _ => false

def Pc.past : Pc ρ → Bool
  | .release | .done => true
  | _ => false

/-- Before the results are taken from the list: it has what was pushed, and some job will look at it. -/
structure Before (jobs : List (Job α)) (run : Job α → Bool × ρ) (s : State ρ) : Prop where
  published : s.shared.published = []
  length : s.shared.list.length = s.pcs.countP Pc.pushed
  mem : ∀ (i : Nat) (job : Job α), jobs[i]? = some job → (∀ pc, s.pcs[i]? = some pc → pc.pushed) →
    task_info run job ∈ s.shared.list
  found : ∀ pc ∈ s.pcs, pc.found → pc = .len_again ∨ (pc = .get_all ∨ pc = .delete s.shared.list) ∧
    s.shared.list.length = jobs.length
  ahead : ∃ pc ∈ s.pcs, pc.past = false

/-- After: one job has all results, or has published them. -/
structure After (jobs : List (Job α)) (run : Job α → Bool × ρ) (s : State ρ) : Prop where
  list : s.shared.list = []
  pushed : ∀ pc ∈ s.pcs, pc.pushed
  found : ∀ pc ∈ s.pcs, pc.found → ∃ l, pc = .publish l ∧ l.Perm (jobs.map (task_info run)) ∧
    s.shared.published = []
  published : s.shared.published = [complete jobs run] ∨
    s.shared.published = [] ∧ ∃ pc ∈ s.pcs, pc.found

structure Inv (jobs : List (Job α)) (run : Job α → Bool × ρ) (s : State ρ) : Prop where
  length : s.pcs.length = jobs.length
  lock : ∀ (i : Nat) (pc : Pc ρ), s.pcs[i]? = some pc → (pc.holds ↔ s.shared.lock = some i)
  trim : ∀ pc ∈ s.pcs, ∀ stop, pc ≠ .ltrim stop
  phase : Before jobs run s ∨ After jobs run s

theorem inv_start (h : jobs ≠ []) : Inv jobs run (start (ρ := ρ) jobs) := by
  have hpc (pc : Pc ρ) (hpc : pc ∈ (start (ρ := ρ) jobs).pcs) : pc = .push := List.eq_of_mem_replicate hpc
  have hget (i : Nat) (pc : Pc ρ) (hi : (start (ρ := ρ) jobs).pcs[i]? = some pc) : pc = .push :=
    hpc pc (List.mem_of_getElem? hi)
  refine ⟨List.length_replicate, fun i pc hi => ?_, fun pc hmem stop => ?_, .inl ⟨rfl, ?_, ?_, ?_, ?_⟩⟩
  · rw [hget i pc hi]
    exact ⟨nofun, nofun⟩
  · rw [hpc pc hmem]
    nofun
  · rw [List.countP_eq_zero.mpr fun pc hmem => by simp [hpc pc hmem, Pc.pushed]]
    rfl
  · intro i job hjob hall
    obtain ⟨hi, -⟩ := List.getElem?_eq_some_iff.mp hjob
    cases hall .push (by simp [start, hi])
  · intro pc hmem hfound
    rw [hpc pc hmem] at hfound
    cases hfound
  · exact ⟨.push, List.mem_replicate.mpr ⟨by simpa using h, rfl⟩, rfl⟩

section
variable {w : Shared ρ} {pc old : Pc ρ}

/-- A process afterwards is the one that moved, or another one. -/
theorem mem_set_cases {l : List (Pc ρ)} (h : pc ∈ l.set i old) :
    pc = old ∨ ∃ j, j ≠ i ∧ l[j]? = some pc := by
  obtain ⟨j, hj⟩ := List.mem_iff_getElem?.mp h
  rcases getElem?_set_cases hj with ⟨-, rfl⟩ | ⟨hne, hj⟩
  · exact .inl rfl
  · exact .inr ⟨j, hne, hj⟩

/-- Who has found something holds the lock, so there is no second one. -/
theorem Inv.alone (h : Inv jobs run s) (hi : s.pcs[i]? = some old) (hold : old.holds) {j : Nat}
    (hj : s.pcs[j]? = some pc) (hfound : pc.found) : j = i := by
  have hholds : pc.holds := by cases pc <;> first | rfl | cases hfound
  have hlock := ((h.lock j pc hj).mp hholds).symm.trans ((h.lock i old hi).mp hold)
  exact Option.some.inj hlock

theorem Before.all_pushed (h : Before jobs run s) (hlength : s.pcs.length = jobs.length)
    (hall : s.shared.list.length = jobs.length) : ∀ pc ∈ s.pcs, pc.pushed := by
  refine List.countP_eq_length.mp ?_
  rw [← h.length, hall, hlength]

/-- A step that leaves the list and the messages as they are, of a job that has pushed. -/
theorem Before.goto (h : Before jobs run s) (hi : s.pcs[i]? = some old) (hpushed : old.pushed)
    (hpc : pc.pushed) (hlist : w.list = s.shared.list) (hpublished : w.published = s.shared.published)
    (hfound : pc.found → pc = .len_again ∨ (pc = .get_all ∨ pc = .delete s.shared.list) ∧
      s.shared.list.length = jobs.length)
    (hahead : pc.past = false ∨ ∃ q ∈ s.pcs, q.past = false ∧ q ≠ old) :
    Before jobs run ⟨w, s.pcs.set i pc⟩ := by
  refine ⟨hpublished.trans h.published, ?_, ?_, ?_, ?_⟩
  · have hcount := countP_set_add (a := pc) Pc.pushed hi
    rw [if_pos hpushed, if_pos hpc] at hcount
    dsimp only
    rw [hlist, h.length]
    omega
  · intro j job hjob hall
    rw [hlist]
    refine h.mem j job hjob fun q hq => ?_
    by_cases hji : j = i
    · subst hji
      rwa [Option.some.inj (hq.symm.trans hi)]
    · exact hall q ((getElem?_set_other hji).trans hq)
  · intro q hq hqfound
    dsimp only
    rw [hlist]
    rcases mem_set_cases hq with rfl | ⟨j, -, hj⟩
    · exact hfound hqfound
    · exact h.found q (List.mem_of_getElem? hj) hqfound
  · rcases hahead with hahead | ⟨q, hq, hpast, hne⟩
    · exact ⟨pc, mem_set_same hi, hahead⟩
    · exact ⟨q, mem_set_of_ne hi hq hne, hpast⟩

/-- A step of a job that has found nothing, after the results were taken. -/
theorem After.goto (h : After jobs run s) (hi : s.pcs[i]? = some old) (hold : old.found = false)
    (hpc : pc.pushed) (hpcfound : pc.found = false) (hlist : w.list = s.shared.list)
    (hpublished : w.published = s.shared.published) : After jobs run ⟨w, s.pcs.set i pc⟩ := by
  refine ⟨hlist.trans h.list, ?_, ?_, ?_⟩
  · intro q hq
    rcases mem_set_cases hq with rfl | ⟨j, -, hj⟩
    · exact hpc
    · exact h.pushed q (List.mem_of_getElem? hj)
  · intro q hq hqfound
    dsimp only
    rw [hpublished]
    rcases mem_set_cases hq with rfl | ⟨j, -, hj⟩
    · cases hpcfound.symm.trans hqfound
    · exact h.found q (List.mem_of_getElem? hj) hqfound
  · dsimp only
    rw [hpublished]
    refine h.published.imp id (And.imp id ?_)
    rintro ⟨q, hq, hqfound⟩
    refine ⟨q, mem_set_of_ne hi hq ?_, hqfound⟩
    rintro rfl
    cases hold.symm.trans hqfound

/-- What holds of the lock after a step of job `i`. -/
theorem Inv.goto (h : Inv jobs run s) (hi : s.pcs[i]? = some old) (hpc : pc.holds ↔ w.lock = some i)
    (hlock : ∀ j, j ≠ i → (s.shared.lock = some j ↔ w.lock = some j)) (htrim : ∀ stop, pc ≠ .ltrim stop)
    (hphase : Before jobs run ⟨w, s.pcs.set i pc⟩ ∨ After jobs run ⟨w, s.pcs.set i pc⟩) :
    Inv jobs run ⟨w, s.pcs.set i pc⟩ := by
  refine ⟨by rw [List.length_set, h.length], fun j q hj => ?_, fun q hq => ?_, hphase⟩
  · rcases getElem?_set_cases hj with ⟨rfl, rfl⟩ | ⟨hne, hj⟩
    · exact hpc
    · exact (h.lock j q hj).trans (hlock j hne)
  · rcases mem_set_cases hq with rfl | ⟨j, -, hj⟩
    · exact htrim
    · exact h.trim q (List.mem_of_getElem? hj)

theorem next_eq_some : next jobs run s i = some t ↔ ∃ job pc w pc', jobs[i]? = some job ∧
    s.pcs[i]? = some pc ∧ act run job i s.shared pc = some (w, pc') ∧ t = ⟨w, s.pcs.set i pc'⟩ := by
  unfold next
  constructor
  · intro h
    split at h
    · next job pc hjob hpc =>
      obtain ⟨⟨w, pc'⟩, hact, rfl⟩ := Option.map_eq_some_iff.mp h
      exact ⟨job, pc, w, pc', hjob, hpc, hact, rfl⟩
    · cases h
  · rintro ⟨job, pc, w, pc', hjob, hpc, hact, rfl⟩
    simp [hjob, hpc, hact]

/-- The list has no more results than there are jobs. -/
theorem Inv.list_length (h : Inv jobs run s) : s.shared.list.length ≤ jobs.length := by
  rcases h.phase with hbefore | hafter
  · rw [hbefore.length, ← h.length]
    exact List.countP_le_length
  · rw [hafter.list]
    exact Nat.zero_le _

/-- A job that moves on and leaves what the jobs share as it is. -/
theorem Inv.move (h : Inv jobs run s) (hi : s.pcs[i]? = some old) (hpushed : old.pushed)
    (hold : old.found = false) (hholds : pc.holds = old.holds) (hpc : pc.pushed)
    (hpast : pc.past = false) (hfound : pc.found = false) (htrim : ∀ stop, pc ≠ .ltrim stop) :
    Inv jobs run ⟨s.shared, s.pcs.set i pc⟩ := by
  refine h.goto hi (hholds ▸ h.lock i old hi) (fun _ _ => Iff.rfl) htrim ?_
  refine h.phase.imp (fun hbefore => hbefore.goto hi hpushed hpc rfl rfl ?_ (.inl hpast)) fun hafter =>
    hafter.goto hi hold hpc hfound rfl rfl
  intro htrue
  cases hfound.symm.trans htrue

/-- The results of all jobs. -/
theorem Before.perm (h : Before jobs run s) (hjobs : Numbered jobs) (hlength : s.pcs.length = jobs.length)
    (hall : s.shared.list.length = jobs.length) :
    s.shared.list.Perm (jobs.map (task_info run)) := by
  have hpushed := h.all_pushed hlength hall
  have hsub : jobs.map (task_info run) ⊆ s.shared.list := by
    intro x hx
    obtain ⟨job, hjob, rfl⟩ := List.mem_map.mp hx
    obtain ⟨i, hi⟩ := List.mem_iff_getElem?.mp hjob
    exact h.mem i job hi fun pc hpc => hpushed pc (List.mem_of_getElem? hpc)
  have hnodup : (jobs.map (task_info run)).Nodup := (nodup_index hjobs).of_map
  refine ((hnodup.subperm hsub).perm_of_length_le ?_).symm
  rw [hall, List.length_map]

/-- **What a job does** keeps the invariant. -/
theorem inv_step (hjobs : Numbered jobs) (hmax : jobs.length ≤ max_size) (h : Inv jobs run s)
    (hstep : Step jobs run s i t) : Inv jobs run t := by
  obtain ⟨job, pc, w, pc', hjob, hi, hact, rfl⟩ := next_eq_some.mp hstep
  have hlength := h.list_length
  have hmem := List.mem_of_getElem? hi
  have hheld (hpc : pc.holds) : s.shared.lock = some i := (h.lock i pc hi).mp hpc
  cases pc with
  | push =>
      cases hact
      refine h.goto hi ⟨nofun, fun hlock => ?_⟩ (fun _ _ => Iff.rfl) nofun ?_
      · cases (h.lock i .push hi).mpr hlock
      · rcases h.phase with hbefore | hafter
        · have hshort : s.shared.list.length ≠ jobs.length := fun hall => by
            cases hbefore.all_pushed h.length hall _ hmem
          refine .inl ⟨hbefore.published, ?_, fun j job' hj hall => ?_, fun q hq hqfound => ?_,
            .llen, mem_set_same hi, rfl⟩
          · have hcount := countP_set_add (a := Pc.llen) Pc.pushed hi
            simp only [Pc.pushed, if_true, Bool.false_eq_true, if_false] at hcount
            dsimp only
            rw [List.length_cons, hbefore.length]
            omega
          · by_cases hji : j = i
            · subst hji
              obtain rfl : job' = job := Option.some.inj (hj.symm.trans hjob)
              exact List.mem_cons_self
            · refine List.mem_cons_of_mem _ (hbefore.mem j job' hj fun q hq => hall q ?_)
              exact (getElem?_set_other hji).trans hq
          · rcases mem_set_cases hq with rfl | ⟨j, -, hj⟩
            · cases hqfound
            · refine (hbefore.found q (List.mem_of_getElem? hj) hqfound).imp id fun hall => ?_
              exact absurd hall.2 hshort
        · cases hafter.pushed _ hmem
  | llen =>
      cases hact
      rw [if_neg (by omega)]
      exact h.move hi rfl rfl rfl rfl rfl rfl nofun
  | ltrim stop => exact absurd rfl (h.trim _ hmem stop)
  | expire =>
      cases hact
      exact h.move hi rfl rfl rfl rfl rfl rfl nofun
  | lock =>
      obtain ⟨hfree, hact⟩ := Option.ite_none_right_eq_some.mp hact
      cases hact
      refine h.goto hi ⟨fun _ => rfl, fun _ => rfl⟩ (fun j hj => ?_) nofun ?_
      · rw [hfree]
        exact ⟨nofun, fun heq => absurd (Option.some.inj heq).symm hj⟩
      · exact h.phase.imp (fun hbefore => hbefore.goto hi rfl rfl rfl rfl nofun (.inl rfl)) fun hafter =>
          hafter.goto hi rfl rfl rfl rfl rfl
  | len =>
      cases hact
      refine h.goto hi ⟨fun _ => hheld rfl, fun _ => by split_ifs <;> rfl⟩ (fun _ _ => Iff.rfl)
        (fun stop => by split_ifs <;> nofun) ?_
      rcases h.phase with hbefore | hafter
      · have hpos : s.shared.list.length ≠ 0 := by
          rw [hbefore.length]
          exact (List.countP_pos_iff.mpr ⟨_, hmem, rfl⟩).ne'
        rw [if_pos hpos]
        exact .inl (hbefore.goto hi rfl rfl rfl rfl (fun _ => .inl rfl) (.inl rfl))
      · rw [if_neg (by rw [hafter.list]; exact fun hne => hne rfl)]
        exact .inr (hafter.goto hi rfl rfl rfl rfl rfl)
  | len_again =>
      cases hact
      rw [hjobs.count job (List.mem_of_getElem? hjob)]
      refine h.goto hi ⟨fun _ => hheld rfl, fun _ => by split_ifs <;> rfl⟩ (fun _ _ => Iff.rfl)
        (fun stop => by split_ifs <;> nofun) ?_
      rcases h.phase with hbefore | hafter
      · split_ifs with hall
        · exact .inl (hbefore.goto hi rfl rfl rfl rfl (fun _ => .inr ⟨.inl rfl, hall⟩) (.inl rfl))
        · refine .inl (hbefore.goto hi rfl rfl rfl rfl nofun (.inr ?_))
          -- another job has not pushed yet
          have hnot : ¬ ∀ q ∈ s.pcs, q.pushed := fun hpushed => hall (by
            rw [hbefore.length, List.countP_eq_length.mpr hpushed, h.length])
          push Not at hnot
          obtain ⟨q, hq, hpush⟩ := hnot
          cases q with
          | push => exact ⟨_, hq, rfl, nofun⟩
          | _ => exact absurd rfl hpush
      · obtain ⟨l, heq, -⟩ := hafter.found _ hmem rfl
        cases heq
  | get_all =>
      cases hact
      refine h.goto hi ⟨fun _ => hheld rfl, fun _ => rfl⟩ (fun _ _ => Iff.rfl) nofun ?_
      rcases h.phase with hbefore | hafter
      · obtain hagain | ⟨-, hall⟩ := hbefore.found _ hmem rfl
        · cases hagain
        · exact .inl (hbefore.goto hi rfl rfl rfl rfl (fun _ => .inr ⟨.inr rfl, hall⟩) (.inl rfl))
      · obtain ⟨l, heq, -⟩ := hafter.found _ hmem rfl
        cases heq
  | delete task_results =>
      cases hact
      refine h.goto hi ⟨fun _ => hheld rfl, fun _ => rfl⟩ (fun _ _ => Iff.rfl) nofun (.inr ?_)
      rcases h.phase with hbefore | hafter
      · obtain hagain | ⟨hget | hdelete, hall⟩ := hbefore.found _ hmem rfl
        · cases hagain
        · cases hget
        · obtain rfl : task_results = s.shared.list := Pc.delete.inj hdelete
          have hpushed := hbefore.all_pushed h.length hall
          refine ⟨rfl, fun q hq => ?_, fun q hq hqfound => ?_,
            .inr ⟨hbefore.published, _, mem_set_same hi, rfl⟩⟩
          · rcases mem_set_cases hq with rfl | ⟨j, -, hj⟩
            · rfl
            · exact hpushed q (List.mem_of_getElem? hj)
          · rcases mem_set_cases hq with rfl | ⟨j, hne, hj⟩
            · exact ⟨_, rfl, hbefore.perm hjobs h.length hall, hbefore.published⟩
            · exact absurd (h.alone hi rfl hj hqfound) hne
      · obtain ⟨l, heq, -⟩ := hafter.found _ hmem rfl
        cases heq
  | publish task_results =>
      cases hact
      refine h.goto hi ⟨fun _ => hheld rfl, fun _ => rfl⟩ (fun _ _ => Iff.rfl) nofun (.inr ?_)
      rcases h.phase with hbefore | hafter
      · obtain hagain | ⟨hget | hdelete, -⟩ := hbefore.found _ hmem rfl
        · cases hagain
        · cases hget
        · cases hdelete
      · obtain ⟨l, heq, hperm, hnone⟩ := hafter.found _ hmem rfl
        obtain rfl := Pc.publish.inj heq
        refine ⟨hafter.list, fun q hq => ?_, fun q hq hqfound => ?_, .inl ?_⟩
        · rcases mem_set_cases hq with rfl | ⟨j, -, hj⟩
          · rfl
          · exact hafter.pushed q (List.mem_of_getElem? hj)
        · rcases mem_set_cases hq with rfl | ⟨j, hne, hj⟩
          · cases hqfound
          · exact absurd (h.alone hi rfl hj hqfound) hne
        · dsimp only
          rw [hnone, message_of_perm hjobs hperm, List.nil_append]
  | release =>
      cases hact
      refine h.goto hi ⟨nofun, nofun⟩ (fun j hj => ?_) nofun ?_
      · rw [hheld rfl]
        exact ⟨fun heq => absurd (Option.some.inj heq).symm hj, nofun⟩
      · rcases h.phase with hbefore | hafter
        · obtain ⟨q, hq, hpast⟩ := hbefore.ahead
          refine .inl (hbefore.goto hi rfl rfl rfl rfl nofun (.inr ⟨q, hq, hpast, ?_⟩))
          rintro rfl
          cases hpast
        · exact .inr (hafter.goto hi rfl rfl rfl rfl rfl)
  | done => cases hact

theorem published_of_inv (h : Inv jobs run s) (hfinished : Finished s) :
    s.shared.published = [complete jobs run] := by
  rcases h.phase with hbefore | hafter
  · obtain ⟨pc, hpc, hahead⟩ := hbefore.ahead
    rw [hfinished pc hpc] at hahead
    cases hahead
  · refine hafter.published.resolve_right ?_
    rintro ⟨-, pc, hpc, hfound⟩
    rw [hfinished pc hpc] at hfound
    cases hfound

theorem reports_of_le (hjobs : Numbered jobs) (hne : jobs ≠ []) (hmax : jobs.length ≤ max_size) :
    Reports jobs run := by
  intro l s r hfinished
  have hinv : Inv jobs run s := r.invariant (fun _ _ _ h hstep => inv_step hjobs hmax h hstep) (inv_start hne)
  exact published_of_inv hinv hfinished

end

/-! ### More jobs than that, one after another -/

section
variable {w w' : Shared ρ} {pc pc' : Pc ρ} {pcs : List (Pc ρ)} {job : Job α}

theorem step_act (hjob : jobs[i]? = some job) (hi : i < pcs.length)
    (hact : act run job i w pc = some (w', pc')) :
    Step jobs run ⟨w, pcs.set i pc⟩ i ⟨w', pcs.set i pc'⟩ :=
  next_eq_some.mpr ⟨job, pc, w', pc', hjob, by simp [hi], hact, by rw [List.set_set]⟩

variable (run) in
/-- The list after a push is cut to `max_size`. -/
theorem run_trim (hjob : jobs[i]? = some job) (hi : i < pcs.length) (hw : w.list ≠ [])
    (hmax : w.list.length ≤ max_size + 1) :
    ∃ l list, Run (Step jobs run) ⟨w, pcs.set i .llen⟩ l ⟨{ w with list }, pcs.set i .expire⟩ ∧
      list ≠ [] ∧ list.length ≤ max_size := by
  rcases Nat.lt_or_ge max_size w.list.length with hlong | hshort
  · have hlen : act run job i w .llen = some (w, .ltrim w.list.length) := by
      simp [act, hlong]
    have hlength : (ltrim w.list (w.list.length - max_size) w.list.length).length = max_size := by
      rw [ltrim, List.length_drop, List.length_take]
      omega
    refine ⟨[i, i], _, .cons (step_act hjob hi hlen) (.one (step_act hjob hi rfl)), ?_, hlength.le⟩
    exact List.ne_nil_of_length_pos (by rw [hlength]; decide)
  · have hlen : act run job i w .llen = some (w, .expire) := by
      simp [act, Nat.not_lt.mpr hshort]
    exact ⟨[i], w.list, .one (step_act hjob hi hlen), hw, hshort⟩

variable (run) in
/-- A job alone, when there are too many: it does not find all results. -/
theorem run_alone (hjob : jobs[i]? = some job) (hi : i < pcs.length) (hcount : max_size < job.task_count)
    (hfree : w.lock = none) (hmax : w.list.length ≤ max_size) :
    ∃ l list, Run (Step jobs run) ⟨w, pcs.set i .push⟩ l ⟨{ w with list }, pcs.set i .done⟩ ∧
      list.length ≤ max_size := by
  obtain ⟨l, list, hrun, hne, hlist⟩ := run_trim run
    (w := { w with list := task_info run job :: w.list }) hjob hi (List.cons_ne_nil _ _) (Nat.succ_le_succ hmax)
  have hlock : act run job i { w with list } .lock = some ({ w with list := list, lock := some i }, .len) := by
    simp [act, hfree]
  have hlen : act run job i { w with list := list, lock := some i } .len =
      some ({ w with list := list, lock := some i }, .len_again) := by
    simp [act, hne]
  have hagain : act run job i { w with list := list, lock := some i } .len_again =
      some ({ w with list := list, lock := some i }, .release) := by
    have hdiff : list.length ≠ job.task_count := by omega
    simp [act, hdiff]
  have hrelease : act run job i { w with list := list, lock := some i } .release =
      some ({ w with list }, .done) := by
    simp [act, hfree]
  refine ⟨i :: (l ++ [i, i, i, i, i]), list, .cons (step_act hjob hi rfl) (hrun.append ?_), hlist⟩
  exact .cons (step_act hjob hi rfl) (.cons (step_act hjob hi hlock) (.cons (step_act hjob hi hlen)
    (.cons (step_act hjob hi hagain) (.one (step_act hjob hi hrelease)))))

variable (run) in
/-- **The jobs one after another**, when there are too many: there is no message. -/
theorem run_all (hjobs : Numbered jobs) (hmax : max_size < jobs.length) :
    ∃ l s, Run (Step jobs run) (start jobs) l s ∧ Finished s ∧ s.shared.published = [] := by
  have hfirst (k : Nat) (hk : k ≤ jobs.length) : ∃ l s, Run (Step jobs run) (start jobs) l s ∧
      s.shared.lock = none ∧ s.shared.published = [] ∧ s.shared.list.length ≤ max_size ∧
      s.pcs = List.replicate k .done ++ List.replicate (jobs.length - k) .push := by
    induction k with
    | zero => exact ⟨[], _, .nil _, rfl, rfl, Nat.zero_le _, by simp [start]⟩
    | succ k ih =>
        obtain ⟨l, ⟨w, pcs⟩, hrun, hfree, hnone, hlist, hpcs⟩ := ih (by omega)
        dsimp only at hfree hnone hlist hpcs
        have hi : k < pcs.length := by rw [hpcs, List.length_append, List.length_replicate]; simp; omega
        have hjob : jobs[k]? = some jobs[k] := List.getElem?_eq_getElem _
        have hcount : max_size < jobs[k].task_count := by
          rw [hjobs.count _ (List.getElem_mem _)]
          exact hmax
        obtain ⟨l', list, hrun', hlist'⟩ := run_alone run hjob hi hcount hfree hlist
        have hrest : List.replicate (jobs.length - k) (Pc.push (ρ := ρ)) =
            .push :: List.replicate (jobs.length - (k + 1)) .push := by
          rw [← List.replicate_succ]
          congr 1
          omega
        have hset (pc : Pc ρ) : pcs.set k pc =
            List.replicate k .done ++ pc :: List.replicate (jobs.length - (k + 1)) .push := by
          rw [hpcs, hrest, List.set_append_right _ _ (by simp)]
          simp
        have hsame : pcs.set k .push = pcs := by rw [hset, hpcs, hrest]
        rw [hsame] at hrun'
        refine ⟨l ++ l', _, hrun.append hrun', hfree, hnone, hlist', ?_⟩
        dsimp only
        rw [hset, List.replicate_succ', List.append_assoc, List.singleton_append]
  obtain ⟨l, s, hrun, -, hnone, -, hpcs⟩ := hfirst jobs.length le_rfl
  refine ⟨l, s, hrun, fun pc hpc => ?_, hnone⟩
  rw [hpcs, Nat.sub_self, List.replicate_zero, List.append_nil] at hpc
  exact List.eq_of_mem_replicate hpc

end

end

/-- **A batch import reports once and completely if and only if it has at most `max_size` batches.** -/
theorem reports_iff (data : List α) (hdata : data ≠ []) (batch_length : Nat) (hlength : 0 < batch_length)
    (run : Job α → Bool × ρ) :
    Reports (run_view_by_celery_task data batch_length) run ↔
      task_count data.length batch_length ≤ max_size := by
  have hjobs := numbered_run_view hlength data
  have hcount := length_run_view hlength data
  constructor
  · intro h
    by_contra hmore
    obtain ⟨l, s, hrun, hfinished, hnone⟩ := run_all run hjobs (by omega)
    have hone := h l s hrun hfinished
    rw [hnone] at hone
    cases hone
  · intro hmax
    refine reports_of_le hjobs (fun hnil => ?_) (hcount ▸ hmax)
    rw [hnil, List.length_nil, task_count] at hcount
    have hpos : 1 ≤ (data.length + batch_length - 1) / batch_length := by
      rw [Nat.one_le_div_iff hlength]
      have := List.length_pos_iff.mpr hdata
      omega
    omega

/-- Three rows in two batches. -/
theorem reports_three : Reports (run_view_by_celery_task [5, 6, 7] 2) fun job => (true, job.data) :=
  (reports_iff [5, 6, 7] (by decide) 2 (by decide) _).mpr (by decide)

/-- A hundred thousand rows and more, and no message. -/
theorem not_reports :
    ¬ Reports (run_view_by_celery_task (List.range 102401) 100) fun job => (true, job.data) := by
  intro h
  have hcount := length_run_view (n := 100) (by decide) (List.range 102401)
  rw [List.length_range] at hcount
  obtain ⟨l, s, hrun, hfinished, hnone⟩ := run_all (fun job : Job Nat => (true, job.data))
    (numbered_run_view (n := 100) (by decide) (List.range 102401)) (by rw [hcount]; decide)
  have hone := h l s hrun hfinished
  rw [hnone] at hone
  cases hone

end InfraHub.Task
