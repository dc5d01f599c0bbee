import InfraHub.Lib.Dict
import InfraHub.Lib.Json
import InfraHub.Lib.Table

/-!
# Task — Periodic

`create_or_update_celery_periodic_tasks`: the periodic tasks of a mapping are written into the tables
of `django_celery_beat`.

Every branch of the loop returns, so only the first entry of the mapping is looked at:
`registered_iff`.
-/

namespace InfraHub.Task.Periodic
open InfraHub.Lib
open InfraHub.Lib.Json (Floats Value dumps)

variable {F : Type}

/-! ### The tables -/

structure IntervalSchedule where
  id : Nat
  every : Int
  period : String
  deriving DecidableEq

/-- The columns of a crontab, but for its primary key. -/
structure Crontab where
  minute : Str
  hour : Str
  day_of_week : Str
  day_of_month : Str
  month_of_year : Str
  timezone : String
  deriving DecidableEq

structure CrontabSchedule where
  id : Nat
  columns : Crontab
  deriving DecidableEq

structure PeriodicTask where
  name : String
  task : String
  interval : Option Nat
  crontab : Option Nat
  solar : Option Nat
  clocked : Option Nat
  args : Str
  kwargs : Str
  description : String
  enabled : Bool
  last_run_at : Option Nat
  expires : Option Nat
  expire_seconds : Option Nat
  deriving DecidableEq

structure Db where
  intervals : Table Nat IntervalSchedule IntervalSchedule.id
  crontabs : Table Nat CrontabSchedule CrontabSchedule.id
  tasks : Table String PeriodicTask PeriodicTask.name

/-- A foreign key points somewhere. -/
structure Db.References (db : Db) : Prop where
  interval : ∀ r ∈ db.tasks.rows, ∀ pk, r.interval = some pk → (db.intervals.get pk).isSome
  crontab : ∀ r ∈ db.tasks.rows, ∀ pk, r.crontab = some pk → (db.crontabs.get pk).isSome

/-! ### Saving a task -/

/-- Only one of interval, crontab, solar and clocked. -/
def PeriodicTask.OneSchedule (r : PeriodicTask) : Prop :=
  ([r.interval, r.crontab, r.solar, r.clocked].countP Option.isSome) = 1

/-- Not both. -/
def PeriodicTask.OneExpiry (r : PeriodicTask) : Prop := r.expires = none ∨ r.expire_seconds = none

instance (r : PeriodicTask) : Decidable r.OneSchedule := inferInstanceAs (Decidable (_ = _))

instance (r : PeriodicTask) : Decidable r.OneExpiry := inferInstanceAs (Decidable (_ ∨ _))

/-- `django_celery_beat`, and the widths of its columns. `saved` is the row that `PeriodicTask.save`
writes; one with an interval or a crontab is refused with a second schedule, or with two expiries. -/
structure Beat where
  fits : String → String → Bool
  fits_interval : Int → Bool
  fits_crontab : Crontab → Bool
  saved : PeriodicTask → Option PeriodicTask
  taken : ∀ r, r.interval.isSome ∨ r.crontab.isSome →
    ((saved r).isSome ↔ r.OneSchedule ∧ r.OneExpiry ∧ fits r.name r.task)
  keeps : ∀ r r', saved r = some r' → r'.name = r.name ∧ r'.task = r.task ∧ r'.args = r.args ∧
    r'.kwargs = r.kwargs ∧ r'.interval = r.interval ∧ r'.crontab = r.crontab

/-- The defaults of a new row. -/
def blank (name : String) : PeriodicTask :=
  ⟨name, "", none, none, none, none, str "[]", str "\x7b\x7d", "", true, none, none, none⟩

def update_or_create (beat : Beat) (t : Table String PeriodicTask PeriodicTask.name) (name : String)
    (defaults : PeriodicTask → PeriodicTask) : Option (Table String PeriodicTask PeriodicTask.name) :=
  (beat.saved (defaults ((t.get name).getD (blank name)))).map fun r => (t.delete name).insert r

section
variable {ρ : Type} {key : ρ → Nat}

/-- `filter(...).first()` -/
def first (t : Table Nat ρ key) (p : ρ → Bool) : Option ρ :=
  ((t.rows.filter p).mergeSort fun a b => key a ≤ key b).head?

/-- The primary key of the row that is found or created; nothing if it is refused. -/
def first_or_create (t : Table Nat ρ key) (p : ρ → Bool) (fits : Bool) (new : Nat → ρ) :
    Option (Nat × Table Nat ρ key) :=
  match first t p with
  | some r => some (key r, t)
  | none =>
    let pk := fresh (t.rows.map key)
    if fits then some (pk, t.insert (new pk)) else none

end

/-! ### The mapping -/

/-- What stands under `interval` and `crontab`. -/
inductive Arg
  | int (n : Int)
  | bool (b : Bool)
  | str (s : Str)
  | other

structure Detail (F : Type) where
  task : String
  interval : Arg
  crontab : Arg
  args : Option (Value F)
  kwargs : Option (Value F)
  enabled : Option Bool
  description : Option String

inductive Schedule
  | interval (every : Int)
  | crontab (minute hour day month week : Str)

/-- `text.split()` -/
def split (text : Str) : List Str := (text.splitOnP isspace).filter (· ≠ [])

/-- A `bool` is an `int`; nothing if the schedule is not valid. -/
def Detail.schedule (detail : Detail F) : Option Schedule :=
  match detail.interval with
  | .int n => some (.interval n)
  | .bool b => some (.interval (if b then 1 else 0))
  | _ =>
    match detail.crontab with
    | .str text =>
      match split text with
      | [minute, hour, day, month, week] => some (.crontab minute hour day month week)
      | _ => none
    | _ => none

def SECONDS : String := "seconds"

section
variable (beat : Beat) (tz : String)

/-- The keys of the interval and of the crontab. -/
def schedule_rows (db : Db) : Schedule → Option ((Option Nat × Option Nat) × Db)
  | .interval every =>
      (first_or_create db.intervals (fun r => r.every = every ∧ r.period = SECONDS)
        (beat.fits_interval every) fun pk => ⟨pk, every, SECONDS⟩).map fun (pk, t) =>
          ((some pk, none), { db with intervals := t })
  | .crontab minute hour day month week =>
      let columns : Crontab := ⟨minute, hour, week, day, month, tz⟩
      (first_or_create db.crontabs (fun r => r.columns = columns) (beat.fits_crontab columns)
        fun pk => ⟨pk, columns⟩).map fun (pk, t) => ((none, some pk), { db with crontabs := t })

/-- Only an interval has run last when it is written. -/
def Schedule.last_run_at (now : Nat) : Schedule → Option Nat
  | .interval _ => some now
  | .crontab .. => none

variable (fl : Floats F)

def defaults (name : String) (detail : Detail F) (interval crontab last_run_at : Option Nat)
    (row : PeriodicTask) : PeriodicTask :=
  { row with
    interval, crontab, name, task := detail.task
    args := dumps fl true (detail.args.getD (.list []))
    kwargs := dumps fl true (detail.kwargs.getD (.dict []))
    description := detail.description.getD ""
    last_run_at
    enabled := detail.enabled.getD row.enabled }

/-- The body of the loop, which returns in every branch. -/
def register (now : Nat) (db : Db) (name : String) (detail : Detail F) : Except Unit Unit × Db :=
  match detail.schedule with
  | none => (.ok (), db)
  | some schedule =>
    match schedule_rows beat tz db schedule with
    | none => (.error (), db)
    | some ((interval, crontab), db) =>
      match update_or_create beat db.tasks name
          (defaults fl name detail interval crontab (schedule.last_run_at now)) with
      | none => (.error (), db)
      | some tasks => (.ok (), { db with tasks })

def create_or_update_celery_periodic_tasks (now : Nat) (tasks : Dict String (Detail F)) (db : Db) :
    Except Unit Unit × Db :=
  match tasks.items with
  | [] => (.ok (), db)
  | (name, detail) :: _ => register beat tz fl now db name detail

end

/-! ### What it is for -/

section
variable (beat : Beat) (tz : String) (fl : Floats F)

/-- The keys point to the schedule, and to no other. -/
def Points (db : Db) (interval crontab : Option Nat) : Schedule → Prop
  | .interval every => crontab = none ∧ ∃ pk r, interval = some pk ∧
      db.intervals.get pk = some r ∧ r.every = every ∧ r.period = SECONDS
  | .crontab minute hour day month week => interval = none ∧ ∃ pk r, crontab = some pk ∧
      db.crontabs.get pk = some r ∧ r.columns = ⟨minute, hour, week, day, month, tz⟩

/-- The row of the name is as it was given. -/
def Registered (db : Db) (name : String) (detail : Detail F) (schedule : Schedule) : Prop :=
  ∃ r, db.tasks.get name = some r ∧ r.task = detail.task ∧
    r.args = dumps fl true (detail.args.getD (.list [])) ∧
    r.kwargs = dumps fl true (detail.kwargs.getD (.dict [])) ∧
    Points tz db r.interval r.crontab schedule

/-- The result of a call is what was asked for. -/
structure Correct (tasks : Dict String (Detail F)) (db db' : Db) : Prop where
  each : ∀ item ∈ tasks.items, ∀ schedule, item.2.schedule = some schedule →
    Registered tz fl db' item.1 item.2 schedule
  skipped : ∀ item ∈ tasks.items, item.2.schedule = none →
    db'.tasks.get item.1 = db.tasks.get item.1
  others : ∀ name, name ∉ tasks.items.map Prod.fst → db'.tasks.get name = db.tasks.get name
  again : ∀ now,
    let db'' := (create_or_update_celery_periodic_tasks beat tz fl now tasks db').2
    db''.intervals = db'.intervals ∧ db''.crontabs = db'.crontabs

/-! ### The condition -/

/-- There is a row for the schedule. -/
def Has (db : Db) : Schedule → Prop
  | .interval every => ∃ r ∈ db.intervals.rows, r.every = every ∧ r.period = SECONDS
  | .crontab minute hour day month week =>
      ∃ r ∈ db.crontabs.rows, r.columns = ⟨minute, hour, week, day, month, tz⟩

def Schedule.Fits : Schedule → Prop
  | .interval every => beat.fits_interval every
  | .crontab minute hour day month week =>
      beat.fits_crontab ⟨minute, hour, week, day, month, tz⟩

/-- The values fit into their columns, and the row that is there, if any, has no schedule of another
kind and not two expiries. -/
structure Taken (db : Db) (name : String) (detail : Detail F) (schedule : Schedule) : Prop where
  schedule : Has tz db schedule ∨ schedule.Fits beat tz
  fits : beat.fits name detail.task
  row : ∀ r, db.tasks.get name = some r → r.solar = none ∧ r.clocked = none ∧ r.OneExpiry

/-- **The condition**: every valid entry is registered already, but for the first entry of the
mapping, if that is taken. -/
def Ready (tasks : Dict String (Detail F)) (db : Db) : Prop :=
  ∀ item ∈ tasks.items, ∀ schedule, item.2.schedule = some schedule →
    Registered tz fl db item.1 item.2 schedule ∨
      tasks.items.head? = some item ∧ Taken beat tz db item.1 item.2 schedule

end

/-! ### Finding and creating -/

/-- Rows that are found are found again. -/
def Grows {κ ρ : Type} {key : ρ → κ} [DecidableEq κ] (t t' : Table κ ρ key) : Prop :=
  ∀ k r, t.get k = some r → t'.get k = some r

section
variable {ρ : Type} {key : ρ → Nat} {t t' : Table Nat ρ key} {p : ρ → Bool} {fits : Bool}
  {new : Nat → ρ} {pk : Nat}

theorem grows_refl (t : Table Nat ρ key) : Grows t t := fun _ _ h => h

theorem first_eq_some {r : ρ} (h : first t p = some r) : r ∈ t.rows ∧ p r := by
  have hmem := List.mem_of_mem_head? (Option.mem_def.mpr h)
  exact List.mem_filter.mp (List.mem_mergeSort.mp hmem)

theorem first_isSome : (first t p).isSome ↔ ∃ r ∈ t.rows, p r := by
  constructor
  · intro h
    obtain ⟨r, hr⟩ := Option.isSome_iff_exists.mp h
    exact ⟨r, first_eq_some hr⟩
  · rintro ⟨r, hr, hp⟩
    have hmem : r ∈ (t.rows.filter p).mergeSort fun a b => key a ≤ key b :=
      List.mem_mergeSort.mpr (List.mem_filter.mpr ⟨hr, hp⟩)
    rw [first, ← Option.ne_none_iff_isSome]
    exact fun hnil => List.ne_nil_of_mem hmem (List.head?_eq_none_iff.mp hnil)

theorem first_or_create_isSome :
    (first_or_create t p fits new).isSome ↔ (∃ r ∈ t.rows, p r) ∨ fits := by
  rw [← first_isSome, first_or_create]
  cases first t p with
  | some r => simp
  | none => cases fits <;> simp

theorem first_or_create_spec (hkey : ∀ pk, key (new pk) = pk) (hp : ∀ pk, p (new pk))
    (h : first_or_create t p fits new = some (pk, t')) :
    (∃ r, t'.get pk = some r ∧ p r) ∧ Grows t t' := by
  rw [first_or_create] at h
  cases hf : first t p with
  | some r =>
      rw [hf] at h
      cases h
      obtain ⟨hr, hpr⟩ := first_eq_some hf
      exact ⟨⟨r, Table.get_of_mem hr, hpr⟩, grows_refl t⟩
  | none =>
      rw [hf] at h
      obtain ⟨-, heq⟩ := Option.ite_none_right_eq_some.mp h
      cases heq
      have hnone : t.get (fresh (t.rows.map key)) = none := by
        refine Option.eq_none_iff_forall_ne_some.mpr fun r hr => fresh_notMem (t.rows.map key) ?_
        rw [← Table.key_of_get hr]
        exact List.mem_map_of_mem (Table.mem_of_get hr)
      have hnew : (t.insert (new (fresh (t.rows.map key)))).get (fresh (t.rows.map key)) =
          some (new (fresh (t.rows.map key))) := by
        have hself := Table.get_insert_self (t := t) (r := new (fresh (t.rows.map key)))
        rw [hkey] at hself
        exact hself hnone
      refine ⟨⟨_, hnew, hp _⟩, fun k r hr => ?_⟩
      have hne : k ≠ key (new (fresh (t.rows.map key))) := by
        rw [hkey]
        rintro rfl
        rw [hnone] at hr
        cases hr
      rw [Table.get_insert_ne t hne, hr]

variable (fits new) in
/-- What was created is found. -/
theorem first_or_create_of_get {r : ρ} (h : t.get pk = some r) (hp : p r) :
    ∃ pk', first_or_create t p fits new = some (pk', t) := by
  obtain ⟨q, hq⟩ := Option.isSome_iff_exists.mp (first_isSome.mpr ⟨r, Table.mem_of_get h, hp⟩)
  exact ⟨key q, by rw [first_or_create, hq]⟩

end

section
variable {beat : Beat} {tz : String} {fl : Floats F} {db db' db₁ : Db} {schedule : Schedule}
  {interval crontab : Option Nat} {name : String} {detail : Detail F} {now : Nat}
  {tasks : Dict String (Detail F)}

/-- The schedules of a database are there in another. -/
structure Extends (db db' : Db) : Prop where
  intervals : Grows db.intervals db'.intervals
  crontabs : Grows db.crontabs db'.crontabs

theorem Points.extends (h : Points tz db interval crontab schedule) (hg : Extends db db') :
    Points tz db' interval crontab schedule := by
  cases schedule with
  | interval every =>
      obtain ⟨hnone, pk, r, hpk, hget, hr⟩ := h
      exact ⟨hnone, pk, r, hpk, hg.intervals pk r hget, hr⟩
  | crontab minute hour day month week =>
      obtain ⟨hnone, pk, r, hpk, hget, hr⟩ := h
      exact ⟨hnone, pk, r, hpk, hg.crontabs pk r hget, hr⟩

/-- A key that pointed somewhere before. -/
theorem Points.of_extends (h : Points tz db' interval crontab schedule) (hg : Extends db db')
    (hi : ∀ pk, interval = some pk → (db.intervals.get pk).isSome)
    (hc : ∀ pk, crontab = some pk → (db.crontabs.get pk).isSome) :
    Points tz db interval crontab schedule := by
  cases schedule with
  | interval every =>
      obtain ⟨hnone, pk, r, hpk, hget, hr⟩ := h
      obtain ⟨q, hq⟩ := Option.isSome_iff_exists.mp (hi pk hpk)
      have hsame := hg.intervals pk q hq
      rw [hget] at hsame
      cases hsame
      exact ⟨hnone, pk, r, hpk, hq, hr⟩
  | crontab minute hour day month week =>
      obtain ⟨hnone, pk, r, hpk, hget, hr⟩ := h
      obtain ⟨q, hq⟩ := Option.isSome_iff_exists.mp (hc pk hpk)
      have hsame := hg.crontabs pk q hq
      rw [hget] at hsame
      cases hsame
      exact ⟨hnone, pk, r, hpk, hq, hr⟩

theorem schedule_rows_isSome :
    (schedule_rows beat tz db schedule).isSome ↔ Has tz db schedule ∨ schedule.Fits beat tz := by
  cases schedule with
  | interval every =>
      rw [schedule_rows, Option.isSome_map, first_or_create_isSome]
      simp [Has, Schedule.Fits]
  | crontab minute hour day month week =>
      rw [schedule_rows, Option.isSome_map, first_or_create_isSome]
      simp [Has, Schedule.Fits]

theorem schedule_rows_spec
    (h : schedule_rows beat tz db schedule = some ((interval, crontab), db₁)) :
    db₁.tasks = db.tasks ∧ Extends db db₁ ∧ Points tz db₁ interval crontab schedule := by
  cases schedule with
  | interval every =>
      obtain ⟨⟨pk, t⟩, ht, heq⟩ := Option.map_eq_some_iff.mp h
      cases heq
      obtain ⟨⟨r, hr, hp⟩, hg⟩ := first_or_create_spec (fun _ => rfl) (fun _ => by simp) ht
      exact ⟨rfl, ⟨hg, grows_refl _⟩, rfl, pk, r, rfl, hr, of_decide_eq_true hp⟩
  | crontab minute hour day month week =>
      obtain ⟨⟨pk, t⟩, ht, heq⟩ := Option.map_eq_some_iff.mp h
      cases heq
      obtain ⟨⟨r, hr, hp⟩, hg⟩ := first_or_create_spec (fun _ => rfl) (fun _ => by simp) ht
      exact ⟨rfl, ⟨grows_refl _, hg⟩, rfl, pk, r, rfl, hr, of_decide_eq_true hp⟩

variable (beat) in
/-- A schedule that is pointed to is not created again. -/
theorem schedule_rows_again (h : Points tz db interval crontab schedule) :
    ∃ keys, schedule_rows beat tz db schedule = some (keys, db) := by
  cases schedule with
  | interval every =>
      obtain ⟨-, pk, r, -, hget, hr⟩ := h
      obtain ⟨pk', hpk⟩ := first_or_create_of_get
        (p := fun r => r.every = every ∧ r.period = SECONDS) (beat.fits_interval every)
        (fun pk => ⟨pk, every, SECONDS⟩) hget (decide_eq_true hr)
      exact ⟨_, by rw [schedule_rows, hpk]; rfl⟩
  | crontab minute hour day month week =>
      obtain ⟨-, pk, r, -, hget, hr⟩ := h
      obtain ⟨pk', hpk⟩ := first_or_create_of_get
        (p := fun r => r.columns = ⟨minute, hour, week, day, month, tz⟩)
        (beat.fits_crontab ⟨minute, hour, week, day, month, tz⟩)
        (fun pk => ⟨pk, ⟨minute, hour, week, day, month, tz⟩⟩) hget (decide_eq_true hr)
      exact ⟨_, by rw [schedule_rows, hpk]; rfl⟩

/-! ### Writing the task -/

/-- One of the two keys. -/
theorem Points.one (h : Points tz db interval crontab schedule) :
    [interval, crontab].countP Option.isSome = 1 ∧ (interval.isSome ∨ crontab.isSome) := by
  cases schedule with
  | interval every =>
      obtain ⟨rfl, pk, r, rfl, -⟩ := h
      exact ⟨rfl, .inl rfl⟩
  | crontab minute hour day month week =>
      obtain ⟨rfl, pk, r, rfl, -⟩ := h
      exact ⟨rfl, .inr rfl⟩

/-- The row is written if it is free of other schedules. -/
theorem update_or_create_isSome (h : Points tz db₁ interval crontab schedule)
    {t : Table String PeriodicTask PeriodicTask.name} {last_run_at : Option Nat} :
    (update_or_create beat t name (defaults fl name detail interval crontab last_run_at)).isSome ↔
      beat.fits name detail.task ∧
        ∀ r, t.get name = some r → r.solar = none ∧ r.clocked = none ∧ r.OneExpiry := by
  have hrow (r : PeriodicTask) :
      (defaults fl name detail interval crontab last_run_at r).OneSchedule ↔
        r.solar = none ∧ r.clocked = none := by
    have hsum : [interval, crontab, r.solar, r.clocked].countP Option.isSome =
        1 + [r.solar, r.clocked].countP Option.isSome := by
      rw [← h.one.1, ← List.countP_append]
      rfl
    rw [PeriodicTask.OneSchedule, defaults, hsum]
    cases r.solar <;> cases r.clocked <;> simp
  rw [update_or_create, Option.isSome_map, beat.taken _ h.one.2, hrow]
  cases t.get name with
  | none => simp [defaults, blank, PeriodicTask.OneExpiry]
  | some r =>
      simp only [Option.getD_some, Option.some.injEq, forall_eq']
      exact ⟨fun ⟨h₁, h₂, h₃⟩ => ⟨h₃, h₁.1, h₁.2, h₂⟩, fun ⟨h₁, h₂, h₃, h₄⟩ => ⟨⟨h₂, h₃⟩, h₄, h₁⟩⟩

theorem update_or_create_spec {t t' : Table String PeriodicTask PeriodicTask.name}
    {last_run_at : Option Nat}
    (h : update_or_create beat t name (defaults fl name detail interval crontab last_run_at) =
      some t') : (∀ k ≠ name, t'.get k = t.get k) ∧
      ∃ r, t'.get name = some r ∧ r.task = detail.task ∧
        r.args = dumps fl true (detail.args.getD (.list [])) ∧
        r.kwargs = dumps fl true (detail.kwargs.getD (.dict [])) ∧
        r.interval = interval ∧ r.crontab = crontab := by
  obtain ⟨r, hr, rfl⟩ := Option.map_eq_some_iff.mp h
  obtain ⟨hname, hcolumns⟩ := beat.keeps _ _ hr
  have hkey : r.name = name := hname
  have hself : ((t.delete name).insert r).get r.name = some r :=
    Table.get_insert_self (hkey ▸ Table.get_delete_self t name)
  refine ⟨fun k hk => ?_, r, hkey ▸ hself, hcolumns⟩
  rw [Table.get_insert_ne _ (hkey.symm ▸ hk), Table.get_delete_ne t hk]

/-! ### One entry -/

variable (beat tz fl db name now) in
/-- What `register` does with a valid schedule. -/
theorem register_cases (hs : detail.schedule = some schedule) :
    (schedule_rows beat tz db schedule = none ∧ (register beat tz fl now db name detail).2 = db) ∨
    ∃ interval crontab db₁, schedule_rows beat tz db schedule = some ((interval, crontab), db₁) ∧
      ((update_or_create beat db₁.tasks name
          (defaults fl name detail interval crontab (schedule.last_run_at now)) = none ∧
        (register beat tz fl now db name detail).2 = db₁) ∨
      ∃ t, update_or_create beat db₁.tasks name
          (defaults fl name detail interval crontab (schedule.last_run_at now)) = some t ∧
        (register beat tz fl now db name detail).2 = { db₁ with tasks := t }) := by
  cases hrows : schedule_rows beat tz db schedule with
  | none => exact .inl ⟨rfl, by simp only [register, hs, hrows]⟩
  | some p =>
      obtain ⟨⟨interval, crontab⟩, db₁⟩ := p
      refine .inr ⟨interval, crontab, db₁, rfl, ?_⟩
      cases hput : update_or_create beat db₁.tasks name
          (defaults fl name detail interval crontab (schedule.last_run_at now)) with
      | none => exact .inl ⟨rfl, by simp only [register, hs, hrows, hput]⟩
      | some t => exact .inr ⟨t, rfl, by simp only [register, hs, hrows, hput]⟩

/-- The schedules are there already. -/
theorem register_tables (hs : detail.schedule = some schedule)
    (h : Points tz db interval crontab schedule) :
    (register beat tz fl now db name detail).2.intervals = db.intervals ∧
      (register beat tz fl now db name detail).2.crontabs = db.crontabs := by
  obtain ⟨keys, hkeys⟩ := schedule_rows_again beat h
  rcases register_cases beat tz fl db name now hs with ⟨hnone, -⟩ | ⟨i, c, db₁, hrows, hrest⟩
  · rw [hkeys] at hnone
    cases hnone
  · rw [hkeys] at hrows
    cases hrows
    rcases hrest with ⟨-, he⟩ | ⟨t, -, he⟩ <;> rw [he]
    · exact ⟨rfl, rfl⟩
    · exact ⟨rfl, rfl⟩

/-- A row is registered before as after, if the schedules only grow. -/
theorem registered_iff_of_extends (hr : db.References) (hg : Extends db db')
    (htask : db'.tasks.get name = db.tasks.get name) :
    Registered tz fl db' name detail schedule ↔ Registered tz fl db name detail schedule := by
  constructor
  · rintro ⟨r, hget, htask', hargs, hkwargs, hpoints⟩
    rw [htask] at hget
    exact ⟨r, hget, htask', hargs, hkwargs, hpoints.of_extends hg
      (hr.interval r (Table.mem_of_get hget)) (hr.crontab r (Table.mem_of_get hget))⟩
  · rintro ⟨r, hget, htask', hargs, hkwargs, hpoints⟩
    exact ⟨r, htask.trans hget, htask', hargs, hkwargs, hpoints.extends hg⟩

theorem extends_refl (db : Db) : Extends db db := ⟨grows_refl _, grows_refl _⟩

theorem taken_iff : Taken beat tz db name detail schedule ↔
    (schedule_rows beat tz db schedule).isSome ∧ beat.fits name detail.task ∧
      ∀ r, db.tasks.get name = some r → r.solar = none ∧ r.clocked = none ∧ r.OneExpiry := by
  rw [schedule_rows_isSome]
  exact ⟨fun h => ⟨h.schedule, h.fits, h.row⟩, fun h => ⟨h.1, h.2.1, h.2.2⟩⟩

variable (beat tz fl name) in
/-- One entry: other rows stay, this one is registered if it was or is taken, and a second time no
schedule is added. -/
theorem register_spec (hr : db.References) (hs : detail.schedule = some schedule) (now : Nat) :
    Extends db (register beat tz fl now db name detail).2 ∧
    (∀ k ≠ name, (register beat tz fl now db name detail).2.tasks.get k = db.tasks.get k) ∧
    (Registered tz fl (register beat tz fl now db name detail).2 name detail schedule ↔
      Registered tz fl db name detail schedule ∨ Taken beat tz db name detail schedule) ∧
    ∀ now',
      (register beat tz fl now' (register beat tz fl now db name detail).2 name detail).2.intervals =
        (register beat tz fl now db name detail).2.intervals ∧
      (register beat tz fl now' (register beat tz fl now db name detail).2 name detail).2.crontabs =
        (register beat tz fl now db name detail).2.crontabs := by
  rcases register_cases beat tz fl db name now hs with
    ⟨hnone, he⟩ | ⟨interval, crontab, db₁, hrows, hrest⟩
  · have hnot : ¬ Taken beat tz db name detail schedule := by
      rw [taken_iff, hnone]
      exact fun h => Bool.false_ne_true h.1
    rw [he]
    refine ⟨extends_refl db, fun _ _ => rfl, by simp [hnot], fun now' => ?_⟩
    rcases register_cases beat tz fl db name now' hs with ⟨-, he'⟩ | ⟨i, c, db₂, hrows, -⟩
    · rw [he']
      exact ⟨rfl, rfl⟩
    · rw [hnone] at hrows
      cases hrows
  · obtain ⟨htasks, hg, hpoints⟩ := schedule_rows_spec hrows
    have htaken : Taken beat tz db name detail schedule ↔ (update_or_create beat db₁.tasks name
        (defaults fl name detail interval crontab (schedule.last_run_at now))).isSome := by
      rw [taken_iff, update_or_create_isSome hpoints, htasks, hrows]
      simp
    rcases hrest with ⟨hput, he⟩ | ⟨t, hput, he⟩ <;> rw [he]
    · have hnot : ¬ Taken beat tz db name detail schedule := by
        rw [htaken, hput]
        exact Bool.false_ne_true
      refine ⟨hg, fun k _ => by rw [htasks], ?_, fun now' => register_tables hs hpoints⟩
      rw [registered_iff_of_extends hr hg (by rw [htasks])]
      simp [hnot]
    · have htake : Taken beat tz db name detail schedule := htaken.mpr (by rw [hput]; rfl)
      obtain ⟨hothers, r, hget, htask, hargs, hkwargs, rfl, rfl⟩ := update_or_create_spec hput
      have hafter : Points tz { db₁ with tasks := t } r.interval r.crontab schedule := hpoints
      refine ⟨⟨hg.intervals, hg.crontabs⟩, fun k hk => (hothers k hk).trans (by rw [htasks]), ?_,
        fun now' => register_tables hs hafter⟩
      exact iff_of_true ⟨r, hget, htask, hargs, hkwargs, hafter⟩ (.inr htake)

end

/-! ### The mapping -/

section
variable (beat : Beat) (tz : String) (fl : Floats F) {tasks : Dict String (Detail F)} {db : Db}
  {name : String} {detail : Detail F} {rest : List (String × Detail F)}

theorem call_of_cons (h : tasks.items = (name, detail) :: rest) (now : Nat) (db : Db) :
    create_or_update_celery_periodic_tasks beat tz fl now tasks db =
      register beat tz fl now db name detail := by
  rw [create_or_update_celery_periodic_tasks, h]

/-- The names of the other entries differ from the first. -/
theorem name_ne_of_mem_rest (h : tasks.items = (name, detail) :: rest) :
    ∀ item ∈ rest, item.1 ≠ name := by
  intro item hitem
  have hkeys := tasks.keys
  rw [h, List.map_cons, List.nodup_cons] at hkeys
  have hmem : item.1 ∈ rest.map Prod.fst := List.mem_map_of_mem hitem
  intro e
  rw [e] at hmem
  exact hkeys.1 hmem

/-- A first entry without a valid schedule. -/
theorem correct_iff_of_invalid (h : tasks.items = (name, detail) :: rest)
    (hs : detail.schedule = none) (now : Nat) :
    Correct beat tz fl tasks db (create_or_update_celery_periodic_tasks beat tz fl now tasks db).2 ↔
      Ready beat tz fl tasks db := by
  have hcall (now : Nat) (db : Db) :
      (create_or_update_celery_periodic_tasks beat tz fl now tasks db).2 = db := by
    rw [call_of_cons beat tz fl h, register, hs]
  rw [hcall]
  constructor
  · exact fun hc item hitem schedule hschedule => .inl (hc.each item hitem schedule hschedule)
  · intro hready
    refine ⟨fun item hitem schedule hschedule => ?_, fun _ _ _ => rfl, fun _ _ => rfl, fun now => ?_⟩
    · refine (hready item hitem schedule hschedule).resolve_right fun hfirst => ?_
      rw [h, List.head?_cons, Option.some.injEq] at hfirst
      rw [← hfirst.1, hs] at hschedule
      cases hschedule
    · simp only [hcall, and_self]

theorem correct_iff_of_valid (hr : db.References) (h : tasks.items = (name, detail) :: rest)
    {schedule : Schedule} (hs : detail.schedule = some schedule) (now : Nat) :
    Correct beat tz fl tasks db (create_or_update_celery_periodic_tasks beat tz fl now tasks db).2 ↔
      Ready beat tz fl tasks db := by
  obtain ⟨hg, hothers, hself, hagain⟩ := register_spec beat tz fl name hr hs now
  have hne := name_ne_of_mem_rest h
  have hfirst {item : String × Detail F} : tasks.items.head? = some item ↔ (name, detail) = item := by
    rw [h, List.head?_cons, Option.some.injEq]
  rw [call_of_cons beat tz fl h]
  constructor
  · intro hc item hitem schedule' hschedule
    have heach := hc.each item hitem schedule' hschedule
    rw [h] at hitem
    rcases List.mem_cons.mp hitem with rfl | hrest
    · obtain rfl : schedule = schedule' := Option.some.inj (hs.symm.trans hschedule)
      exact (hself.mp heach).imp_right fun htaken => ⟨hfirst.mpr rfl, htaken⟩
    · exact .inl ((registered_iff_of_extends hr hg (hothers _ (hne item hrest))).mp heach)
  · intro hready
    refine ⟨fun item hitem schedule' hschedule => ?_, fun item hitem hnone => ?_, fun k hk => ?_,
      fun now' => ?_⟩
    · have hitem' := hready item hitem schedule' hschedule
      rw [h] at hitem
      rcases List.mem_cons.mp hitem with rfl | hrest
      · obtain rfl : schedule = schedule' := Option.some.inj (hs.symm.trans hschedule)
        exact hself.mpr (hitem'.imp_right And.right)
      · refine (registered_iff_of_extends hr hg (hothers _ (hne item hrest))).mpr
          (hitem'.resolve_right fun hhead => ?_)
        exact hne item hrest (congrArg Prod.fst (hfirst.mp hhead.1)).symm
    · rw [h] at hitem
      rcases List.mem_cons.mp hitem with rfl | hrest
      · rw [hs] at hnone
        cases hnone
      · exact hothers _ (hne item hrest)
    · refine hothers k fun e => hk ?_
      rw [h, e]
      exact List.mem_cons_self
    · simp only [call_of_cons beat tz fl h]
      exact hagain now'

end

/-- Every task of the mapping is registered exactly if all but the first are registered already. -/
theorem registered_iff (beat : Beat) (tz : String) (fl : Floats F) (now : Nat)
    (tasks : Dict String (Detail F)) {db : Db} (hr : db.References) :
    Correct beat tz fl tasks db (create_or_update_celery_periodic_tasks beat tz fl now tasks db).2 ↔
      Ready beat tz fl tasks db := by
  cases h : tasks.items with
  | nil =>
      have hcall (now : Nat) (db : Db) :
          (create_or_update_celery_periodic_tasks beat tz fl now tasks db).2 = db := by
        rw [create_or_update_celery_periodic_tasks, h]
      have hnone : ∀ item, item ∉ tasks.items := by simp [h]
      rw [hcall]
      refine iff_of_true ⟨fun item hitem => absurd hitem (hnone item), fun _ _ _ => rfl,
        fun _ _ => rfl, fun now => ?_⟩ fun item hitem => absurd hitem (hnone item)
      simp only [hcall, and_self]
  | cons item rest =>
      cases hs : item.2.schedule with
      | none => exact correct_iff_of_invalid beat tz fl h hs now
      | some schedule => exact correct_iff_of_valid beat tz fl hr h hs now

/-! ### Two tasks -/

/-- The text of a float is always the same. -/
def noFloats : Floats Unit where
  float _ := ()
  repr _ := str "NaN"
  float_repr _ := rfl
  shape := Lib.Json.shape_nan

/-- Every text fits. -/
def sampleBeat : Beat where
  fits _ _ := true
  fits_interval _ := true
  fits_crontab _ := true
  saved r := if r.OneSchedule ∧ r.OneExpiry then
    some { r with last_run_at := if r.enabled then r.last_run_at else none } else none
  taken r _ := by
    by_cases h : r.OneSchedule ∧ r.OneExpiry
    · simp [h]
    · simp only [h, if_false, Option.isSome_none, Bool.false_eq_true, false_iff]
      exact fun h' => h ⟨h'.1, h'.2.1⟩
  keeps r r' h := by
    obtain ⟨-, heq⟩ := Option.ite_none_right_eq_some.mp h
    cases heq
    exact ⟨rfl, rfl, rfl, rfl, rfl, rfl⟩

def emptyDb : Db := ⟨Table.empty, Table.empty, Table.empty⟩

theorem references_emptyDb : emptyDb.References where
  interval _ hr := absurd hr List.not_mem_nil
  crontab _ hr := absurd hr List.not_mem_nil

def periodic (task : String) : Detail Unit :=
  ⟨task, .int 60, .other, some (.list []), some (.dict []), none, some ""⟩

def oneTask : Dict String (Detail Unit) := ⟨[("clean", periodic "tasks.clean")], by simp⟩

def twoTasks : Dict String (Detail Unit) :=
  ⟨[("clean", periodic "tasks.clean"), ("check", periodic "tasks.check")], by simp⟩

theorem registered_one : emptyDb.References ∧
    (Correct sampleBeat "UTC" noFloats oneTask emptyDb
        (create_or_update_celery_periodic_tasks sampleBeat "UTC" noFloats 0 oneTask emptyDb).2 ↔
      Ready sampleBeat "UTC" noFloats oneTask emptyDb) :=
  ⟨references_emptyDb, registered_iff _ _ _ _ _ references_emptyDb⟩

/-- The second is not registered. -/
theorem second_not_registered : ¬ Correct sampleBeat "UTC" noFloats twoTasks emptyDb
    (create_or_update_celery_periodic_tasks sampleBeat "UTC" noFloats 0 twoTasks emptyDb).2 := by
  intro h
  obtain ⟨r, hr, -⟩ := h.each ("check", periodic "tasks.check") (by simp [twoTasks]) (.interval 60) rfl
  have hnone : ((create_or_update_celery_periodic_tasks sampleBeat "UTC" noFloats 0 twoTasks
      emptyDb).2.tasks.get "check").isSome = false := by decide +kernel
  rw [hr] at hnone
  cases hnone

end InfraHub.Task.Periodic
