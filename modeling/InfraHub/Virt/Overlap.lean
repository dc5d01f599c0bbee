import InfraHub.Virt.Active
import InfraHub.Virt.Converge
import InfraHub.Lib.Run

/-!
# Virt — Overlap

Two runs of `sync_hosts` for one platform, the hourly one and one by hand, step by step in any
order: what each fetches, each row it writes, and the rows it deactivates at its end.

The older run writes and deactivates by a picture that is out of date.  `shows_last_iff` says when
the active rows are the hosts that were fetched last nevertheless (`InTime`).
-/

namespace InfraHub.Virt.Overlap
open InfraHub.Lib (Run guarded Prog)
open InfraHub.Lib.Prog (exec forEach lift)

/-! ### The machine -/

inductive Stage
  | start
  | walking
  | finished
  deriving DecidableEq, Repr

/-- A run of `sync_hosts`. -/
structure Task where
  stage : Stage
  /-- what `client.get_hosts()` returned -/
  hosts : List HostSystem
  /-- the hosts that the loop has not visited yet -/
  rest : List HostSystem
  uuids : List String
  synced_count : Nat
  failed_count : Nat

structure State where
  db : VirtDb
  task : Bool → Task
  /-- the run that fetched last -/
  last : Option Bool

inductive Event
  | fetch (run : Bool) (hosts : List HostSystem)
  | visit (run : Bool)
  | finish (run : Bool)

/-- The tables, and the local variables of a run. -/
def State.walk (s : State) (run : Bool) : Walk :=
  ⟨s.db, (s.task run).uuids, (s.task run).synced_count, (s.task run).failed_count⟩

/-- The run goes on with these, and with `rest` to visit. -/
def State.resume (s : State) (run : Bool) (stage : Stage) (w : Walk) (rest : List HostSystem) :
    State where
  db := w.db
  task := Function.update s.task run
    ⟨stage, (s.task run).hosts, rest, w.uuids, w.synced_count, w.failed_count⟩
  last := s.last

/-- The run has fetched its inventory. -/
def State.fetch (s : State) (run : Bool) (hosts : List HostSystem) : State where
  db := s.db
  task := Function.update s.task run ⟨.walking, hosts, hosts, [], 0, 0⟩
  last := some run

/-- A step without an error. -/
def next (env : Env) (platform : Nat) (s : State) : Event → Option State
  | .fetch run hosts =>
      if (s.task run).stage = .start ∧ s.db.has_platform platform = true then
        some (s.fetch run hosts)
      else none
  | .visit run =>
      match (s.task run).stage, (s.task run).rest with
      | .walking, host :: rest =>
          match exec (visit_host env platform host) (s.walk run) with
          | (.ok (), w) =>
              if w.failed_count = (s.task run).failed_count then
                some (s.resume run .walking w rest)
              else none
          | (.error _, _) => none
      | _, _ => none
  | .finish run =>
      match (s.task run).stage, (s.task run).rest with
      | .walking, [] => some (s.resume run .finished ((s.walk run).finish_hosts platform) [])
      | _, _ => none

def Step (env : Env) (platform : Nat) (s : State) (e : Event) (t : State) : Prop :=
  next env platform s e = some t

/-- Neither run has begun. -/
def State.start (db : VirtDb) : State := ⟨db, fun _ => ⟨.start, [], [], [], 0, 0⟩, none⟩

/-- The records of an inventory. -/
def reported (hosts : List HostSystem) : List HostData :=
  hosts.filterMap fun host => (parse_host_info host).toOption

def uuids_of (hosts : List HostSystem) : List String := (reported hosts).map Record.uuid

/-- The active rows of the platform are those of the inventory. -/
structure Shows (platform : Nat) (hosts : List HostSystem) (rows : List (Row HostColumns)) :
    Prop where
  active : ∀ r ∈ rows, r.platform = platform → r.is_active = true →
    ∃ d ∈ reported hosts, r.Holds platform d
  shown : ∀ d ∈ reported hosts, ∃ r ∈ rows, r.Matches platform d.uuid ∧ r.is_active = true

/-! ### The condition -/

/-- The run that did not fetch last is in time: a host that the other one has too, it writes before
the other one does, or again, or as the other one; a host that the other one does not have, before
the other one is through; and it is through before the other one writes a host it does not have. -/
def InTime (s : State) : Event → Prop
  | .fetch .. => True
  | .visit run => s.last = some !run → ∀ host rest d, (s.task run).rest = host :: rest →
      parse_host_info host = .ok d →
      if d.uuid ∈ uuids_of (s.task !run).hosts then
        d ∈ reported (s.task !run).hosts ∨ d.uuid ∈ uuids_of (s.task !run).rest ∨
          d.uuid ∈ uuids_of rest
      else (s.task !run).stage ≠ .finished
  | .finish run => s.last = some !run → ∀ u ∈ uuids_of (s.task !run).hosts,
      u ∈ (s.task run).uuids ∨ u ∈ uuids_of (s.task !run).rest

/-! ### What a step does -/

section
variable {env : Env} {platform : Nat} {s t : State} {run : Bool} {hosts : List HostSystem}
  {host : HostSystem} {rest : List HostSystem} {d : HostData}

/-- A host is visited. -/
structure Visited (platform : Nat) (s t : State) (run : Bool) (host : HostSystem)
    (rest : List HostSystem) (d : HostData) : Prop where
  walking : (s.task run).stage = .walking
  queue : (s.task run).rest = host :: rest
  parsed : parse_host_info host = .ok d
  rows : t.db.hosts.rows = upsert platform d s.db.hosts.rows
  task : t.task run = ⟨.walking, (s.task run).hosts, rest, (s.task run).uuids ++ [d.uuid],
    (s.task run).synced_count + 1, (s.task run).failed_count⟩
  other : t.task (!run) = s.task !run
  last : t.last = s.last

/-- The stale rows are deactivated. -/
structure Ended (platform : Nat) (s t : State) (run : Bool) : Prop where
  walking : (s.task run).stage = .walking
  queue : (s.task run).rest = []
  rows : t.db.hosts.rows = deactivate (stale_host platform (s.task run).uuids) s.db.hosts.rows
  task : t.task run = { s.task run with stage := .finished }
  other : t.task (!run) = s.task !run
  last : t.last = s.last

/-- A visit that counts no failure has parsed the host and written its record. -/
theorem exec_visit_host_ok {w w' : Walk} (h : exec (visit_host env platform host) w = (.ok (), w'))
    (hfailed : w'.failed_count = w.failed_count) :
    ∃ d hosts, parse_host_info host = .ok d ∧ hosts.rows = upsert platform d w.db.hosts.rows ∧
      w' = ⟨{ w.db with hosts }, w.uuids ++ [d.uuid], w.synced_count + 1, w.failed_count⟩ := by
  cases visit_host_cases h with
  | unparsed => exact absurd hfailed (Nat.succ_ne_self _)
  | refused => exact absurd hfailed (Nat.succ_ne_self _)
  | written hp hw => exact ⟨_, _, hp, Table.rows_update_or_create hw, rfl⟩

theorem next_visit (h : Step env platform s (.visit run) t) :
    ∃ host rest d, Visited platform s t run host rest d := by
  simp only [Step, next] at h
  split at h
  · next host rest hstage hrest =>
    split at h
    · next w hw =>
      obtain ⟨hfailed, h⟩ := Option.ite_none_right_eq_some.mp h
      obtain ⟨d, hosts, hparse, hrows, rfl⟩ := exec_visit_host_ok hw hfailed
      cases h
      exact ⟨host, rest, d, hstage, hrest, hparse, hrows, Function.update_self _ _ _,
        by cases run <;> rfl, rfl⟩
    · cases h
  · cases h

theorem next_finish (h : Step env platform s (.finish run) t) : Ended platform s t run := by
  simp only [Step, next] at h
  split at h
  · next hstage hrest =>
    cases h
    refine ⟨hstage, hrest, rfl, ?_, by cases run <;> rfl, rfl⟩
    rw [← hrest]
    exact Function.update_self _ _ _
  · cases h

theorem next_fetch (h : Step env platform s (.fetch run hosts) t) :
    (s.task run).stage = .start ∧ t.db = s.db ∧ t.task run = ⟨.walking, hosts, hosts, [], 0, 0⟩ ∧
      t.task (!run) = s.task !run ∧ t.last = some run := by
  simp only [Step, next] at h
  obtain ⟨⟨hstage, -⟩, h⟩ := Option.ite_none_right_eq_some.mp h
  cases h
  exact ⟨hstage, rfl, Function.update_self _ _ _, by cases run <;> rfl, rfl⟩

/-! ### Where the runs are -/

theorem reported_cons (h : parse_host_info host = .ok d) :
    reported (host :: rest) = d :: reported rest := by
  simp [reported, h, Except.toOption]

theorem uuids_of_cons (h : parse_host_info host = .ok d) :
    uuids_of (host :: rest) = d.uuid :: uuids_of rest := by
  simp [uuids_of, reported_cons h]

theorem reported_append (l₁ l₂ : List HostSystem) :
    reported (l₁ ++ l₂) = reported l₁ ++ reported l₂ := by
  simp [reported]

theorem uuids_of_append (l₁ l₂ : List HostSystem) :
    uuids_of (l₁ ++ l₂) = uuids_of l₁ ++ uuids_of l₂ := by
  simp [uuids_of, reported_append]

/-- A run has visited what is not left to visit, and recorded its uuids. -/
structure Task.Tracks (task : Task) : Prop where
  visited : ∃ visited, task.hosts = visited ++ task.rest ∧ task.uuids = uuids_of visited
  finished : task.stage = .finished → task.rest = []

/-- The run that fetched last has fetched. -/
structure Tracks (s : State) : Prop where
  task : ∀ run, (s.task run).Tracks
  last : ∀ run, s.last = some run → (s.task run).stage ≠ .start

theorem tracks_start (db : VirtDb) : Tracks (.start db) where
  task _ := ⟨⟨[], rfl, rfl⟩, fun _ => rfl⟩
  last _ h := by cases h

theorem Visited.tracks (h : Visited platform s t run host rest d) (htask : (s.task run).Tracks) :
    (t.task run).Tracks := by
  obtain ⟨visited, hhosts, huuids⟩ := htask.visited
  rw [h.task]
  refine ⟨⟨visited ++ [host], ?_, ?_⟩, nofun⟩
  · simp [hhosts, h.queue]
  · rw [huuids, uuids_of_append, uuids_of_cons h.parsed]
    rfl

/-- A run is this one, or the other. -/
theorem forall_run {p : Bool → Prop} (h : p run) (hother : p !run) : ∀ run', p run' := by
  intro run'
  rcases Bool.eq_or_eq_not run' run with rfl | rfl
  · exact h
  · exact hother

theorem Tracks.next {e : Event} (h : Tracks s) (hs : Step env platform s e t) : Tracks t := by
  cases e with
  | fetch run hosts =>
      obtain ⟨-, -, htask, hother, hlast⟩ := next_fetch hs
      refine ⟨forall_run ?_ (hother ▸ h.task _), fun run' hrun' => ?_⟩
      · rw [htask]
        exact ⟨⟨[], rfl, rfl⟩, nofun⟩
      · rw [hlast] at hrun'
        cases hrun'
        rw [htask]
        exact nofun
  | visit run =>
      obtain ⟨host, rest, d, hv⟩ := next_visit hs
      refine ⟨forall_run (hv.tracks (h.task run)) (hv.other ▸ h.task _), ?_⟩
      rw [hv.last]
      refine forall_run (fun _ => ?_) (hv.other ▸ h.last _)
      rw [hv.task]
      exact nofun
  | finish run =>
      have hf := next_finish hs
      refine ⟨forall_run ?_ (hf.other ▸ h.task _), ?_⟩
      · rw [hf.task]
        exact ⟨(h.task run).visited, fun _ => hf.queue⟩
      · rw [hf.last]
        refine forall_run (fun _ => ?_) (hf.other ▸ h.last _)
        rw [hf.task]
        exact nofun

/-! ### Steps in time -/

/-- How far the last picture is stored: a host of it is still to be written, or its row is active
and holds it, unless the older run writes it again; and once the run is through there are no other
active rows. -/
structure Current (platform : Nat) (s : State) (run : Bool) : Prop where
  written : ∀ u ∈ uuids_of (s.task run).hosts, u ∈ uuids_of (s.task run).rest ∨
    ∃ r ∈ s.db.hosts.rows, r.Matches platform u ∧ r.is_active = true ∧
      (u ∈ uuids_of (s.task !run).rest ∨ ∃ d ∈ reported (s.task run).hosts, r.Holds platform d)
  gone : (s.task run).stage = .finished → ∀ r ∈ s.db.hosts.rows, r.platform = platform →
    r.is_active = true → ∃ u ∈ uuids_of (s.task run).hosts, r.uuid = some u

theorem mem_uuids_of (h : d ∈ reported hosts) : d.uuid ∈ uuids_of hosts := List.mem_map_of_mem h

/-- A row that is not written again. -/
theorem mem_rows_of_visited (h : Visited platform s t run host rest d) {r : Row HostColumns}
    (hr : r ∈ s.db.hosts.rows) {u : String} (hu : r.Matches platform u) (hne : u ≠ d.uuid) :
    r ∈ t.db.hosts.rows := by
  rw [h.rows]
  refine (mem_upsert_of_not_matches fun hm => hne ?_).mpr hr
  exact Option.some.inj (hu.2.symm.trans hm.2)

/-- The run that fetched last visits a host. -/
theorem current_visit_last (h : Current platform s run) (htracks : (s.task run).Tracks)
    (hv : Visited platform s t run host rest d) : Current platform t run where
  written := by
    obtain ⟨visited, hhosts, -⟩ := htracks.visited
    rw [hv.task, hv.other]
    intro u hu
    by_cases hud : u = d.uuid
    · obtain ⟨r, hr, hd⟩ : ∃ r ∈ upsert platform d s.db.hosts.rows, r.Holds platform d :=
        exists_mem_upsert _
      have hmem : d ∈ reported (s.task run).hosts := by
        rw [hhosts, hv.queue, reported_append, reported_cons hv.parsed]
        simp
      exact .inr ⟨r, hv.rows ▸ hr, hud ▸ ⟨hd.platform, hd.uuid⟩, hd.is_active, .inr ⟨d, hmem, hd⟩⟩
    · rcases h.written u hu with hrest | ⟨r, hr, hm, hactive, hheld⟩
      · rw [hv.queue, uuids_of_cons hv.parsed] at hrest
        exact .inl ((List.mem_cons.mp hrest).resolve_left hud)
      · exact .inr ⟨r, mem_rows_of_visited hv hr hm hud, hm, hactive, hheld⟩
  gone := by
    rw [hv.task]
    exact nofun

/-- The older run visits a host in time. -/
theorem current_visit_older (h : Current platform s (!run))
    (hin : InTime s (.visit run)) (hlast : s.last = some !run)
    (hv : Visited platform s t run host rest d) : Current platform t (!run) where
  written := by
    have hin := hin hlast host rest d hv.queue hv.parsed
    rw [hv.other, Bool.not_not, hv.task]
    intro u hu
    by_cases hud : u = d.uuid
    · subst hud
      rw [if_pos hu] at hin
      obtain ⟨r, hr, hd⟩ : ∃ r ∈ upsert platform d s.db.hosts.rows, r.Holds platform d :=
        exists_mem_upsert _
      have hrow : r ∈ t.db.hosts.rows := hv.rows ▸ hr
      rcases hin with hmem | hrest | hagain
      · exact .inr ⟨r, hrow, ⟨hd.platform, hd.uuid⟩, hd.is_active, .inr ⟨d, hmem, hd⟩⟩
      · exact .inl hrest
      · exact .inr ⟨r, hrow, ⟨hd.platform, hd.uuid⟩, hd.is_active, .inl hagain⟩
    · rcases h.written u hu with hrest | ⟨r, hr, hm, hactive, hheld⟩
      · exact .inl hrest
      · refine .inr ⟨r, mem_rows_of_visited hv hr hm hud, hm, hactive, hheld.imp_left fun hrest => ?_⟩
        rw [Bool.not_not, hv.queue, uuids_of_cons hv.parsed] at hrest
        exact (List.mem_cons.mp hrest).resolve_left hud
  gone := by
    have hin := hin hlast host rest d hv.queue hv.parsed
    rw [hv.other]
    intro hfinished r hr hp hactive
    rw [hv.rows] at hr
    by_cases hm : r.Matches platform d.uuid
    · by_cases hd : d.uuid ∈ uuids_of (s.task !run).hosts
      · exact ⟨d.uuid, hd, hm.2⟩
      · rw [if_neg hd] at hin
        exact absurd hfinished hin
    · exact h.gone hfinished r ((mem_upsert_of_not_matches hm).mp hr) hp hactive

/-- A row of a recorded uuid is left as it is. -/
theorem mem_rows_of_recorded (h : Ended platform s t run) {r : Row HostColumns}
    (hr : r ∈ s.db.hosts.rows) {u : String} (hu : r.uuid = some u) (hmem : u ∈ (s.task run).uuids) :
    r ∈ t.db.hosts.rows := by
  rw [h.rows]
  refine List.mem_map.mpr ⟨r, hr, if_neg ?_⟩
  simp [stale_host, Row.excluded, hu, hmem]

/-- An active row afterwards was there, and of the platform only with a recorded uuid. -/
theorem active_of_ended (h : Ended platform s t run) {r : Row HostColumns}
    (hr : r ∈ t.db.hosts.rows) (hactive : r.is_active = true) :
    r ∈ s.db.hosts.rows ∧ (r.platform = platform → ∃ u ∈ (s.task run).uuids, r.uuid = some u) := by
  rw [h.rows] at hr
  obtain ⟨r', hr', rfl⟩ := List.mem_map.mp hr
  by_cases hstale : stale_host platform (s.task run).uuids r' = true
  · rw [if_pos hstale] at hactive
    cases hactive
  · rw [if_neg hstale] at hactive ⊢
    refine ⟨hr', fun hp => ?_⟩
    cases hu : r'.uuid with
    | none => simp [stale_host, Row.excluded, hp, hactive, hu] at hstale
    | some u =>
        simp only [stale_host, Row.excluded, hp, hactive, hu] at hstale
        exact ⟨u, by simpa using hstale, rfl⟩

theorem Tracks.uuids (h : Tracks s) (hrest : (s.task run).rest = []) :
    (s.task run).uuids = uuids_of (s.task run).hosts := by
  obtain ⟨visited, hhosts, huuids⟩ := (h.task run).visited
  rw [huuids, hhosts, hrest, List.append_nil]

/-- The run that fetched last is through. -/
theorem current_finish_last (h : Current platform s run) (htracks : Tracks s)
    (hf : Ended platform s t run) : Current platform t run where
  written := by
    rw [hf.task, hf.other]
    intro u hu
    rcases h.written u hu with hrest | ⟨r, hr, hm, hactive, hheld⟩
    · exact .inl hrest
    · have hmem : u ∈ (s.task run).uuids := htracks.uuids hf.queue ▸ hu
      exact .inr ⟨r, mem_rows_of_recorded hf hr hm.2 hmem, hm, hactive, hheld⟩
  gone := by
    rw [hf.task]
    intro _ r hr hp hactive
    obtain ⟨u, hu, huuid⟩ := (active_of_ended hf hr hactive).2 hp
    exact ⟨u, htracks.uuids hf.queue ▸ hu, huuid⟩

/-- The older run is through in time. -/
theorem current_finish_older (h : Current platform s (!run)) (hin : InTime s (.finish run))
    (hlast : s.last = some !run) (hf : Ended platform s t run) : Current platform t (!run) where
  written := by
    rw [hf.other, Bool.not_not, hf.task]
    intro u hu
    rcases h.written u hu with hrest | ⟨r, hr, hm, hactive, hheld⟩
    · exact .inl hrest
    · rcases hin hlast u hu with hmem | hrest
      · rw [Bool.not_not] at hheld
        exact .inr ⟨r, mem_rows_of_recorded hf hr hm.2 hmem, hm, hactive, hheld⟩
      · exact .inl hrest
  gone := by
    rw [hf.other]
    intro hfinished r hr hp hactive
    exact h.gone hfinished r (active_of_ended hf hr hactive).1 hp hactive

/-- **A step in time keeps the picture.** -/
theorem current_next {e : Event} (h : ∀ run, s.last = some run → Current platform s run)
    (htracks : Tracks s) (hs : Step env platform s e t) (hin : InTime s e) :
    ∀ run, t.last = some run → Current platform t run := by
  cases e with
  | fetch run hosts =>
      obtain ⟨-, -, htask, -, hlast⟩ := next_fetch hs
      intro run' hrun'
      obtain rfl : run = run' := Option.some.inj (hlast.symm.trans hrun')
      refine ⟨?_, ?_⟩
      · rw [htask]
        exact fun u hu => .inl hu
      · rw [htask]
        exact nofun
  | visit run =>
      obtain ⟨host, rest, d, hv⟩ := next_visit hs
      rw [hv.last]
      exact forall_run (fun hlast => current_visit_last (h _ hlast) (htracks.task _) hv)
        fun hlast => current_visit_older (h _ hlast) hin hlast hv
  | finish run =>
      have hf := next_finish hs
      rw [hf.last]
      exact forall_run (fun hlast => current_finish_last (h _ hlast) htracks hf)
        fun hlast => current_finish_older (h _ hlast) hin hlast hf

/-- Once both are through, what is stored is the last picture. -/
theorem shows_of_current (h : Current platform s run) (htracks : Tracks s)
    (hdone : ∀ run, (s.task run).stage = .finished) :
    Shows platform (s.task run).hosts s.db.hosts.rows := by
  have hheld : ∀ u ∈ uuids_of (s.task run).hosts, ∃ r ∈ s.db.hosts.rows, r.Matches platform u ∧
      r.is_active = true ∧ ∃ d ∈ reported (s.task run).hosts, r.Holds platform d := by
    intro u hu
    rcases h.written u hu with hrest | ⟨r, hr, hm, hactive, hheld⟩
    · rw [(htracks.task run).finished (hdone run)] at hrest
      cases hrest
    · refine ⟨r, hr, hm, hactive, hheld.resolve_left ?_⟩
      rw [(htracks.task !run).finished (hdone _)]
      exact List.not_mem_nil
  constructor
  · intro r hr hp hactive
    obtain ⟨u, hu, huuid⟩ := h.gone (hdone run) r hr hp hactive
    obtain ⟨r', hr', hm, -, d, hd, hholds⟩ := hheld u hu
    exact ⟨d, hd, s.db.hosts.eq_of_uuid hr hr' huuid hm.2 ▸ hholds⟩
  · intro d hd
    obtain ⟨r, hr, hm, hactive, -⟩ := hheld d.uuid (mem_uuids_of hd)
    exact ⟨r, hr, hm, hactive⟩

/-! ### Steps that are late -/

/-- The older run has left a row that the last picture does not have, or not like this. -/
inductive Broken (platform : Nat) (s : State) : Prop where
  | extra {run : Bool} {r : Row HostColumns} {u : String} (hlast : s.last = some run)
      (hother : (s.task !run).stage ≠ .start) (hfinished : (s.task run).stage = .finished)
      (hr : r ∈ s.db.hosts.rows) (hm : r.Matches platform u) (hactive : r.is_active = true)
      (hu : u ∉ uuids_of (s.task run).hosts) (hmem : u ∈ (s.task !run).uuids)
  | lost {run : Bool} {u : String} (hlast : s.last = some run)
      (hother : (s.task !run).stage ≠ .start) (hu : u ∈ uuids_of (s.task run).hosts)
      (hrest : ∀ run, u ∉ uuids_of (s.task run).rest)
      (hno : ∀ r ∈ s.db.hosts.rows, r.Matches platform u →
        ∀ d ∈ reported (s.task run).hosts, ¬ r.Holds platform d)

/-- The mark stays when a host is visited. -/
theorem broken_visit (h : Broken platform s) (hv : Visited platform s t run host rest d) :
    Broken platform t := by
  have hstart : ∀ run', (s.task run').stage ≠ .start → (t.task run').stage ≠ .start := by
    refine forall_run (fun _ => ?_) (fun h => hv.other ▸ h)
    rw [hv.task]
    exact nofun
  have hhosts : ∀ run', (t.task run').hosts = (s.task run').hosts := by
    refine forall_run ?_ (by rw [hv.other])
    rw [hv.task]
  have huuids : ∀ run', ∀ u ∈ (s.task run').uuids, u ∈ (t.task run').uuids := by
    refine forall_run (fun u hu => ?_) (fun u hu => hv.other ▸ hu)
    rw [hv.task]
    exact List.mem_append_left _ hu
  have hrests : ∀ run', ∀ u ∈ uuids_of (t.task run').rest, u ∈ uuids_of (s.task run').rest := by
    refine forall_run (fun u hu => ?_) (fun u hu => hv.other ▸ hu)
    rw [hv.task] at hu
    rw [hv.queue, uuids_of_cons hv.parsed]
    exact List.mem_cons_of_mem _ hu
  cases h with
  | @extra run' r u hlast hother hfinished hr hm hactive hu hmem =>
      have hsame : t.task run' = s.task run' := by
        rcases Bool.eq_or_eq_not run' run with rfl | rfl
        · exact absurd (hv.walking.symm.trans hfinished) nofun
        · exact hv.other
      -- the row is as it was, or written once more
      obtain ⟨r', hr', hm', hactive'⟩ :
          ∃ r' ∈ t.db.hosts.rows, r'.Matches platform u ∧ r'.is_active = true := by
        rw [hv.rows]
        refine ⟨_, mem_upsert_of_mem hr, ?_⟩
        split
        · exact ⟨hm, rfl⟩
        · exact ⟨hm, hactive⟩
      exact .extra (hv.last.trans hlast) (hstart _ hother) (hsame ▸ hfinished) hr' hm' hactive'
        (hsame ▸ hu) (huuids _ u hmem)
  | @lost run' u hlast hother hu hrest hno =>
      have hne : u ≠ d.uuid := by
        rintro rfl
        refine hrest run ?_
        rw [hv.queue, uuids_of_cons hv.parsed]
        exact List.mem_cons_self
      refine .lost (hv.last.trans hlast) (hstart _ hother) (hhosts run' ▸ hu)
        (fun run'' hmem => hrest run'' (hrests run'' u hmem)) ?_
      rw [hhosts run', hv.rows]
      intro r hr hm
      refine hno r ((mem_upsert_of_not_matches fun hd => hne ?_).mp hr) hm
      exact Option.some.inj (hm.2.symm.trans hd.2)

/-- The mark stays when a run ends. -/
theorem broken_finish (h : Broken platform s) (hf : Ended platform s t run) :
    Broken platform t := by
  have hstart : ∀ run', (s.task run').stage ≠ .start → (t.task run').stage ≠ .start := by
    refine forall_run (fun _ => ?_) (fun h => hf.other ▸ h)
    rw [hf.task]
    exact nofun
  have hsame : ∀ run', (t.task run').hosts = (s.task run').hosts ∧
      (t.task run').rest = (s.task run').rest ∧ (t.task run').uuids = (s.task run').uuids := by
    refine forall_run ?_ (by rw [hf.other]; exact ⟨rfl, rfl, rfl⟩)
    rw [hf.task]
    exact ⟨rfl, rfl, rfl⟩
  cases h with
  | @extra run' r u hlast hother hfinished hr hm hactive hu hmem =>
      obtain ⟨hne, rfl⟩ : run' ≠ run ∧ run = !run' := by
        have hne : run' ≠ run := by
          rintro rfl
          exact absurd (hf.walking.symm.trans hfinished) nofun
        exact ⟨hne, Bool.eq_not_of_ne hne.symm⟩
      refine .extra (hf.last.trans hlast) (hstart _ hother) ?_
        (mem_rows_of_recorded hf hr hm.2 hmem) hm hactive ((hsame run').1 ▸ hu)
        ((hsame _).2.2 ▸ hmem)
      have hrun' := hf.other
      rw [Bool.not_not] at hrun'
      rwa [hrun']
  | @lost run' u hlast hother hu hrest hno =>
      refine .lost (hf.last.trans hlast) (hstart _ hother) ((hsame run').1 ▸ hu)
        (fun run'' hmem => hrest run'' ((hsame run'').2.1 ▸ hmem)) ?_
      rw [(hsame run').1]
      intro r hr hm d hd hholds
      exact hno r (active_of_ended hf hr hholds.is_active).1 hm d hd hholds

theorem broken_next {e : Event} (h : Broken platform s) (htracks : Tracks s)
    (hs : Step env platform s e t) : Broken platform t := by
  cases e with
  | fetch run hosts =>
      -- both have fetched
      obtain ⟨hstage, -⟩ := next_fetch hs
      have hboth : ∀ run, (s.task run).stage ≠ .start := by
        cases h with
        | extra hlast hother => exact forall_run (htracks.last _ hlast) hother
        | lost hlast hother => exact forall_run (htracks.last _ hlast) hother
      exact absurd hstage (hboth run)
  | visit run =>
      obtain ⟨host, rest, d, hv⟩ := next_visit hs
      exact broken_visit h hv
  | finish run => exact broken_finish h (next_finish hs)

/-- A row holds one record. -/
theorem holds_unique {r : Row HostColumns} {d' : HostData} (h : r.Holds platform d)
    (h' : r.Holds platform d') : d = d' := by
  obtain ⟨uuid, name, mo_ref, columns⟩ := d
  obtain ⟨uuid', name', mo_ref', columns'⟩ := d'
  obtain rfl : uuid = uuid' := Option.some.inj (h.uuid.symm.trans h'.uuid)
  obtain rfl : name = name' := h.name.symm.trans h'.name
  obtain rfl : mo_ref = mo_ref' := Option.some.inj (h.mo_ref.symm.trans h'.mo_ref)
  obtain rfl : columns = columns' := h.columns.symm.trans h'.columns
  rfl

/-- **A step that is late leaves a mark.** -/
theorem broken_of_late {e : Event} (hs : Step env platform s e t) (hlate : ¬ InTime s e) :
    Broken platform t := by
  cases e with
  | fetch => exact absurd trivial hlate
  | visit run =>
      obtain ⟨host, rest, d, hv⟩ := next_visit hs
      simp only [InTime, not_forall] at hlate
      obtain ⟨hlast, host', rest', d', hqueue, hparse, hlate⟩ := hlate
      cases hv.queue.symm.trans hqueue
      cases hv.parsed.symm.trans hparse
      have hlast' : t.last = some !run := hv.last.trans hlast
      have hstage : (t.task (!!run)).stage ≠ .start := by
        rw [Bool.not_not, hv.task]
        exact nofun
      by_cases hu : d.uuid ∈ uuids_of (s.task !run).hosts
      · simp only [if_pos hu, not_or] at hlate
        obtain ⟨hnot, hrest, hagain⟩ := hlate
        refine .lost hlast' hstage (hv.other ▸ hu) (forall_run ?_ (hv.other ▸ hrest)) ?_
        · rwa [hv.task]
        · rw [hv.other, hv.rows]
          intro r hr hm d' hd' hholds
          exact hnot (holds_unique (holds_of_mem_upsert hr hm) hholds ▸ hd')
      · rw [if_neg hu, not_not] at hlate
        obtain ⟨r, hr, hd⟩ : ∃ r ∈ upsert platform d s.db.hosts.rows, r.Holds platform d :=
          exists_mem_upsert _
        refine .extra hlast' hstage (hv.other ▸ hlate) (hv.rows ▸ hr) ⟨hd.platform, hd.uuid⟩
          hd.is_active (hv.other ▸ hu) ?_
        rw [Bool.not_not, hv.task]
        exact List.mem_append_right _ (List.mem_singleton_self _)
  | finish run =>
      have hf := next_finish hs
      simp only [InTime, not_forall, not_or] at hlate
      obtain ⟨hlast, u, hu, hmem, hrest⟩ := hlate
      refine .lost (hf.last.trans hlast) ?_ (hf.other ▸ hu) (forall_run ?_ (hf.other ▸ hrest)) ?_
      · rw [Bool.not_not, hf.task]
        exact nofun
      · rw [hf.task, hf.queue]
        exact List.not_mem_nil
      · intro r hr hm d hd hholds
        obtain ⟨u', hu', huuid⟩ := (active_of_ended hf hr hholds.is_active).2 hm.1
        exact hmem (Option.some.inj (hm.2.symm.trans huuid) ▸ hu')

theorem not_shows_of_broken (h : Broken platform s) (hlast : s.last = some run) :
    ¬ Shows platform (s.task run).hosts s.db.hosts.rows := by
  intro hshows
  cases h with
  | @extra run' r u hlast' _ _ hr hm hactive hu _ =>
      obtain rfl : run = run' := Option.some.inj (hlast.symm.trans hlast')
      obtain ⟨d, hd, hholds⟩ := hshows.active r hr hm.1 hactive
      exact hu (Option.some.inj (hholds.uuid.symm.trans hm.2) ▸ mem_uuids_of hd)
  | @lost run' u hlast' _ hu _ hno =>
      obtain rfl : run = run' := Option.some.inj (hlast.symm.trans hlast')
      obtain ⟨d, hd, rfl⟩ := List.mem_map.mp hu
      obtain ⟨r, hr, hm, hactive⟩ := hshows.shown d hd
      obtain ⟨d', hd', hholds⟩ := hshows.active r hr hm.1 hactive
      exact hno r hr hm d' hd' hholds

end

/-! ### A run on its own -/

section
variable {env : Env} {platform : Nat}

theorem visit_host_noFewer (host : HostSystem) :
    Prog.Keeps NoFewer (visit_host env platform host) := by
  refine Prog.Keeps.attempt ?_ fun _ => count_failure_noFewer _
  refine (Prog.Keeps.lift _).bind fun d => ?_
  refine Prog.Keeps.bind (update_noFewer fun _ => rfl) fun _ => ?_
  refine Prog.Keeps.bind ?_ fun _ => update_noFewer fun _ => rfl
  exact (Prog.Keeps.read _).bind fun hosts => (Prog.Keeps.lift _).bind fun hosts =>
    update_noFewer fun _ => rfl

/-- The loop of `sync_hosts`, as steps of the machine. -/
theorem run_visits {s : State} {run : Bool} {rest : List HostSystem} {w : Walk}
    (hstage : (s.task run).stage = .walking) (hrest : (s.task run).rest = rest)
    (h : exec (forEach (visit_host env platform) rest) (s.walk run) = (.ok (), w))
    (hfailed : w.failed_count = (s.task run).failed_count) :
    Run (Step env platform) s (rest.map fun _ => .visit run) (s.resume run .walking w []) := by
  induction rest generalizing s with
  | nil =>
      cases h
      have hs : s = s.resume run .walking (s.walk run) [] := by
        obtain ⟨db, task, last⟩ := s
        have htask : task run = ⟨.walking, (task run).hosts, [], (task run).uuids,
            (task run).synced_count, (task run).failed_count⟩ := by
          rw [← hstage, ← hrest]
        simp only [State.resume, State.walk, ← htask, Function.update_eq_self]
      rw [← hs]
      exact .nil s
  | cons host rest ih =>
      obtain ⟨_, w₁, h₁, h⟩ := Prog.exec_bind_ok.mp h
      -- no failure is counted on the way
      have hle : NoFewer (s.walk run) w₁ := Prog.Keeps.of_exec (visit_host_noFewer host) h₁
      have hle' : NoFewer w₁ w :=
        Prog.Keeps.of_exec (Prog.Keeps.forEach fun v _ => visit_host_noFewer v) h
      have heq : w₁.failed_count = (s.task run).failed_count :=
        le_antisymm (hle'.trans hfailed.le) hle
      have hstep : Step env platform s (.visit run) (s.resume run .walking w₁ rest) := by
        simp only [Step, next, hstage, hrest, h₁, if_pos heq]
      refine .cons hstep ?_
      have := ih (s := s.resume run .walking w₁ rest) (by simp [State.resume])
        (by simp [State.resume]) (by simpa [State.resume, State.walk] using h)
        (by simp [State.resume, hfailed, heq])
      simpa [State.resume] using this

theorem step_finish {s : State} {run : Bool} (hstage : (s.task run).stage = .walking)
    (hrest : (s.task run).rest = []) : Step env platform s (.finish run)
      (s.resume run .finished ((s.walk run).finish_hosts platform) []) := by
  simp only [Step, next, hstage, hrest]

/-- **A `sync_hosts` without failures** is a run of the machine. -/
theorem run_of_sync_hosts {db : VirtDb} {hosts : List HostSystem} {w : Walk} {n : Nat} (run : Bool)
    (h : exec (sync_hosts env platform (.ok hosts)) (Walk.start db) = (.ok (.success n 0), w)) :
    ∃ t, Run (Step env platform) (.start db)
        (.fetch run hosts :: (hosts.map fun _ => Event.visit run) ++ [.finish run]) t ∧
      t.db = w.db := by
  obtain ⟨hplatform, _, ⟨⟩, w₁, hwalk, -, hfailed, rfl⟩ := sync_hosts_success.mp h
  have hfetch : Step env platform (.start db) (.fetch run hosts) ((State.start db).fetch run hosts) :=
    if_pos ⟨rfl, hplatform⟩
  have hwalk' : ((State.start db).fetch run hosts).walk run = Walk.start db := by
    simp [State.walk, State.fetch, State.start, Walk.start]
  have hvisits : Run (Step env platform) ((State.start db).fetch run hosts) _ _ :=
    run_visits (by simp [State.fetch]) (by simp [State.fetch]) (hwalk' ▸ hwalk)
      (by simp [State.fetch, ← hfailed])
  refine ⟨_, (Run.cons hfetch hvisits).append (.one (step_finish ?_ ?_)), ?_⟩
  · simp [State.resume]
  · simp [State.resume]
  · simp [State.resume, State.walk, Walk.finish_hosts]

end

/-- **When the last picture is stored**, once both runs are through. -/
theorem shows_last_iff {env : Env} {platform : Nat} {db : VirtDb} {l : List Event} {t : State}
    {run : Bool} (r : Run (Step env platform) (.start db) l t)
    (hdone : ∀ run, (t.task run).stage = .finished) (hlast : t.last = some run) :
    Shows platform (t.task run).hosts t.db.hosts.rows ↔
      Run (guarded (Step env platform) InTime) (.start db) l t := by
  constructor
  · intro hshows
    have htracks : ∀ s e t, Tracks s → Step env platform s e t → Tracks t :=
      fun _ _ _ h hs => h.next hs
    exact r.guarded_of_not_marked htracks (fun _ _ _ h hs hb => broken_next hb h hs)
      (fun _ _ _ _ hs => broken_of_late hs) (tracks_start db)
      fun hb => not_shows_of_broken hb hlast hshows
  · intro r'
    have hstart : ∀ run, (State.start db).last = some run →
        Current platform (State.start db) run := nofun
    obtain ⟨htracks, hcurrent⟩ : Tracks t ∧ ∀ run, t.last = some run → Current platform t run :=
      r'.invariant (I := fun s => Tracks s ∧ ∀ run, s.last = some run → Current platform s run)
        (fun _ _ _ h hs => ⟨h.1.next hs.1, current_next h.2 h.1 hs.1 hs.2⟩)
        ⟨tracks_start db, hstart⟩
    exact shows_of_current (hcurrent run hlast) htracks hdone

/-- The host is there when the first run fetches, and gone when the second one does. -/
def sampleEvents (rest : List Event) : List Event :=
  .fetch false [sampleHost "host-1" "h1" "esxi-1"] :: .fetch true [] :: rest

/-- The first run is through before the second one. -/
theorem shows_last_iff_in_time :
    ∃ t, Run (Step sampleEnv 1) (.start sampleDb)
        (sampleEvents [.visit false, .finish false, .finish true]) t ∧
      Shows 1 (t.task true).hosts t.db.hosts.rows := by
  have r : Run (Step sampleEnv 1) (.start sampleDb)
      (sampleEvents [.visit false, .finish false, .finish true]) _ :=
    .cons rfl (.cons rfl (.cons rfl (.cons rfl (.cons rfl (.nil _)))))
  refine ⟨_, r, (shows_last_iff r (by decide) rfl).mpr ?_⟩
  refine .cons ⟨rfl, trivial⟩ (.cons ⟨rfl, trivial⟩ (.cons ⟨rfl, ?_⟩ (.cons ⟨rfl, ?_⟩
    (.cons ⟨rfl, ?_⟩ (.nil _)))))
  · intro _ host rest d _ _
    exact (nofun : Stage.walking ≠ .finished)
  · exact fun _ => nofun
  · exact nofun

/-- The second run is through before the first one writes the host. -/
theorem removed_host_restored :
    ∃ t, Run (Step sampleEnv 1) (.start sampleDb)
        (sampleEvents [.finish true, .visit false, .finish false]) t ∧
      (∀ run, (t.task run).stage = .finished) ∧ t.last = some true ∧ (t.task true).hosts = [] ∧
      (∃ r ∈ t.db.hosts.rows, r.Matches 1 "h1" ∧ r.is_active = true) ∧
      ¬ Shows 1 (t.task true).hosts t.db.hosts.rows := by
  have hrow : ∃ r ∈ (upsert 1 (((parse_host_info (sampleHost "host-1" "h1" "esxi-1")).toOption).get rfl) []),
      r.Matches 1 "h1" ∧ r.is_active = true := ⟨_, .head _, ⟨rfl, rfl⟩, rfl⟩
  refine ⟨_, .cons rfl (.cons rfl (.cons rfl (.cons rfl (.cons rfl (.nil _))))), by decide, rfl, rfl,
    hrow, fun h => ?_⟩
  obtain ⟨r, hr, hm, hactive⟩ := hrow
  obtain ⟨d, hd, -⟩ := h.active r hr hm.1 hactive
  cases hd

end InfraHub.Virt.Overlap
