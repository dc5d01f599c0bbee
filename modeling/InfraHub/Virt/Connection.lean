import InfraHub.Lib.Prog
import InfraHub.Lib.Run

/-!
# Virt — Connection

The connection status of a platform, and the `platform_status_changed` signals: `sync_platform_info`
with its retries, `sync_platform_to_db`, and `test_connection`.

The status is written at four places and the signal is sent at one of them.  `in_step_iff` says that
the signals replay to the stored status, after every call of a sequence, exactly if no call changes
it silently and no call announces a change that is none.
-/

namespace InfraHub.Virt.Connection
open InfraHub.Lib (Run guarded Throughout throughout_of_guarded Prog)
open InfraHub.Lib.Prog (raise attempt update read lift exec)

abbrev Fault := String

/-- `Platform.Status` -/
inductive Status
  | DISCONNECTED
  | CONNECTED
  | ERROR
  | MAINTENANCE
  deriving DecidableEq, Repr

/-- The columns of a platform that the calls read or write. -/
structure Platform where
  version : String
  build : String
  datacenter : String
  total_hosts : Nat
  total_vms : Nat
  total_clusters : Nat
  status : Status
  is_active : Bool
  deriving DecidableEq, Repr

/-- `old_status` and `new_status` of a `platform_status_changed`. -/
structure Signal where
  old_status : Status
  new_status : Status
  deriving DecidableEq, Repr

/-- The row, the object that a call has loaded, and the signals sent so far. -/
structure Session where
  stored : Platform
  platform : Platform
  signals : List Signal
  deriving DecidableEq, Repr

abbrev Call (α : Type) := Prog Session Fault α

/-! ### `utils/data_parser.py`, `utils/sync_data.py` -/

/-- What `sync_platform_info` gets from vSphere. -/
structure Fetched where
  version : String
  build : String
  datacenter_names : List String
  cluster_count : Nat
  host_count : Nat
  vm_count : Nat
  deriving DecidableEq, Repr

structure PlatformData where
  version : String
  build : String
  datacenter : String
  total_hosts : Nat
  total_vms : Nat
  total_clusters : Nat
  status : Status
  deriving DecidableEq, Repr

def parse_platform_info (fetched : Fetched) : PlatformData where
  version := fetched.version
  build := fetched.build
  datacenter := fetched.datacenter_names.head?.getD ""
  total_hosts := fetched.host_count
  total_vms := fetched.vm_count
  total_clusters := fetched.cluster_count
  status := .CONNECTED

/-- `platform.save(update_fields=…)` of these fields, unless the database refuses. -/
def save (fields : (platform stored : Platform) → Platform) (refused : Option Fault) : Call Unit :=
  match refused with
  | some e => raise e
  | none => update fun s => { s with stored := fields s.platform s.stored }

/-- The object is changed before the row, and stays changed if the row is not. -/
def sync_platform_to_db (platform_data : PlatformData) (refused : Option Fault) : Call Unit := do
  update fun s =>
    let platform := { s.platform with
      version := platform_data.version
      build := platform_data.build
      datacenter := platform_data.datacenter
      total_hosts := platform_data.total_hosts
      total_vms := platform_data.total_vms
      total_clusters := platform_data.total_clusters
      status := platform_data.status }
    { s with platform }
  save (fun platform stored => { platform with is_active := stored.is_active }) refused

def save_status (refused : Option Fault) : Call Unit :=
  save (fun platform stored => { stored with status := platform.status }) refused

def set_status (status : Status) : Call Unit :=
  update fun s =>
    let platform := { s.platform with status }
    { s with platform }

/-! ### `tasks.py` -/

/-- How the steps of an attempt of `sync_platform_info` end. -/
structure Attempt where
  /-- `get_vsphere_client` -/
  client : Except Fault Unit
  /-- connecting, and all that is asked of vSphere -/
  fetched : Except Fault Fetched
  /-- the save in `sync_platform_to_db` -/
  save_data : Option Fault
  /-- the save in the `except` branch -/
  save_error : Option Fault

inductive TaskResult
  | success (platform_data : PlatformData)
  /-- `{"success": False, "error": …}` -/
  | failure (error : String)
  deriving DecidableEq, Repr

/-- One attempt; raising stands for `self.retry`. -/
def sync_platform_info (a : Attempt) : Call TaskResult := do
  let stored ← read (·.stored)
  if !stored.is_active then return .failure "平台不存在或未启用"
  else do
    update fun s => { s with platform := s.stored }
    lift a.client
    attempt
      (do
        let fetched ← lift a.fetched
        let platform_data := parse_platform_info fetched
        sync_platform_to_db platform_data a.save_data
        return .success platform_data)
      fun e => do
        let old_status ← read (·.platform.status)
        set_status .ERROR
        save_status a.save_error
        let new_status ← read (·.platform.status)
        update fun s => { s with signals := s.signals ++ [⟨old_status, new_status⟩] }
        raise e

/-! ### `views/platform.py` -/

/-- How the steps of a `test_connection` end. -/
structure Test where
  client : Except Fault Unit
  /-- connecting and `get_about_info` -/
  about : Except Fault Unit
  save_connected : Option Fault
  save_error : Option Fault

/-- Whether the platform is connected; raising is an error response. -/
def test_connection (a : Test) : Call Bool := do
  update fun s => { s with platform := s.stored }
  attempt
    (do
      lift a.client
      lift a.about
      set_status .CONNECTED
      save_status a.save_connected
      return true)
    fun _ => do
      set_status .ERROR
      save_status a.save_error
      return false

/-! ### Sequences of calls -/

inductive Event
  | sync_platform_info (a : Attempt)
  | test_connection (a : Test)

def next (s : Session) : Event → Session
  | .sync_platform_info a => (exec (sync_platform_info a) s).2
  | .test_connection a => (exec (test_connection a) s).2

def Step (s : Session) (e : Event) (t : Session) : Prop := next s e = t

/-- No call has been made yet. -/
def Session.start (stored : Platform) : Session := ⟨stored, stored, []⟩

/-- From `status` on, every signal starts at the status before it and changes it, and the last one
ends at `current`. -/
def Replays : (status : Status) → List Signal → (current : Status) → Prop
  | status, [], current => status = current
  | status, signal :: signals, current =>
      signal.old_status = status ∧ signal.new_status ≠ status ∧
        Replays signal.new_status signals current

instance : ∀ status signals current, Decidable (Replays status signals current)
  | status, [], current => inferInstanceAs (Decidable (status = current))
  | _, signal :: signals, current =>
      have := instDecidableReplays signal.new_status signals current
      inferInstanceAs (Decidable (_ ∧ _ ∧ Replays signal.new_status signals current))

/-- The listeners are in step: the signals lead from the first status to the stored one. -/
def InStep (initial : Status) (s : Session) : Prop := Replays initial s.signals s.stored.status

instance (initial : Status) (s : Session) : Decidable (InStep initial s) :=
  inferInstanceAs (Decidable (Replays _ _ _))

theorem replays_snoc {status current : Status} {signals : List Signal} {signal : Signal} :
    Replays status (signals ++ [signal]) current ↔
      Replays status signals signal.old_status ∧ signal.new_status ≠ signal.old_status ∧
        signal.new_status = current := by
  induction signals generalizing status with
  | nil =>
      simp only [List.nil_append, Replays]
      constructor
      · rintro ⟨rfl, hne, h⟩
        exact ⟨rfl, hne, h⟩
      · rintro ⟨rfl, hne, h⟩
        exact ⟨rfl, hne, h⟩
  | cons first signals ih => simp only [List.cons_append, Replays, ih, and_assoc]

/-- Where the signals lead is determined. -/
theorem Replays.unique {status current current' : Status} {signals : List Signal}
    (h : Replays status signals current) (h' : Replays status signals current') :
    current = current' := by
  induction signals generalizing status with
  | nil => exact h.symm.trans h'
  | cons first signals ih => exact ih h.2.2 h'.2.2

/-! ### The condition -/

/-- Who stores a status without a signal finds it stored already; who announces a change to `ERROR`
finds another status, and `CONNECTED` where the fetched data were not taken. -/
def Guard (s : Session) : Event → Prop
  | .sync_platform_info a => s.stored.is_active = true → a.client = .ok () →
      match a.fetched, a.save_data with
      | .ok _, none => s.stored.status = .CONNECTED
      | .ok _, some _ => a.save_error = none → s.stored.status = .CONNECTED
      | .error _, _ => a.save_error = none → s.stored.status ≠ .ERROR
  | .test_connection a =>
      if a.client = .ok () ∧ a.about = .ok () ∧ a.save_connected = none then
        s.stored.status = .CONNECTED
      else a.save_error = none → s.stored.status = .ERROR

section
variable {initial : Status} {s t : Session}

theorem in_step_silent (h : InStep initial s) (hsignals : t.signals = s.signals) :
    InStep initial t ↔ t.stored.status = s.stored.status := by
  rw [InStep, hsignals]
  constructor
  · exact fun h' => h'.unique h
  · intro e
    rw [e]
    exact h

theorem in_step_announced {old : Status} (h : InStep initial s)
    (hsignals : t.signals = s.signals ++ [⟨old, t.stored.status⟩]) :
    InStep initial t ↔ old = s.stored.status ∧ t.stored.status ≠ old := by
  rw [InStep, hsignals, replays_snoc]
  constructor
  · exact fun ⟨h', hne, _⟩ => ⟨h'.unique h, hne⟩
  · rintro ⟨rfl, hne⟩
    exact ⟨h, hne, rfl⟩

/-- The row says `ERROR` then, and the change from `old` is announced, if it is stored. -/
theorem in_step_error {save_error : Option Fault} {old : Status} (h : InStep initial s)
    (hstatus : t.stored.status = if save_error = none then .ERROR else s.stored.status)
    (hsignals : t.signals =
      if save_error = none then s.signals ++ [⟨old, .ERROR⟩] else s.signals) :
    InStep initial t ↔ (save_error = none → old = s.stored.status ∧ Status.ERROR ≠ old) := by
  by_cases herror : save_error = none
  · rw [if_pos herror] at hstatus hsignals
    rw [← hstatus] at hsignals
    rw [in_step_announced h hsignals, hstatus]
    exact ⟨fun h _ => h, fun h => h herror⟩
  · rw [if_neg herror] at hstatus hsignals
    rw [in_step_silent h hsignals]
    exact iff_of_true hstatus fun hnone => absurd hnone herror

/-- An attempt that changes neither the row nor the signals. -/
theorem in_step_same (h : InStep initial s) (hstored : t.stored = s.stored)
    (hsignals : t.signals = s.signals) : InStep initial t :=
  (in_step_silent h hsignals).mpr (by rw [hstored])

/-! ### One call -/

/-- An attempt that ends before it asks vSphere. -/
theorem sync_platform_info_early {a : Attempt}
    (h : ¬ (s.stored.is_active = true ∧ a.client = .ok ())) :
    (next s (.sync_platform_info a)).stored = s.stored ∧
      (next s (.sync_platform_info a)).signals = s.signals := by
  cases hactive : s.stored.is_active with
  | false => simp [next, sync_platform_info, hactive]
  | true =>
      cases hclient : a.client with
      | ok _ => exact absurd ⟨hactive, hclient⟩ h
      | error e => simp [next, sync_platform_info, hactive, hclient]

/-- An attempt that goes on from there, as a computation on its own fields. -/
theorem next_of_active {a : Attempt} (hactive : s.stored.is_active = true)
    (hclient : a.client = .ok ()) :
    next s (.sync_platform_info a) =
      next { s with stored := { s.stored with is_active := true } }
        (.sync_platform_info { a with client := .ok () }) := by
  rw [← hactive, ← hclient]

/-- The data are taken. -/
theorem sync_platform_info_taken {a : Attempt} {fetched : Fetched}
    (hactive : s.stored.is_active = true) (hclient : a.client = .ok ())
    (hfetched : a.fetched = .ok fetched) (hsave : a.save_data = none) :
    (next s (.sync_platform_info a)).stored.status = .CONNECTED ∧
      (next s (.sync_platform_info a)).signals = s.signals := by
  obtain ⟨client, _, _, save_error⟩ := a
  subst hfetched hsave
  rw [next_of_active hactive hclient]
  exact ⟨rfl, rfl⟩

/-- Asking vSphere fails: the change from the stored status is announced, if it is stored. -/
theorem sync_platform_info_failed {a : Attempt} {e : Fault} (hactive : s.stored.is_active = true)
    (hclient : a.client = .ok ()) (hfetched : a.fetched = .error e) :
    let t := next s (.sync_platform_info a)
    (t.stored.status = if a.save_error = none then .ERROR else s.stored.status) ∧
      t.signals =
        if a.save_error = none then s.signals ++ [⟨s.stored.status, .ERROR⟩] else s.signals := by
  obtain ⟨client, _, save_data, save_error⟩ := a
  subst hfetched
  rw [next_of_active hactive hclient]
  cases save_error <;> exact ⟨rfl, rfl⟩

/-- The data are refused: the object says `CONNECTED` by then, and that is announced as the old
status. -/
theorem sync_platform_info_refused {a : Attempt} {fetched : Fetched} {e : Fault}
    (hactive : s.stored.is_active = true) (hclient : a.client = .ok ())
    (hfetched : a.fetched = .ok fetched) (hsave : a.save_data = some e) :
    let t := next s (.sync_platform_info a)
    (t.stored.status = if a.save_error = none then .ERROR else s.stored.status) ∧
      t.signals = if a.save_error = none then s.signals ++ [⟨.CONNECTED, .ERROR⟩] else s.signals := by
  obtain ⟨client, _, _, save_error⟩ := a
  subst hfetched hsave
  rw [next_of_active hactive hclient]
  cases save_error <;> exact ⟨rfl, rfl⟩

theorem test_connection_effect (a : Test) :
    let t := next s (.test_connection a)
    (t.stored.status =
        if a.client = .ok () ∧ a.about = .ok () ∧ a.save_connected = none then .CONNECTED
        else if a.save_error = none then .ERROR else s.stored.status) ∧
      t.signals = s.signals := by
  obtain ⟨client, about, save_connected, save_error⟩ := a
  cases client <;> cases about <;> cases save_connected <;> cases save_error <;> exact ⟨rfl, rfl⟩

/-- **One call keeps the listeners in step** exactly if it meets the condition. -/
theorem in_step_next (h : InStep initial s) (e : Event) :
    InStep initial (next s e) ↔ Guard s e := by
  cases e with
  | sync_platform_info a =>
      by_cases hearly : s.stored.is_active = true ∧ a.client = .ok ()
      · obtain ⟨hactive, hclient⟩ := hearly
        simp only [Guard, hactive, hclient, forall_const]
        cases hfetched : a.fetched with
        | ok fetched =>
            cases hsave : a.save_data with
            | none =>
                obtain ⟨hstatus, hsignals⟩ :=
                  sync_platform_info_taken hactive hclient hfetched hsave
                rw [in_step_silent h hsignals, hstatus, eq_comm]
            | some e =>
                obtain ⟨hstatus, hsignals⟩ :=
                  sync_platform_info_refused hactive hclient hfetched hsave
                rw [in_step_error h hstatus hsignals]
                simp [eq_comm]
        | error e =>
            obtain ⟨hstatus, hsignals⟩ := sync_platform_info_failed hactive hclient hfetched
            rw [in_step_error h hstatus hsignals]
            simp [eq_comm]
      · obtain ⟨hstored, hsignals⟩ := sync_platform_info_early hearly
        refine iff_of_true (in_step_same h hstored hsignals) fun hactive hclient => ?_
        exact absurd ⟨hactive, hclient⟩ hearly
  | test_connection a =>
      obtain ⟨hstatus, hsignals⟩ := test_connection_effect (s := s) a
      rw [in_step_silent h hsignals, hstatus, Guard]
      by_cases hok : a.client = .ok () ∧ a.about = .ok () ∧ a.save_connected = none
      · rw [if_pos hok, if_pos hok, eq_comm]
      · rw [if_neg hok, if_neg hok]
        by_cases herror : a.save_error = none
        · simp [herror, eq_comm]
        · simp [herror]

end

/-- **When the signals replay to the stored status**, after every call of a sequence. -/
theorem in_step_iff {stored : Platform} {l : List Event} {s : Session}
    (r : Run Step (.start stored) l s) :
    Throughout Step (fun _ => InStep stored.status) (.start stored) l ↔
      Run (guarded Step Guard) (.start stored) l s := by
  constructor
  · intro h
    refine h.guarded (fun _ s e t _ hs hin hin' => ?_) r
    exact (in_step_next hin e).mp (hs ▸ hin')
  · intro r'
    refine throughout_of_guarded (I := fun _ => InStep stored.status)
      (fun _ _ _ _ h h' => h.symm.trans h') (fun _ s e t hin hs => ?_) (fun _ _ h => h) r' rfl
    exact hs.1 ▸ (in_step_next hin e).mpr hs.2

/-- A platform that has not been connected yet. -/
def samplePlatform : Platform := ⟨"", "", "", 0, 0, 0, .DISCONNECTED, true⟩

def sampleFetched : Fetched := ⟨"8.0.2", "22385739", ["dc"], 1, 2, 3⟩

/-- Connecting fails. -/
def sampleFailure : Event := .sync_platform_info ⟨.ok (), .error "timed out", none, none⟩

/-- Everything is fetched and stored. -/
def sampleSuccess : Event := .sync_platform_info ⟨.ok (), .ok sampleFetched, none, none⟩

/-- A connected platform is synced, and then fails. -/
theorem in_step_iff_failure :
    Throughout Step (fun _ => InStep .CONNECTED) (.start { samplePlatform with status := .CONNECTED })
      [sampleSuccess, sampleFailure] := by
  have r : Run Step (.start { samplePlatform with status := .CONNECTED })
      [sampleSuccess, sampleFailure] _ := .cons rfl (.cons rfl (.nil _))
  refine (in_step_iff r).mpr (.cons ⟨rfl, fun _ _ => ?_⟩ (.cons ⟨rfl, fun _ _ _ => ?_⟩ (.nil _)))
  · rfl
  · exact (nofun : Status.CONNECTED ≠ .ERROR)

/-- The first successful sync connects a platform without a signal; two failures in a row announce a
change from `ERROR` to `ERROR`. -/
theorem status_changes_out_of_step :
    (∃ s, Run Step (.start samplePlatform) [sampleSuccess] s ∧ s.stored.status = .CONNECTED ∧
      s.signals = [] ∧ ¬ InStep .DISCONNECTED s) ∧
    ∃ s, Run Step (.start samplePlatform) [sampleFailure, sampleFailure] s ∧
      s.signals = [⟨.DISCONNECTED, .ERROR⟩, ⟨.ERROR, .ERROR⟩] ∧ ¬ InStep .DISCONNECTED s := by
  constructor
  · exact ⟨_, .cons rfl (.nil _), rfl, rfl, by decide⟩
  · exact ⟨_, .cons rfl (.cons rfl (.nil _)), rfl, by decide⟩

end InfraHub.Virt.Connection
