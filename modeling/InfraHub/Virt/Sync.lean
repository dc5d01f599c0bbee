import InfraHub.Virt.Credential
import InfraHub.Virt.Tables
import InfraHub.Lib.Prog

/-!
# Virt — Sync

`sync_hosts` and `sync_vms` of `tasks.py`, with the writes of `utils/sync_data.py`.

A task is a program over the tables and its own local variables (`Walk`).  It runs outside any
transaction but the one of each write, so what it wrote stays when it raises.
-/

namespace InfraHub.Virt
open InfraHub.Lib
open InfraHub.Lib.Prog (raise attempt update read lift forEach)

/-- The columns of `VirtualMachine` beside the keys. -/
structure VMRowColumns extends VMColumns where
  /-- the primary key of the host -/
  host : Option Nat
  deriving DecidableEq, Repr

structure VirtDb where
  platforms : List Platform
  hosts : Table HostColumns
  vms : Table VMRowColumns

/-- The tables and the local variables of a task. -/
structure Walk where
  db : VirtDb
  /-- `host_uuids`, `vm_uuids` -/
  uuids : List String
  synced_count : Nat
  failed_count : Nat

/-- A task, or a helper of one. -/
abbrev Sync (α : Type) := Prog Walk Fault α

/-- What the database raises for a record beside its `IntegrityError`s: a value too long for its
column, an address that is none. -/
structure Env where
  hostFault : Record HostColumns → Option Fault
  vmFault : Record VMRowColumns → Option Fault

/-- What a task returns; raising stands for `self.retry`. -/
inductive TaskResult where
  | success (synced_count failed_count : Nat)
  /-- `{"success": False, "error": …}` -/
  | failure (error : String)
  deriving DecidableEq, Repr

/-! ### `utils/sync_data.py` -/

def sync_host_to_db (env : Env) (platform : Nat) (host_data : HostData) : Sync Unit := do
  let hosts ← read (·.db.hosts)
  let hosts ← lift (hosts.update_or_create env.hostFault platform host_data)
  update fun s => { s with db.hosts := hosts }

/-- The record `sync_vm_to_db` writes, with the host looked up by its name. -/
def vm_record (hosts : Table HostColumns) (platform : Nat) (vm_data : VMData) :
    Record VMRowColumns :=
  let host :=
    if vm_data.host_name = "" then none
    else hosts.rows.find? fun h => h.platform = platform && h.name = vm_data.host_name
  { uuid := vm_data.uuid
    name := vm_data.name
    mo_ref := vm_data.mo_ref
    columns := { vm_data.columns with host := host.map (·.id) } }

def sync_vm_to_db (env : Env) (platform : Nat) (vm_data : VMData) : Sync Unit := do
  let db ← read (·.db)
  let vms ← lift (db.vms.update_or_create env.vmFault platform (vm_record db.hosts platform vm_data))
  update fun s => { s with db.vms := vms }

/-! ### `tasks.py` -/

/-- `except Exception as e:` of a loop over the inventory: the object is logged by its name, and
counted. -/
def count_failure (nameLogged : Read String) : Sync Unit := do
  let _ ← lift nameLogged
  update fun s => { s with failed_count := s.failed_count + 1 }

/-- The body of the loop of `sync_hosts`. -/
def visit_host (env : Env) (platform : Nat) (host : HostSystem) : Sync Unit :=
  attempt
    (do
      let host_data ← lift (parse_host_info host)
      update fun s => { s with uuids := s.uuids ++ [host_data.uuid] }
      sync_host_to_db env platform host_data
      update fun s => { s with synced_count := s.synced_count + 1 })
    fun _ => count_failure host.nameLogged

/-- The body of the loop of `sync_vms`. -/
def visit_vm (env : Env) (platform : Nat) (vm : VirtualMachineObject) : Sync Unit :=
  attempt
    (do
      match ← lift (parse_vm_info vm) with
      -- `vm_data.get` on the `None` of an object without configuration
      | none => raise "'NoneType' object has no attribute 'get'"
      | some vm_data =>
          if vm_data.columns.is_template then pure ()
          else do
            update fun s => { s with uuids := s.uuids ++ [vm_data.uuid] }
            sync_vm_to_db env platform vm_data
            update fun s => { s with synced_count := s.synced_count + 1 })
    fun _ => count_failure vm.nameLogged

/-- `Host.objects.filter(platform=platform, is_active=True).exclude(uuid__in=host_uuids)`. -/
def stale_host (platform : Nat) (uuids : List String) (r : Row HostColumns) : Bool :=
  r.platform = platform && r.is_active && r.excluded uuids

/-- `VirtualMachine.objects.filter(platform=platform, is_active=True, is_template=False).exclude(…)`. -/
def stale_vm (platform : Nat) (uuids : List String) (r : Row VMRowColumns) : Bool :=
  r.platform = platform && r.is_active && !r.columns.is_template && r.excluded uuids

/-- `Platform.objects.get(id=platform_id, is_active=True)` finds the platform. -/
def VirtDb.has_platform (db : VirtDb) (platform : Nat) : Bool :=
  db.platforms.any fun p => p.id = platform && p.is_active

/-- `sync_hosts`; `fetched` is what connecting and `client.get_hosts()` come to. -/
def sync_hosts (env : Env) (platform : Nat) (fetched : Except Fault (List HostSystem)) :
    Sync TaskResult := do
  let found ← read (·.db.has_platform platform)
  if !found then return .failure "平台不存在或未启用"
  else do
    let hosts ← lift fetched
    forEach (visit_host env platform) hosts
    update fun s => { s with db.hosts := s.db.hosts.deactivate (stale_host platform s.uuids) }
    read fun s => .success s.synced_count s.failed_count

/-- `sync_vms`; `fetched` is what connecting and `client.get_vms()` come to. -/
def sync_vms (env : Env) (platform : Nat) (fetched : Except Fault (List VirtualMachineObject)) :
    Sync TaskResult := do
  let found ← read (·.db.has_platform platform)
  if !found then return .failure "平台不存在或未启用"
  else do
    let vms ← lift fetched
    forEach (visit_vm env platform) vms
    update fun s => { s with db.vms := s.db.vms.deactivate (stale_vm platform s.uuids) }
    read fun s => .success s.synced_count s.failed_count

/-- A task before its first line. -/
def Walk.start (db : VirtDb) : Walk := ⟨db, [], 0, 0⟩

/-! ### A task that ran to its end -/

/-- The end of `sync_hosts`. -/
def Walk.finish_hosts (platform : Nat) (s : Walk) : Walk :=
  { s with db.hosts := s.db.hosts.deactivate (stale_host platform s.uuids) }

/-- The end of `sync_vms`. -/
def Walk.finish_vms (platform : Nat) (s : Walk) : Walk :=
  { s with db.vms := s.db.vms.deactivate (stale_vm platform s.uuids) }

/-- `sync_hosts` succeeds where it found the platform, fetched the inventory and walked it. -/
theorem sync_hosts_success {env : Env} {platform : Nat}
    {fetched : Except Fault (List HostSystem)} {s s' : Walk} {n m : Nat} :
    Prog.exec (sync_hosts env platform fetched) s = (.ok (.success n m), s') ↔
      s.db.has_platform platform = true ∧ ∃ hosts, fetched = .ok hosts ∧
        ∃ s₁, Prog.exec (forEach (visit_host env platform) hosts) s = (.ok (), s₁) ∧
          n = s₁.synced_count ∧ m = s₁.failed_count ∧ s' = s₁.finish_hosts platform := by
  unfold sync_hosts
  rw [Prog.exec_read_bind]
  cases s.db.has_platform platform with
  | false => simp
  | true =>
      cases fetched with
      | error e => simp
      | ok hosts =>
          simp only [Bool.not_true, Bool.false_eq_true, if_false, Prog.exec_lift_ok_bind,
            Prog.exec_bind_ok, Prog.exec_update, Prog.exec_read, Prod.mk.injEq, Except.ok.injEq,
            TaskResult.success.injEq, true_and]
          constructor
          · rintro ⟨_, s₁, hw, _, _, rfl, ⟨rfl, rfl⟩, rfl⟩
            exact ⟨hosts, rfl, s₁, hw, rfl, rfl, rfl⟩
          · rintro ⟨_, rfl, s₁, hw, rfl, rfl, rfl⟩
            exact ⟨(), s₁, hw, (), _, rfl, ⟨rfl, rfl⟩, rfl⟩

/-- `sync_vms` succeeds where it found the platform, fetched the inventory and walked it. -/
theorem sync_vms_success {env : Env} {platform : Nat}
    {fetched : Except Fault (List VirtualMachineObject)} {s s' : Walk} {n m : Nat} :
    Prog.exec (sync_vms env platform fetched) s = (.ok (.success n m), s') ↔
      s.db.has_platform platform = true ∧ ∃ vms, fetched = .ok vms ∧
        ∃ s₁, Prog.exec (forEach (visit_vm env platform) vms) s = (.ok (), s₁) ∧
          n = s₁.synced_count ∧ m = s₁.failed_count ∧ s' = s₁.finish_vms platform := by
  unfold sync_vms
  rw [Prog.exec_read_bind]
  cases s.db.has_platform platform with
  | false => simp
  | true =>
      cases fetched with
      | error e => simp
      | ok vms =>
          simp only [Bool.not_true, Bool.false_eq_true, if_false, Prog.exec_lift_ok_bind,
            Prog.exec_bind_ok, Prog.exec_update, Prog.exec_read, Prod.mk.injEq, Except.ok.injEq,
            TaskResult.success.injEq, true_and]
          constructor
          · rintro ⟨_, s₁, hw, _, _, rfl, ⟨rfl, rfl⟩, rfl⟩
            exact ⟨vms, rfl, s₁, hw, rfl, rfl, rfl⟩
          · rintro ⟨_, rfl, s₁, hw, rfl, rfl, rfl⟩
            exact ⟨(), s₁, hw, (), _, rfl, ⟨rfl, rfl⟩, rfl⟩

/-! ### What `sync_vms` leaves -/

/-- `sync_vms` leaves the other tables. -/
def SameHosts (w w' : Walk) : Prop :=
  w'.db.hosts = w.db.hosts ∧ w'.db.platforms = w.db.platforms

instance : IsPreorder Walk SameHosts where
  refl _ := ⟨rfl, rfl⟩
  trans _ _ _ h h' := ⟨h'.1.trans h.1, h'.2.trans h.2⟩

section
variable {env : Env} {platform : Nat}

theorem visit_vm_sameHosts (vm : VirtualMachineObject) :
    Prog.Keeps SameHosts (visit_vm env platform vm) := by
  have assign {f : Walk → Walk} (h : ∀ w, SameHosts w (f w)) :
      Prog.Keeps SameHosts (Prog.update f : Sync Unit) := Prog.Keeps.update h
  refine Prog.Keeps.attempt ?_ fun _ =>
    (Prog.Keeps.lift _).bind fun _ => assign fun _ => ⟨rfl, rfl⟩
  refine (Prog.Keeps.lift _).bind fun vm_data => ?_
  cases vm_data with
  | none => exact Prog.Keeps.raise _
  | some d =>
      refine Prog.Keeps.ite (Prog.Keeps.ret ()) ?_
      refine Prog.Keeps.bind (assign fun _ => ⟨rfl, rfl⟩) fun _ => ?_
      refine Prog.Keeps.bind ?_ fun _ => assign fun _ => ⟨rfl, rfl⟩
      exact (Prog.Keeps.read _).bind fun db => (Prog.Keeps.lift _).bind fun vms =>
        assign fun _ => ⟨rfl, rfl⟩

theorem walk_vms_sameHosts (vms : List VirtualMachineObject) :
    Prog.Keeps SameHosts (forEach (visit_vm env platform) vms) :=
  Prog.Keeps.forEach fun vm _ => visit_vm_sameHosts vm

end

/-! ### A small platform -/

/-- A database that takes every value. -/
def sampleEnv : Env := ⟨fun _ => none, fun _ => none⟩

/-- A host, of which little is known. -/
def sampleHost (moId uuid name : String) : HostSystem where
  moId
  name := .ok name
  nameLogged := .ok name
  hardware := .ok none
  runtime := .ok none
  summary := .ok (some ⟨some ⟨uuid, "", "", "", 0, 0⟩, none⟩)
  config := .ok none
  parent := .none
  vm := .ok []

/-- A virtual machine that is switched off, with nothing attached. -/
def sampleVM (moId uuid name : String) : VirtualMachineObject where
  moId
  name := .ok name
  nameLogged := .ok name
  config := .ok (some
    { name, uuid, instanceUuid := "", guestFullName := "", guestId := none, version := "vmx-19"
      template := false, hardware := none })
  runtime := .ok none
  summary := .ok none
  guest := .ok none
  parent := .none
  snapshot := .ok none
  resourcePool := .ok none

/-- The columns a sync writes for a `sampleVM`, as far as they matter. -/
def sampleColumns : VMRowColumns where
  display_name := ""
  instance_uuid := ""
  cluster_name := ""
  datacenter_name := ""
  resource_pool := ""
  folder := ""
  status := 2
  power_state := "poweredOff"
  connection_state := ""
  os_type := "other"
  os_full_name := ""
  guest_id := none
  guest_state := ""
  tools_status := ""
  tools_version := ""
  cpu_count := 1
  cpu_cores_per_socket := 1
  memory_mb := 1024
  hardware_version := "vmx-19"
  ip_address := none
  mac_address := ""
  hostname := ""
  disk_count := 0
  total_disk_gb := 0
  cpu_usage_percent := 0
  memory_usage_percent := 0
  has_snapshots := false
  snapshot_count := 0
  is_template := false
  boot_time := none
  host := none

/-- An active row of platform 1. -/
def sampleRow (id : Nat) (uuid name moId : String) : Row VMRowColumns where
  id
  platform := 1
  uuid := some uuid
  name
  mo_ref := some moId
  is_active := true
  columns := sampleColumns

/-- Platform 1 with one virtual machine, `web` with the uuid `u1`. -/
def sampleDb : VirtDb where
  platforms := [samplePlatform]
  hosts := ⟨[], by decide⟩
  vms := ⟨[sampleRow 1 "u1" "web" "vm-1"], by decide⟩

end InfraHub.Virt
