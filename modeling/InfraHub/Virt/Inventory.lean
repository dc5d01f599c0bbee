import Mathlib.Data.Rat.Defs
import Mathlib.Data.List.Infix

/-!
# Virt — Inventory

The objects `client.get_hosts()` and `client.get_vms()` return, and the records
`utils/data_parser.py` makes of them.

A property of a managed object is read over the connection, so each may raise (`Read`); what it
returns is plain data.  A property gives the same outcome each time it is read, but for the name,
which the `except` branches read once more to log it.  Floating-point figures are rationals.
-/

namespace InfraHub.Virt

/-- An exception, by its text. -/
abbrev Fault := String

/-- The outcome of reading a property. -/
abbrev Read (α : Type) := Except Fault α

inductive EntityKind where
  | datacenter | cluster | other
  deriving DecidableEq, Repr

/-- The `parent` of a managed object, with the parents above it. -/
inductive Parent where
  | none
  | unreadable (e : Fault)
  | entity (kind : EntityKind) (name : Read String) (parent : Parent)

/-- The `while obj:` loop that looks for the data center. -/
def Parent.datacenter_name : Parent → Read String
  | .none => pure ""
  | .unreadable e => throw e
  | .entity .datacenter name _ => name
  | .entity _ _ parent => parent.datacenter_name

/-- The name of the parent, if it is a cluster. -/
def Parent.cluster_name : Parent → Read String
  | .unreadable e => throw e
  | .entity .cluster name _ => name
  | .none | .entity _ _ _ => pure ""

/-- `str(obj.name) if obj else ""`. -/
def Parent.name : Parent → Read String
  | .none => pure ""
  | .unreadable e => throw e
  | .entity _ name _ => name

/-- `str(value)` of a string or `None`. -/
def str : Option String → String
  | some s => s
  | none => "None"

/-- `bool(value)` of a number or `None`. -/
def nonzero (n : Option Nat) : Bool := n.any (· ≠ 0)

/-- `a / b`. -/
def divide (a b : ℚ) : Read ℚ := if b = 0 then throw "division by zero" else pure (a / b)

structure QuickStats where
  overallCpuUsage : Option Nat
  /-- `overallMemoryUsage` of a host, `guestMemoryUsage` of a virtual machine -/
  memoryUsage : Option Nat
  deriving DecidableEq, Repr

/-- What a parser returns of an object: its keys, and the columns beside them. -/
structure Record (γ : Type) where
  uuid : String
  name : String
  mo_ref : String
  columns : γ
  deriving DecidableEq, Repr

/-! ### Hosts -/

structure HostRuntime where
  connectionState : String
  powerState : String
  inMaintenanceMode : Bool
  deriving DecidableEq, Repr

/-- `host.hardware.cpuInfo`. -/
structure CpuInfo where
  numCpuCores : Nat
  numCpuThreads : Nat
  hz : Nat
  deriving DecidableEq, Repr

/-- `host.summary.hardware`. -/
structure HardwareSummary where
  uuid : String
  vendor : String
  model : String
  cpuModel : String
  numCpuPkgs : Nat
  memorySize : Nat
  deriving DecidableEq, Repr

structure HostSummary where
  hardware : Option HardwareSummary
  quickStats : Option QuickStats
  deriving DecidableEq, Repr

structure HostConfig where
  /-- `network.dnsConfig.hostName`, if these are there -/
  dnsHostName : Option String
  /-- `product.version` and `product.build` -/
  product : Option (String × String)
  deriving DecidableEq, Repr

/-- `vim.HostSystem`. -/
structure HostSystem where
  moId : String
  name : Read String
  /-- the name, as an `except` branch reads it -/
  nameLogged : Read String
  /-- `hardware`, of which only `cpuInfo` is used -/
  hardware : Read (Option CpuInfo)
  runtime : Read (Option HostRuntime)
  summary : Read (Option HostSummary)
  config : Read (Option HostConfig)
  parent : Parent
  /-- the identifiers of its virtual machines -/
  vm : Read (List String)

/-- The columns of `Host` that a sync writes beside the keys. -/
structure HostColumns where
  hostname : String
  ip_address : String
  cluster_name : String
  datacenter_name : String
  status : Nat
  power_state : String
  connection_state : String
  vendor : String
  model : String
  esxi_version : String
  esxi_build : String
  cpu_model : String
  cpu_cores : Nat
  cpu_threads : Nat
  cpu_sockets : Nat
  cpu_frequency : Nat
  memory_total : Nat
  vm_count : Nat
  cpu_usage : ℚ
  memory_usage : ℚ
  in_maintenance : Bool
  deriving DecidableEq, Repr

/-- What `parse_host_info` returns. -/
abbrev HostData := Record HostColumns

/-- `cpu_usage` of `parse_host_info`. -/
def host_cpu_usage (stats : Option QuickStats) (cpu : Option CpuInfo) : Read ℚ :=
  match stats, cpu with
  | some stats, some cpu =>
      if nonzero stats.overallCpuUsage && cpu.hz ≠ 0 then do
        return (← divide (stats.overallCpuUsage.getD 0) ((cpu.hz : ℚ) / 1000000)) * 100
      else pure 0
  | _, _ => pure 0

/-- `memory_usage` of `parse_host_info`. -/
def host_memory_usage (stats : Option QuickStats) (hardware : Option HardwareSummary) : Read ℚ :=
  match stats, hardware with
  | some stats, some hardware =>
      if nonzero stats.memoryUsage && hardware.memorySize ≠ 0 then do
        return (← divide (stats.memoryUsage.getD 0) ((hardware.memorySize : ℚ) / (1024 * 1024))) * 100
      else pure 0
  | _, _ => pure 0

/-- `status` of `parse_host_info`. -/
def host_status (connection_state : String) (maintenance : Bool) : Nat :=
  if connection_state = "connected" then if maintenance then 2 else 1
  else if connection_state = "disconnected" then 0
  else 5

def parse_host_info (host : HostSystem) : Read HostData := do
  let name ← host.name
  let hardware ← host.hardware
  let runtime ← host.runtime
  let summary ← host.summary
  let config ← host.config
  let hardware_info := summary.bind (·.hardware)
  let connection_state := (runtime.map (·.connectionState)).getD "unknown"
  let in_maintenance := (runtime.map (·.inMaintenanceMode)).getD false
  let quick_stats := summary.bind (·.quickStats)
  let cluster_name ← host.parent.cluster_name
  let datacenter_name ← host.parent.datacenter_name
  let product := config.bind (·.product)
  let vm ← host.vm
  let cpu_usage ← host_cpu_usage quick_stats hardware
  let memory_usage ← host_memory_usage quick_stats hardware_info
  return {
    uuid := (hardware_info.map (·.uuid)).getD ""
    name
    mo_ref := host.moId
    columns := {
      hostname := (config.bind (·.dnsHostName)).getD name
      ip_address := name
      cluster_name
      datacenter_name
      status := host_status connection_state in_maintenance
      power_state := (runtime.map (·.powerState)).getD "unknown"
      connection_state
      vendor := (hardware_info.map (·.vendor)).getD ""
      model := (hardware_info.map (·.model)).getD ""
      esxi_version := (product.map (·.1)).getD ""
      esxi_build := (product.map (·.2)).getD ""
      cpu_model := (hardware_info.map (·.cpuModel)).getD ""
      cpu_cores := (hardware.map (·.numCpuCores)).getD 0
      cpu_threads := (hardware.map (·.numCpuThreads)).getD 0
      cpu_sockets := (hardware_info.map (·.numCpuPkgs)).getD 0
      cpu_frequency := (hardware.map (·.hz / 1000000)).getD 0
      memory_total := (hardware_info.map (·.memorySize / (1024 * 1024))).getD 0
      vm_count := vm.length
      cpu_usage
      memory_usage
      in_maintenance } }

/-! ### Virtual machines -/

inductive Device where
  | ethernetCard (macAddress : String)
  | disk (capacityInKB : Nat)
  | other
  deriving DecidableEq, Repr

structure Hardware where
  numCPU : Nat
  numCoresPerSocket : Nat
  memoryMB : Nat
  device : List Device
  deriving DecidableEq, Repr

/-- `vm.config`. -/
structure VMConfig where
  name : String
  uuid : String
  instanceUuid : String
  guestFullName : String
  guestId : Option String
  version : String
  template : Bool
  hardware : Option Hardware
  deriving DecidableEq, Repr

/-- A snapshot with its `childSnapshotList`. -/
inductive SnapshotTree where
  | node (childSnapshotList : List SnapshotTree)

/-- `runtime.host`. -/
structure HostRef where
  name : Read String
  parent : Parent

structure VMRuntime where
  powerState : String
  connectionState : String
  host : Option HostRef
  bootTime : Option String

structure GuestInfo where
  toolsStatus : Option String
  toolsVersion : Option String
  guestState : Option String
  ipAddress : Option String
  hostName : Option String
  deriving DecidableEq, Repr

/-- `vim.VirtualMachine`. -/
structure VirtualMachineObject where
  moId : String
  name : Read String
  /-- the name, as an `except` branch reads it -/
  nameLogged : Read String
  config : Read (Option VMConfig)
  runtime : Read (Option VMRuntime)
  /-- `summary`, of which only `quickStats` is used -/
  summary : Read (Option QuickStats)
  guest : Read (Option GuestInfo)
  parent : Parent
  /-- `snapshot`, its `rootSnapshotList` -/
  snapshot : Read (Option (List SnapshotTree))
  /-- the name of `resourcePool` -/
  resourcePool : Read (Option String)

/-- The columns of `VirtualMachine` that a sync writes beside the keys and the host. -/
structure VMColumns where
  display_name : String
  instance_uuid : String
  cluster_name : String
  datacenter_name : String
  resource_pool : String
  folder : String
  status : Nat
  power_state : String
  connection_state : String
  os_type : String
  os_full_name : String
  guest_id : Option String
  guest_state : String
  tools_status : String
  tools_version : String
  cpu_count : Nat
  cpu_cores_per_socket : Nat
  memory_mb : Nat
  hardware_version : String
  ip_address : Option String
  mac_address : String
  hostname : String
  disk_count : Nat
  total_disk_gb : Nat
  cpu_usage_percent : ℚ
  memory_usage_percent : ℚ
  has_snapshots : Bool
  snapshot_count : Nat
  is_template : Bool
  boot_time : Option String
  deriving DecidableEq, Repr

/-- What `parse_vm_info` returns. -/
structure VMData extends Record VMColumns where
  host_name : String
  deriving DecidableEq, Repr

/-- `sub in s`. -/
def isIn (sub s : String) : Bool := sub.toList <:+: s.toList

/-- `os_type`, from the lower-case `guest_id`. -/
def infer_os_type (guest_lower : String) : String :=
  if isIn "win" guest_lower then "windows"
  else if isIn "centos" guest_lower then "centos"
  else if isIn "ubuntu" guest_lower then "ubuntu"
  else if isIn "debian" guest_lower then "debian"
  else if isIn "rhel" guest_lower || isIn "redhat" guest_lower then "redhat"
  else if isIn "linux" guest_lower then "linux"
  else "other"

/-- `status_map.get(power_state, 0)`. -/
def vm_status (power_state : String) : Nat :=
  if power_state = "poweredOn" then 1
  else if power_state = "poweredOff" then 2
  else if power_state = "suspended" then 3
  else 0

/-- The address of the first network card. -/
def mac_address : List Device → String
  | [] => ""
  | .ethernetCard mac :: _ => mac
  | .disk _ :: devices | .other :: devices => mac_address devices

/-- The loop over the disks: `disk_count` and `total_disk_gb`. -/
def disk_totals : List Device → Nat × Nat
  | [] => (0, 0)
  | .disk kb :: devices =>
      let r := disk_totals devices
      (r.1 + 1, r.2 + kb / (1024 * 1024))
  | .ethernetCard _ :: devices | .other :: devices => disk_totals devices

/-- `cpu_usage_percent` of `parse_vm_info`. -/
def vm_cpu_usage (stats : Option QuickStats) (hardware : Option Hardware) : Read ℚ :=
  match stats, hardware with
  | some stats, some hardware =>
      if nonzero stats.overallCpuUsage then
        divide (stats.overallCpuUsage.getD 0) (hardware.numCPU * 100)
      else pure 0
  | _, _ => pure 0

/-- `memory_usage_percent` of `parse_vm_info`. -/
def vm_memory_usage (stats : Option QuickStats) (hardware : Option Hardware) : Read ℚ :=
  match stats, hardware with
  | some stats, some hardware =>
      if nonzero stats.memoryUsage then do
        return (← divide (stats.memoryUsage.getD 0) hardware.memoryMB) * 100
      else pure 0
  | _, _ => pure 0

/-- `value if value else default`, for a text. -/
def orText (default : String) : Option String → String
  | some s => if s = "" then default else s
  | none => default

/-- The host of a virtual machine: its name and the name of its cluster. -/
def vm_host (runtime : Option VMRuntime) : Read (String × String) :=
  match runtime.bind (·.host) with
  | some host => do return (← host.name, ← host.parent.cluster_name)
  | none => pure ("", "")

/-- `parse_vm_info`; `none` is its `return None`. -/
def parse_vm_info (vm : VirtualMachineObject) : Read (Option VMData) := do
  let name ← vm.name
  let config ← vm.config
  let runtime ← vm.runtime
  let quick_stats ← vm.summary
  let guest ← vm.guest
  match config with
  | none => return none
  | some config => do
      let power_state := (runtime.map (·.powerState)).getD "poweredOff"
      let (host_name, cluster_name) ← vm_host runtime
      let datacenter_name ← vm.parent.datacenter_name
      let devices := (config.hardware.map (·.device)).getD []
      let disks := disk_totals devices
      let snapshot ← vm.snapshot
      let resource_pool ← vm.resourcePool
      let folder ← vm.parent.name
      let cpu_usage_percent ← vm_cpu_usage quick_stats config.hardware
      let memory_usage_percent ← vm_memory_usage quick_stats config.hardware
      return some {
        uuid := config.uuid
        name
        mo_ref := vm.moId
        host_name
        columns := {
          display_name := config.name
          instance_uuid := config.instanceUuid
          cluster_name
          datacenter_name
          resource_pool := resource_pool.getD ""
          folder
          status := vm_status power_state
          power_state
          connection_state := (runtime.map (·.connectionState)).getD ""
          os_type := infer_os_type ((config.guestId.getD "").map Char.toLower)
          os_full_name := config.guestFullName
          guest_id := config.guestId
          guest_state := (guest.map (str ·.guestState)).getD ""
          tools_status := (guest.map (str ·.toolsStatus)).getD ""
          tools_version := (guest.map (str ·.toolsVersion)).getD ""
          cpu_count := (config.hardware.map (·.numCPU)).getD 1
          cpu_cores_per_socket := (config.hardware.map (·.numCoresPerSocket)).getD 1
          memory_mb := (config.hardware.map (·.memoryMB)).getD 1024
          hardware_version := config.version
          ip_address := (guest.bind (·.ipAddress)).filter (· ≠ "")
          mac_address := mac_address devices
          hostname := orText "" (guest.bind (·.hostName))
          disk_count := disks.1
          total_disk_gb := disks.2
          cpu_usage_percent
          memory_usage_percent
          has_snapshots := snapshot.isSome
          snapshot_count := (snapshot.map (·.length)).getD 0
          is_template := config.template
          boot_time := runtime.bind (·.bootTime) } }

/-! ### Objects by their keys -/

/-- The object is known to be a template. -/
def VirtualMachineObject.template (vm : VirtualMachineObject) : Bool :=
  match vm.config with
  | .ok (some config) => config.template
  | .ok none | .error _ => false

/-- `config.uuid`, if it can be read. -/
def VirtualMachineObject.uuid (vm : VirtualMachineObject) : Option String :=
  match vm.config with
  | .ok (some config) => some config.uuid
  | .ok none | .error _ => none

theorem read_bind_ok {α β : Type} {x : Read α} {f : α → Read β} {b : β} :
    (x >>= f) = .ok b ↔ ∃ a, x = .ok a ∧ f a = .ok b := by
  cases x with
  | error e =>
      constructor
      · intro h
        cases h
      · rintro ⟨a, h, -⟩
        cases h
  | ok a =>
      constructor
      · intro h
        exact ⟨a, rfl, h⟩
      · rintro ⟨_, h, h'⟩
        cases h
        exact h'

/-- What the record of a host was read from. -/
structure HostRead (host : HostSystem) (d : HostData) : Prop where
  name : host.name = .ok d.name
  mo_ref : d.mo_ref = host.moId
  usage : ∃ hardware summary, host.hardware = .ok hardware ∧ host.summary = .ok summary ∧
    host_cpu_usage (summary.bind (·.quickStats)) hardware = .ok d.columns.cpu_usage ∧
    host_memory_usage (summary.bind (·.quickStats)) (summary.bind (·.hardware)) =
      .ok d.columns.memory_usage

theorem parse_host_info_read {host : HostSystem} {d : HostData} (h : parse_host_info host = .ok d) :
    HostRead host d := by
  unfold parse_host_info at h
  obtain ⟨name, hname, h⟩ := read_bind_ok.mp h
  obtain ⟨hardware, hhardware, h⟩ := read_bind_ok.mp h
  obtain ⟨runtime, -, h⟩ := read_bind_ok.mp h
  obtain ⟨summary, hsummary, h⟩ := read_bind_ok.mp h
  obtain ⟨config, -, h⟩ := read_bind_ok.mp h
  obtain ⟨cluster_name, -, h⟩ := read_bind_ok.mp h
  obtain ⟨datacenter_name, -, h⟩ := read_bind_ok.mp h
  obtain ⟨vm, -, h⟩ := read_bind_ok.mp h
  obtain ⟨cpu, hcpu, h⟩ := read_bind_ok.mp h
  obtain ⟨memory, hmemory, h⟩ := read_bind_ok.mp h
  cases h
  exact ⟨hname, rfl, hardware, summary, hhardware, hsummary, hcpu, hmemory⟩

/-- What the record of a machine was read from. -/
structure VMRead (vm : VirtualMachineObject) (d : VMData) (config : VMConfig)
    (snapshot : Option (List SnapshotTree)) : Prop where
  name : vm.name = .ok d.name
  mo_ref : d.mo_ref = vm.moId
  of_config : vm.config = .ok (some config)
  uuid : d.uuid = config.uuid
  is_template : d.columns.is_template = config.template
  disks : (d.columns.disk_count, d.columns.total_disk_gb) =
    disk_totals ((config.hardware.map (·.device)).getD [])
  of_snapshot : vm.snapshot = .ok snapshot
  snapshot_count : d.columns.snapshot_count = (snapshot.map (·.length)).getD 0
  has_snapshots : d.columns.has_snapshots = snapshot.isSome
  usage : ∃ stats, vm.summary = .ok stats ∧
    vm_cpu_usage stats config.hardware = .ok d.columns.cpu_usage_percent ∧
    vm_memory_usage stats config.hardware = .ok d.columns.memory_usage_percent

theorem parse_vm_info_read {vm : VirtualMachineObject} {d : VMData}
    (h : parse_vm_info vm = .ok (some d)) : ∃ config snapshot, VMRead vm d config snapshot := by
  unfold parse_vm_info at h
  obtain ⟨name, hname, h⟩ := read_bind_ok.mp h
  obtain ⟨config, hconfig, h⟩ := read_bind_ok.mp h
  obtain ⟨runtime, -, h⟩ := read_bind_ok.mp h
  obtain ⟨stats, hstats, h⟩ := read_bind_ok.mp h
  obtain ⟨guest, -, h⟩ := read_bind_ok.mp h
  cases config with
  | none => cases h
  | some config =>
      obtain ⟨⟨host_name, cluster_name⟩, -, h⟩ := read_bind_ok.mp h
      obtain ⟨datacenter_name, -, h⟩ := read_bind_ok.mp h
      obtain ⟨snapshot, hsnapshot, h⟩ := read_bind_ok.mp h
      obtain ⟨resource_pool, -, h⟩ := read_bind_ok.mp h
      obtain ⟨folder, -, h⟩ := read_bind_ok.mp h
      obtain ⟨cpu, hcpu, h⟩ := read_bind_ok.mp h
      obtain ⟨memory, hmemory, h⟩ := read_bind_ok.mp h
      cases h
      exact ⟨config, snapshot, hname, rfl, hconfig, rfl, rfl, rfl, hsnapshot, rfl, rfl, stats, hstats,
        hcpu, hmemory⟩

/-- The keys of the record are those of the object. -/
theorem parse_vm_info_ok {vm : VirtualMachineObject} {d : VMData}
    (h : parse_vm_info vm = .ok (some d)) :
    vm.name = .ok d.name ∧ vm.uuid = some d.uuid ∧ vm.template = d.columns.is_template ∧
      d.mo_ref = vm.moId := by
  obtain ⟨config, snapshot, hread⟩ := parse_vm_info_read h
  refine ⟨hread.name, ?_, ?_, hread.mo_ref⟩
  · rw [VirtualMachineObject.uuid, hread.of_config, hread.uuid]
  · rw [VirtualMachineObject.template, hread.of_config, hread.is_template]

end InfraHub.Virt
