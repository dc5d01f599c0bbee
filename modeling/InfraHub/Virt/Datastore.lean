import InfraHub.Virt.Sync
import InfraHub.Lib.Table
import Mathlib.Data.Finset.Empty
import Mathlib.Data.Finset.Dedup
import Mathlib.Algebra.Order.Field.Basic
import Mathlib.Algebra.Order.Ring.Unbundled.Rat

/-!
# Virt — Datastore

`sync_datastores` of `tasks.py`, with `parse_datastore_info` and `sync_datastore_to_db`.

A data store is known by its name, and linked to the hosts of the platform whose names it lists.
-/

namespace InfraHub.Virt
open InfraHub.Lib (Prog)
open InfraHub.Lib.Prog (attempt update read lift forEach)

/-! ### `utils/data_parser.py` -/

/-- `vim.Datastore.Summary`. -/
structure DatastoreSummary where
  type : Option String
  accessible : Bool
  capacity : Option Nat
  freeSpace : Option Nat
  uncommitted : Option Nat
  url : String
  maintenanceMode : Option String
  multipleHostAccess : Option Bool
  deriving DecidableEq, Repr

inductive DatastoreInfo where
  /-- a `NasDatastoreInfo`, with the `remoteHost` and the `remotePath` of its `nas` -/
  | nas (nas : Option (String × String))
  | other
  deriving DecidableEq, Repr

/-- `vim.Datastore`. -/
structure DatastoreObject where
  moId : String
  name : Read String
  /-- the name, as an `except` branch reads it -/
  nameLogged : Read String
  summary : Read (Option DatastoreSummary)
  info : Read DatastoreInfo
  /-- the identifiers of its virtual machines -/
  vm : Read (List String)
  parent : Parent
  /-- `host`: the names of the `key`s that are there -/
  host : Read (List (Option (Read String)))

/-- The columns of `DataStore` that a sync writes beside the keys. -/
structure DataStoreColumns where
  mo_ref : String
  url : String
  datastore_type : String
  access_mode : String
  datacenter_name : String
  cluster_name : String
  capacity_gb : Nat
  free_gb : Nat
  uncommitted_gb : Nat
  vm_count : Nat
  usage_percent : ℚ
  nfs_server : String
  nfs_path : String
  is_accessible : Bool
  is_maintenance : Bool
  multiple_host_access : Option Bool
  deriving DecidableEq, Repr

/-- What `parse_datastore_info` returns. -/
structure DataStoreData where
  name : String
  columns : DataStoreColumns
  host_names : List String
  deriving DecidableEq, Repr

/-- The names of the mounts whose `key` is there. -/
def mounted_names : List (Option (Read String)) → Read (List String)
  | [] => return []
  | none :: host => mounted_names host
  | some name :: host => return (← name) :: (← mounted_names host)

/-- `type_map.get(ds_type, "vmfs")`; only these names change nothing when they are lowered. -/
def datastore_type (type : String) : String :=
  if type.toLower ∈ ["vmfs", "nfs", "nfs41", "vsan", "vvol"] then type.toLower else "vmfs"

/-- `value // (1024**3)`, or `0` for no value. -/
def in_gb (value : Option Nat) : Nat := value.getD 0 / 1024 ^ 3

/-- `min(usage_percent, 100)` -/
def store_usage (capacity_gb free_gb : Nat) : ℚ :=
  if 0 < capacity_gb then min (((capacity_gb : ℚ) - free_gb) / capacity_gb * 100) 100 else 0

def parse_datastore_info (datastore : DatastoreObject) : Read DataStoreData := do
  let name ← datastore.name
  let summary ← datastore.summary
  let info ← datastore.info
  let capacity_gb := in_gb (summary.bind (·.capacity))
  let free_gb := in_gb (summary.bind (·.freeSpace))
  let vm ← datastore.vm
  let nas :=
    match info with
    | .nas (some nas) => nas
    | .nas none | .other => ("", "")
  let datacenter_name ← datastore.parent.datacenter_name
  let host_names ← mounted_names (← datastore.host)
  return {
    name
    columns := {
      mo_ref := datastore.moId
      url := (summary.map (·.url)).getD ""
      datastore_type := datastore_type ((summary.bind (·.type)).getD "unknown")
      access_mode := if (summary.map (·.accessible)).getD true then "readOnly" else "readWrite"
      datacenter_name
      cluster_name := ""
      capacity_gb
      free_gb
      uncommitted_gb := in_gb (summary.bind (·.uncommitted))
      vm_count := vm.length
      usage_percent := store_usage capacity_gb free_gb
      nfs_server := nas.1
      nfs_path := nas.2
      is_accessible := (summary.map (·.accessible)).getD true
      is_maintenance := (summary.bind (·.maintenanceMode)).any (· ∉ ["", "normal"])
      multiple_host_access := (summary.map (·.multipleHostAccess)).getD (some true) }
    host_names }

/-- What the record of a data store was read from. -/
structure StoreRead (datastore : DatastoreObject) (ds_data : DataStoreData)
    (summary : Option DatastoreSummary) (host : List (Option (Read String))) : Prop where
  of_summary : datastore.summary = .ok summary
  of_host : datastore.host = .ok host
  host_names : mounted_names host = .ok ds_data.host_names
  usage : ds_data.columns.usage_percent =
    store_usage (in_gb (summary.bind (·.capacity))) (in_gb (summary.bind (·.freeSpace)))

theorem parse_datastore_info_read {datastore : DatastoreObject} {ds_data : DataStoreData}
    (h : parse_datastore_info datastore = .ok ds_data) :
    ∃ summary host, StoreRead datastore ds_data summary host := by
  unfold parse_datastore_info at h
  obtain ⟨name, -, h⟩ := read_bind_ok.mp h
  obtain ⟨summary, hsummary, h⟩ := read_bind_ok.mp h
  obtain ⟨info, -, h⟩ := read_bind_ok.mp h
  obtain ⟨vm, -, h⟩ := read_bind_ok.mp h
  obtain ⟨datacenter_name, -, h⟩ := read_bind_ok.mp h
  obtain ⟨host, hhost, h⟩ := read_bind_ok.mp h
  obtain ⟨names, hnames, h⟩ := read_bind_ok.mp h
  cases h
  exact ⟨summary, host, hsummary, hhost, hnames, rfl⟩

/-! ### The table -/

/-- A row of `DataStore`, with its `hosts`. -/
structure DataStore where
  platform : Nat
  name : String
  columns : DataStoreColumns
  is_active : Bool
  /-- the primary keys of the hosts -/
  hosts : Finset Nat
  deriving DecidableEq

/-- `unique_together` -/
def DataStore.key (row : DataStore) : Nat × String := (row.platform, row.name)

abbrev DataStoreTable := Lib.Table (Nat × String) DataStore DataStore.key

/-- `update_or_create(platform=…, name=…, defaults=…)`; `fault` is what the database raises for the
values of the other columns. -/
def DataStoreTable.update_or_create (fault : DataStoreData → Option Fault) (platform : Nat)
    (d : DataStoreData) (t : DataStoreTable) : Except Fault DataStoreTable :=
  match fault d, t.get (platform, d.name) with
  | some e, _ => .error e
  | none, some _ =>
      .ok (t.modify (platform, d.name)
        (fun row => { row with columns := d.columns, is_active := true }) fun _ => rfl)
  | none, none => .ok (t.insert ⟨platform, d.name, d.columns, true, ∅⟩)

/-- `Host.objects.filter(platform=platform, name__in=names)`, its primary keys. -/
def hosts_named (hosts : Table HostColumns) (platform : Nat) (names : List String) : Finset Nat :=
  ((hosts.rows.filter fun h => h.platform = platform && h.name ∈ names).map Row.id).toFinset

/-! ### `utils/sync_data.py`, `tasks.py` -/

/-- The tables and the local variables of `sync_datastores`. -/
structure StoreWalk where
  db : VirtDb
  datastores : DataStoreTable
  /-- `datastore_names` -/
  names : List String
  synced_count : Nat
  failed_count : Nat

abbrev StoreSync (α : Type) := Prog StoreWalk Fault α

section
variable (fault : DataStoreData → Option Fault) (platform : Nat)

/-- The row. -/
def write_datastore (ds_data : DataStoreData) : StoreSync Unit := do
  let datastores ← read (·.datastores)
  let datastores ← lift (DataStoreTable.update_or_create fault platform ds_data datastores)
  update fun s => { s with datastores }

/-- `datastore.hosts.set(hosts)`, if there are names. -/
def link_hosts (ds_data : DataStoreData) : StoreSync Unit :=
  if ds_data.host_names = [] then pure ()
  else update fun s =>
    let hosts := hosts_named s.db.hosts platform ds_data.host_names
    let datastores := s.datastores.modify (platform, ds_data.name)
      (fun row => { row with hosts }) fun _ => rfl
    { s with datastores }

def sync_datastore_to_db (ds_data : DataStoreData) : StoreSync Unit := do
  write_datastore fault platform ds_data
  link_hosts platform ds_data

/-- `except Exception as e:` of the loop. -/
def count_store_failure (nameLogged : Read String) : StoreSync Unit := do
  let _ ← lift nameLogged
  update fun s => { s with failed_count := s.failed_count + 1 }

/-- The body of the loop of `sync_datastores`. -/
def visit_datastore (datastore : DatastoreObject) : StoreSync Unit :=
  attempt
    (do
      let ds_data ← lift (parse_datastore_info datastore)
      update fun s => { s with names := s.names ++ [ds_data.name] }
      sync_datastore_to_db fault platform ds_data
      update fun s => { s with synced_count := s.synced_count + 1 })
    fun _ => count_store_failure datastore.nameLogged

/-- `filter(platform=platform, is_active=True).exclude(name__in=datastore_names).update(…)`. -/
def deactivate_datastores (names : List String) (t : DataStoreTable) : DataStoreTable :=
  t.map
    (fun row =>
      if row.platform = platform ∧ row.name ∉ names then { row with is_active := false } else row)
    fun row => by split <;> rfl

/-- `sync_datastores`; `fetched` is what connecting and `client.get_datastores()` come to. -/
def sync_datastores (fetched : Except Fault (List DatastoreObject)) : StoreSync TaskResult := do
  let found ← read (·.db.has_platform platform)
  if !found then return .failure "平台不存在或未启用"
  else do
    let datastores ← lift fetched
    forEach (visit_datastore fault platform) datastores
    update fun s =>
      { s with datastores := deactivate_datastores platform s.names s.datastores }
    read fun s => .success s.synced_count s.failed_count

end

/-- `sync_datastores` before its first line. -/
def StoreWalk.start (db : VirtDb) (datastores : DataStoreTable) : StoreWalk :=
  ⟨db, datastores, [], 0, 0⟩

end InfraHub.Virt
