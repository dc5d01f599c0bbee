import InfraHub.Virt.Datastore
import Mathlib.Data.Finset.Insert

/-!
# Virt — Mounts

The hosts of a data store after it was written.

`sync_datastore_to_db` sets the association only where vSphere names a host.  A data store that no host
mounts keeps the hosts it had (`hosts_follow_iff`).
-/

namespace InfraHub.Virt
open InfraHub.Lib (Prog)
open InfraHub.Lib.Prog (exec)

variable {fault : DataStoreData → Option Fault} {platform : Nat} {datastore : DatastoreObject}
  {ds_data : DataStoreData} {s s' : StoreWalk}

/-! ### The statement -/

/-- A host of this name mounts the data store. -/
def DatastoreObject.Mounts (datastore : DatastoreObject) (name : String) : Prop :=
  ∃ host, datastore.host = .ok host ∧ some (.ok name) ∈ host

/-- **The association follows vSphere**: the row has the hosts of the platform that mount the data store,
and the other rows are as they were. -/
structure Follows (platform : Nat) (datastore : DatastoreObject) (name : String) (s s' : StoreWalk) : Prop where
  hosts : ∃ row, s'.datastores.get (platform, name) = some row ∧ ∀ id, id ∈ row.hosts ↔
    ∃ h ∈ s'.db.hosts.rows, h.id = id ∧ h.platform = platform ∧ datastore.Mounts h.name
  others : ∀ key, key ≠ (platform, name) → s'.datastores.get key = s.datastores.get key

/-- The hosts the row had, if there was one. -/
def StoreWalk.hosts_before (s : StoreWalk) (key : Nat × String) : Finset Nat :=
  ((s.datastores.get key).map DataStore.hosts).getD ∅

/-! ### Names -/

theorem mem_mounted_names {host : List (Option (Read String))} {names : List String}
    (h : mounted_names host = .ok names) {name : String} : name ∈ names ↔ some (.ok name) ∈ host := by
  induction host generalizing names with
  | nil =>
      cases h
      simp
  | cons mount host ih =>
      cases mount with
      | none =>
          rw [ih h]
          simp
      | some first =>
          rw [mounted_names] at h
          obtain ⟨value, rfl, hvalue⟩ := read_bind_ok.mp h
          obtain ⟨rest, hrest, hdone⟩ := read_bind_ok.mp hvalue
          cases hdone
          rw [List.mem_cons, List.mem_cons, ih hrest]
          simp

/-- The names of the record are those of the hosts that mount the data store. -/
theorem mem_host_names (h : parse_datastore_info datastore = .ok ds_data) {name : String} :
    name ∈ ds_data.host_names ↔ datastore.Mounts name := by
  obtain ⟨_, host, hread⟩ := parse_datastore_info_read h
  have hhost := hread.of_host
  rw [mem_mounted_names hread.host_names]
  constructor
  · exact fun hmem => ⟨host, hhost, hmem⟩
  · rintro ⟨host', hhost', hmem⟩
    rw [hhost] at hhost'
    cases hhost'
    exact hmem

theorem mem_hosts_named {hosts : Table HostColumns} {names : List String} {id : Nat} :
    id ∈ hosts_named hosts platform names ↔
      ∃ h ∈ hosts.rows, h.id = id ∧ h.platform = platform ∧ h.name ∈ names := by
  simp only [hosts_named, List.mem_toFinset, List.mem_map, List.mem_filter, Bool.and_eq_true,
    decide_eq_true_eq]
  constructor
  · rintro ⟨h, ⟨hmem, hp, hname⟩, hid⟩
    exact ⟨h, hmem, hid, hp, hname⟩
  · rintro ⟨h, hmem, hid, hp, hname⟩
    exact ⟨h, ⟨hmem, hp, hname⟩, hid⟩

/-! ### The two writes -/

/-- The row that is found or created has the hosts from before. -/
theorem hosts_of_update_or_create {t t' : DataStoreTable}
    (h : DataStoreTable.update_or_create fault platform ds_data t = .ok t') :
    (∃ row, t'.get (platform, ds_data.name) = some row ∧
      row.hosts = ((t.get (platform, ds_data.name)).map DataStore.hosts).getD ∅) ∧
    ∀ key, key ≠ (platform, ds_data.name) → t'.get key = t.get key := by
  unfold DataStoreTable.update_or_create at h
  split at h
  · cases h
  · next hrow =>
    cases h
    exact ⟨⟨_, Lib.Table.get_modify_self hrow
        (fun row => { row with columns := ds_data.columns, is_active := true }) fun _ => rfl,
      by rw [hrow]; rfl⟩, fun key hkey => Lib.Table.get_modify_ne _ _ _ hkey⟩
  · next hnone =>
    cases h
    exact ⟨⟨_, Lib.Table.get_insert_self hnone, by rw [hnone]; rfl⟩,
      fun key hkey => Lib.Table.get_insert_ne _ hkey⟩

/-- **What `sync_datastore_to_db` leaves**: the row has the hosts of the names, or those from before where
there are no names. -/
theorem sync_datastore_to_db_ok (h : exec (sync_datastore_to_db fault platform ds_data) s = (.ok (), s')) :
    s'.db = s.db ∧
    (∃ row, s'.datastores.get (platform, ds_data.name) = some row ∧ row.hosts =
      if ds_data.host_names = [] then s.hosts_before (platform, ds_data.name)
      else hosts_named s.db.hosts platform ds_data.host_names) ∧
    ∀ key, key ≠ (platform, ds_data.name) → s'.datastores.get key = s.datastores.get key := by
  obtain ⟨_, t, hwrite, hlink⟩ := Prog.exec_bind_ok.mp h
  obtain ⟨datastores, _, hread, hwrite⟩ := Prog.exec_bind_ok.mp hwrite
  cases hread
  obtain ⟨datastores, _, hlift, hwrite⟩ := Prog.exec_bind_ok.mp hwrite
  cases hupsert : DataStoreTable.update_or_create fault platform ds_data s.datastores with
  | error e =>
      rw [hupsert] at hlift
      cases hlift
  | ok t' =>
      rw [hupsert] at hlift
      cases hlift
      cases hwrite
      obtain ⟨⟨row, hrow, hhosts⟩, hothers⟩ := hosts_of_update_or_create hupsert
      unfold link_hosts at hlink
      split_ifs at hlink ⊢ with hnames
      · cases hlink
        exact ⟨rfl, ⟨row, hrow, hhosts⟩, hothers⟩
      · cases hlink
        let link (row : DataStore) : DataStore :=
          { row with hosts := hosts_named s.db.hosts platform ds_data.host_names }
        refine ⟨rfl, ⟨_, Lib.Table.get_modify_self hrow link fun _ => rfl, rfl⟩, fun key hkey => ?_⟩
        rw [← hothers key hkey]
        exact Lib.Table.get_modify_ne _ link (fun _ => rfl) hkey

/-! ### The exact condition -/

/-- **The association follows vSphere** if and only if some host mounts the data store, or it had none. -/
theorem hosts_follow_iff (hparse : parse_datastore_info datastore = .ok ds_data)
    (h : exec (sync_datastore_to_db fault platform ds_data) s = (.ok (), s')) :
    Follows platform datastore ds_data.name s s' ↔
      (∃ name, datastore.Mounts name) ∨ s.hosts_before (platform, ds_data.name) = ∅ := by
  obtain ⟨hdb, ⟨row, hrow, hhosts⟩, hothers⟩ := sync_datastore_to_db_ok h
  have hnamed (id : Nat) : id ∈ hosts_named s.db.hosts platform ds_data.host_names ↔
      ∃ h ∈ s'.db.hosts.rows, h.id = id ∧ h.platform = platform ∧ datastore.Mounts h.name := by
    simp only [mem_hosts_named, mem_host_names hparse, hdb]
  by_cases hnames : ds_data.host_names = []
  · rw [if_pos hnames] at hhosts
    have hnone : ∀ name, ¬ datastore.Mounts name := by
      intro name hname
      rw [← mem_host_names hparse, hnames] at hname
      exact absurd hname List.not_mem_nil
    have hempty (id : Nat) : ¬ ∃ h ∈ s'.db.hosts.rows, h.id = id ∧ h.platform = platform ∧
        datastore.Mounts h.name := by
      rintro ⟨h, -, -, -, hname⟩
      exact hnone _ hname
    constructor
    · rintro ⟨⟨row', hrow', hids⟩, -⟩
      obtain rfl := Option.some.inj (hrow.symm.trans hrow')
      refine .inr (hhosts ▸ Finset.eq_empty_of_forall_notMem fun id hid => ?_)
      exact hempty id ((hids id).mp hid)
    · rintro (⟨name, hname⟩ | hbefore)
      · exact absurd hname (hnone name)
      · refine ⟨⟨row, hrow, fun id => iff_of_false ?_ (hempty id)⟩, hothers⟩
        rw [hhosts, hbefore]
        exact Finset.notMem_empty id
  · rw [if_neg hnames] at hhosts
    obtain ⟨name, hname⟩ := List.exists_mem_of_ne_nil _ hnames
    refine iff_of_true ⟨⟨row, hrow, fun id => ?_⟩, hothers⟩ (.inl ⟨name, (mem_host_names hparse).mp hname⟩)
    rw [hhosts, hnamed]

/-! ### A data store that is unmounted -/

/-- The data store `ds1`, mounted by the hosts of these names. -/
def sampleDatastore (names : List String) : DatastoreObject where
  moId := "datastore-1"
  name := .ok "ds1"
  nameLogged := .ok "ds1"
  summary := .ok none
  info := .ok .other
  vm := .ok []
  parent := .none
  host := .ok (names.map fun name => some (.ok name))

def sampleHostColumns : HostColumns where
  hostname := "esx1"
  ip_address := "esx1"
  cluster_name := ""
  datacenter_name := ""
  status := 1
  power_state := "poweredOn"
  connection_state := "connected"
  vendor := ""
  model := ""
  esxi_version := ""
  esxi_build := ""
  cpu_model := ""
  cpu_cores := 0
  cpu_threads := 0
  cpu_sockets := 0
  cpu_frequency := 0
  memory_total := 0
  vm_count := 0
  cpu_usage := 0
  memory_usage := 0
  in_maintenance := false

/-- Platform 1 with the host `esx1`. -/
def sampleHosts : VirtDb :=
  { sampleDb with
    hosts := ⟨[⟨7, 1, some "u1", "esx1", some "host-1", true, sampleHostColumns⟩], by decide⟩ }

/-- What is parsed of it. -/
def sampleStoreColumns : DataStoreColumns where
  mo_ref := "datastore-1"
  url := ""
  datastore_type := datastore_type "unknown"
  access_mode := "readOnly"
  datacenter_name := ""
  cluster_name := ""
  capacity_gb := 0
  free_gb := 0
  uncommitted_gb := 0
  vm_count := 0
  usage_percent := 0
  nfs_server := ""
  nfs_path := ""
  is_accessible := true
  is_maintenance := false
  multiple_host_access := some true

/-- The row of `ds1`, linked to these hosts. -/
def sampleStores (hosts : Finset Nat) : DataStoreTable :=
  Lib.Table.insert .empty ⟨1, "ds1", sampleStoreColumns, true, hosts⟩

theorem hosts_follow_iff_mounted : ∃ s',
    exec (sync_datastore_to_db (fun _ => none) 1 ⟨"ds1", sampleStoreColumns, ["esx1"]⟩)
      (StoreWalk.start sampleHosts .empty) = (.ok (), s') ∧
    Follows 1 (sampleDatastore ["esx1"]) "ds1" (StoreWalk.start sampleHosts .empty) s' := by
  have hparse : parse_datastore_info (sampleDatastore ["esx1"]) =
    .ok ⟨"ds1", sampleStoreColumns, ["esx1"]⟩ := rfl
  have hsync : exec (sync_datastore_to_db (fun _ => none) 1 ⟨"ds1", sampleStoreColumns, ["esx1"]⟩)
    (StoreWalk.start sampleHosts .empty) = (.ok (), _) := rfl
  refine ⟨_, hsync, (hosts_follow_iff hparse hsync).mpr (.inl ⟨"esx1", _, rfl, ?_⟩)⟩
  exact List.mem_cons_self

/-- **A data store that no host mounts any more keeps its hosts.** -/
theorem unmounted_store_keeps_hosts :
    parse_datastore_info (sampleDatastore []) = .ok ⟨"ds1", sampleStoreColumns, []⟩ ∧ ∃ s',
    exec (sync_datastore_to_db (fun _ => none) 1 ⟨"ds1", sampleStoreColumns, []⟩)
      (StoreWalk.start sampleHosts (sampleStores {7})) = (.ok (), s') ∧
    (s'.datastores.get (1, "ds1")).map DataStore.hosts = some {7} ∧
    ¬ Follows 1 (sampleDatastore []) "ds1" (StoreWalk.start sampleHosts (sampleStores {7})) s' := by
  refine ⟨rfl, _, rfl, rfl, ?_⟩
  rintro ⟨⟨row, hrow, hids⟩, -⟩
  cases hrow
  obtain ⟨h, -, -, -, host, hhost, hmem⟩ := (hids 7).mp (Finset.mem_singleton_self 7)
  cases hhost
  cases hmem

end InfraHub.Virt
