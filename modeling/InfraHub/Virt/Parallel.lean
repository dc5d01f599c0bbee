import InfraHub.Virt.Converge
import InfraHub.Virt.Datastore
import InfraHub.Lib.Run

/-!
# Virt — Parallel

The subtasks that `sync_all_platform_data` starts as one group, step by step in any order.

A virtual machine and a data store are linked to the host rows that bear the right name at the
moment they look, which the sync of the hosts may not have written yet.  If every name that is
looked up is `Settled` by then, the outcome is that of the three syncs in turn
(`sequential_of_settled`).  The other two subtasks touch none of these tables.
-/

namespace InfraHub.Virt.Parallel
open InfraHub.Lib (Run guarded Prog)
open InfraHub.Lib.Prog (exec forEach attempt update read lift Blind)

/-! ### The loop bodies, cut where the hosts are looked up -/

section
variable (env : Env) (fault : DataStoreData → Option Fault) (platform : Nat)

/-- What `visit_vm` does with a record. -/
def write_vm (vm : VirtualMachineObject) (record : Record VMRowColumns) : Sync Unit :=
  attempt
    (do
      update fun s => { s with uuids := s.uuids ++ [record.uuid] }
      let vms ← read (·.db.vms)
      let vms ← lift (vms.update_or_create env.vmFault platform record)
      update fun s => { s with db.vms := vms }
      update fun s => { s with synced_count := s.synced_count + 1 })
    fun _ => count_failure vm.nameLogged

/-- What `visit_datastore` does up to the hosts; `none` if it ended in the `except` branch. -/
def begin_datastore (datastore : DatastoreObject) : StoreSync (Option DataStoreData) :=
  attempt
    (do
      let ds_data ← lift (parse_datastore_info datastore)
      update fun s => { s with names := s.names ++ [ds_data.name] }
      write_datastore fault platform ds_data
      return some ds_data)
    fun _ => do
      count_store_failure datastore.nameLogged
      return none

/-- What `visit_datastore` does from the hosts on. -/
def end_datastore (ds_data : DataStoreData) : StoreSync Unit := do
  link_hosts platform ds_data
  update fun s => { s with synced_count := s.synced_count + 1 }

end

section
variable {env : Env} {fault : DataStoreData → Option Fault} {platform : Nat}

theorem exec_visit_vm_of_record {vm : VirtualMachineObject} {record : Record VMRowColumns} {w : Walk}
    (h : record_of w.db.hosts platform vm = some record) :
    exec (visit_vm env platform vm) w = exec (write_vm env platform vm record) w := by
  unfold record_of at h
  split at h
  · next d hd =>
    obtain ⟨ht, h⟩ := Option.ite_none_left_eq_some.mp h
    have hrecord : vm_record w.db.hosts platform d = record := Option.some.inj h
    have huuid : record.uuid = d.uuid := hrecord ▸ rfl
    cases hw : w.db.vms.update_or_create env.vmFault platform record with
    | error e =>
        simp [visit_vm, write_vm, sync_vm_to_db, Prog.exec_attempt, Prog.exec_bind, hd, ht, hrecord,
          huuid, hw, lift]
    | ok vms =>
        simp [visit_vm, write_vm, sync_vm_to_db, Prog.exec_attempt, Prog.exec_bind, hd, ht, hrecord,
          huuid, hw, lift]
  · cases h
  · cases h

theorem exec_visit_datastore (datastore : DatastoreObject) (w : StoreWalk) :
    exec (visit_datastore fault platform datastore) w =
      match exec (begin_datastore fault platform datastore) w with
      | (.ok (some ds_data), w₁) => exec (end_datastore platform ds_data) w₁
      | (.ok none, w₁) => (.ok (), w₁)
      | (.error e, w₁) => (.error e, w₁) := by
  cases hd : parse_datastore_info datastore with
  | error e =>
      cases hname : datastore.nameLogged <;>
        simp [visit_datastore, begin_datastore, count_store_failure, Prog.exec_attempt,
          Prog.exec_bind, hd, hname, lift]
  | ok d =>
      cases hw : DataStoreTable.update_or_create fault platform d w.datastores with
      | error e =>
          cases hname : datastore.nameLogged <;>
            simp [visit_datastore, begin_datastore, sync_datastore_to_db, write_datastore,
              count_store_failure, Prog.exec_attempt, Prog.exec_bind, hd, hw, hname, lift]
      | ok datastores =>
          by_cases hnames : d.host_names = []
          · simp [visit_datastore, begin_datastore, end_datastore, sync_datastore_to_db,
              write_datastore, link_hosts, Prog.exec_attempt, Prog.exec_bind, hd, hw, hnames, lift]
          · simp [visit_datastore, begin_datastore, end_datastore, sync_datastore_to_db,
              write_datastore, link_hosts, Prog.exec_attempt, Prog.exec_bind, hd, hw, hnames, lift]

/-! ### What the loop bodies do not see -/

/-- The walk in a database that differs from its own beside the hosts. -/
def beside_hosts (db : VirtDb) (w : Walk) : Walk :=
  { w with db := { db with hosts := w.db.hosts } }

/-- The walk in a database that differs from its own beside the virtual machines. -/
def beside_vms (db : VirtDb) (w : Walk) : Walk :=
  { w with db := { db with vms := w.db.vms } }

theorem count_failure_blind {g : Walk → Walk}
    (hg : ∀ w : Walk, { g w with failed_count := (g w).failed_count + 1 } =
      g { w with failed_count := w.failed_count + 1 }) (nameLogged : Read String) :
    Blind g (count_failure nameLogged) :=
  (Blind.lift _).bind fun _ => Blind.update hg

theorem visit_host_blind (db : VirtDb) (host : HostSystem) :
    Blind (beside_hosts db) (visit_host env platform host) := by
  refine Blind.attempt ?_ fun _ => count_failure_blind (fun _ => rfl) _
  refine Blind.bind (Blind.lift _) fun d => Blind.bind (Blind.update fun _ => rfl) fun _ => ?_
  refine Blind.bind ?_ fun _ => Blind.update fun _ => rfl
  exact Blind.bind (Blind.read fun _ => rfl) fun hosts => Blind.bind (Blind.lift _) fun hosts =>
    Blind.update fun _ => rfl

theorem write_vm_blind (db : VirtDb) (vm : VirtualMachineObject) (record : Record VMRowColumns) :
    Blind (beside_vms db) (write_vm env platform vm record) := by
  refine Blind.attempt ?_ fun _ => count_failure_blind (fun _ => rfl) _
  refine Blind.bind (Blind.update fun _ => rfl) fun _ => ?_
  refine Blind.bind (Blind.read fun _ => rfl) fun vms => Blind.bind (Blind.lift _) fun vms => ?_
  exact Blind.bind (Blind.update fun _ => rfl) fun _ => Blind.update fun _ => rfl

/-- An object without a record. -/
theorem visit_vm_blind {hosts : Table HostColumns} {vm : VirtualMachineObject}
    (h : record_of hosts platform vm = none) (db : VirtDb) :
    Blind (beside_vms db) (visit_vm env platform vm) := by
  unfold visit_vm
  refine Blind.attempt ?_ fun _ => count_failure_blind (fun _ => rfl) _
  unfold record_of at h
  split at h
  · next d hd =>
    have ht : d.columns.is_template = true := by simpa using h
    rw [hd]
    intro w
    simp [ht]
  · next hd =>
    rw [hd]
    exact fun _ => rfl
  · next e hd =>
    rw [hd]
    exact fun _ => rfl

theorem begin_datastore_blind (db : VirtDb) (datastore : DatastoreObject) :
    Blind (fun w : StoreWalk => { w with db }) (begin_datastore fault platform datastore) := by
  refine Blind.attempt ?_ fun _ => ?_
  · refine Blind.bind (Blind.lift _) fun d => Blind.bind (Blind.update fun _ => rfl) fun _ => ?_
    refine Blind.bind ?_ fun _ => Blind.ret _
    exact Blind.bind (Blind.read fun _ => rfl) fun t => Blind.bind (Blind.lift _) fun t =>
      Blind.update fun _ => rfl
  · refine Blind.bind ?_ fun _ => Blind.ret _
    exact Blind.bind (Blind.lift _) fun _ => Blind.update fun _ => rfl

end

/-! ### The machine -/

/-- The platform's inventory in vSphere. -/
structure Inventory where
  hosts : List HostSystem
  vms : List VirtualMachineObject
  datastores : List DatastoreObject

/-- How far a subtask is, and its local variables. -/
structure Subtask (α : Type) where
  /-- what its loop has not visited yet -/
  rest : List α
  /-- `host_uuids`, `vm_uuids`, `datastore_names` -/
  seen : List String
  synced_count : Nat
  failed_count : Nat
  finished : Bool

/-- The tables, and the subtasks; `ω` is what the other subtasks work on. -/
structure State (ω : Type) where
  db : VirtDb
  datastores : DataStoreTable
  other : ω
  hosts : Subtask HostSystem
  vms : Subtask VirtualMachineObject
  /-- the record with the host that was looked up, before it is written -/
  record : Option (Record VMRowColumns)
  stores : Subtask DatastoreObject
  /-- the data store that is written, before its hosts are looked up -/
  unlinked : Option DataStoreData

/-- A database step of a subtask. -/
inductive Event (ω : Type)
  | visit_host
  | finish_hosts
  | look_up_host
  | write_vm
  | finish_vms
  | write_datastore
  | link_hosts
  | finish_datastores
  /-- of `sync_platform_info` or `sync_templates` -/
  | other (x : ω)

section
variable {α ω : Type}

def Subtask.start (objects : List α) : Subtask α := ⟨objects, [], 0, 0, false⟩

def Subtask.walk (sub : Subtask α) (db : VirtDb) : Walk :=
  ⟨db, sub.seen, sub.synced_count, sub.failed_count⟩

/-- The subtask goes on with these variables. -/
def Subtask.resume (w : Walk) (rest : List α) : Subtask α :=
  ⟨rest, w.uuids, w.synced_count, w.failed_count, false⟩

def State.store_walk (s : State ω) : StoreWalk :=
  ⟨s.db, s.datastores, s.stores.seen, s.stores.synced_count, s.stores.failed_count⟩

def State.resume_stores (s : State ω) (w : StoreWalk) (rest : List DatastoreObject)
    (unlinked : Option DataStoreData) : State ω :=
  let stores := ⟨rest, w.names, w.synced_count, w.failed_count, false⟩
  { s with datastores := w.datastores, stores, unlinked }

variable (env : Env) (fault : DataStoreData → Option Fault) (platform : Nat)

/-- The next round of `sync_vms` up to the record; without one, the whole round. -/
def State.look_up_host (s : State ω) (vm : VirtualMachineObject)
    (rest : List VirtualMachineObject) : Option (State ω) :=
  match record_of s.db.hosts platform vm with
  | some record => some { s with record := some record }
  | none =>
      match exec (visit_vm env platform vm) (s.vms.walk s.db) with
      | (.ok (), w) => some { s with db := w.db, vms := .resume w rest }
      | (.error _, _) => none

def next (s : State ω) : Event ω → Option (State ω)
  | .visit_host =>
      match s.hosts.rest with
      | [] => none
      | host :: rest =>
          match exec (visit_host env platform host) (s.hosts.walk s.db) with
          | (.ok (), w) => some { s with db := w.db, hosts := .resume w rest }
          | (.error _, _) => none
  | .finish_hosts =>
      if s.hosts.rest = [] ∧ s.hosts.finished = false then
        let hosts := { s.hosts with finished := true }
        some { s with db := ((s.hosts.walk s.db).finish_hosts platform).db, hosts }
      else none
  | .look_up_host =>
      match s.vms.rest, s.record with
      | vm :: rest, none => s.look_up_host env platform vm rest
      | _, _ => none
  | .write_vm =>
      match s.vms.rest, s.record with
      | vm :: rest, some record =>
          match exec (write_vm env platform vm record) (s.vms.walk s.db) with
          | (.ok (), w) => some { s with db := w.db, vms := .resume w rest, record := none }
          | (.error _, _) => none
      | _, _ => none
  | .finish_vms =>
      if s.vms.rest = [] ∧ s.vms.finished = false then
        let vms := { s.vms with finished := true }
        some { s with db := ((s.vms.walk s.db).finish_vms platform).db, vms }
      else none
  | .write_datastore =>
      match s.stores.rest, s.unlinked with
      | datastore :: rest, none =>
          match exec (begin_datastore fault platform datastore) s.store_walk with
          | (.ok (some d), w) => some (s.resume_stores w (datastore :: rest) (some d))
          | (.ok none, w) => some (s.resume_stores w rest none)
          | (.error _, _) => none
      | _, _ => none
  | .link_hosts =>
      match s.stores.rest, s.unlinked with
      | _ :: rest, some d =>
          some (s.resume_stores (exec (end_datastore platform d) s.store_walk).2 rest none)
      | _, _ => none
  | .finish_datastores =>
      if s.stores.rest = [] ∧ s.stores.finished = false then
        let stores := { s.stores with finished := true }
        let datastores := deactivate_datastores platform s.stores.seen s.datastores
        some { s with datastores, stores }
      else none
  | .other x => some { s with other := x }

def Step (s : State ω) (e : Event ω) (t : State ω) : Prop := next env fault platform s e = some t

/-- The group has been started. -/
def State.start (db : VirtDb) (datastores : DataStoreTable) (other : ω) (inventory : Inventory) :
    State ω where
  db
  datastores
  other
  hosts := .start inventory.hosts
  vms := .start inventory.vms
  record := none
  stores := .start inventory.datastores
  unlinked := none

/-- The three subtasks are through. -/
def State.Finished (s : State ω) : Prop :=
  s.hosts.finished = true ∧ s.vms.finished = true ∧ s.stores.finished = true

/-- `sync_hosts`, then `sync_vms`, then `sync_datastores`, from the first tables to the last. -/
def Sequential (inventory : Inventory) (db : VirtDb) (datastores : DataStoreTable) (db' : VirtDb)
    (datastores' : DataStoreTable) : Prop :=
  ∃ n₁ m₁ n₂ m₂ n₃ m₃ w₁ w₂ w₃,
    exec (sync_hosts env platform (.ok inventory.hosts)) (.start db) = (.ok (.success n₁ m₁), w₁) ∧
    exec (sync_vms env platform (.ok inventory.vms)) (.start w₁.db) =
      (.ok (.success n₂ m₂), w₂) ∧
    exec (sync_datastores fault platform (.ok inventory.datastores)) (.start w₂.db datastores) =
      (.ok (.success n₃ m₃), w₃) ∧
    db' = w₂.db ∧ datastores' = w₃.datastores

end

/-! ### The condition -/

/-- A host row of the platform bears the name, with this primary key and this uuid. -/
def Stands (hosts : Table HostColumns) (platform : Nat) (name : String) (id : Nat)
    (uuid : Option String) : Prop :=
  ∃ r ∈ hosts.rows, r.platform = platform ∧ r.name = name ∧ r.id = id ∧ r.uuid = uuid

/-- The name stands for the row that it will stand for: a host that is still to be written bears it
exactly if the row that bears it now is the row of this host. -/
def Settled (hosts : Table HostColumns) (rest : List HostSystem) (platform : Nat) (name : String) :
    Prop :=
  ∀ host ∈ rest, ∀ d, parse_host_info host = .ok d →
    (d.name = name ↔ ∃ id, Stands hosts platform name id (some d.uuid))

theorem toOption_eq_some {α : Type} {x : Read α} {a : α} : x.toOption = some a ↔ x = .ok a := by
  cases x <;> simp [Except.toOption]

instance (hosts : Table HostColumns) (rest : List HostSystem) (platform : Nat) (name : String) :
    Decidable (Settled hosts rest platform name) :=
  decidable_of_iff
    (∀ host ∈ rest, ∀ d ∈ (parse_host_info host).toOption,
      (d.name = name ↔ ∃ r ∈ hosts.rows, r.platform = platform ∧ r.name = name ∧ r.uuid = some d.uuid))
    (by simp [Settled, Stands, toOption_eq_some])

/-- The names that are looked up are settled. -/
def State.LooksUpSettled {ω : Type} (platform : Nat) (s : State ω) : Event ω → Prop
  | .look_up_host =>
      match s.vms.rest.head?.map parse_vm_info with
      | some (.ok (some d)) => d.columns.is_template = false → d.host_name ≠ "" →
          Settled s.db.hosts s.hosts.rest platform d.host_name
      | _ => True
  | .link_hosts => ∀ d ∈ s.unlinked, ∀ name ∈ d.host_names,
      Settled s.db.hosts s.hosts.rest platform name
  | _ => True

instance {ω : Type} (platform : Nat) (s : State ω) : ∀ e, Decidable (s.LooksUpSettled platform e)
  | .look_up_host =>
      match h : s.vms.rest.head?.map parse_vm_info with
      | some (.ok (some _)) => decidable_of_iff _ (by rw [State.LooksUpSettled, h])
      | some (.ok none) | some (.error _) | none => isTrue (by simp [State.LooksUpSettled, h])
  | .link_hosts => inferInstanceAs (Decidable (∀ d ∈ s.unlinked, ∀ name ∈ d.host_names, _))
  | .visit_host | .finish_hosts | .write_vm | .finish_vms | .write_datastore | .finish_datastores
  | .other _ => .isTrue trivial

/-! ### A settled name stays -/

section
variable {env : Env} {fault : DataStoreData → Option Fault} {platform : Nat}
  {hosts hosts' : Table HostColumns} {rest : List HostSystem} {name : String} {id : Nat}
  {uuid : Option String} {d : HostData} {w w' : Walk}

/-- The hosts of the two tables bear the name alike. -/
def SameStands (hosts hosts' : Table HostColumns) (platform : Nat) (name : String) : Prop :=
  ∀ id uuid, Stands hosts' platform name id uuid ↔ Stands hosts platform name id uuid

theorem sameStands_upsert (hrows : hosts'.rows = upsert platform d hosts.rows)
    (hd : d.name = name ↔ ∃ id, Stands hosts platform name id (some d.uuid)) :
    SameStands hosts hosts' platform name := by
  intro id uuid
  constructor
  · rintro ⟨r, hr, hp, rfl, rfl, rfl⟩
    by_cases hm : r.Matches platform d.uuid
    · have hholds := holds_of_mem_upsert (hrows ▸ hr) hm
      obtain ⟨id, r₀, hr₀, hp₀, hname₀, -, huuid₀⟩ := hd.mp hholds.name.symm
      -- the row of the host is the one that bore the name
      have hm₀ : r₀.Matches platform d.uuid := ⟨hp₀, huuid₀⟩
      have hnew : r₀.update d ∈ hosts'.rows := by
        have hmem : (if r₀.Matches platform d.uuid then r₀.update d else r₀) ∈
            upsert platform d hosts.rows := mem_upsert_of_mem hr₀
        rwa [if_pos hm₀, ← hrows] at hmem
      obtain rfl := hosts'.eq_of_uuid hr hnew hm.2 huuid₀
      exact ⟨r₀, hr₀, hp₀, hname₀, rfl, rfl⟩
    · exact ⟨r, (mem_upsert_of_not_matches hm).mp (hrows ▸ hr), hp, rfl, rfl, rfl⟩
  · rintro ⟨r, hr, hp, rfl, rfl, rfl⟩
    have hmem : (if r.Matches platform d.uuid then r.update d else r) ∈
        upsert platform d hosts.rows := mem_upsert_of_mem hr
    rw [← hrows] at hmem
    by_cases hm : r.Matches platform d.uuid
    · rw [if_pos hm] at hmem
      exact ⟨_, hmem, hp, hd.mpr ⟨r.id, r, hr, hp, rfl, rfl, hm.2⟩, rfl, rfl⟩
    · rw [if_neg hm] at hmem
      exact ⟨r, hmem, hp, rfl, rfl, rfl⟩

theorem sameStands_deactivate (p : Row HostColumns → Bool) :
    SameStands hosts (hosts.deactivate p) platform name := by
  intro id uuid
  constructor
  · rintro ⟨r', hr', hp, hname, hid, huuid⟩
    obtain ⟨r, hr, rfl⟩ := List.mem_map.mp hr'
    by_cases h : p r = true
    · rw [if_pos h] at hp hname hid huuid
      exact ⟨r, hr, hp, hname, hid, huuid⟩
    · rw [if_neg h] at hp hname hid huuid
      exact ⟨r, hr, hp, hname, hid, huuid⟩
  · rintro ⟨r, hr, hp, hname, hid, huuid⟩
    refine ⟨_, List.mem_map_of_mem hr, ?_⟩
    split <;> exact ⟨hp, hname, hid, huuid⟩

theorem SameStands.settled (h : SameStands hosts hosts' platform name)
    (hs : Settled hosts rest platform name) : Settled hosts' rest platform name := by
  intro host hhost d hd
  rw [hs host hhost d hd]
  exact exists_congr fun id => (h id _).symm

/-- A visit leaves the table, or writes the record. -/
theorem hosts_visit_host (host : HostSystem) (w : Walk) :
    (exec (visit_host env platform host) w).2.db.hosts = w.db.hosts ∨
      ∃ d, parse_host_info host = .ok d ∧
        (exec (visit_host env platform host) w).2.db.hosts.rows =
          upsert platform d w.db.hosts.rows := by
  cases hp : parse_host_info host with
  | error e =>
      left
      cases hname : host.nameLogged <;>
        simp [visit_host, count_failure, Prog.exec_attempt, Prog.exec_bind, hp, hname, lift]
  | ok d =>
      cases hw : w.db.hosts.update_or_create env.hostFault platform d with
      | error e =>
          left
          cases hname : host.nameLogged <;>
            simp [visit_host, sync_host_to_db, count_failure, Prog.exec_attempt, Prog.exec_bind, hp,
              hw, hname, lift]
      | ok hosts =>
          right
          refine ⟨d, rfl, ?_⟩
          simpa [visit_host, sync_host_to_db, Prog.exec_attempt, Prog.exec_bind, hp, hw, lift] using
            Table.rows_update_or_create hw

theorem sameStands_visit_host {host : HostSystem} (w : Walk)
    (h : Settled w.db.hosts (host :: rest) platform name) :
    SameStands w.db.hosts (exec (visit_host env platform host) w).2.db.hosts platform name := by
  obtain hsame | ⟨d, hd, hrows⟩ :
      (exec (visit_host env platform host) w).2.db.hosts = w.db.hosts ∨ _ := hosts_visit_host host w
  · rw [hsame]
    exact fun _ _ => Iff.rfl
  · exact sameStands_upsert hrows (h host List.mem_cons_self d hd)

/-- **The hosts that are still to be written leave a settled name as it is**, wherever their loop
may end. -/
theorem sameStands_visits (w : Walk) (h : Settled w.db.hosts rest platform name) :
    SameStands w.db.hosts (exec (forEach (visit_host env platform) rest) w).2.db.hosts platform
      name := by
  induction rest generalizing w with
  | nil => exact fun _ _ => Iff.rfl
  | cons host rest ih =>
      have hvisit : SameStands w.db.hosts (exec (visit_host env platform host) w).2.db.hosts
          platform name := sameStands_visit_host w h
      rw [forEach, Prog.exec_bind]
      rcases hw : exec (visit_host env platform host) w with ⟨e | _, w₁⟩
      · rw [hw] at hvisit
        exact hvisit
      · rw [hw] at hvisit
        have hrest : Settled w₁.db.hosts rest platform name := hvisit.settled fun host' hhost' =>
          h host' (List.mem_cons_of_mem _ hhost')
        exact fun id uuid => (ih w₁ hrest id uuid).trans (hvisit id uuid)

/-! ### What is looked up -/

theorem find_host_eq_some {id : Nat} :
    (hosts.rows.find? fun h => h.platform = platform && h.name = name).map Row.id = some id ↔
      ∃ uuid, Stands hosts platform name id uuid := by
  rw [Option.map_eq_some_iff]
  constructor
  · rintro ⟨r, hr, rfl⟩
    have hp := List.find?_some hr
    simp only [Bool.and_eq_true, decide_eq_true_eq] at hp
    exact ⟨r.uuid, r, List.mem_of_find?_eq_some hr, hp.1, hp.2, rfl, rfl⟩
  · rintro ⟨uuid, r, hr, hp, rfl, rfl, -⟩
    have hfound : (hosts.rows.find? fun h => h.platform = platform && h.name = r.name).isSome :=
      List.find?_isSome.mpr ⟨r, hr, by simp [hp]⟩
    obtain ⟨q, hq⟩ := Option.isSome_iff_exists.mp hfound
    have hqp := List.find?_some hq
    simp only [Bool.and_eq_true, decide_eq_true_eq] at hqp
    obtain rfl : r = q :=
      hosts.eq_of_name hr (List.mem_of_find?_eq_some hq) (hp.trans hqp.1.symm) hqp.2.symm
    exact ⟨r, hq, rfl⟩

theorem SameStands.find_host (h : SameStands hosts hosts' platform name) :
    (hosts'.rows.find? fun h => h.platform = platform && h.name = name).map Row.id =
      (hosts.rows.find? fun h => h.platform = platform && h.name = name).map Row.id := by
  ext id
  rw [find_host_eq_some, find_host_eq_some]
  exact exists_congr fun uuid => h id uuid

theorem record_of_congr {vm : VirtualMachineObject}
    (h : ∀ d, parse_vm_info vm = .ok (some d) → d.columns.is_template = false → d.host_name ≠ "" →
      SameStands hosts hosts' platform d.host_name) :
    record_of hosts' platform vm = record_of hosts platform vm := by
  unfold record_of
  split
  · next d hd =>
    split
    · rfl
    · next ht =>
      have ht : d.columns.is_template = false := by simpa using ht
      congr 1
      unfold vm_record
      by_cases hname : d.host_name = ""
      · simp [hname]
      · simp only [if_neg hname, (h d hd ht hname).find_host]
  · rfl
  · rfl

theorem mem_hosts_named {names : List String} {id : Nat} : id ∈ hosts_named hosts platform names ↔
    ∃ name ∈ names, ∃ uuid, Stands hosts platform name id uuid := by
  simp only [hosts_named, List.mem_toFinset, List.mem_map, List.mem_filter, Bool.and_eq_true,
    decide_eq_true_eq]
  constructor
  · rintro ⟨r, ⟨hr, hp, hname⟩, rfl⟩
    exact ⟨r.name, hname, r.uuid, r, hr, hp, rfl, rfl, rfl⟩
  · rintro ⟨name, hname, uuid, r, hr, hp, rfl, rfl, -⟩
    exact ⟨r, ⟨hr, hp, hname⟩, rfl⟩

theorem hosts_named_congr {names : List String}
    (h : ∀ name ∈ names, SameStands hosts hosts' platform name) :
    hosts_named hosts' platform names = hosts_named hosts platform names := by
  ext id
  rw [mem_hosts_named, mem_hosts_named]
  exact exists_congr fun name => and_congr_right fun hname => exists_congr fun uuid =>
    h name hname id uuid

end

/-! ### The syncs in turn -/

section
variable (env : Env) (fault : DataStoreData → Option Fault) (platform : Nat) (inventory : Inventory)
  (db : VirtDb) (datastores : DataStoreTable)

/-- The tables after `sync_hosts`. -/
def after_hosts : VirtDb :=
  ((exec (forEach (visit_host env platform) inventory.hosts) (.start db)).2.finish_hosts platform).db

/-- The tables after `sync_vms`. -/
def after_vms : VirtDb :=
  ((exec (forEach (visit_vm env platform) inventory.vms)
    (.start (after_hosts env platform inventory db))).2.finish_vms platform).db

/-- The local variables are those of the walk. -/
def Subtask.Follows {α : Type} (sub : Subtask α) (w : Walk) : Prop :=
  sub.seen = w.uuids ∧ sub.synced_count = w.synced_count ∧ sub.failed_count = w.failed_count

/-- The hosts are what `sync_hosts` has made of them, as far as it is. -/
def SimHosts (sub : Subtask HostSystem) (hosts : Table HostColumns) : Prop :=
  ∃ visited w, inventory.hosts = visited ++ sub.rest ∧
    exec (forEach (visit_host env platform) visited) (.start db) = (.ok (), w) ∧
    (sub.finished = false → sub.Follows w ∧ hosts = w.db.hosts) ∧
    (sub.finished = true → sub.rest = [] ∧ hosts = (w.finish_hosts platform).db.hosts)

/-- The virtual machines are what `sync_vms` would have made of them after `sync_hosts`. -/
def SimVms (sub : Subtask VirtualMachineObject) (record : Option (Record VMRowColumns))
    (vms : Table VMRowColumns) : Prop :=
  ∃ visited w, inventory.vms = visited ++ sub.rest ∧
    exec (forEach (visit_vm env platform) visited) (.start (after_hosts env platform inventory db)) =
      (.ok (), w) ∧
    (∀ r, record = some r → ∃ vm rest, sub.rest = vm :: rest ∧
      record_of w.db.hosts platform vm = some r) ∧
    (sub.finished = false → sub.Follows w ∧ vms = w.db.vms) ∧
    (sub.finished = true → sub.rest = [] ∧ vms = (w.finish_vms platform).db.vms)

/-- The data stores are what `sync_datastores` would have made of them after the other two. -/
def SimStores (stores : Subtask DatastoreObject) (unlinked : Option DataStoreData)
    (table : DataStoreTable) : Prop :=
  ∃ visited w, inventory.datastores = visited ++ stores.rest ∧
    exec (forEach (visit_datastore fault platform) visited)
      (.start (after_vms env platform inventory db) datastores) = (.ok (), w) ∧
    (stores.finished = false → ∃ w₁, stores.seen = w₁.names ∧ stores.synced_count = w₁.synced_count ∧
      stores.failed_count = w₁.failed_count ∧ table = w₁.datastores ∧
      match unlinked with
      | none => w₁ = w
      | some d => ∃ datastore rest, stores.rest = datastore :: rest ∧
          exec (begin_datastore fault platform datastore) w = (.ok (some d), w₁)) ∧
    (stores.finished = true → stores.rest = [] ∧
      table = deactivate_datastores platform w.names w.datastores)

/-- The group simulates the syncs in turn. -/
structure Sim {ω : Type} (s : State ω) : Prop where
  platforms : s.db.platforms = db.platforms
  hosts : SimHosts env platform inventory db s.hosts s.db.hosts
  vms : SimVms env platform inventory db s.vms s.record s.db.vms
  stores : SimStores env fault platform inventory db datastores s.stores s.unlinked s.datastores

end

section
variable {env : Env} {fault : DataStoreData → Option Fault} {platform : Nat} {inventory : Inventory}
  {db : VirtDb} {datastores : DataStoreTable} {ω : Type} {s t : State ω} {e : Event ω}

theorem after_vms_hosts :
    (after_vms env platform inventory db).hosts = (after_hosts env platform inventory db).hosts :=
  (walk_vms_sameHosts inventory.vms _).1

/-- `sync_hosts` leaves the rest. -/
theorem after_hosts_rest : (after_hosts env platform inventory db).vms = db.vms ∧
    (after_hosts env platform inventory db).platforms = db.platforms := by
  have h : Blind (beside_hosts db) (forEach (visit_host env platform) inventory.hosts) :=
    Blind.forEach (visit_host_blind db)
  have h := h (Walk.start db)
  have h : exec (forEach (visit_host env platform) inventory.hosts) (Walk.start db) =
    (_, beside_hosts db _) := h
  unfold after_hosts
  rw [h]
  exact ⟨rfl, rfl⟩

/-- **A settled name already stands for what it stands for after `sync_hosts`.** -/
theorem sameStands_of_settled {sub : Subtask HostSystem} {hosts : Table HostColumns} {name : String}
    (h : SimHosts env platform inventory db sub hosts)
    (hs : Settled hosts sub.rest platform name) :
    SameStands hosts (after_hosts env platform inventory db).hosts platform name := by
  obtain ⟨visited, w, hinv, hwalk, hgoing, hdone⟩ := h
  unfold after_hosts
  rw [hinv, Prog.exec_forEach_append hwalk]
  cases hfinished : sub.finished with
  | false =>
      obtain ⟨-, rfl⟩ := hgoing hfinished
      have hvisits : SameStands w.db.hosts
          (exec (forEach (visit_host env platform) sub.rest) w).2.db.hosts platform name :=
        sameStands_visits w hs
      exact fun id uuid => (sameStands_deactivate _ id uuid).trans (hvisits id uuid)
  | true =>
      obtain ⟨hrest, rfl⟩ := hdone hfinished
      rw [hrest]
      exact fun _ _ => Iff.rfl

/-! ### One step -/

/-- A program that does not see what `g` replaces, inverted. -/
theorem exec_of_blind {σ ε α : Type} {m : Prog σ ε α} {g : σ → σ} (hm : Blind g m) {w w' : σ} {a : α}
    (h : exec m (g w) = (.ok a, w')) : ∃ w₁, exec m w = (.ok a, w₁) ∧ w' = g w₁ := by
  rw [hm w] at h
  obtain ⟨hresult, rfl⟩ := Prod.mk.inj h
  exact ⟨_, Prod.ext hresult rfl, rfl⟩

theorem Subtask.Follows.walk {α : Type} {sub : Subtask α} {w : Walk} (h : sub.Follows w)
    (db : VirtDb) : sub.walk db = { w with db } := by
  obtain ⟨hseen, hsynced, hfailed⟩ := h
  simp only [Subtask.walk, hseen, hsynced, hfailed]

theorem Subtask.follows_resume {α : Type} (w : Walk) (rest : List α) :
    (Subtask.resume w rest).Follows w := ⟨rfl, rfl, rfl⟩

theorem not_finished {α : Type} {sub : Subtask α} {x : α} {rest : List α}
    (hrest : sub.rest = x :: rest) {p : Prop} (h : sub.finished = true → sub.rest = [] ∧ p) :
    sub.finished = false := by
  cases hfinished : sub.finished with
  | false => rfl
  | true => exact absurd (hrest.symm.trans (h hfinished).1) (by simp)

theorem sim_visit_host (h : Sim env fault platform inventory db datastores s)
    (hs : Step env fault platform s .visit_host t) :
    Sim env fault platform inventory db datastores t := by
  simp only [Step, next] at hs
  split at hs
  · cases hs
  · next host rest hrest =>
    split at hs
    · next w' hw =>
      cases hs
      obtain ⟨visited, w, hinv, hwalk, hgoing, hdone⟩ := h.hosts
      obtain ⟨hfollows, hhosts⟩ := hgoing (not_finished hrest hdone)
      have hbeside : s.hosts.walk s.db = beside_hosts s.db w := by
        rw [hfollows.walk, beside_hosts, ← hhosts]
      rw [hbeside] at hw
      obtain ⟨w₁, hw₁, rfl⟩ := exec_of_blind (visit_host_blind s.db host) hw
      refine ⟨h.platforms, ⟨visited ++ [host], w₁, ?_, Prog.exec_forEach_snoc hwalk hw₁, ?_, nofun⟩,
        h.vms, h.stores⟩
      · rw [hinv, hrest]
        simp [Subtask.resume]
      · exact fun _ => ⟨Subtask.follows_resume _ _, rfl⟩
    · cases hs

theorem sim_finish_hosts (h : Sim env fault platform inventory db datastores s)
    (hs : Step env fault platform s .finish_hosts t) :
    Sim env fault platform inventory db datastores t := by
  simp only [Step, next] at hs
  obtain ⟨⟨hrest, hfinished⟩, hs⟩ := Option.ite_none_right_eq_some.mp hs
  cases hs
  obtain ⟨visited, w, hinv, hwalk, hgoing, -⟩ := h.hosts
  obtain ⟨hfollows, hhosts⟩ := hgoing hfinished
  refine ⟨h.platforms, ⟨visited, w, hinv, hwalk, nofun, fun _ => ⟨hrest, ?_⟩⟩, h.vms, h.stores⟩
  rw [hfollows.walk]
  simp only [Walk.finish_hosts, hhosts]

/-- The hosts that the walk of `sync_vms` sees. -/
theorem hosts_of_walk {visited : List VirtualMachineObject} {w : Walk}
    (h : exec (forEach (visit_vm env platform) visited)
      (.start (after_hosts env platform inventory db)) = (.ok (), w)) :
    w.db.hosts = (after_hosts env platform inventory db).hosts := by
  have hsame : SameHosts (.start (after_hosts env platform inventory db)) w :=
    (walk_vms_sameHosts visited).of_exec h
  exact hsame.1

/-- One round of `sync_vms`, as a step and as a part of the sync in turn. -/
theorem sim_vm_round {vm : VirtualMachineObject} {rest : List VirtualMachineObject} {w' : Walk}
    {m : Sync Unit} (h : Sim env fault platform inventory db datastores s)
    (hrest : s.vms.rest = vm :: rest) (hm : Blind (beside_vms s.db) m)
    (hvisit : ∀ visited w, exec (forEach (visit_vm env platform) visited)
      (.start (after_hosts env platform inventory db)) = (.ok (), w) →
      (∀ r, s.record = some r → record_of w.db.hosts platform vm = some r) →
      exec (visit_vm env platform vm) w = exec m w)
    (hw : exec m (s.vms.walk s.db) = (.ok (), w')) :
    Sim env fault platform inventory db datastores
      { s with db := w'.db, vms := .resume w' rest, record := none } := by
  obtain ⟨visited, w, hinv, hwalk, hrecord, hgoing, hdone⟩ := h.vms
  obtain ⟨hfollows, hvms⟩ := hgoing (not_finished hrest hdone)
  have hbeside : s.vms.walk s.db = beside_vms s.db w := by
    rw [hfollows.walk, beside_vms, ← hvms]
  rw [hbeside] at hw
  obtain ⟨w₁, hw₁, rfl⟩ := exec_of_blind hm hw
  have hround : exec (visit_vm env platform vm) w = (.ok (), w₁) := by
    rw [hvisit visited w hwalk fun r hr => ?_, hw₁]
    obtain ⟨vm', rest', hrest', hr⟩ := hrecord r hr
    cases hrest.symm.trans hrest'
    exact hr
  refine ⟨h.platforms, h.hosts, ⟨visited ++ [vm], w₁, ?_, Prog.exec_forEach_snoc hwalk hround,
    fun _ hr => ?_, fun _ => ?_, fun hfinished => ?_⟩, h.stores⟩
  · rw [hinv, hrest]
    simp [Subtask.resume]
  · cases hr
  · exact ⟨Subtask.follows_resume _ _, rfl⟩
  · cases hfinished

theorem sim_look_up_host (h : Sim env fault platform inventory db datastores s)
    (hsettled : s.LooksUpSettled platform .look_up_host)
    (hs : Step env fault platform s .look_up_host t) :
    Sim env fault platform inventory db datastores t := by
  simp only [Step, next] at hs
  split at hs
  · next vm rest hrest hnone =>
    have hsame : record_of (after_hosts env platform inventory db).hosts platform vm =
        record_of s.db.hosts platform vm :=
      record_of_congr fun d hd ht hname => by
        simp only [State.LooksUpSettled, hrest, List.head?_cons, Option.map_some, hd] at hsettled
        exact sameStands_of_settled h.hosts (hsettled ht hname)
    unfold State.look_up_host at hs
    split at hs
    · next record hrecord =>
      cases hs
      obtain ⟨visited, w, hinv, hwalk, -, hgoing, hdone⟩ := h.vms
      refine ⟨h.platforms, h.hosts, ⟨visited, w, hinv, hwalk, ?_, hgoing, hdone⟩, h.stores⟩
      rintro r ⟨⟩
      exact ⟨vm, rest, hrest, by rw [hosts_of_walk hwalk, hsame, hrecord]⟩
    · next hrecord =>
      split at hs
      · next w' hw =>
        cases hs
        have := sim_vm_round h hrest (visit_vm_blind hrecord s.db) (fun _ _ _ _ => rfl) hw
        rwa [← hnone] at this
      · cases hs
  · cases hs

theorem sim_write_vm (h : Sim env fault platform inventory db datastores s)
    (hs : Step env fault platform s .write_vm t) :
    Sim env fault platform inventory db datastores t := by
  simp only [Step, next] at hs
  split at hs
  · next vm rest record hrest hrecord =>
    split at hs
    · next w' hw =>
      cases hs
      exact sim_vm_round h hrest (write_vm_blind s.db vm record)
        (fun _ _ _ hr => exec_visit_vm_of_record (hr record hrecord)) hw
    · cases hs
  · cases hs

theorem sim_finish_vms (h : Sim env fault platform inventory db datastores s)
    (hs : Step env fault platform s .finish_vms t) :
    Sim env fault platform inventory db datastores t := by
  simp only [Step, next] at hs
  obtain ⟨⟨hrest, hfinished⟩, hs⟩ := Option.ite_none_right_eq_some.mp hs
  cases hs
  obtain ⟨visited, w, hinv, hwalk, hrecord, hgoing, -⟩ := h.vms
  obtain ⟨hfollows, hvms⟩ := hgoing hfinished
  refine ⟨h.platforms, h.hosts, ⟨visited, w, hinv, hwalk, hrecord, nofun, fun _ => ⟨hrest, ?_⟩⟩,
    h.stores⟩
  rw [hfollows.walk]
  simp only [Walk.finish_vms, hvms]

/-- `sync_datastores` leaves the other tables. -/
theorem begin_datastore_db {datastore : DatastoreObject} {w w₁ : StoreWalk}
    {a : Option DataStoreData}
    (h : exec (begin_datastore fault platform datastore) w = (.ok a, w₁)) : w₁.db = w.db := by
  have hblind : Blind (fun u : StoreWalk => { u with db := w.db })
      (begin_datastore fault platform datastore) := begin_datastore_blind w.db datastore
  have hblind := hblind w
  have hw : { w with db := w.db } = w := rfl
  rw [hw, h] at hblind
  have hw₁ : w₁ = { w₁ with db := w.db } := (Prod.mk.inj hblind).2
  have hdb := congrArg StoreWalk.db hw₁
  exact hdb

theorem exec_end_datastore (d : DataStoreData) (w : StoreWalk) :
    exec (end_datastore platform d) w = (.ok (), (exec (end_datastore platform d) w).2) := by
  unfold end_datastore link_hosts
  split <;> rfl

/-- The hosts of a data store, looked up in another database. -/
theorem end_datastore_congr {d : DataStoreData} {w : StoreWalk} {db : VirtDb}
    (h : hosts_named db.hosts platform d.host_names = hosts_named w.db.hosts platform d.host_names) :
    (exec (end_datastore platform d) { w with db }).2 =
      { (exec (end_datastore platform d) w).2 with db } := by
  unfold end_datastore link_hosts
  by_cases hnames : d.host_names = []
  · simp [hnames]
  · simp [hnames, h]

theorem end_datastore_db (d : DataStoreData) (w : StoreWalk) :
    (exec (end_datastore platform d) w).2.db = w.db := by
  unfold end_datastore link_hosts
  split <;> rfl

theorem db_of_walk {visited : List DatastoreObject} {w₀ w : StoreWalk}
    (h : exec (forEach (visit_datastore fault platform) visited) w₀ = (.ok (), w)) :
    w.db = w₀.db := by
  induction visited generalizing w₀ with
  | nil =>
      cases h
      rfl
  | cons datastore visited ih =>
      obtain ⟨_, w₁, h₁, h⟩ := Prog.exec_bind_ok.mp h
      rw [ih h]
      rw [exec_visit_datastore] at h₁
      rcases hb : exec (begin_datastore fault platform datastore) w₀ with ⟨e | _ | d, w₂⟩
      · rw [hb] at h₁
        cases h₁
      · rw [hb] at h₁
        cases h₁
        exact begin_datastore_db hb
      · rw [hb] at h₁
        simp only at h₁
        have hend : (exec (end_datastore platform d) w₂).2.db = w₂.db := end_datastore_db d w₂
        rw [← begin_datastore_db hb, ← hend, h₁]

theorem sim_write_datastore (h : Sim env fault platform inventory db datastores s)
    (hs : Step env fault platform s .write_datastore t) :
    Sim env fault platform inventory db datastores t := by
  simp only [Step, next] at hs
  split at hs
  · next datastore rest hrest hnone =>
    obtain ⟨visited, w, hinv, hwalk, hgoing, hdone⟩ := h.stores
    rw [hnone] at hgoing
    obtain ⟨w, hseen, hsynced, hfailed, htable, rfl⟩ := hgoing (not_finished hrest hdone)
    have hstore : s.store_walk = (fun w : StoreWalk => { w with db := s.db }) w := by
      simp only [State.store_walk, hseen, hsynced, hfailed, htable]
    rw [hstore] at hs
    split at hs
    · next d w' hw =>
      cases hs
      obtain ⟨w₁, hw₁, rfl⟩ := exec_of_blind (begin_datastore_blind s.db datastore) hw
      refine ⟨h.platforms, h.hosts, h.vms, visited, w, hinv.trans (by rw [hrest]; rfl), hwalk,
        fun _ => ?_, nofun⟩
      exact ⟨w₁, rfl, rfl, rfl, rfl, datastore, rest, rfl, hw₁⟩
    · next w' hw =>
      cases hs
      obtain ⟨w₁, hw₁, rfl⟩ := exec_of_blind (begin_datastore_blind s.db datastore) hw
      have hround : exec (visit_datastore fault platform datastore) w = (.ok (), w₁) := by
        rw [exec_visit_datastore, hw₁]
      refine ⟨h.platforms, h.hosts, h.vms, visited ++ [datastore], w₁, ?_,
        Prog.exec_forEach_snoc hwalk hround, fun _ => ⟨w₁, rfl, rfl, rfl, rfl, rfl⟩, nofun⟩
      rw [hinv, hrest]
      simp [State.resume_stores]
    · cases hs
  · cases hs

theorem sim_link_hosts (h : Sim env fault platform inventory db datastores s)
    (hsettled : s.LooksUpSettled platform .link_hosts)
    (hs : Step env fault platform s .link_hosts t) :
    Sim env fault platform inventory db datastores t := by
  simp only [Step, next] at hs
  split at hs
  · next x rest d hrest hunlinked =>
    cases hs
    obtain ⟨visited, w, hinv, hwalk, hgoing, hdone⟩ := h.stores
    rw [hunlinked] at hgoing
    obtain ⟨w₁, hseen, hsynced, hfailed, htable, datastore, rest', hrest', hw₁⟩ :=
      hgoing (not_finished hrest hdone)
    cases hrest.symm.trans hrest'
    have hstore : s.store_walk = { w₁ with db := s.db } := by
      simp only [State.store_walk, hseen, hsynced, hfailed, htable]
    have hdb : w₁.db = after_vms env platform inventory db :=
      (begin_datastore_db hw₁).trans (db_of_walk hwalk)
    have hnamed : hosts_named s.db.hosts platform d.host_names =
        hosts_named w₁.db.hosts platform d.host_names := by
      rw [hdb, after_vms_hosts]
      exact (hosts_named_congr fun name hname =>
        sameStands_of_settled h.hosts (hsettled d hunlinked name hname)).symm
    have hround : exec (visit_datastore fault platform x) w =
        (.ok (), (exec (end_datastore platform d) w₁).2) := by
      rw [exec_visit_datastore, hw₁]
      exact exec_end_datastore d w₁
    refine ⟨h.platforms, h.hosts, h.vms, visited ++ [x], _, ?_,
      Prog.exec_forEach_snoc hwalk hround, fun _ => ⟨_, ?_, ?_, ?_, ?_, rfl⟩, nofun⟩
    · rw [hinv, hrest]
      simp [State.resume_stores]
    all_goals
      rw [hstore, end_datastore_congr hnamed]
      rfl
  · cases hs

theorem sim_finish_datastores (h : Sim env fault platform inventory db datastores s)
    (hs : Step env fault platform s .finish_datastores t) :
    Sim env fault platform inventory db datastores t := by
  simp only [Step, next] at hs
  obtain ⟨⟨hrest, hfinished⟩, hs⟩ := Option.ite_none_right_eq_some.mp hs
  cases hs
  obtain ⟨visited, w, hinv, hwalk, hgoing, -⟩ := h.stores
  refine ⟨h.platforms, h.hosts, h.vms, visited, w, hinv, hwalk, nofun, fun _ => ⟨hrest, ?_⟩⟩
  obtain ⟨w₁, hseen, -, -, htable, hunlinked⟩ := hgoing hfinished
  -- nothing is left to visit, so nothing waits for its hosts
  have hsame : w₁ = w := by
    cases hu : s.unlinked with
    | none =>
        rw [hu] at hunlinked
        exact hunlinked
    | some d =>
        rw [hu] at hunlinked
        obtain ⟨datastore, rest, hne, -⟩ := hunlinked
        exact absurd (hrest.symm.trans hne) (by simp)
  rw [htable, hseen, hsame]

/-- **A step whose look-ups are settled keeps the simulation.** -/
theorem sim_next (h : Sim env fault platform inventory db datastores s)
    (hs : guarded (Step env fault platform) (State.LooksUpSettled platform) s e t) :
    Sim env fault platform inventory db datastores t := by
  obtain ⟨hs, hsettled⟩ := hs
  cases e with
  | visit_host => exact sim_visit_host h hs
  | finish_hosts => exact sim_finish_hosts h hs
  | look_up_host => exact sim_look_up_host h hsettled hs
  | write_vm => exact sim_write_vm h hs
  | finish_vms => exact sim_finish_vms h hs
  | write_datastore => exact sim_write_datastore h hs
  | link_hosts => exact sim_link_hosts h hsettled hs
  | finish_datastores => exact sim_finish_datastores h hs
  | other x =>
      cases hs
      exact ⟨h.platforms, h.hosts, h.vms, h.stores⟩

theorem sim_start (other : ω) : Sim env fault platform inventory db datastores
    (.start db datastores other inventory) where
  platforms := rfl
  hosts := ⟨[], .start db, rfl, rfl, fun _ => ⟨⟨rfl, rfl, rfl⟩, rfl⟩, nofun⟩
  vms := by
    refine ⟨[], _, rfl, rfl, fun _ hr => ?_, fun _ => ?_, fun hfinished => ?_⟩
    · cases hr
    · exact ⟨⟨rfl, rfl, rfl⟩, after_hosts_rest.1.symm⟩
    · cases hfinished
  stores := ⟨[], _, rfl, rfl, fun _ => ⟨_, rfl, rfl, rfl, rfl, rfl⟩, nofun⟩

end

theorem virtDb_eq {a b : VirtDb} (hplatforms : a.platforms = b.platforms)
    (hhosts : a.hosts = b.hosts) (hvms : a.vms = b.vms) : a = b := by
  obtain ⟨_, _, _⟩ := a
  subst hplatforms hhosts hvms
  rfl

/-- `sync_datastores` succeeds where it found the platform, fetched the inventory and walked it. -/
theorem sync_datastores_success {fault : DataStoreData → Option Fault} {platform : Nat}
    {objects : List DatastoreObject} {w₀ w : StoreWalk}
    (hplatform : w₀.db.has_platform platform = true)
    (hwalk : exec (forEach (visit_datastore fault platform) objects) w₀ = (.ok (), w)) :
    exec (sync_datastores fault platform (.ok objects)) w₀ =
      (.ok (.success w.synced_count w.failed_count),
        { w with datastores := deactivate_datastores platform w.names w.datastores }) := by
  unfold sync_datastores
  rw [Prog.exec_read_bind, hplatform]
  simp only [Bool.not_true, Bool.false_eq_true, if_false, Prog.exec_lift_ok_bind,
    Prog.exec_bind_of_ok hwalk, Prog.exec_update_bind, Prog.exec_read]

/-- **The parallel sync equals the sequential one**, once the subtasks are through, if every name was
settled when it was looked up. -/
theorem sequential_of_settled {env : Env} {fault : DataStoreData → Option Fault} {platform : Nat}
    {inventory : Inventory} {db : VirtDb} {datastores : DataStoreTable} {ω : Type} {other : ω}
    {l : List (Event ω)} {t : State ω} (hplatform : db.has_platform platform = true)
    (r : Run (guarded (Step env fault platform) (State.LooksUpSettled platform))
      (.start db datastores other inventory) l t) (hdone : t.Finished) :
    Sequential env fault platform inventory db datastores t.db t.datastores := by
  have hsim : Sim env fault platform inventory db datastores t :=
    r.invariant (fun _ _ _ h hs => sim_next h hs) (sim_start other)
  obtain ⟨hhosts, hvms, hstores⟩ := hdone
  obtain ⟨visited₁, w₁, hinv₁, hwalk₁, -, hend₁⟩ := hsim.hosts
  obtain ⟨visited₂, w₂, hinv₂, hwalk₂, -, -, hend₂⟩ := hsim.vms
  obtain ⟨visited₃, w₃, hinv₃, hwalk₃, -, hend₃⟩ := hsim.stores
  obtain ⟨hrest₁, hdb₁⟩ := hend₁ hhosts
  obtain ⟨hrest₂, hdb₂⟩ := hend₂ hvms
  obtain ⟨hrest₃, hdb₃⟩ := hend₃ hstores
  rw [hrest₁, List.append_nil] at hinv₁
  rw [hrest₂, List.append_nil] at hinv₂
  rw [hrest₃, List.append_nil] at hinv₃
  subst hinv₁ hinv₂ hinv₃
  have hafter₁ : after_hosts env platform inventory db = (w₁.finish_hosts platform).db := by
    unfold after_hosts
    rw [hwalk₁]
  have hafter₂ : after_vms env platform inventory db = (w₂.finish_vms platform).db := by
    unfold after_vms
    rw [hwalk₂]
  have hsame₂ : SameHosts (.start (after_hosts env platform inventory db)) w₂ :=
    (walk_vms_sameHosts inventory.vms).of_exec hwalk₂
  -- the platform is still there
  have hplatform₁ : (after_hosts env platform inventory db).has_platform platform = true := by
    rw [VirtDb.has_platform, after_hosts_rest.2]
    exact hplatform
  have hplatform₂ : (after_vms env platform inventory db).has_platform platform = true := by
    rw [hafter₂]
    exact (congrArg (List.any · _) hsame₂.2).trans hplatform₁
  have hrun₁ := (sync_hosts_success (s := .start db)).mpr
    ⟨hplatform, _, rfl, w₁, hwalk₁, rfl, rfl, rfl⟩
  have hrun₂ := (sync_vms_success (s := .start (after_hosts env platform inventory db))).mpr
    ⟨hplatform₁, _, rfl, w₂, hwalk₂, rfl, rfl, rfl⟩
  have hrun₃ := sync_datastores_success hplatform₂ hwalk₃
  rw [hafter₁] at hrun₂
  rw [hafter₂] at hrun₃
  refine ⟨_, _, _, _, _, _, _, _, _, hrun₁, hrun₂, hrun₃, ?_, hdb₃⟩
  refine virtDb_eq ?_ ?_ hdb₂
  · exact hsim.platforms.trans (after_hosts_rest.2.symm.trans hsame₂.2.symm)
  · rw [hdb₁, ← hafter₁]
    exact hsame₂.1.symm

/-- A machine on a host. -/
def sampleInventory : Inventory where
  hosts := [sampleHost "host-1" "h1" "esxi-1"]
  vms :=
    let runtime := .ok (some ⟨"poweredOn", "connected", some ⟨.ok "esxi-1", .none⟩, none⟩)
    [{ sampleVM "vm-1" "u1" "web" with runtime }]
  datastores := []

/-- A group is about to sync `sampleDb`. -/
def sampleStart : State Unit := .start sampleDb .empty () sampleInventory

instance {ω : Type} (s : State ω) : Decidable s.Finished :=
  inferInstanceAs (Decidable
    (s.hosts.finished = true ∧ s.vms.finished = true ∧ s.stores.finished = true))

/-- The host is written before it is looked up. -/
theorem sequential_of_settled_in_turn :
    ∃ t, Run (Step sampleEnv (fun _ => none) 1) sampleStart
        [.visit_host, .look_up_host, .finish_hosts, .write_vm, .finish_vms, .finish_datastores] t ∧
      Sequential sampleEnv (fun _ => none) 1 sampleInventory sampleDb .empty t.db t.datastores := by
  have h : ∃ t ∈ Lib.exec (fun s e => if s.LooksUpSettled 1 e then
        next sampleEnv (fun _ => none) 1 s e else none) sampleStart
      [.visit_host, .look_up_host, .finish_hosts, .write_vm, .finish_vms, .finish_datastores],
      t.Finished := by decide +kernel
  obtain ⟨t, ht, hdone⟩ := h
  have r := Run.guarded_of_exec ht
  exact ⟨t, r.of_guarded, sequential_of_settled (by decide) r hdone⟩

/-- The tables after the three syncs in turn, if they succeed. -/
def in_turn (env : Env) (fault : DataStoreData → Option Fault) (platform : Nat)
    (inventory : Inventory) (db : VirtDb) (datastores : DataStoreTable) :
    Option (VirtDb × DataStoreTable) :=
  match exec (sync_hosts env platform (.ok inventory.hosts)) (.start db) with
  | (.ok (.success _ _), w₁) =>
      match exec (sync_vms env platform (.ok inventory.vms)) (.start w₁.db) with
      | (.ok (.success _ _), w₂) =>
          match exec (sync_datastores fault platform (.ok inventory.datastores))
              (.start w₂.db datastores) with
          | (.ok (.success _ _), w₃) => some (w₂.db, w₃.datastores)
          | _ => none
      | _ => none
  | _ => none

theorem sequential_in_turn {env : Env} {fault : DataStoreData → Option Fault} {platform : Nat}
    {inventory : Inventory} {db : VirtDb} {datastores : DataStoreTable}
    {p : VirtDb × DataStoreTable}
    (h : in_turn env fault platform inventory db datastores = some p) :
    Sequential env fault platform inventory db datastores p.1 p.2 := by
  unfold in_turn at h
  split at h
  · next n₁ m₁ w₁ h₁ =>
    split at h
    · next n₂ m₂ w₂ h₂ =>
      split at h
      · next n₃ m₃ w₃ h₃ =>
        cases h
        exact ⟨n₁, m₁, n₂, m₂, n₃, m₃, w₁, w₂, w₃, h₁, h₂, h₃, rfl, rfl⟩
      · cases h
    · cases h
  · cases h

/-- The host is looked up before it is written: the machine is linked to no host. -/
theorem host_looked_up_early :
    (∃ t, Run (Step sampleEnv (fun _ => none) 1) sampleStart
        [.look_up_host, .visit_host, .finish_hosts, .write_vm, .finish_vms, .finish_datastores] t ∧
      t.Finished ∧ ∀ r ∈ t.db.vms.rows, r.columns.host = none) ∧
    ∃ db datastores, Sequential sampleEnv (fun _ => none) 1 sampleInventory sampleDb .empty db
        datastores ∧ ∀ r ∈ db.vms.rows, r.columns.host = some 1 := by
  constructor
  · have h : ∃ t ∈ Lib.exec (next sampleEnv (fun _ => none) 1) sampleStart
        [.look_up_host, .visit_host, .finish_hosts, .write_vm, .finish_vms, .finish_datastores],
        t.Finished ∧ ∀ r ∈ t.db.vms.rows, r.columns.host = none := by decide +kernel
    obtain ⟨t, ht, hdone, hnone⟩ := h
    exact ⟨t, Run.of_exec ht, hdone, hnone⟩
  · have h : ∃ p ∈ in_turn sampleEnv (fun _ => none) 1 sampleInventory sampleDb .empty,
        ∀ r ∈ p.1.vms.rows, r.columns.host = some 1 := by decide +kernel
    obtain ⟨p, hp, hhost⟩ := h
    exact ⟨p.1, p.2, sequential_in_turn hp, hhost⟩

end InfraHub.Virt.Parallel
