import InfraHub.Virt.Own
import InfraHub.Virt.Template
import InfraHub.Lib.Couple

/-!
# Virt — Foreign

What the rows of other platforms do to the syncs of one.  `sync_hosts`, `sync_vms` and
`sync_templates` are run in turn from two databases that agree on the platform.

The syncs look a row up by platform and uuid, but the uuid is unique in the whole table: where a
platform would get a new row, a row of another platform can stand in the way.  The two runs stay
in step (`Undisturbed`) exactly if other platforms hold the uuid of such a row in both databases or
in neither (`same_iff`).
-/

namespace InfraHub.Virt.Foreign
open InfraHub.Lib (Prog)
open InfraHub.Lib.Prog (exec forEach attempt update read lift Keeps Alike Throughout)

/-! ### The databases, and the syncs in turn -/

/-- What the database raises for the values of a record. -/
structure Faults where
  host : Record HostColumns → Option Fault
  /-- not for the key of the host, which is one that was just read -/
  vm : Record VMColumns → Option Fault
  template : Record TemplateColumns → Option Fault

def Faults.env (fault : Faults) : Env where
  hostFault := fault.host
  vmFault d := fault.vm ⟨d.uuid, d.name, d.mo_ref, d.columns.toVMColumns⟩

/-- The tables of the three syncs. -/
structure Database where
  db : VirtDb
  templates : Table TemplateColumns
  /-- the foreign key of a virtual machine -/
  linked : ∀ r ∈ db.vms.rows, ∀ host, r.columns.host = some host → host ∈ db.hosts.rows.map Row.id

/-- What connecting and fetching come to in each of the three syncs. -/
structure Fetched where
  hosts : Except Fault (List HostSystem)
  vms : Except Fault (List VirtualMachineObject)
  templates : Except Fault (List VirtualMachineObject)

/-- What the syncs return, and the tables they leave. -/
structure Outcome where
  synced_hosts : Except Fault TaskResult
  synced_vms : Except Fault TaskResult
  synced_templates : Except Fault TaskResult
  db : VirtDb
  templates : Table TemplateColumns

section
variable (fault : Faults) (platform : Nat)

/-- `sync_hosts`, then `sync_vms`, then `sync_templates`. -/
def sync (fetched : Fetched) (s : Database) : Outcome :=
  let hosts := exec (sync_hosts fault.env platform fetched.hosts) (.start s.db)
  let vms := exec (sync_vms fault.env platform fetched.vms) (.start hosts.2.db)
  let templates :=
    exec (sync_templates fault.template platform fetched.templates) (.start vms.2.db s.templates)
  ⟨hosts.1, vms.1, templates.1, vms.2.db, templates.2.templates⟩

/-- The columns of a virtual machine, with the host row of the platform behind the key. -/
def see_host (hosts : Table HostColumns) (c : VMRowColumns) : VMColumns × Option (Row HostColumns) :=
  (c.toVMColumns, c.host.bind (hosts.link platform))

/-- The platform's hosts. -/
def own_hosts (db : VirtDb) : Set (Row HostColumns) := db.hosts.own (fun c => c) platform

/-- The platform's virtual machines, each with its host. -/
def own_vms (db : VirtDb) : Set (Row (VMColumns × Option (Row HostColumns))) :=
  db.vms.own (see_host platform db.hosts) platform

/-- The platform's templates. -/
def own_templates (templates : Table TemplateColumns) : Set (Row TemplateColumns) :=
  templates.own (fun c => c) platform

/-- Two databases agree on the platform and all its rows. -/
structure Agree (s s' : Database) : Prop where
  platforms : ∀ p, p.id = platform → (p ∈ s.db.platforms ↔ p ∈ s'.db.platforms)
  hosts : ∀ r, r.platform = platform → (r ∈ s.db.hosts.rows ↔ r ∈ s'.db.hosts.rows)
  vms : ∀ r, r.platform = platform → (r ∈ s.db.vms.rows ↔ r ∈ s'.db.vms.rows)
  templates : ∀ r, r.platform = platform → (r ∈ s.templates.rows ↔ r ∈ s'.templates.rows)

/-- The same counts, and the same rows of the platform but for the primary keys of new ones. -/
structure Same (o o' : Outcome) : Prop where
  synced_hosts : o.synced_hosts = o'.synced_hosts
  synced_vms : o.synced_vms = o'.synced_vms
  synced_templates : o.synced_templates = o'.synced_templates
  hosts : own_hosts platform o.db = own_hosts platform o'.db
  vms : own_vms platform o.db = own_vms platform o'.db
  templates : own_templates platform o.templates = own_templates platform o'.templates

/-! ### The condition -/

/-- The condition on a round of `sync_hosts`. -/
def EvenHost (host : HostSystem) (s s' : Walk) : Prop :=
  ∀ d, parse_host_info host = .ok d →
    Table.Even fault.host platform s.db.hosts s'.db.hosts d

/-- The condition on a round of `sync_vms`. -/
def EvenVM (vm : VirtualMachineObject) (s s' : Walk) : Prop :=
  ∀ d, parse_vm_info vm = .ok (some d) → d.columns.is_template = false →
    Table.Even fault.env.vmFault platform s.db.vms s'.db.vms (vm_record s.db.hosts platform d)

/-- The condition on a round of `sync_templates`. -/
def EvenTemplate (vm : VirtualMachineObject) (s s' : TemplateWalk) : Prop :=
  vm.template = true → ∀ d, parse_template_info vm = .ok (some d) →
    Table.Even fault.template platform s.templates s'.templates d

/-- The database after `sync_hosts`. -/
def after_hosts (fetched : Fetched) (s : Database) : VirtDb :=
  (exec (sync_hosts fault.env platform fetched.hosts) (.start s.db)).2.db

/-- **The two runs are not disturbed.**  Whenever one of the syncs comes to an object whose uuid and
name the platform has no row of, and whose values the database takes, rows of other platforms hold
that uuid in both databases or in neither. -/
structure Undisturbed (fetched : Fetched) (s s' : Database) : Prop where
  hosts : ∀ hosts, fetched.hosts = .ok hosts →
    Throughout (visit_host fault.env platform) (EvenHost fault platform) hosts
      (.start s.db) (.start s'.db)
  vms : ∀ vms, fetched.vms = .ok vms →
    Throughout (visit_vm fault.env platform) (EvenVM fault platform) vms
      (.start (after_hosts fault platform fetched s))
      (.start (after_hosts fault platform fetched s'))
  templates : ∀ vms, fetched.templates = .ok vms →
    Throughout (visit_template fault.template platform) (EvenTemplate fault platform) vms
      (.start (sync fault platform fetched s).db s.templates)
      (.start (sync fault platform fetched s').db s'.templates)

end

/-! ### What a sync retains -/

section
variable {σ γ : Type} {table : σ → Table γ}

/-- The rows of a table stay, with their uuids. -/
def RetainsIn (table : σ → Table γ) (s s' : σ) : Prop := (table s).Retains (table s')

instance : IsPreorder σ (RetainsIn table) where
  refl s := refl_of Table.Retains (table s)
  trans _ _ _ h h' := trans_of Table.Retains h h'

/-- An assignment to another variable. -/
theorem assign_retains {f : σ → σ} (h : ∀ s, table (f s) = table s) :
    Keeps (RetainsIn table) (Prog.update f : Prog σ Fault Unit) := Keeps.update fun s => by
  unfold RetainsIn
  rw [h]
  exact refl_of Table.Retains (table s)

/-- A table of the two states is apart. -/
def ApartIn (platform : Nat) (table : σ → Table γ) (s s' : σ) : Prop :=
  Table.Apart platform (table s) (table s')

theorem apartIn_retained {platform : Nat} {s s' t t' : σ} (h : ApartIn platform table s t)
    (hs : RetainsIn table s s') (ht : RetainsIn table t t') : ApartIn platform table s' t' :=
  Table.Apart.retained h hs ht

end

/-! ### What the syncs have in common -/

section
variable {σ α β : Type} {found : σ → Bool} {refused : α} {fetched : Except Fault (List β)}
  {body : β → Prog σ Fault Unit} {finish : σ → σ} {report : σ → α} {s s' : σ}

/-- A check, the inventory, a loop, and what comes after it. -/
def walked (found : σ → Bool) (refused : α) (fetched : Except Fault (List β))
    (body : β → Prog σ Fault Unit) (finish : σ → σ) (report : σ → α) : Prog σ Fault α := do
  let found ← read found
  if !found then return refused
  else do
    let l ← lift fetched
    forEach body l
    update finish
    read report

/-- It stays in step, if the loop does. -/
theorem walked_alike {R : σ → σ → Prop} (h : R s s') (hfound : found s = found s')
    (hloop : found s = true → ∀ l, fetched = .ok l →
      Alike R (exec (forEach body l) s) (exec (forEach body l) s'))
    (hfinish : ∀ s s', R s s' → R (finish s) (finish s'))
    (hreport : ∀ s s', R s s' → report (finish s) = report (finish s')) :
    Alike R (exec (walked found refused fetched body finish report) s)
      (exec (walked found refused fetched body finish report) s') := by
  unfold walked
  rw [Prog.exec_read_bind, Prog.exec_read_bind, hfound]
  cases hp : found s' with
  | false => exact .ok h
  | true =>
      cases fetched with
      | error e => exact .error h
      | ok l =>
          change Alike R (exec (forEach body l >>= fun _ => _) s)
            (exec (forEach body l >>= fun _ => _) s')
          refine Alike.bind (hloop (hfound.trans hp) l rfl) fun _ s s' h => ?_
          exact ⟨congrArg Except.ok (hreport s s' h), hfinish s s' h⟩

/-- What the loop leaves is retained, if what comes after it retains the table. -/
theorem walked_retains {γ : Type} {table : σ → Table γ} {l : List β}
    (hfound : found s = true) (hfinish : ∀ s, RetainsIn table s (finish s)) :
    RetainsIn table (exec (forEach body l) s).2
      (exec (walked found refused (.ok l) body finish report) s).2 := by
  unfold walked
  rw [Prog.exec_read_bind, hfound]
  simp only [Bool.not_true, Bool.false_eq_true, if_false, Prog.exec_lift_ok_bind]
  rw [Prog.exec_bind]
  rcases exec (forEach body l) s with ⟨_ | _, s₁⟩
  · exact refl_of (RetainsIn table) s₁
  · exact hfinish s₁

end

/-! ### `sync_hosts` in step -/

/-- Two walks of `sync_hosts` in step: `known` are primary keys from before, and the other tables
are left. -/
structure HostsInStep (platform : Nat) (known : Nat → Prop) (db db' : VirtDb) (s s' : Walk) :
    Prop where
  uuids : s.uuids = s'.uuids
  synced : s.synced_count = s'.synced_count
  failed : s.failed_count = s'.failed_count
  own : own_hosts platform s.db = own_hosts platform s'.db
  links : ∀ id, known id → s.db.hosts.link platform id = s'.db.hosts.link platform id
  ids : ∀ id, known id → id ∈ s.db.hosts.rows.map Row.id
  ids' : ∀ id, known id → id ∈ s'.db.hosts.rows.map Row.id
  platforms : s.db.platforms = db.platforms
  platforms' : s'.db.platforms = db'.platforms
  vms : s.db.vms = db.vms
  vms' : s'.db.vms = db'.vms

section
variable {fault : Faults} {platform : Nat} {known : Nat → Prop} {db db' : VirtDb} {s s' : Walk}

theorem ids_upsert {γ : Type} {d : Record γ} {t u : Table γ}
    (h : u.rows = upsert platform d t.rows) {id : Nat} (hid : id ∈ t.rows.map Row.id) :
    id ∈ u.rows.map Row.id := by
  obtain ⟨r, hr, rfl⟩ := List.mem_map.mp hid
  refine List.mem_map.mpr ⟨_, h ▸ mem_upsert_of_mem hr, ?_⟩
  split <;> rfl

/-- Both write the record. -/
theorem HostsInStep.write (h : HostsInStep platform known db db' s s') {d : HostData}
    {u u' : Table HostColumns} (hu : u.rows = upsert platform d s.db.hosts.rows)
    (hu' : u'.rows = upsert platform d s'.db.hosts.rows)
    (hown : u.own (fun c => c) platform = u'.own (fun c => c) platform) :
    HostsInStep platform known db db' { s with db.hosts := u } { s' with db.hosts := u' } :=
  { h with
    own := hown
    links := fun id hid => by
      have hlinks : u.link platform id = u'.link platform id := by
        rw [Table.link_upsert hu (h.ids id hid), Table.link_upsert hu' (h.ids' id hid),
          h.links id hid]
      exact hlinks
    ids := fun id hid => ids_upsert hu (h.ids id hid)
    ids' := fun id hid => ids_upsert hu' (h.ids' id hid) }

theorem count_failure_alike {R : Walk → Walk → Prop}
    (hR : ∀ s s', R s s' → R { s with failed_count := s.failed_count + 1 }
      { s' with failed_count := s'.failed_count + 1 }) (nameLogged : Read String) (h : R s s') :
    Alike R (exec (count_failure nameLogged) s) (exec (count_failure nameLogged) s') :=
  (Alike.lift nameLogged h).bind fun _ _ _ h => Alike.ok (hR _ _ h)

theorem visit_host_alike {host : HostSystem} (h : HostsInStep platform known db db' s s')
    (heven : EvenHost fault platform host s s') :
    Alike (HostsInStep platform known db db') (exec (visit_host fault.env platform host) s)
      (exec (visit_host fault.env platform host) s') := by
  refine Alike.attempt ?_ fun _ s s' h => count_failure_alike
    (fun _ _ h => { h with failed := congrArg (· + 1) h.failed }) _ h
  cases hd : parse_host_info host with
  | error e => exact .error h
  | ok d =>
      rw [Prog.exec_lift_ok_bind, Prog.exec_lift_ok_bind, Prog.exec_update_bind,
        Prog.exec_update_bind]
      have h : HostsInStep platform known db db' { s with uuids := s.uuids ++ [d.uuid] }
          { s' with uuids := s'.uuids ++ [d.uuid] } :=
        { h with uuids := congrArg (· ++ [d.uuid]) h.uuids }
      refine Alike.bind ?_ fun _ s s' h =>
        Alike.ok { h with synced := congrArg (· + 1) h.synced }
      unfold sync_host_to_db
      rw [Prog.exec_read_bind, Prog.exec_read_bind]
      rcases Table.update_or_create_alike h.own rfl rfl (heven d hd) with
        ⟨e, he, he'⟩ | ⟨u, u', hu, hu', hrows, hrows', hown⟩
      · simp only [Faults.env, he, he']
        exact .error h
      · simp only [Faults.env, hu, hu']
        exact .ok (h.write hrows hrows' hown)

/-- The table and the outcome of a write that `visit_host` comes to. -/
theorem hosts_visit_host_ok {host : HostSystem} {d : HostData} {u : Table HostColumns}
    (hd : parse_host_info host = .ok d)
    (hu : s.db.hosts.update_or_create fault.host platform d = .ok u) :
    (exec (visit_host fault.env platform host) s).2.db.hosts = u := by
  simp [visit_host, sync_host_to_db, Prog.exec_attempt, Prog.exec_bind, hd, hu, Prog.lift,
    Faults.env]

theorem visit_host_retains (host : HostSystem) :
    Keeps (RetainsIn (·.db.hosts)) (visit_host fault.env platform host) := by
  refine Keeps.attempt ?_ fun _ => (Keeps.lift _).bind fun _ => assign_retains fun _ => rfl
  refine Keeps.bind (Keeps.lift _) fun d => Keeps.bind (assign_retains fun _ => rfl) fun _ => ?_
  refine Keeps.bind ?_ fun _ => assign_retains fun _ => rfl
  intro s
  unfold sync_host_to_db
  rw [Prog.exec_read_bind]
  cases hu : s.db.hosts.update_or_create fault.env.hostFault platform d with
  | error e => exact refl_of (RetainsIn (·.db.hosts)) s
  | ok u => exact Table.retains_upsert (Table.rows_update_or_create hu)

theorem visit_host_apart {host : HostSystem} (h : HostsInStep platform known db db' s s')
    (hodd : ¬ EvenHost fault platform host s s') :
    ApartIn platform (fun s : Walk => s.db.hosts) (exec (visit_host fault.env platform host) s).2
      (exec (visit_host fault.env platform host) s').2 := by
  unfold EvenHost at hodd
  push Not at hodd
  obtain ⟨d, hd, hodd⟩ := hodd
  have hkeep : Keeps (RetainsIn (·.db.hosts)) (visit_host fault.env platform host) :=
    visit_host_retains host
  rcases Table.update_or_create_apart h.own rfl rfl hodd with
    ⟨ht, u', hu', -, ho, -⟩ | ⟨ht, u, hu, -, ho, -⟩
  · rw [← hosts_visit_host_ok hd hu'] at ho
    exact ⟨d.uuid, .inl ⟨ht.retained (hkeep s), ho⟩⟩
  · rw [← hosts_visit_host_ok hd hu] at ho
    exact ⟨d.uuid, .inr ⟨ho, ht.retained (hkeep s')⟩⟩

theorem ids_deactivate {γ : Type} (p : Row γ → Bool) {t : Table γ} {id : Nat}
    (hid : id ∈ t.rows.map Row.id) : id ∈ (t.deactivate p).rows.map Row.id := by
  have hmap : (t.deactivate p).rows.map Row.id = t.rows.map Row.id :=
    map_deactivate (fun _ _ => rfl) p t.rows
  rwa [hmap]

/-- Both mark the hosts that are gone. -/
theorem HostsInStep.finish (h : HostsInStep platform known db db' s s') :
    HostsInStep platform known db db' (s.finish_hosts platform) (s'.finish_hosts platform) :=
  { h with
    own := by
      have hstale : ∀ r : Row HostColumns, r.platform = platform →
          stale_host platform s.uuids r = stale_host platform s.uuids (r.seen fun c => c) :=
        fun _ _ => rfl
      unfold own_hosts Walk.finish_hosts
      rw [← h.uuids, Table.own_deactivate hstale, Table.own_deactivate hstale]
      exact congrArg _ h.own
    links := fun id hid => by
      have hstale : ∀ r : Row HostColumns, r.platform = platform →
          stale_host platform s.uuids r = stale_host platform s.uuids (r.seen fun c => c) :=
        fun _ _ => rfl
      unfold Walk.finish_hosts
      rw [← h.uuids, Table.link_deactivate hstale (h.ids id hid),
        Table.link_deactivate hstale (h.ids' id hid), h.links id hid]
    ids := fun id hid => ids_deactivate _ (h.ids id hid)
    ids' := fun id hid => ids_deactivate _ (h.ids' id hid) }

variable {fetched : Except Fault (List HostSystem)}

/-- **`sync_hosts` stays in step.** -/
theorem sync_hosts_alike (h : HostsInStep platform known db db' s s')
    (hplatform : s.db.has_platform platform = s'.db.has_platform platform)
    (heven : s.db.has_platform platform = true → ∀ hosts, fetched = .ok hosts →
      Throughout (visit_host fault.env platform) (EvenHost fault platform) hosts s s') :
    Alike (HostsInStep platform known db db') (exec (sync_hosts fault.env platform fetched) s)
      (exec (sync_hosts fault.env platform fetched) s') := by
  refine walked_alike h hplatform (fun hp hosts hfetched => ?_) (fun _ _ h => h.finish)
    fun _ _ h => ?_
  · exact Prog.alike_forEach (fun _ _ _ h he => visit_host_alike h he) h (heven hp hosts hfetched)
  · exact congrArg₂ TaskResult.success h.synced h.failed

/-- **`sync_hosts` falls apart**, once it is disturbed. -/
theorem sync_hosts_apart {hosts : List HostSystem} (h : HostsInStep platform known db db' s s')
    (hplatform : s.db.has_platform platform = true)
    (hplatform' : s'.db.has_platform platform = true)
    (hodd : ¬ Throughout (visit_host fault.env platform) (EvenHost fault platform) hosts s s') :
    Table.Apart platform (exec (sync_hosts fault.env platform (.ok hosts)) s).2.db.hosts
      (exec (sync_hosts fault.env platform (.ok hosts)) s').2.db.hosts := by
  have hloop : ApartIn platform (fun s : Walk => s.db.hosts)
      (exec (forEach (visit_host fault.env platform) hosts) s).2
      (exec (forEach (visit_host fault.env platform) hosts) s').2 :=
    Prog.apart_forEach (K := RetainsIn fun s : Walk => s.db.hosts)
      (D := ApartIn platform fun s : Walk => s.db.hosts)
      visit_host_retains apartIn_retained (fun _ _ _ h he => visit_host_alike h he)
      (fun _ _ _ h ho => visit_host_apart h ho) h hodd
  have hrest {s : Walk} (hp : s.db.has_platform platform = true) :
      RetainsIn (fun s : Walk => s.db.hosts)
        (exec (forEach (visit_host fault.env platform) hosts) s).2
        (exec (sync_hosts fault.env platform (.ok hosts)) s).2 :=
    walked_retains hp fun _ => Table.retains_deactivate _
  exact hloop.retained (hrest hplatform) (hrest hplatform')

end

/-! ### `sync_vms` in step -/

/-- The row that `Host.objects.get(platform=…, name=…)` finds is the platform's own. -/
theorem named_link {hosts : Table HostColumns} {platform : Nat} {name : String}
    {c : Row HostColumns} :
    ((hosts.rows.find? fun h => h.platform = platform && h.name = name).map Row.id).bind
        (hosts.link platform) = some c ↔
      c ∈ hosts.own (fun c => c) platform ∧ c.name = name := by
  constructor
  · intro h
    obtain ⟨id, hid, hlink⟩ := Option.bind_eq_some_iff.mp h
    obtain ⟨r, hfind, rfl⟩ := Option.map_eq_some_iff.mp hid
    have hr : r ∈ hosts.rows := List.mem_of_find?_eq_some hfind
    have hkey : r.platform = platform ∧ r.name = name := by simpa using List.find?_some hfind
    rw [Table.link_eq_of_mem hr, if_pos hkey.1] at hlink
    cases hlink
    exact ⟨⟨r, hr, hkey.1, rfl⟩, hkey.2⟩
  · rintro ⟨⟨r, hr, hp, rfl⟩, hn⟩
    have hfind : hosts.rows.find? (fun h => h.platform = platform && h.name = name) = some r := by
      cases h : hosts.rows.find? fun h => h.platform = platform && h.name = name with
      | none =>
          have hno := List.find?_eq_none.mp h r hr
          exact absurd (by simpa using ⟨hp, hn⟩) hno
      | some q =>
          have hkey : q.platform = platform ∧ q.name = name := by simpa using List.find?_some h
          rw [hosts.eq_of_name (List.mem_of_find?_eq_some h) hr (hkey.1.trans hp.symm)
            (hkey.2.trans hn.symm)]
    rw [hfind, Option.map_some, Option.bind_some, Table.link_eq_of_mem hr, if_pos hp]

/-- The records of a machine look the same, if the platform has the same hosts. -/
theorem seen_vm_record {platform : Nat} {hosts hosts' : Table HostColumns}
    (hown : hosts.own (fun c => c) platform = hosts'.own (fun c => c) platform) (d : VMData) :
    (Row.create 0 platform (vm_record hosts platform d)).seen (see_host platform hosts) =
      (Row.create 0 platform (vm_record hosts' platform d)).seen (see_host platform hosts') := by
  have hlink : ((hosts.rows.find? fun h => h.platform = platform && h.name = d.host_name).map
        Row.id).bind (hosts.link platform) =
      ((hosts'.rows.find? fun h => h.platform = platform && h.name = d.host_name).map
        Row.id).bind (hosts'.link platform) := by
    ext c
    rw [named_link, named_link, hown]
  by_cases hname : d.host_name = ""
  · simp [Row.create, Row.seen, see_host, vm_record, hname]
  · simp [Row.create, Row.seen, see_host, vm_record, hname, hlink]

/-- Two walks of `sync_vms` in step; the other tables are left. -/
structure VMsInStep (platform : Nat) (db db' : VirtDb) (s s' : Walk) : Prop where
  uuids : s.uuids = s'.uuids
  synced : s.synced_count = s'.synced_count
  failed : s.failed_count = s'.failed_count
  own : own_vms platform s.db = own_vms platform s'.db
  hosts : s.db.hosts = db.hosts
  hosts' : s'.db.hosts = db'.hosts
  platforms : s.db.platforms = db.platforms
  platforms' : s'.db.platforms = db'.platforms

section
variable {fault : Faults} {platform : Nat} {db db' : VirtDb} {s s' : Walk}

theorem visit_vm_alike (hhosts : own_hosts platform db = own_hosts platform db')
    {vm : VirtualMachineObject} (h : VMsInStep platform db db' s s')
    (heven : EvenVM fault platform vm s s') :
    Alike (VMsInStep platform db db') (exec (visit_vm fault.env platform vm) s)
      (exec (visit_vm fault.env platform vm) s') := by
  refine Alike.attempt ?_ fun _ s s' h => count_failure_alike
    (fun _ _ h => { h with failed := congrArg (· + 1) h.failed }) _ h
  cases hd : parse_vm_info vm with
  | error e => exact .error h
  | ok data =>
      rw [Prog.exec_lift_ok_bind, Prog.exec_lift_ok_bind]
      cases data with
      | none => exact .error h
      | some d =>
          by_cases ht : d.columns.is_template = true
          · simp only [ht, if_true]
            exact .ok h
          simp only [ht, if_false, Bool.false_eq_true]
          have heven := heven d hd (by simpa using ht)
          rw [Prog.exec_update_bind, Prog.exec_update_bind]
          have h : VMsInStep platform db db' { s with uuids := s.uuids ++ [d.uuid] }
              { s' with uuids := s'.uuids ++ [d.uuid] } :=
            { h with uuids := congrArg (· ++ [d.uuid]) h.uuids }
          refine Alike.bind ?_ fun _ s s' h =>
            Alike.ok { h with synced := congrArg (· + 1) h.synced }
          unfold sync_vm_to_db
          rw [Prog.exec_read_bind, Prog.exec_read_bind]
          have hown : own_hosts platform s.db = own_hosts platform s'.db := by
            rw [own_hosts, own_hosts, h.hosts, h.hosts']
            exact hhosts
          rcases Table.update_or_create_alike h.own (seen_vm_record hown d) rfl heven with
            ⟨e, he, he'⟩ | ⟨u, u', hu, hu', hrows, hrows', hown⟩
          · simp only [he, he']
            exact .error h
          · simp only [hu, hu']
            exact .ok { h with own := hown }

theorem vms_visit_vm_ok {vm : VirtualMachineObject} {d : VMData} {u : Table VMRowColumns}
    (hd : parse_vm_info vm = .ok (some d)) (ht : d.columns.is_template = false)
    (hu : s.db.vms.update_or_create fault.env.vmFault platform
      (vm_record s.db.hosts platform d) = .ok u) :
    (exec (visit_vm fault.env platform vm) s).2.db.vms = u := by
  simp [visit_vm, sync_vm_to_db, Prog.exec_attempt, Prog.exec_bind, hd, ht, hu, Prog.lift]

theorem visit_vm_retains (vm : VirtualMachineObject) :
    Keeps (RetainsIn (·.db.vms)) (visit_vm fault.env platform vm) := by
  refine Keeps.attempt ?_ fun _ => (Keeps.lift _).bind fun _ => assign_retains fun _ => rfl
  refine Keeps.bind (Keeps.lift _) fun vm_data => ?_
  cases vm_data with
  | none => exact Keeps.raise _
  | some d =>
      refine Keeps.ite (Keeps.ret ()) ?_
      refine Keeps.bind (assign_retains fun _ => rfl) fun _ => ?_
      refine Keeps.bind ?_ fun _ => assign_retains fun _ => rfl
      intro s
      unfold sync_vm_to_db
      rw [Prog.exec_read_bind]
      cases hu : s.db.vms.update_or_create fault.env.vmFault platform
          (vm_record s.db.hosts platform d) with
      | error e => exact refl_of (RetainsIn (·.db.vms)) s
      | ok u => exact Table.retains_upsert (Table.rows_update_or_create hu)

theorem VMsInStep.own_hosts (h : VMsInStep platform db db' s s')
    (hhosts : own_hosts platform db = own_hosts platform db') :
    own_hosts platform s.db = own_hosts platform s'.db := by
  rw [Foreign.own_hosts, Foreign.own_hosts, h.hosts, h.hosts']
  exact hhosts

theorem visit_vm_apart (hhosts : own_hosts platform db = own_hosts platform db')
    {vm : VirtualMachineObject} (h : VMsInStep platform db db' s s')
    (hodd : ¬ EvenVM fault platform vm s s') :
    ApartIn platform (fun s : Walk => s.db.vms) (exec (visit_vm fault.env platform vm) s).2
      (exec (visit_vm fault.env platform vm) s').2 := by
  unfold EvenVM at hodd
  push Not at hodd
  obtain ⟨d, hd, ht, hodd⟩ := hodd
  have hkeep : Keeps (RetainsIn (·.db.vms)) (visit_vm fault.env platform vm) :=
    visit_vm_retains vm
  have hrecord := seen_vm_record (h.own_hosts hhosts) d
  rcases Table.update_or_create_apart h.own hrecord rfl hodd with
    ⟨htaken, u', hu', -, ho, -⟩ | ⟨htaken, u, hu, -, ho, -⟩
  · rw [← vms_visit_vm_ok hd ht hu'] at ho
    exact ⟨d.uuid, .inl ⟨htaken.retained (hkeep s), ho⟩⟩
  · rw [← vms_visit_vm_ok hd ht hu] at ho
    exact ⟨d.uuid, .inr ⟨ho, htaken.retained (hkeep s')⟩⟩

/-- `stale_vm`, of a row that is seen with its host. -/
def stale_seen_vm (platform : Nat) (uuids : List String)
    (c : Row (VMColumns × Option (Row HostColumns))) : Bool :=
  c.platform = platform && c.is_active && !c.columns.1.is_template && c.excluded uuids

/-- Both mark the machines that are gone. -/
theorem VMsInStep.finish (h : VMsInStep platform db db' s s') :
    VMsInStep platform db db' (s.finish_vms platform) (s'.finish_vms platform) :=
  { h with
    own := by
      have hstale (hosts : Table HostColumns) : ∀ r : Row VMRowColumns, r.platform = platform →
          stale_vm platform s.uuids r =
            stale_seen_vm platform s.uuids (r.seen (see_host platform hosts)) :=
        fun _ _ => rfl
      have hown : (s.db.vms.deactivate (stale_vm platform s.uuids)).own
            (see_host platform s.db.hosts) platform =
          (s'.db.vms.deactivate (stale_vm platform s'.uuids)).own
            (see_host platform s'.db.hosts) platform := by
        rw [← h.uuids, Table.own_deactivate (hstale s.db.hosts),
          Table.own_deactivate (hstale s'.db.hosts)]
        exact congrArg _ h.own
      exact hown }

variable {fetched : Except Fault (List VirtualMachineObject)}

/-- **`sync_vms` stays in step.** -/
theorem sync_vms_alike (hhosts : own_hosts platform db = own_hosts platform db')
    (h : VMsInStep platform db db' s s')
    (hplatform : s.db.has_platform platform = s'.db.has_platform platform)
    (heven : s.db.has_platform platform = true → ∀ vms, fetched = .ok vms →
      Throughout (visit_vm fault.env platform) (EvenVM fault platform) vms s s') :
    Alike (VMsInStep platform db db') (exec (sync_vms fault.env platform fetched) s)
      (exec (sync_vms fault.env platform fetched) s') := by
  refine walked_alike h hplatform (fun hp vms hfetched => ?_) (fun _ _ h => h.finish)
    fun _ _ h => ?_
  · exact Prog.alike_forEach (fun _ _ _ h he => visit_vm_alike hhosts h he) h
      (heven hp vms hfetched)
  · exact congrArg₂ TaskResult.success h.synced h.failed

/-- **`sync_vms` falls apart**, once it is disturbed. -/
theorem sync_vms_apart (hhosts : own_hosts platform db = own_hosts platform db')
    {vms : List VirtualMachineObject} (h : VMsInStep platform db db' s s')
    (hplatform : s.db.has_platform platform = true)
    (hplatform' : s'.db.has_platform platform = true)
    (hodd : ¬ Throughout (visit_vm fault.env platform) (EvenVM fault platform) vms s s') :
    Table.Apart platform (exec (sync_vms fault.env platform (.ok vms)) s).2.db.vms
      (exec (sync_vms fault.env platform (.ok vms)) s').2.db.vms := by
  have hloop : ApartIn platform (fun s : Walk => s.db.vms)
      (exec (forEach (visit_vm fault.env platform) vms) s).2
      (exec (forEach (visit_vm fault.env platform) vms) s').2 :=
    Prog.apart_forEach (K := RetainsIn fun s : Walk => s.db.vms)
      (D := ApartIn platform fun s : Walk => s.db.vms) visit_vm_retains apartIn_retained
      (fun _ _ _ h he => visit_vm_alike hhosts h he)
      (fun _ _ _ h ho => visit_vm_apart hhosts h ho) h hodd
  have hrest {s : Walk} (hp : s.db.has_platform platform = true) :
      RetainsIn (fun s : Walk => s.db.vms) (exec (forEach (visit_vm fault.env platform) vms) s).2
        (exec (sync_vms fault.env platform (.ok vms)) s).2 :=
    walked_retains hp fun _ => Table.retains_deactivate _
  exact hloop.retained (hrest hplatform) (hrest hplatform')

/-- `sync_vms` leaves the hosts and the platforms. -/
theorem sync_vms_sameHosts : SameHosts s (exec (sync_vms fault.env platform fetched) s).2 := by
  unfold sync_vms
  refine Keeps.bind (Keeps.read _) (fun found => Keeps.ite (Keeps.ret _) ?_) s
  refine Keeps.bind (Keeps.lift _) fun vms => Keeps.bind (walk_vms_sameHosts vms) fun _ => ?_
  refine Keeps.bind (R := SameHosts) (Keeps.update fun _ => ⟨rfl, rfl⟩) fun _ => Keeps.read _

end

/-! ### `sync_templates` in step -/

/-- Two walks of `sync_templates` in step. -/
structure TemplatesInStep (platform : Nat) (s s' : TemplateWalk) : Prop where
  uuids : s.uuids = s'.uuids
  synced : s.synced_count = s'.synced_count
  failed : s.failed_count = s'.failed_count
  own : own_templates platform s.templates = own_templates platform s'.templates

section
variable {fault : Faults} {platform : Nat} {s s' : TemplateWalk}

theorem visit_template_alike {vm : VirtualMachineObject} (h : TemplatesInStep platform s s')
    (heven : EvenTemplate fault platform vm s s') :
    Alike (TemplatesInStep platform) (exec (visit_template fault.template platform vm) s)
      (exec (visit_template fault.template platform vm) s') := by
  refine Alike.attempt ?_ fun _ s s' h => (Alike.lift _ h).bind fun _ _ _ h =>
    Alike.ok { h with failed := congrArg (· + 1) h.failed }
  cases hconfig : vm.config with
  | error e => exact .error h
  | ok config =>
      rw [Prog.exec_lift_ok_bind, Prog.exec_lift_ok_bind]
      cases config with
      | none => exact .ok h
      | some config =>
          by_cases ht : config.template = true
          swap
          · simp only [ht, Bool.not_false, if_true]
            exact .ok h
          simp only [ht, Bool.not_true, Bool.false_eq_true, if_false]
          have heven := heven (by simp [VirtualMachineObject.template, hconfig, ht])
          unfold sync_template
          cases hd : parse_template_info vm with
          | error e => exact .error h
          | ok data =>
              rw [Prog.exec_lift_ok_bind, Prog.exec_lift_ok_bind]
              cases data with
              | none => exact .error h
              | some d =>
                  rw [Prog.exec_update_bind, Prog.exec_update_bind]
                  have h : TemplatesInStep platform { s with uuids := s.uuids ++ [d.uuid] }
                      { s' with uuids := s'.uuids ++ [d.uuid] } :=
                    { h with uuids := congrArg (· ++ [d.uuid]) h.uuids }
                  refine Alike.bind ?_ fun _ s s' h =>
                    Alike.ok { h with synced := congrArg (· + 1) h.synced }
                  unfold sync_template_to_db
                  rw [Prog.exec_read_bind, Prog.exec_read_bind]
                  rcases Table.update_or_create_alike h.own rfl rfl (heven d hd) with
                    ⟨e, he, he'⟩ | ⟨u, u', hu, hu', -, -, hown⟩
                  · simp only [he, he']
                    exact .error h
                  · simp only [hu, hu']
                    exact .ok { h with own := hown }

theorem templates_visit_template_ok {vm : VirtualMachineObject} {d : TemplateData}
    {u : Table TemplateColumns} (ht : vm.template = true)
    (hd : parse_template_info vm = .ok (some d))
    (hu : s.templates.update_or_create fault.template platform d = .ok u) :
    (exec (visit_template fault.template platform vm) s).2.templates = u := by
  obtain ⟨config, hconfig, ht⟩ : ∃ config, vm.config = .ok (some config) ∧ config.template = true := by
    unfold VirtualMachineObject.template at ht
    split at ht
    · next config hconfig => exact ⟨config, hconfig, ht⟩
    · cases ht
    · cases ht
  simp [visit_template, sync_template, sync_template_to_db, Prog.exec_attempt, Prog.exec_bind, hd,
    ht, hu, hconfig, Prog.lift]

theorem visit_template_retains (vm : VirtualMachineObject) :
    Keeps (RetainsIn TemplateWalk.templates) (visit_template fault.template platform vm) := by
  refine Keeps.attempt ?_ fun _ => (Keeps.lift _).bind fun _ => assign_retains fun _ => rfl
  refine Keeps.bind (Keeps.lift _) fun config => ?_
  cases config with
  | none => exact Keeps.ret ()
  | some config =>
      refine Keeps.ite (Keeps.ret ()) ?_
      refine Keeps.bind (Keeps.lift _) fun template_data => ?_
      cases template_data with
      | none => exact Keeps.raise _
      | some d =>
          refine Keeps.bind (assign_retains fun _ => rfl) fun _ => ?_
          refine Keeps.bind ?_ fun _ => assign_retains fun _ => rfl
          intro s
          unfold sync_template_to_db
          rw [Prog.exec_read_bind]
          cases hu : s.templates.update_or_create fault.template platform d with
          | error e => exact refl_of (RetainsIn TemplateWalk.templates) s
          | ok u => exact Table.retains_upsert (Table.rows_update_or_create hu)

theorem visit_template_apart {vm : VirtualMachineObject} (h : TemplatesInStep platform s s')
    (hodd : ¬ EvenTemplate fault platform vm s s') :
    ApartIn platform TemplateWalk.templates
      (exec (visit_template fault.template platform vm) s).2
      (exec (visit_template fault.template platform vm) s').2 := by
  unfold EvenTemplate at hodd
  push Not at hodd
  obtain ⟨ht, d, hd, hodd⟩ := hodd
  have hkeep : Keeps (RetainsIn TemplateWalk.templates)
      (visit_template fault.template platform vm) := visit_template_retains vm
  rcases Table.update_or_create_apart h.own rfl rfl hodd with
    ⟨htaken, u', hu', -, ho, -⟩ | ⟨htaken, u, hu, -, ho, -⟩
  · rw [← templates_visit_template_ok ht hd hu'] at ho
    exact ⟨d.uuid, .inl ⟨htaken.retained (hkeep s), ho⟩⟩
  · rw [← templates_visit_template_ok ht hd hu] at ho
    exact ⟨d.uuid, .inr ⟨ho, htaken.retained (hkeep s')⟩⟩

variable {fetched : Except Fault (List VirtualMachineObject)}

/-- **`sync_templates` stays in step.** -/
theorem sync_templates_alike (h : TemplatesInStep platform s s')
    (hplatform : s.db.has_platform platform = s'.db.has_platform platform)
    (heven : s.db.has_platform platform = true → ∀ vms, fetched = .ok vms →
      Throughout (visit_template fault.template platform) (EvenTemplate fault platform) vms s s') :
    Alike (TemplatesInStep platform) (exec (sync_templates fault.template platform fetched) s)
      (exec (sync_templates fault.template platform fetched) s') := by
  refine walked_alike h hplatform (fun hp vms hfetched => ?_) (fun s s' h => ?_) fun _ _ h => ?_
  · exact Prog.alike_forEach (fun _ _ _ h he => visit_template_alike h he) h (heven hp vms hfetched)
  · -- the templates that are gone
    have hstale : ∀ r : Row TemplateColumns, r.platform = platform →
        stale_template platform s.uuids r = stale_template platform s.uuids (r.seen fun c => c) :=
      fun _ _ => rfl
    have hown : (s.templates.deactivate (stale_template platform s.uuids)).own
          (fun c => c) platform =
        (s'.templates.deactivate (stale_template platform s'.uuids)).own (fun c => c) platform := by
      rw [← h.uuids, Table.own_deactivate hstale, Table.own_deactivate hstale]
      exact congrArg _ h.own
    exact { h with own := hown }
  · exact congrArg₂ TaskResult.success h.synced h.failed

/-- **`sync_templates` falls apart**, once it is disturbed. -/
theorem sync_templates_apart {vms : List VirtualMachineObject} (h : TemplatesInStep platform s s')
    (hplatform : s.db.has_platform platform = true)
    (hplatform' : s'.db.has_platform platform = true)
    (hodd : ¬ Throughout (visit_template fault.template platform) (EvenTemplate fault platform)
      vms s s') :
    Table.Apart platform (exec (sync_templates fault.template platform (.ok vms)) s).2.templates
      (exec (sync_templates fault.template platform (.ok vms)) s').2.templates := by
  have hloop : ApartIn platform TemplateWalk.templates
      (exec (forEach (visit_template fault.template platform) vms) s).2
      (exec (forEach (visit_template fault.template platform) vms) s').2 :=
    Prog.apart_forEach (K := RetainsIn TemplateWalk.templates)
      (D := ApartIn platform TemplateWalk.templates) visit_template_retains apartIn_retained
      (fun _ _ _ h he => visit_template_alike h he)
      (fun _ _ _ h ho => visit_template_apart h ho) h hodd
  have hrest {s : TemplateWalk} (hp : s.db.has_platform platform = true) :
      RetainsIn TemplateWalk.templates
        (exec (forEach (visit_template fault.template platform) vms) s).2
        (exec (sync_templates fault.template platform (.ok vms)) s).2 :=
    walked_retains hp fun _ => Table.retains_deactivate _
  exact hloop.retained (hrest hplatform) (hrest hplatform')

end

/-! ### The three syncs -/

section
variable {fault : Faults} {platform : Nat} {fetched : Fetched} {s s' : Database}

theorem Agree.has_platform (h : Agree platform s s') :
    s.db.has_platform platform = s'.db.has_platform platform := by
  have himp {s s' : Database} (h : Agree platform s s')
      (hp : s.db.has_platform platform = true) : s'.db.has_platform platform = true := by
    obtain ⟨p, hp, hid⟩ := List.any_eq_true.mp hp
    have hid' : p.id = platform ∧ p.is_active = true := by simpa using hid
    exact List.any_eq_true.mpr ⟨p, (h.platforms p hid'.1).mp hp, hid⟩
  have hsymm : Agree platform s' s :=
    ⟨fun p hp => (h.platforms p hp).symm, fun r hr => (h.hosts r hr).symm,
      fun r hr => (h.vms r hr).symm, fun r hr => (h.templates r hr).symm⟩
  exact Bool.eq_iff_iff.mpr ⟨himp h, himp hsymm⟩

/-- Tables with the same rows of the platform. -/
theorem own_congr {γ δ : Type} {see see' : γ → δ} {t t' : Table γ}
    (h : ∀ r, r.platform = platform → (r ∈ t.rows ↔ r ∈ t'.rows))
    (hsee : ∀ r ∈ t.rows, r.platform = platform → see r.columns = see' r.columns) :
    t.own see platform = t'.own see' platform := by
  have hseen {r : Row γ} (hr : r ∈ t.rows) (hp : r.platform = platform) :
      r.seen see = r.seen see' := by
    simp [Row.seen, hsee r hr hp]
  ext c
  constructor
  · rintro ⟨r, hr, hp, rfl⟩
    exact ⟨r, (h r hp).mp hr, hp, (hseen hr hp).symm⟩
  · rintro ⟨r, hr, hp, rfl⟩
    have hr' : r ∈ t.rows := (h r hp).mpr hr
    exact ⟨r, hr', hp, hseen hr' hp⟩

/-- Primary keys that both databases had. -/
def Known (s s' : Database) (id : Nat) : Prop :=
  id ∈ s.db.hosts.rows.map Row.id ∧ id ∈ s'.db.hosts.rows.map Row.id

/-- A row of the platform with a key that both databases have is the same row in both. -/
theorem Agree.link (h : Agree platform s s') {id : Nat} (hid : Known s s' id) :
    s.db.hosts.link platform id = s'.db.hosts.link platform id := by
  obtain ⟨hid, hid'⟩ := hid
  obtain ⟨r, hr, rfl⟩ := List.mem_map.mp hid
  obtain ⟨r', hr', hrid⟩ := List.mem_map.mp hid'
  rw [Table.link_eq_of_mem hr, ← hrid, Table.link_eq_of_mem hr']
  by_cases hp : r.platform = platform
  · have : r = r' := s'.db.hosts.eq_of_id ((h.hosts r hp).mp hr) hr' hrid.symm
    rw [this]
  · have hp' : r'.platform ≠ platform := fun hp' => by
      have : r = r' := s.db.hosts.eq_of_id hr ((h.hosts r' hp').mpr hr') hrid.symm
      exact hp (this ▸ hp')
    rw [if_neg hp, if_neg hp']

theorem Agree.hostsInStep (h : Agree platform s s') :
    HostsInStep platform (Known s s') s.db s'.db (.start s.db) (.start s'.db) where
  uuids := rfl
  synced := rfl
  failed := rfl
  own := own_congr h.hosts fun _ _ _ => rfl
  links _ := h.link
  ids _ hid := hid.1
  ids' _ hid := hid.2
  platforms := rfl
  platforms' := rfl
  vms := rfl
  vms' := rfl

theorem Agree.templatesInStep (h : Agree platform s s') (db db' : VirtDb) :
    TemplatesInStep platform (.start db s.templates) (.start db' s'.templates) where
  uuids := rfl
  synced := rfl
  failed := rfl
  own := own_congr h.templates fun _ _ _ => rfl

/-- After `sync_hosts` in step, the platform's virtual machines have the same hosts. -/
theorem HostsInStep.vmsInStep (hagree : Agree platform s s') {w w' : Walk}
    (h : HostsInStep platform (Known s s') s.db s'.db w w') :
    VMsInStep platform w.db w'.db (.start w.db) (.start w'.db) where
  uuids := rfl
  synced := rfl
  failed := rfl
  own := by
    have hlinks : ∀ r ∈ s.db.vms.rows, r.platform = platform →
        see_host platform w.db.hosts r.columns = see_host platform w'.db.hosts r.columns := by
      intro r hr hp
      cases hhost : r.columns.host with
      | none => simp [see_host, hhost]
      | some host =>
          have hknown : Known s s' host :=
            ⟨s.linked r hr host hhost, s'.linked r ((hagree.vms r hp).mp hr) host hhost⟩
          simp [see_host, hhost, h.links host hknown]
    have hown : s.db.vms.own (see_host platform w.db.hosts) platform =
        s'.db.vms.own (see_host platform w'.db.hosts) platform :=
      own_congr hagree.vms hlinks
    rw [← h.vms, ← h.vms'] at hown
    exact hown
  hosts := rfl
  hosts' := rfl
  platforms := rfl
  platforms' := rfl

variable (fault fetched)

theorem hosts_after_sync (s : Database) :
    (sync fault platform fetched s).db.hosts = (after_hosts fault platform fetched s).hosts :=
  sync_vms_sameHosts.1

theorem platforms_after_sync (s : Database) :
    (sync fault platform fetched s).db.platforms =
      (after_hosts fault platform fetched s).platforms :=
  sync_vms_sameHosts.2

variable {fault fetched}

theorem has_platform_congr {db db' : VirtDb} (h : db.platforms = db'.platforms) :
    db.has_platform platform = db'.has_platform platform := by
  unfold VirtDb.has_platform
  rw [h]

/-- `sync_hosts` from databases that agree. -/
theorem Agree.after_hosts (h : Agree platform s s')
    (heven : s.db.has_platform platform = true → ∀ hosts, fetched.hosts = .ok hosts →
      Throughout (visit_host fault.env platform) (EvenHost fault platform) hosts
        (.start s.db) (.start s'.db)) :
    Alike (HostsInStep platform (Known s s') s.db s'.db)
      (exec (sync_hosts fault.env platform fetched.hosts) (.start s.db))
      (exec (sync_hosts fault.env platform fetched.hosts) (.start s'.db)) :=
  sync_hosts_alike h.hostsInStep h.has_platform heven

section
variable (h : Agree platform s s')
  (hhosts : HostsInStep platform (Known s s') s.db s'.db
    (exec (sync_hosts fault.env platform fetched.hosts) (.start s.db)).2
    (exec (sync_hosts fault.env platform fetched.hosts) (.start s'.db)).2)
include h hhosts

theorem has_platform_after :
    (after_hosts fault platform fetched s).has_platform platform = s.db.has_platform platform ∧
    (after_hosts fault platform fetched s').has_platform platform =
      s.db.has_platform platform := by
  refine ⟨has_platform_congr hhosts.platforms, ?_⟩
  rw [h.has_platform]
  exact has_platform_congr hhosts.platforms'

/-- `sync_vms`, after `sync_hosts` in step. -/
theorem after_vms_alike
    (heven : s.db.has_platform platform = true → ∀ vms, fetched.vms = .ok vms →
      Throughout (visit_vm fault.env platform) (EvenVM fault platform) vms
        (.start (after_hosts fault platform fetched s))
        (.start (after_hosts fault platform fetched s'))) :
    Alike (VMsInStep platform (after_hosts fault platform fetched s)
        (after_hosts fault platform fetched s'))
      (exec (sync_vms fault.env platform fetched.vms)
        (.start (after_hosts fault platform fetched s)))
      (exec (sync_vms fault.env platform fetched.vms)
        (.start (after_hosts fault platform fetched s'))) := by
  obtain ⟨hp, hp'⟩ := has_platform_after h hhosts
  refine sync_vms_alike hhosts.own (hhosts.vmsInStep h) (hp.trans hp'.symm) fun hplatform => ?_
  exact heven (hp.symm.trans hplatform)

/-- `sync_templates`, after the others. -/
theorem after_templates_alike
    (heven : s.db.has_platform platform = true → ∀ vms, fetched.templates = .ok vms →
      Throughout (visit_template fault.template platform) (EvenTemplate fault platform) vms
        (.start (sync fault platform fetched s).db s.templates)
        (.start (sync fault platform fetched s').db s'.templates)) :
    Alike (TemplatesInStep platform)
      (exec (sync_templates fault.template platform fetched.templates)
        (.start (sync fault platform fetched s).db s.templates))
      (exec (sync_templates fault.template platform fetched.templates)
        (.start (sync fault platform fetched s').db s'.templates)) := by
  obtain ⟨hp, hp'⟩ := has_platform_after h hhosts
  have hsync : (sync fault platform fetched s).db.has_platform platform =
      s.db.has_platform platform := (has_platform_congr (platforms_after_sync fault fetched s)).trans hp
  have hsync' : (sync fault platform fetched s').db.has_platform platform =
      s.db.has_platform platform :=
    (has_platform_congr (platforms_after_sync fault fetched s')).trans hp'
  exact sync_templates_alike (h.templatesInStep _ _) (hsync.trans hsync'.symm) fun hplatform =>
    heven (hsync.symm.trans hplatform)

end

/-- **Other platforms do not show**, in the counts and the platform's rows, exactly if neither run is
disturbed where the other is not. -/
theorem same_iff (h : Agree platform s s') :
    Same platform (sync fault platform fetched s) (sync fault platform fetched s') ↔
      (s.db.has_platform platform = true → Undisturbed fault platform fetched s s') := by
  constructor
  · intro hsame hplatform
    have hplatform' : s'.db.has_platform platform = true := h.has_platform ▸ hplatform
    -- each sync stays in step, or its table is apart in the end
    have heven : ∀ hosts, fetched.hosts = .ok hosts →
        Throughout (visit_host fault.env platform) (EvenHost fault platform) hosts
          (.start s.db) (.start s'.db) := by
      intro hosts hfetched
      by_contra hodd
      have hapart := sync_hosts_apart h.hostsInStep hplatform hplatform' hodd
      rw [← hfetched] at hapart
      have hne := Table.own_ne_of_apart (fun c => c) (fun c => c) hapart
      refine hne ?_
      have := hsame.hosts
      rw [own_hosts, own_hosts, hosts_after_sync, hosts_after_sync] at this
      exact this
    have hhosts := (h.after_hosts fun _ => heven).2
    obtain ⟨hp, hp'⟩ := has_platform_after h hhosts
    refine ⟨heven, fun vms hfetched => ?_, fun vms hfetched => ?_⟩
    · by_contra hodd
      have hapart := sync_vms_apart hhosts.own (hhosts.vmsInStep h) (hp.trans hplatform)
        (hp'.trans hplatform) hodd
      rw [← hfetched] at hapart
      exact Table.own_ne_of_apart _ _ hapart hsame.vms
    · by_contra hodd
      have hapart := sync_templates_apart (h.templatesInStep _ _)
        ((has_platform_congr (platforms_after_sync fault fetched s)).trans (hp.trans hplatform))
        ((has_platform_congr (platforms_after_sync fault fetched s')).trans (hp'.trans hplatform))
        hodd
      rw [← hfetched] at hapart
      exact Table.own_ne_of_apart _ _ hapart hsame.templates
  · intro heven
    obtain ⟨hresult₁, hhosts⟩ := h.after_hosts fun hp => (heven hp).hosts
    obtain ⟨hresult₂, hvms⟩ := after_vms_alike h hhosts fun hp => (heven hp).vms
    obtain ⟨hresult₃, htemplates⟩ := after_templates_alike h hhosts fun hp => (heven hp).templates
    refine ⟨hresult₁, hresult₂, hresult₃, ?_, hvms.own, htemplates.own⟩
    rw [own_hosts, own_hosts, hosts_after_sync, hosts_after_sync]
    exact hhosts.own

end

/-- Platform 1 with its machine `web`, and perhaps a platform 2. -/
def sampleDatabase (vms : Table VMRowColumns) (h : ∀ r ∈ vms.rows, r.columns.host = none) :
    Database where
  db := { sampleDb with vms }
  templates := ⟨[], by decide⟩
  linked r hr host hhost := by
    rw [h r hr] at hhost
    cases hhost

/-- A machine of platform 2. -/
def foreignRow (id : Nat) (uuid name moId : String) : Row VMRowColumns :=
  { sampleRow id uuid name moId with platform := 2 }

def sampleFaults : Faults := ⟨fun _ => none, fun _ => none, fun _ => none⟩

def sampleFetched : Fetched := ⟨.ok [], .ok [sampleVM "vm-1" "u1" "web"], .ok []⟩

/-- Platform 2 has a machine of the same name, with another uuid. -/
theorem same_iff_other_uuid :
    Same 1
      (sync sampleFaults 1 sampleFetched (sampleDatabase ⟨[sampleRow 1 "u1" "web" "vm-1"], by decide⟩
        (by decide)))
      (sync sampleFaults 1 sampleFetched (sampleDatabase
        ⟨[sampleRow 1 "u1" "web" "vm-1", foreignRow 2 "u2" "web" "vm-9"], by decide⟩
        (by decide))) := by
  refine (same_iff ?_).mpr fun _ => ⟨?_, ?_, ?_⟩
  · refine ⟨fun _ _ => Iff.rfl, fun _ _ => Iff.rfl, fun r hr => ?_, fun _ _ => Iff.rfl⟩
    have hne : r ≠ foreignRow 2 "u2" "web" "vm-9" := by
      rintro rfl
      exact absurd hr (by decide)
    simp [sampleDatabase, hne]
  · rintro hosts ⟨⟩
    trivial
  · rintro vms ⟨⟩
    -- the machine is the platform's already
    refine ⟨fun d hd _ _ hlacks => ?_, fun _ _ _ _ => trivial⟩
    cases hd
    exact absurd rfl (hlacks (sampleRow 1 "u1" "web" "vm-1") (.head _) rfl).1
  · rintro vms ⟨⟩
    trivial

/-- Platform 2 already has the machine `u1`: platform 1 fails to get it. -/
theorem uuid_held_elsewhere :
    Agree 1
      (sampleDatabase ⟨[foreignRow 1 "u1" "web" "vm-1"], by decide⟩ (by decide))
      (sampleDatabase ⟨[], by decide⟩ (by decide)) ∧
    ¬ Same 1
      (sync sampleFaults 1 sampleFetched
        (sampleDatabase ⟨[foreignRow 1 "u1" "web" "vm-1"], by decide⟩ (by decide)))
      (sync sampleFaults 1 sampleFetched (sampleDatabase ⟨[], by decide⟩ (by decide))) := by
  constructor
  · refine ⟨fun _ _ => Iff.rfl, fun _ _ => Iff.rfl, fun r hr => ?_, fun _ _ => Iff.rfl⟩
    have hne : r ≠ foreignRow 1 "u1" "web" "vm-1" := by
      rintro rfl
      exact absurd hr (by decide)
    simp [sampleDatabase, hne]
  · intro h
    -- 0 and 1 against 1 and 0
    exact absurd h.synced_vms (by decide +kernel)

end InfraHub.Virt.Foreign
