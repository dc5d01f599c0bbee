import InfraHub.Virt.Sync

/-!
# Virt — Active

Which active rows `sync_hosts` and `sync_vms` leave active.

A row is deactivated when its uuid was not recorded in the loop, and a uuid is recorded only once
its object is parsed.  What the database makes of the record afterwards does not matter, but an
object that does not parse (no configuration yet, a property that cannot be read) costs its row
the activity although vSphere reports it (`sync_vms_deactivates_reported`).  The exact condition is
that every such row carries the uuid of some object that parses (`sync_keeps_reported_iff`).
-/

namespace InfraHub.Virt
open InfraHub.Lib
open InfraHub.Lib.Prog (exec forEach lift)

variable {γ : Type} {platform : Nat}

/-! ### The statement -/

/-- A row of `platform` that was active, and whose object `reported` holds of, is still active. -/
def KeepsActive (platform : Nat) (reported : Row γ → Prop) (t t' : Table γ) : Prop :=
  ∀ r ∈ t.rows, r.platform = platform → r.is_active = true → reported r →
    ∃ r' ∈ t'.rows, r'.id = r.id ∧ r'.is_active = true

/-- The row is of a host in the inventory, by its `mo_ref`. -/
def reported_host (hosts : List HostSystem) (r : Row HostColumns) : Prop :=
  ∃ host ∈ hosts, r.mo_ref = some host.moId

/-- The row is of an object in the inventory that is not known to be a template. -/
def reported_vm (vms : List VirtualMachineObject) (r : Row VMRowColumns) : Prop :=
  ∃ vm ∈ vms, vm.template = false ∧ r.mo_ref = some vm.moId

/-- The row has the uuid of a host that parses. -/
def parsed_host (hosts : List HostSystem) (r : Row HostColumns) : Prop :=
  ∃ host ∈ hosts, ∃ d, parse_host_info host = .ok d ∧ r.uuid = some d.uuid

/-- The row has the uuid of an object that parses and is no template. -/
def parsed_vm (vms : List VirtualMachineObject) (r : Row VMRowColumns) : Prop :=
  ∃ vm ∈ vms, ∃ d, parse_vm_info vm = .ok (some d) ∧ d.columns.is_template = false ∧
    r.uuid = some d.uuid

/-! ### Rows through the walk -/

/-- Every row of `t` is in `t'` as it was, or written as the row of a recorded uuid. -/
def Evolves (uuids : List String) (t t' : Table γ) : Prop :=
  ∀ r ∈ t.rows, ∃ r' ∈ t'.rows, r'.id = r.id ∧
    (r' = r ∨ r'.is_active = true ∧ ∃ u ∈ uuids, r.uuid = some u ∧ r'.uuid = some u)

theorem Evolves.refl (uuids : List String) (t : Table γ) :
    Evolves uuids t t :=
  fun r hr => ⟨r, hr, rfl, .inl rfl⟩

theorem Evolves.record {uuids : List String} {t t' : Table γ} (h : Evolves uuids t t')
    (u : String) : Evolves (uuids ++ [u]) t t' := by
  intro r hr
  obtain ⟨r', hr', hid, h⟩ := h r hr
  refine ⟨r', hr', hid, h.imp_right ?_⟩
  rintro ⟨ha, v, hv, h⟩
  exact ⟨ha, v, List.mem_append_left _ hv, h⟩

/-- A write of a recorded uuid. -/
theorem Evolves.write {uuids : List String} {t t' t'' : Table γ} {d : Record γ}
    {fault : Record γ → Option Fault} (h : Evolves uuids t t')
    (hput : t'.update_or_create fault platform d = .ok t'') (hd : d.uuid ∈ uuids) :
    Evolves uuids t t'' := by
  have hrows := Table.rows_update_or_create hput
  intro r hr
  obtain ⟨s, hs, hid, h⟩ := h r hr
  have hmem : (if s.Matches platform d.uuid then s.update d else s) ∈ upsert platform d t'.rows :=
    mem_upsert_of_mem hs
  by_cases hm : s.Matches platform d.uuid
  · rw [if_pos hm] at hmem
    refine ⟨s.update d, hrows ▸ hmem, hid, .inr ⟨rfl, d.uuid, hd, ?_, hm.2⟩⟩
    rcases h with rfl | ⟨-, u, -, hru, hsu⟩
    · exact hm.2
    · rw [hru, ← hsu, hm.2]
  · rw [if_neg hm] at hmem
    exact ⟨s, hrows ▸ hmem, hid, h⟩

/-- Who is active once the rest is deactivated; `live` is what the filter asks beside the platform
and the activity. -/
theorem active_after_iff {live : Row γ → Prop} {stale : Row γ → Bool} {uuids : List String}
    {t t' : Table γ} (h : Evolves uuids t t')
    (hstale : ∀ r, stale r = true ↔
      r.platform = platform ∧ r.is_active = true ∧ live r ∧ r.excluded uuids = true)
    {r : Row γ} (hr : r ∈ t.rows) (hp : r.platform = platform) (ha : r.is_active = true) :
    (∃ r' ∈ (t'.deactivate stale).rows, r'.id = r.id ∧ r'.is_active = true) ↔
      ¬ live r ∨ ∃ u ∈ uuids, r.uuid = some u := by
  have kept {s : Row γ} {u : String} (hu : u ∈ uuids) (hs : s.uuid = some u) : stale s ≠ true := by
    intro hst
    have := ((hstale s).mp hst).2.2.2
    simp [Row.excluded, hs, hu] at this
  obtain ⟨s, hs, hid, hev⟩ := h r hr
  constructor
  · rintro ⟨r', hr', hid', ha'⟩
    obtain ⟨s', hs', rfl⟩ := List.mem_map.mp hr'
    by_cases hst : stale s' = true
    · rw [if_pos hst] at ha'
      cases ha'
    · rw [if_neg hst] at hid'
      obtain rfl : s' = s := t'.eq_of_id hs' hs (hid'.trans hid.symm)
      rcases hev with rfl | ⟨-, u, hu, hru, -⟩
      · by_cases hl : live s'
        · -- not stale, so its uuid was recorded
          have hex : s'.excluded uuids ≠ true := fun hex =>
            hst ((hstale s').mpr ⟨hp, ha, hl, hex⟩)
          unfold Row.excluded at hex
          cases hu : s'.uuid with
          | none => simp [hu] at hex
          | some u => exact .inr ⟨u, by simpa [hu] using hex, rfl⟩
        · exact .inl hl
      · exact .inr ⟨u, hu, hru⟩
  · intro hkeep
    have hfresh : stale s ≠ true ∧ s.is_active = true := by
      rcases hev with rfl | ⟨hsa, u, hu, -, hsu⟩
      · refine ⟨?_, ha⟩
        rcases hkeep with hl | ⟨u, hu, hru⟩
        · exact fun hst => hl ((hstale s).mp hst).2.2.1
        · exact kept hu hru
      · exact ⟨kept hu hsu, hsa⟩
    exact ⟨s, List.mem_map.mpr ⟨s, hs, if_neg hfresh.1⟩, hid, hfresh.2⟩

/-! ### The loops -/

variable {env : Env}

theorem count_failure_ok {nameLogged : Read String} {s s' : Walk}
    (h : exec (count_failure nameLogged) s = (.ok (), s')) :
    s' = { s with failed_count := s.failed_count + 1 } := by
  cases nameLogged with
  | error e => cases h
  | ok name => cases h; rfl

/-- The uuid `visit_host` records. -/
def recorded_host (host : HostSystem) : List String :=
  match parse_host_info host with
  | .ok d => [d.uuid]
  | .error _ => []

/-- The uuid `visit_vm` records. -/
def recorded_vm (vm : VirtualMachineObject) : List String :=
  match parse_vm_info vm with
  | .ok (some d) => if d.columns.is_template then [] else [d.uuid]
  | .ok none | .error _ => []

/-- What one round of the loop of `sync_hosts` can do. -/
inductive VisitedHost (env : Env) (platform : Nat) (host : HostSystem) (s : Walk) : Walk → Prop where
  | unparsed {e : Fault} (hp : parse_host_info host = .error e) :
      VisitedHost env platform host s { s with failed_count := s.failed_count + 1 }
  | refused {d : HostData} {e : Fault} (hp : parse_host_info host = .ok d)
      (hw : s.db.hosts.update_or_create env.hostFault platform d = .error e) :
      VisitedHost env platform host s
        { s with uuids := s.uuids ++ [d.uuid], failed_count := s.failed_count + 1 }
  | written {d : HostData} {t : Table HostColumns} (hp : parse_host_info host = .ok d)
      (hw : s.db.hosts.update_or_create env.hostFault platform d = .ok t) :
      VisitedHost env platform host s
        ⟨{ s.db with hosts := t }, s.uuids ++ [d.uuid], s.synced_count + 1, s.failed_count⟩

theorem visit_host_cases {host : HostSystem} {s s' : Walk}
    (h : exec (visit_host env platform host) s = (.ok (), s')) :
    VisitedHost env platform host s s' := by
  cases hp : parse_host_info host with
  | error e =>
      simp only [visit_host, hp, Prog.exec_attempt, Prog.exec_lift_error_bind] at h
      rw [count_failure_ok h]
      exact .unparsed hp
  | ok d =>
      cases hw : s.db.hosts.update_or_create env.hostFault platform d with
      | error e =>
          simp [visit_host, hp, Prog.exec_attempt, sync_host_to_db, Prog.exec_bind, hw, lift] at h
          rw [count_failure_ok h]
          exact .refused hp hw
      | ok t =>
          simp [visit_host, hp, Prog.exec_attempt, sync_host_to_db, Prog.exec_bind, hw, lift] at h
          subst h
          exact .written hp hw

/-- One host: its uuid is recorded, and the rows evolve. -/
theorem visit_host_evolves {host : HostSystem} {t : Table HostColumns} {s s' : Walk}
    (hs : Evolves s.uuids t s.db.hosts)
    (h : exec (visit_host env platform host) s = (.ok (), s')) :
    s'.uuids = s.uuids ++ recorded_host host ∧ Evolves s'.uuids t s'.db.hosts := by
  cases visit_host_cases h with
  | unparsed hp =>
      simp only [recorded_host, hp, List.append_nil]
      exact ⟨trivial, hs⟩
  | refused hp =>
      simp only [recorded_host, hp]
      exact ⟨trivial, hs.record _⟩
  | written hp hw =>
      simp only [recorded_host, hp]
      exact ⟨trivial, (hs.record _).write hw (by simp)⟩

/-- One virtual machine: its uuid is recorded, and the rows evolve. -/
theorem visit_vm_evolves {vm : VirtualMachineObject} {t : Table VMRowColumns} {s s' : Walk}
    (hs : Evolves s.uuids t s.db.vms)
    (h : exec (visit_vm env platform vm) s = (.ok (), s')) :
    s'.uuids = s.uuids ++ recorded_vm vm ∧ Evolves s'.uuids t s'.db.vms := by
  cases hp : parse_vm_info vm with
  | error e =>
      simp only [visit_vm, hp, Prog.exec_attempt, Prog.exec_lift_error_bind] at h
      rw [count_failure_ok h]
      simp only [recorded_vm, hp, List.append_nil]
      exact ⟨trivial, hs⟩
  | ok vm_data =>
      cases vm_data with
      | none =>
          simp only [visit_vm, hp, Prog.exec_attempt, Prog.exec_lift_ok_bind, Prog.exec_raise] at h
          rw [count_failure_ok h]
          simp only [recorded_vm, hp, List.append_nil]
          exact ⟨trivial, hs⟩
      | some d =>
          cases ht : d.columns.is_template with
          | true =>
              simp only [visit_vm, hp, ht, if_true, Prog.exec_attempt, Prog.exec_lift_ok_bind,
                Prog.exec_pure] at h
              cases h
              simp only [recorded_vm, hp, ht, if_true, List.append_nil]
              exact ⟨trivial, hs⟩
          | false =>
              have hd : d.uuid ∈ s.uuids ++ [d.uuid] := by simp
              simp only [recorded_vm, hp, ht, Bool.false_eq_true, if_false]
              cases hw : s.db.vms.update_or_create env.vmFault platform
                  (vm_record s.db.hosts platform d) with
              | error e =>
                  simp [visit_vm, hp, ht, Prog.exec_attempt, sync_vm_to_db, Prog.exec_bind, hw,
                    lift] at h
                  rw [count_failure_ok h]
                  exact ⟨rfl, hs.record d.uuid⟩
              | ok t' =>
                  simp [visit_vm, hp, ht, Prog.exec_attempt, sync_vm_to_db, Prog.exec_bind, hw,
                    lift] at h
                  subst h
                  exact ⟨rfl, (hs.record d.uuid).write hw hd⟩

/-- The loop of `sync_hosts`. -/
theorem walk_hosts_evolves {hosts : List HostSystem} {t : Table HostColumns} {s s' : Walk}
    (hs : Evolves s.uuids t s.db.hosts)
    (h : exec (forEach (visit_host env platform) hosts) s = (.ok (), s')) :
    s'.uuids = s.uuids ++ hosts.flatMap recorded_host ∧ Evolves s'.uuids t s'.db.hosts := by
  induction hosts generalizing s with
  | nil =>
      cases h
      exact ⟨(List.append_nil _).symm, hs⟩
  | cons host hosts ih =>
      obtain ⟨_, s₁, h₁, h⟩ := Prog.exec_bind_ok.mp h
      obtain ⟨hu₁, he₁⟩ := visit_host_evolves hs h₁
      obtain ⟨hu, he⟩ := ih he₁ h
      refine ⟨?_, he⟩
      rw [hu, hu₁, List.flatMap_cons, List.append_assoc]

/-- The loop of `sync_vms`. -/
theorem walk_vms_evolves {vms : List VirtualMachineObject} {t : Table VMRowColumns} {s s' : Walk}
    (hs : Evolves s.uuids t s.db.vms)
    (h : exec (forEach (visit_vm env platform) vms) s = (.ok (), s')) :
    s'.uuids = s.uuids ++ vms.flatMap recorded_vm ∧ Evolves s'.uuids t s'.db.vms := by
  induction vms generalizing s with
  | nil =>
      cases h
      exact ⟨(List.append_nil _).symm, hs⟩
  | cons vm vms ih =>
      obtain ⟨_, s₁, h₁, h⟩ := Prog.exec_bind_ok.mp h
      obtain ⟨hu₁, he₁⟩ := visit_vm_evolves hs h₁
      obtain ⟨hu, he⟩ := ih he₁ h
      refine ⟨?_, he⟩
      rw [hu, hu₁, List.flatMap_cons, List.append_assoc]

/-! ### The runs -/

theorem recorded_host_iff {hosts : List HostSystem} {r : Row HostColumns} :
    (∃ u ∈ hosts.flatMap recorded_host, r.uuid = some u) ↔ parsed_host hosts r := by
  constructor
  · rintro ⟨u, hu, hr⟩
    obtain ⟨host, hhost, hu⟩ := List.mem_flatMap.mp hu
    unfold recorded_host at hu
    split at hu
    · next d hd => exact ⟨host, hhost, d, hd, by rw [hr, List.mem_singleton.mp hu]⟩
    · cases hu
  · rintro ⟨host, hhost, d, hd, hr⟩
    exact ⟨d.uuid, List.mem_flatMap.mpr ⟨host, hhost, by simp [recorded_host, hd]⟩, hr⟩

theorem recorded_vm_iff {vms : List VirtualMachineObject} {r : Row VMRowColumns} :
    (∃ u ∈ vms.flatMap recorded_vm, r.uuid = some u) ↔ parsed_vm vms r := by
  constructor
  · rintro ⟨u, hu, hr⟩
    obtain ⟨vm, hvm, hu⟩ := List.mem_flatMap.mp hu
    unfold recorded_vm at hu
    split at hu
    · next d hd =>
      split at hu
      · cases hu
      · next ht =>
        exact ⟨vm, hvm, d, hd, by simpa using ht, by rw [hr, List.mem_singleton.mp hu]⟩
    · cases hu
    · cases hu
  · rintro ⟨vm, hvm, d, hd, ht, hr⟩
    exact ⟨d.uuid, List.mem_flatMap.mpr ⟨vm, hvm, by simp [recorded_vm, hd, ht]⟩, hr⟩

/-- A row that was active is active after `sync_hosts` exactly if a host with its uuid parsed. -/
theorem active_after_sync_hosts {db : VirtDb} {fetched : Except Fault (List HostSystem)} {s : Walk}
    {n m : Nat} (h : exec (sync_hosts env platform fetched) (Walk.start db) = (.ok (.success n m), s))
    {hosts : List HostSystem} (hfetched : fetched = .ok hosts) {r : Row HostColumns}
    (hr : r ∈ db.hosts.rows) (hp : r.platform = platform) (ha : r.is_active = true) :
    (∃ r' ∈ s.db.hosts.rows, r'.id = r.id ∧ r'.is_active = true) ↔ parsed_host hosts r := by
  obtain ⟨-, _, hf, s₁, hwalk, -, -, rfl⟩ := sync_hosts_success.mp h
  obtain rfl : hosts = _ := Except.ok.inj (hfetched.symm.trans hf)
  obtain ⟨hu, he⟩ := walk_hosts_evolves (Evolves.refl [] db.hosts) hwalk
  have hstale (r : Row HostColumns) : stale_host platform s₁.uuids r = true ↔
      r.platform = platform ∧ r.is_active = true ∧ True ∧ r.excluded s₁.uuids = true := by
    simp [stale_host, and_assoc]
  refine (active_after_iff he hstale hr hp ha).trans ?_
  rw [hu, ← recorded_host_iff]
  simp [Walk.start]

/-- A row that was active is active after `sync_vms` exactly if it is a template or an object with
its uuid parsed. -/
theorem active_after_sync_vms {db : VirtDb} {fetched : Except Fault (List VirtualMachineObject)}
    {s : Walk} {n m : Nat}
    (h : exec (sync_vms env platform fetched) (Walk.start db) = (.ok (.success n m), s))
    {vms : List VirtualMachineObject} (hfetched : fetched = .ok vms) {r : Row VMRowColumns}
    (hr : r ∈ db.vms.rows) (hp : r.platform = platform) (ha : r.is_active = true) :
    (∃ r' ∈ s.db.vms.rows, r'.id = r.id ∧ r'.is_active = true) ↔
      r.columns.is_template = true ∨ parsed_vm vms r := by
  obtain ⟨-, _, hf, s₁, hwalk, -, -, rfl⟩ := sync_vms_success.mp h
  obtain rfl : vms = _ := Except.ok.inj (hfetched.symm.trans hf)
  obtain ⟨hu, he⟩ := walk_vms_evolves (Evolves.refl [] db.vms) hwalk
  have hstale (r : Row VMRowColumns) : stale_vm platform s₁.uuids r = true ↔
      r.platform = platform ∧ r.is_active = true ∧ r.columns.is_template = false ∧
        r.excluded s₁.uuids = true := by
    simp [stale_vm, and_assoc]
  refine (active_after_iff he hstale hr hp ha).trans ?_
  rw [hu, ← recorded_vm_iff, Bool.not_eq_false]
  simp [Walk.start]

/-- **When no object that vSphere reports loses its row's activity**, for both tasks. -/
theorem sync_keeps_reported_iff {env : Env} {platform : Nat} {db : VirtDb} :
    (∀ (hosts : List HostSystem) (n m : Nat) (s : Walk),
      exec (sync_hosts env platform (.ok hosts)) (Walk.start db) = (.ok (.success n m), s) →
      (KeepsActive platform (reported_host hosts) db.hosts s.db.hosts ↔
        ∀ r ∈ db.hosts.rows, r.platform = platform → r.is_active = true →
          reported_host hosts r → parsed_host hosts r)) ∧
    ∀ (vms : List VirtualMachineObject) (n m : Nat) (s : Walk),
      exec (sync_vms env platform (.ok vms)) (Walk.start db) = (.ok (.success n m), s) →
      (KeepsActive platform (reported_vm vms) db.vms s.db.vms ↔
        ∀ r ∈ db.vms.rows, r.platform = platform → r.is_active = true →
          reported_vm vms r → r.columns.is_template = true ∨ parsed_vm vms r) := by
  constructor
  · intro hosts n m s h
    constructor
    · intro hk r hr hp ha hrep
      exact (active_after_sync_hosts h rfl hr hp ha).mp (hk r hr hp ha hrep)
    · intro hc r hr hp ha hrep
      exact (active_after_sync_hosts h rfl hr hp ha).mpr (hc r hr hp ha hrep)
  · intro vms n m s h
    constructor
    · intro hk r hr hp ha hrep
      exact (active_after_sync_vms h rfl hr hp ha).mp (hk r hr hp ha hrep)
    · intro hc r hr hp ha hrep
      exact (active_after_sync_vms h rfl hr hp ha).mpr (hc r hr hp ha hrep)

/-- A machine that did not change. -/
theorem sync_keeps_reported_iff_unchanged :
    KeepsActive 1 (reported_vm [sampleVM "vm-1" "u1" "web"]) sampleDb.vms
        (exec (sync_vms sampleEnv 1 (.ok [sampleVM "vm-1" "u1" "web"]))
          (Walk.start sampleDb)).2.db.vms ↔
      ∀ r ∈ sampleDb.vms.rows, r.platform = 1 → r.is_active = true →
        reported_vm [sampleVM "vm-1" "u1" "web"] r →
          r.columns.is_template = true ∨ parsed_vm [sampleVM "vm-1" "u1" "web"] r := by
  have success : exec (sync_vms sampleEnv 1 (.ok [sampleVM "vm-1" "u1" "web"]))
      (Walk.start sampleDb) = (.ok (.success 1 0), _) := rfl
  exact sync_keeps_reported_iff.2 [sampleVM "vm-1" "u1" "web"] 1 0 _ success

/-! ### A machine without configuration -/

/-- A machine that is being created: it has a name, and no configuration yet. -/
def sampleUnconfigured (moId name : String) : VirtualMachineObject :=
  { sampleVM moId "" name with config := .ok none }

/-- `sync_vms` deactivates a row whose object vSphere still reports: `web` while its configuration
cannot be read. -/
theorem sync_vms_deactivates_reported :
    ¬ ∀ (env : Env) (platform : Nat) (db : VirtDb) (vms : List VirtualMachineObject) (n m : Nat)
      (s : Walk), exec (sync_vms env platform (.ok vms)) (Walk.start db) = (.ok (.success n m), s) →
      KeepsActive platform (reported_vm vms) db.vms s.db.vms := by
  intro h
  obtain ⟨r, hr, -, ha⟩ := h sampleEnv 1 sampleDb [sampleUnconfigured "vm-1" "web"] 0 1 _ rfl
    (sampleRow 1 "u1" "web" "vm-1") (.head _) rfl rfl
    ⟨_, .head _, rfl, rfl⟩
  rw [List.mem_singleton.mp hr] at ha
  cases ha

end InfraHub.Virt
