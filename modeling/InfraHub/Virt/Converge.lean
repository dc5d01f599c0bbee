import InfraHub.Virt.Sync

/-!
# Virt — Converge

Whether one run of `sync_vms` makes the active rows of a platform the inventory (`Converges`).

The rows are written one at a time, in the order of the inventory, and the rows of machines that
are gone are deactivated afterwards; until then, and even after, they hold on to their names.  So a
machine recreated under its old name is refused by the unique `(platform, name)`, and so is a
machine that takes the name of one visited later.  `sync_vms_converges_iff` is the exact condition:
every row that holds the name of an object is the row of that object or of one visited before it.
-/

namespace InfraHub.Virt
open InfraHub.Lib
open InfraHub.Lib.Prog (exec Keeps forEach lift)

/-! ### The statement -/

/-- The inventory: objects that parse, with distinct uuids and names, and no uuid that a row of
another platform holds. -/
structure WellFormed (platform : Nat) (vms : List VirtualMachineObject) (db : VirtDb) : Prop where
  parses : ∀ vm ∈ vms, ∃ d, parse_vm_info vm = .ok (some d)
  uuids : (vms.map VirtualMachineObject.uuid).Nodup
  names : vms.Pairwise fun v w => v.name.toOption ≠ w.name.toOption
  own : ∀ vm ∈ vms, ∀ r ∈ db.vms.rows, r.uuid ≠ none → r.uuid = vm.uuid → r.platform = platform

/-- The run returned with nothing failed, and the active non-template rows of the platform are the
non-template objects, by uuid and name. -/
def Converges (platform : Nat) (vms : List VirtualMachineObject)
    (p : Except Fault TaskResult × Walk) : Prop :=
  (∃ synced_count, p.1 = .ok (.success synced_count 0)) ∧
    ∀ uuid name,
      (∃ r ∈ p.2.db.vms.rows, r.platform = platform ∧ r.is_active = true ∧
        r.columns.is_template = false ∧ r.uuid = uuid ∧ r.name = name) ↔
      ∃ vm ∈ vms, vm.template = false ∧ vm.uuid = uuid ∧ vm.name.toOption = some name

/-- Every row of the platform with the name of a non-template object, active or not, has the uuid
of that object or of a non-template object before it. -/
def Unobstructed (platform : Nat) (vms : List VirtualMachineObject)
    (rows : List (Row VMRowColumns)) : Prop :=
  ∀ pre vm post, vms = pre ++ vm :: post → vm.template = false → ∀ r ∈ rows,
    r.platform = platform → vm.name.toOption = some r.name →
    ∃ w ∈ pre ++ [vm], w.template = false ∧ r.uuid = w.uuid

/-! ### One object -/

/-- Failures are only counted up. -/
def NoFewer (s s' : Walk) : Prop := s.failed_count ≤ s'.failed_count

instance : IsPreorder Walk NoFewer where
  refl _ := le_refl _
  trans _ _ _ := le_trans

variable {env : Env} {platform : Nat}

theorem count_failure_noFewer (nameLogged : Read String) : Keeps NoFewer (count_failure nameLogged) := by
  refine (Keeps.lift _).bind fun _ => Keeps.update fun s => ?_
  exact Nat.le_succ s.failed_count

/-- An assignment to another variable. -/
theorem update_noFewer {f : Walk → Walk} (h : ∀ s, (f s).failed_count = s.failed_count) :
    Keeps NoFewer (Prog.update f : Sync Unit) :=
  Keeps.update fun s => (h s).ge

theorem visit_vm_noFewer (vm : VirtualMachineObject) : Keeps NoFewer (visit_vm env platform vm) := by
  refine Keeps.attempt ?_ fun _ => count_failure_noFewer _
  refine (Keeps.lift _).bind fun vm_data => ?_
  cases vm_data with
  | none => exact Keeps.raise _
  | some d =>
      refine Keeps.ite (Keeps.ret ()) ?_
      refine Keeps.bind (update_noFewer fun _ => rfl) fun _ => ?_
      refine Keeps.bind ?_ fun _ => update_noFewer fun _ => rfl
      exact (Keeps.read _).bind fun db => (Keeps.lift _).bind fun vms =>
        update_noFewer fun _ => rfl

/-- A template is left alone. -/
theorem exec_visit_template {vm : VirtualMachineObject} {d : VMData}
    (hparse : parse_vm_info vm = .ok (some d)) (ht : d.columns.is_template = true) (s : Walk) :
    exec (visit_vm env platform vm) s = (.ok (), s) := by
  simp [visit_vm, Prog.exec_attempt, hparse, ht]

/-- The walk after a record was written. -/
def Walk.wrote (s : Walk) (vms : Table VMRowColumns) (uuids : List String) (n : Nat) : Walk where
  db := { s.db with vms }
  uuids := s.uuids ++ uuids
  synced_count := s.synced_count + n
  failed_count := s.failed_count

theorem update_or_create_put {γ : Type} {fault : Record γ → Option Fault} {t : Table γ}
    {d : Record γ} (hf : fault d = none) :
    t.update_or_create fault platform d =
      (match t.put platform d with
        | some t' => .ok t'
        | none => .error "IntegrityError") := by
  unfold Table.put Table.update_or_create
  rw [hf]
  simp only
  split
  · rfl
  · rfl

/-- A record that is taken. -/
theorem exec_visit_vm_of_put {vm : VirtualMachineObject} {d : VMData} {s : Walk}
    {vms : Table VMRowColumns} (henv : ∀ d, env.vmFault d = none)
    (hparse : parse_vm_info vm = .ok (some d)) (ht : d.columns.is_template = false)
    (hput : s.db.vms.put platform (vm_record s.db.hosts platform d) = some vms) :
    exec (visit_vm env platform vm) s = (.ok (), s.wrote vms [d.uuid] 1) := by
  simp [visit_vm, Prog.exec_attempt, hparse, ht, sync_vm_to_db, Prog.exec_bind,
    update_or_create_put (henv _), hput, lift, Walk.wrote]

/-- A record that is refused counts as a failure, if the loop goes on at all. -/
theorem exec_visit_vm_of_refused {vm : VirtualMachineObject} {d : VMData} {s s' : Walk}
    (henv : ∀ d, env.vmFault d = none)
    (hparse : parse_vm_info vm = .ok (some d)) (ht : d.columns.is_template = false)
    (hput : s.db.vms.put platform (vm_record s.db.hosts platform d) = none)
    (h : exec (visit_vm env platform vm) s = (.ok (), s')) : s.failed_count < s'.failed_count := by
  simp [visit_vm, Prog.exec_attempt, hparse, ht, sync_vm_to_db, Prog.exec_bind,
    update_or_create_put (henv _), hput, lift, count_failure] at h
  cases hname : vm.nameLogged with
  | error e =>
      rw [hname] at h
      cases h
  | ok name =>
      rw [hname] at h
      cases h
      exact Nat.lt_succ_self _

/-! ### The loop -/

/-- The record of an object that parses and is no template. -/
def record_of (hosts : Table HostColumns) (platform : Nat) (vm : VirtualMachineObject) :
    Option (Record VMRowColumns) :=
  match parse_vm_info vm with
  | .ok (some d) => if d.columns.is_template then none else some (vm_record hosts platform d)
  | .ok none | .error _ => none

theorem record_of_eq_some {hosts : Table HostColumns} {vm : VirtualMachineObject}
    {w : Record VMRowColumns} (h : record_of hosts platform vm = some w) :
    vm.template = false ∧ vm.uuid = some w.uuid ∧ vm.name = .ok w.name ∧
      w.columns.is_template = false := by
  unfold record_of at h
  split at h
  · next d hd =>
    obtain ⟨hname, huuid, htemplate, -⟩ := parse_vm_info_ok hd
    split at h
    · cases h
    · next ht =>
      cases h
      have ht : d.columns.is_template = false := by simpa using ht
      exact ⟨htemplate.trans ht, huuid, hname, ht⟩
  · cases h
  · cases h

theorem record_of_parsed {hosts : Table HostColumns} {vm : VirtualMachineObject} {d : VMData}
    (h : parse_vm_info vm = .ok (some d)) : record_of hosts platform vm =
      if d.columns.is_template then none else some (vm_record hosts platform d) := by
  unfold record_of
  rw [h]

/-- The records of the inventory, in its order. -/
def records (hosts : Table HostColumns) (platform : Nat) (vms : List VirtualMachineObject) :
    List (Record VMRowColumns) :=
  vms.filterMap (record_of hosts platform)

theorem records_cons_template {hosts : Table HostColumns} {vm : VirtualMachineObject}
    {vms : List VirtualMachineObject} {d : VMData} (hd : parse_vm_info vm = .ok (some d))
    (ht : d.columns.is_template = true) :
    records hosts platform (vm :: vms) = records hosts platform vms := by
  simp [records, record_of_parsed hd, ht]

theorem records_cons {hosts : Table HostColumns} {vm : VirtualMachineObject}
    {vms : List VirtualMachineObject} {d : VMData} (hd : parse_vm_info vm = .ok (some d))
    (ht : d.columns.is_template = false) :
    records hosts platform (vm :: vms) = vm_record hosts platform d :: records hosts platform vms := by
  simp [records, record_of_parsed hd, ht]

/-- The loop of `sync_vms`, when every record is taken. -/
theorem exec_walk_of_putAll {vms : List VirtualMachineObject} (henv : ∀ d, env.vmFault d = none)
    (hparse : ∀ vm ∈ vms, ∃ d, parse_vm_info vm = .ok (some d)) {s : Walk} {t : Table VMRowColumns}
    (h : (Table.upserts _ platform).putAll s.db.vms (records s.db.hosts platform vms) = some t) :
    ∃ n, exec (forEach (visit_vm env platform) vms) s =
      (.ok (), s.wrote t ((records s.db.hosts platform vms).map Record.uuid) n) := by
  induction vms generalizing s with
  | nil =>
      cases h
      exact ⟨0, by simp [Walk.wrote, forEach, records]⟩
  | cons vm vms ih =>
      obtain ⟨d, hd⟩ := hparse vm (by simp)
      have hrest : ∀ v ∈ vms, ∃ d, parse_vm_info v = .ok (some d) :=
        fun v hv => hparse v (List.mem_cons_of_mem _ hv)
      cases ht : d.columns.is_template with
      | true =>
          rw [records_cons_template hd ht] at h ⊢
          rw [forEach, Prog.exec_bind_of_ok (exec_visit_template hd ht s)]
          exact ih hrest h
      | false =>
          rw [records_cons hd ht] at h ⊢
          obtain ⟨vms', hput, h⟩ := Option.bind_eq_some_iff.mp h
          obtain ⟨n, hs⟩ := ih hrest (s := s.wrote vms' [d.uuid] 1) h
          rw [forEach, Prog.exec_bind_of_ok (exec_visit_vm_of_put henv hd ht hput), hs]
          refine ⟨1 + n, ?_⟩
          simp [Walk.wrote, Nat.add_assoc, vm_record]

/-- The loop of `sync_vms`, when a record is refused: it counts a failure, if it ends. -/
theorem exec_walk_of_refused {vms : List VirtualMachineObject} (henv : ∀ d, env.vmFault d = none)
    (hparse : ∀ vm ∈ vms, ∃ d, parse_vm_info vm = .ok (some d)) {s s' : Walk}
    (h : (Table.upserts _ platform).putAll s.db.vms (records s.db.hosts platform vms) = none)
    (hs : exec (forEach (visit_vm env platform) vms) s = (.ok (), s')) :
    s.failed_count < s'.failed_count := by
  induction vms generalizing s with
  | nil => cases h
  | cons vm vms ih =>
      obtain ⟨d, hd⟩ := hparse vm (by simp)
      have hrest : ∀ v ∈ vms, ∃ d, parse_vm_info v = .ok (some d) :=
        fun v hv => hparse v (List.mem_cons_of_mem _ hv)
      cases ht : d.columns.is_template with
      | true =>
          rw [records_cons_template hd ht] at h
          rw [forEach, Prog.exec_bind_of_ok (exec_visit_template hd ht s)] at hs
          exact ih hrest h hs
      | false =>
          rw [records_cons hd ht] at h
          cases hput : s.db.vms.put platform (vm_record s.db.hosts platform d) with
          | none =>
              obtain ⟨_, s₁, h₁, hs⟩ := Prog.exec_bind_ok.mp hs
              have hlt := exec_visit_vm_of_refused henv hd ht hput h₁
              have hle : NoFewer s₁ s' :=
                Keeps.of_exec (Keeps.forEach fun v _ => visit_vm_noFewer v) hs
              exact lt_of_lt_of_le hlt hle
          | some vms' =>
              rw [forEach, Prog.exec_bind_of_ok (exec_visit_vm_of_put henv hd ht hput)] at hs
              refine ih hrest (s := s.wrote vms' [d.uuid] 1) ?_ hs
              exact (Option.bind_eq_none_iff.mp h) vms' hput

/-! ### Objects and records -/

variable {hosts : Table HostColumns} {vms : List VirtualMachineObject}

/-- A non-template object that parses has a record. -/
theorem exists_record {vm : VirtualMachineObject} (hparse : ∃ d, parse_vm_info vm = .ok (some d))
    (ht : vm.template = false) : ∃ w, record_of hosts platform vm = some w := by
  obtain ⟨d, hd⟩ := hparse
  have htd : d.columns.is_template = false := (parse_vm_info_ok hd).2.2.1.symm.trans ht
  exact ⟨vm_record hosts platform d, by simp [record_of_parsed hd, htd]⟩

theorem mem_records {w : Record VMRowColumns} :
    w ∈ records hosts platform vms ↔ ∃ vm ∈ vms, record_of hosts platform vm = some w :=
  List.mem_filterMap

theorem distinct_records {db : VirtDb} (h : WellFormed platform vms db) :
    (Table.upserts VMRowColumns platform).Distinct (records hosts platform vms) := by
  constructor
  · refine List.pairwise_map.mpr (List.pairwise_filterMap.mpr ?_)
    refine (List.pairwise_map.mp h.uuids).imp fun {v v'} hne w hw w' hw' e => hne ?_
    rw [(record_of_eq_some hw).2.1, (record_of_eq_some hw').2.1]
    exact congrArg some e
  · refine List.pairwise_map.mpr (List.pairwise_filterMap.mpr ?_)
    refine h.names.imp fun {v v'} hne w hw w' hw' e => hne ?_
    rw [(record_of_eq_some hw).2.2.1, (record_of_eq_some hw').2.2.1]
    exact congrArg some e

theorem valid_records {db : VirtDb} (h : WellFormed platform vms db) :
    ∀ w ∈ records hosts platform vms, db.vms.Valid platform w := by
  intro w hw r hr hu
  obtain ⟨vm, hvm, hrec⟩ := mem_records.mp hw
  refine h.own vm hvm r hr (by simp [hu]) ?_
  rw [hu, (record_of_eq_some hrec).2.1]

/-- The condition on the records is the condition on the objects. -/
theorem clear_records_iff {t : Table VMRowColumns}
    (hparse : ∀ vm ∈ vms, ∃ d, parse_vm_info vm = .ok (some d)) :
    (Table.upserts _ platform).Clear t (records hosts platform vms) ↔
      Unobstructed platform vms t.rows := by
  constructor
  · intro h pre vm post hvms ht r hr hp hname
    obtain ⟨w, hw⟩ : ∃ w, record_of hosts platform vm = some w :=
      exists_record (hparse vm (by simp [hvms])) ht
    have hsplit : records hosts platform vms =
        records hosts platform pre ++ w :: records hosts platform post := by
      simp [records, hvms, hw]
    have hn : r.name = w.name := by
      rw [(record_of_eq_some hw).2.2.1] at hname
      exact (Option.some.inj hname).symm
    obtain ⟨v, hv, hk⟩ := h _ w _ hsplit r ⟨hr, hp⟩ hn
    have hv : v ∈ records hosts platform (pre ++ [vm]) := by
      simpa [records, hw] using hv
    obtain ⟨u, hu, hrec⟩ := mem_records.mp hv
    obtain ⟨hut, huu, -, -⟩ := record_of_eq_some hrec
    exact ⟨u, hu, hut, hk.trans huu.symm⟩
  · intro h pre w post hrecs r hr hn
    obtain ⟨l₁, l₂, hvms, hl₁, hl₂⟩ := List.filterMap_eq_append_iff.mp hrecs
    obtain ⟨l₃, vm, l₄, hl₂', hl₃, hw, -⟩ := List.filterMap_eq_cons_iff.mp hl₂
    obtain ⟨ht, -, hname, -⟩ := record_of_eq_some hw
    obtain ⟨u, hu, hut, hk⟩ := h (l₁ ++ l₃) vm l₄ (by simp [hvms, hl₂']) ht r hr.1 hr.2
      (by rw [hname]; exact congrArg some hn.symm)
    have hmem : u ∈ vms := by
      rw [hvms, hl₂']
      simp only [List.mem_append, List.mem_cons] at hu ⊢
      tauto
    obtain ⟨v, hv⟩ : ∃ v, record_of hosts platform u = some v := exists_record (hparse u hmem) hut
    refine ⟨v, ?_, hk.trans (record_of_eq_some hv).2.1⟩
    have hnone : l₃.filterMap (record_of hosts platform) = [] := List.filterMap_eq_nil_iff.mpr hl₃
    have : v ∈ (l₁ ++ l₃ ++ [vm]).filterMap (record_of hosts platform) :=
      List.mem_filterMap.mpr ⟨u, hu, hv⟩
    simpa [hl₁, hnone, hw] using this

/-! ### The run -/

/-- After all records are taken and the rest is deactivated, the active rows are the inventory. -/
theorem active_rows {db : VirtDb} {t : Table VMRowColumns} (h : WellFormed platform vms db)
    (hall : (Table.upserts _ platform).putAll db.vms (records db.hosts platform vms) = some t)
    (uuid : Option String) (name : String) :
    (∃ r ∈ (t.deactivate (stale_vm platform
        ((records db.hosts platform vms).map Record.uuid))).rows,
      r.platform = platform ∧ r.is_active = true ∧ r.columns.is_template = false ∧
        r.uuid = uuid ∧ r.name = name) ↔
      ∃ vm ∈ vms, vm.template = false ∧ vm.uuid = uuid ∧ vm.name.toOption = some name := by
  obtain ⟨hin, -⟩ := Upsert.mem_putAll (distinct_records h) (valid_records h) hall
  constructor
  · rintro ⟨r, hr, hp, ha, ht, rfl, rfl⟩
    obtain ⟨s, hs, rfl⟩ := List.mem_map.mp hr
    by_cases hstale : stale_vm platform ((records db.hosts platform vms).map Record.uuid) s = true
    · rw [if_pos hstale] at ha
      cases ha
    · rw [if_neg hstale] at hp ha ht ⊢
      -- not stale: its uuid was visited
      have hvisited : s.excluded ((records db.hosts platform vms).map Record.uuid) = false := by
        simpa [stale_vm, hp, ha, ht] using hstale
      unfold Row.excluded at hvisited
      cases hu : s.uuid with
      | none => simp [hu] at hvisited
      | some u =>
          simp only [hu, decide_eq_false_iff_not, not_not] at hvisited
          obtain ⟨w, hw, rfl⟩ := List.mem_map.mp hvisited
          have hold := (hin w hw).2 s ⟨hs, hp⟩ hu
          obtain ⟨vm, hvm, hrec⟩ := mem_records.mp hw
          obtain ⟨hvt, hvu, hvn, -⟩ := record_of_eq_some hrec
          exact ⟨vm, hvm, hvt, hvu, by rw [hvn, hold.name]; rfl⟩
  · rintro ⟨vm, hvm, ht, rfl, hname⟩
    obtain ⟨w, hrec⟩ : ∃ w, record_of db.hosts platform vm = some w :=
      exists_record (h.parses vm hvm) ht
    obtain ⟨-, hvu, hvn, hwt⟩ := record_of_eq_some hrec
    have hw : w ∈ records db.hosts platform vms := mem_records.mpr ⟨vm, hvm, hrec⟩
    obtain ⟨⟨r, hr, hk⟩, hwrote⟩ := hin w hw
    have hold := hwrote r hr hk
    have hfresh : ¬ stale_vm platform ((records db.hosts platform vms).map Record.uuid) r = true := by
      simp [stale_vm, Row.excluded, hold.uuid, List.mem_map_of_mem hw]
    refine ⟨r, List.mem_map.mpr ⟨r, hr.1, if_neg hfresh⟩, hold.platform, hold.is_active, ?_,
      hold.uuid.trans hvu.symm, ?_⟩
    · rw [hold.columns, hwt]
    · rw [hvn] at hname
      exact hold.name.trans (Option.some.inj hname)

/-- **When `sync_vms` converges.** -/
theorem sync_vms_converges_iff {env : Env} {platform : Nat} {db : VirtDb}
    {vms : List VirtualMachineObject} (henv : ∀ d, env.vmFault d = none)
    (hplatform : db.has_platform platform = true) (h : WellFormed platform vms db) :
    Converges platform vms (exec (sync_vms env platform (.ok vms)) (Walk.start db)) ↔
      Unobstructed platform vms db.vms.rows := by
  have hclear : (Table.upserts _ platform).Clear db.vms (records db.hosts platform vms) ↔
      Unobstructed platform vms db.vms.rows := clear_records_iff h.parses
  rw [← hclear, ← Upsert.putAll_isSome_iff (distinct_records h) (valid_records h)]
  cases hall : (Table.upserts _ platform).putAll db.vms (records db.hosts platform vms) with
  | some t =>
      obtain ⟨n, hwalk⟩ := exec_walk_of_putAll henv h.parses (s := Walk.start db) hall
      have hrun := sync_vms_success.mpr ⟨hplatform, vms, rfl, _, hwalk, rfl, rfl, rfl⟩
      refine iff_of_true ?_ rfl
      rw [hrun]
      exact ⟨⟨_, rfl⟩, active_rows h hall⟩
  | none =>
      refine iff_of_false ?_ (by simp)
      rintro ⟨⟨n, hn⟩, -⟩
      obtain ⟨-, _, hvms, s₁, hwalk, -, hfailed, -⟩ := sync_vms_success.mp (Prod.ext hn rfl)
      cases hvms
      have hlt := exec_walk_of_refused henv h.parses (s := Walk.start db) hall hwalk
      rw [← hfailed] at hlt
      exact Nat.not_lt_zero _ hlt

/-! ### A machine recreated under its old name -/

theorem wellFormed_single (vm : VirtualMachineObject) (hvm : ∃ d, parse_vm_info vm = .ok (some d)) :
    WellFormed 1 [vm] sampleDb where
  parses := by simpa using hvm
  uuids := by simp
  names := by simp
  own := by
    intro v _ r hr _ _
    rw [List.mem_singleton.mp hr]
    rfl

/-- `sync_vms` does not converge: `web` was deleted and recreated, its old row keeps the name, the
new machine is refused. -/
theorem recreated_vm_refused :
    ¬ ∀ (env : Env) (platform : Nat) (db : VirtDb) (vms : List VirtualMachineObject),
      (∀ d, env.vmFault d = none) → db.has_platform platform = true →
      WellFormed platform vms db →
      Converges platform vms (exec (sync_vms env platform (.ok vms)) (Walk.start db)) := by
  intro h
  obtain ⟨⟨n, hn⟩, -⟩ := h sampleEnv 1 sampleDb [sampleVM "vm-2" "u2" "web"] (fun _ => rfl) rfl
    (wellFormed_single _ ⟨_, rfl⟩)
  have hrun : (exec (sync_vms sampleEnv 1 (.ok [sampleVM "vm-2" "u2" "web"]))
      (Walk.start sampleDb)).1 = .ok (.success 0 1) := rfl
  rw [hrun] at hn
  cases hn

/-- A machine that was renamed. -/
theorem sync_vms_converges_iff_renamed :
    Converges 1 [sampleVM "vm-1" "u1" "www"]
        (exec (sync_vms sampleEnv 1 (.ok [sampleVM "vm-1" "u1" "www"])) (Walk.start sampleDb)) ↔
      Unobstructed 1 [sampleVM "vm-1" "u1" "www"] sampleDb.vms.rows :=
  sync_vms_converges_iff (fun _ => rfl) rfl (wellFormed_single _ ⟨_, rfl⟩)

end InfraHub.Virt
