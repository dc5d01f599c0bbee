import InfraHub.Virt.Active

/-!
# Virt — Distinct

Whether `sync_hosts` makes one row of each host, on a platform that has none.

A host is known by the uuid of its hardware summary, and hosts without a summary share the empty one.  The
hosts stay apart if and only if their uuids differ from each other and from those of other platforms, and
the database takes each of their records (`one_row_each_iff`).
-/

namespace InfraHub.Virt
open InfraHub.Lib
open InfraHub.Lib.Prog (exec forEach)

variable {env : Env} {platform : Nat} {db : VirtDb} {host : HostSystem} {hosts : List HostSystem}

/-! ### The statement -/

/-- There is one row of the platform for each host, with its reference and its name. -/
def OneRowEach (platform : Nat) (hosts : List HostSystem) (t : Table HostColumns) : Prop :=
  ((t.rows.filter fun r => r.platform = platform).map fun r => (r.mo_ref, (.ok r.name : Read String))).Perm
    (hosts.map fun host => (some host.moId, host.name))

/-- The records of the hosts that parse. -/
def parsed (hosts : List HostSystem) : List HostData :=
  hosts.filterMap fun host => (parse_host_info host).toOption

/-- **The condition**: the uuids differ, no row has one of them yet, and the database takes the records. -/
structure ToldApart (env : Env) (db : VirtDb) (hosts : List HostSystem) : Prop where
  uuids : ((parsed hosts).map Record.uuid).Nodup
  unused : ∀ d ∈ parsed hosts, ∀ r ∈ db.hosts.rows, r.uuid ≠ some d.uuid
  taken : ∀ d ∈ parsed hosts, env.hostFault d = none

/-! ### Records -/

/-- The keys of the record are those of the object. -/
theorem parse_host_info_ok {d : HostData} (h : parse_host_info host = .ok d) :
    host.name = .ok d.name ∧ d.mo_ref = host.moId :=
  ⟨(parse_host_info_read h).name, (parse_host_info_read h).mo_ref⟩

theorem mem_parsed {d : HostData} : d ∈ parsed hosts ↔ ∃ host ∈ hosts, parse_host_info host = .ok d := by
  have hoption {x : Read HostData} : x.toOption = some d ↔ x = .ok d := by
    cases x with
    | error e => exact iff_of_false nofun nofun
    | ok a => simp [Except.toOption]
  simp only [parsed, List.mem_filterMap, hoption]

theorem parsed_cons {d : HostData} (h : parse_host_info host = .ok d) :
    parsed (host :: hosts) = d :: parsed hosts :=
  List.filterMap_cons_some (by rw [h]; rfl)

/-- Where all hosts parse, what is known of a record from its host. -/
theorem map_parsed {β : Type} {f : HostData → β} {g : HostSystem → β}
    (hfg : ∀ host d, parse_host_info host = .ok d → f d = g host)
    (h : ∀ host ∈ hosts, ∃ d, parse_host_info host = .ok d) : (parsed hosts).map f = hosts.map g := by
  induction hosts with
  | nil => rfl
  | cons host hosts ih =>
      obtain ⟨⟨d, hd⟩, hrest⟩ := List.forall_mem_cons.mp h
      rw [parsed_cons hd, List.map_cons, List.map_cons, ih hrest, hfg host d hd]

theorem refs_parsed (h : ∀ host ∈ hosts, ∃ d, parse_host_info host = .ok d) :
    (parsed hosts).map Record.mo_ref = hosts.map (·.moId) :=
  map_parsed (fun _ _ hd => (parse_host_info_ok hd).2) h

theorem names_parsed (h : ∀ host ∈ hosts, ∃ d, parse_host_info host = .ok d) :
    ((parsed hosts).map fun d => (.ok d.name : Read String)) = hosts.map (·.name) :=
  map_parsed (fun _ _ hd => (parse_host_info_ok hd).1.symm) h

/-! ### Any run -/

/-- The row has the keys of a host of the inventory, and the database took its record. -/
def RowOf (env : Env) (hosts : List HostSystem) (r : Row HostColumns) : Prop :=
  ∃ d ∈ parsed hosts, env.hostFault d = none ∧ r.uuid = some d.uuid ∧ r.mo_ref = some d.mo_ref

/-- The rows of the platform are still those of hosts, and the other rows are as they were. -/
structure Fills (env : Env) (platform : Nat) (hosts : List HostSystem) (w w' : Walk) : Prop where
  rows : (∀ r ∈ w.db.hosts.rows, r.platform = platform → RowOf env hosts r) →
    ∀ r ∈ w'.db.hosts.rows, r.platform = platform → RowOf env hosts r
  others : ∀ r ∈ w.db.hosts.rows, r.platform ≠ platform → r ∈ w'.db.hosts.rows

instance : IsPreorder Walk (Fills env platform hosts) where
  refl _ := ⟨id, fun _ hr _ => hr⟩
  trans _ _ _ h h' := ⟨fun hw => h'.rows (h.rows hw), fun r hr hp => h'.others r (h.others r hr hp) hp⟩

theorem fills_of_eq {w w' : Walk} (h : w'.db.hosts = w.db.hosts) : Fills env platform hosts w w' where
  rows hw := by rwa [h]
  others r hr _ := by rwa [h]

theorem fault_of_update_or_create {γ : Type} {fault : Record γ → Option Fault} {d : Record γ} {t t' : Table γ}
    (h : t.update_or_create fault platform d = .ok t') : fault d = none := by
  cases hfault : fault d with
  | none => rfl
  | some e =>
      rw [Table.update_or_create, hfault] at h
      cases h

theorem fills_of_write {w w' : Walk} {d : HostData} (hd : d ∈ parsed hosts)
    (h : w.db.hosts.update_or_create env.hostFault platform d = .ok w'.db.hosts) :
    Fills env platform hosts w w' where
  rows hw r hr hp := by
    rw [Table.rows_update_or_create h] at hr
    by_cases hm : r.Matches platform d.uuid
    · have hholds := holds_of_mem_upsert hr hm
      exact ⟨d, hd, fault_of_update_or_create h, hholds.uuid, hholds.mo_ref⟩
    · exact hw r ((mem_upsert_of_not_matches hm).mp hr) hp
  others r hr hp := by
    rw [Table.rows_update_or_create h]
    exact (mem_upsert_of_not_matches fun hm => hp hm.1).mpr hr

section
variable {d : HostData} {w : Walk}

theorem exec_visit_host_unparsed {e : Fault} (hp : parse_host_info host = .error e) :
    exec (visit_host env platform host) w = exec (count_failure host.nameLogged) w := by
  simp [visit_host, hp, Prog.exec_attempt]

theorem exec_visit_host_refused {e : Fault} (hp : parse_host_info host = .ok d)
    (hw : w.db.hosts.update_or_create env.hostFault platform d = .error e) :
    exec (visit_host env platform host) w =
      exec (count_failure host.nameLogged) { w with uuids := w.uuids ++ [d.uuid] } := by
  simp [visit_host, hp, Prog.exec_attempt, sync_host_to_db, Prog.exec_bind, hw, Prog.lift]

theorem exec_visit_host_written {t : Table HostColumns} (hp : parse_host_info host = .ok d)
    (hw : w.db.hosts.update_or_create env.hostFault platform d = .ok t) :
    exec (visit_host env platform host) w =
      (.ok (), ⟨{ w.db with hosts := t }, w.uuids ++ [d.uuid], w.synced_count + 1, w.failed_count⟩) := by
  simp [visit_host, hp, Prog.exec_attempt, sync_host_to_db, Prog.exec_bind, hw, Prog.lift]

theorem hosts_count_failure (nameLogged : Read String) (w : Walk) :
    (exec (count_failure nameLogged) w).2.db.hosts = w.db.hosts := by
  cases nameLogged with
  | error e => rfl
  | ok name => rfl

end

/-- One round, whether it ends or raises. -/
theorem visit_host_fills (hhost : host ∈ hosts) :
    Prog.Keeps (Fills env platform hosts) (visit_host env platform host) := by
  intro w
  cases hp : parse_host_info host with
  | error e =>
      rw [exec_visit_host_unparsed hp]
      exact fills_of_eq (hosts_count_failure _ w)
  | ok d =>
      cases hw : w.db.hosts.update_or_create env.hostFault platform d with
      | error e =>
          rw [exec_visit_host_refused hp hw]
          exact fills_of_eq (hosts_count_failure _ _)
      | ok t =>
          rw [exec_visit_host_written hp hw]
          exact fills_of_write (mem_parsed.mpr ⟨host, hhost, hp⟩) hw

theorem finish_hosts_fills (w : Walk) : Fills env platform hosts w (w.finish_hosts platform) where
  rows hw r hr hp := by
    obtain ⟨q, hq, rfl⟩ := List.mem_map.mp hr
    have hsame : ∀ q : Row HostColumns, q.platform = platform → RowOf env hosts q →
        RowOf env hosts { q with is_active := false } := fun _ _ h => h
    split_ifs at hp ⊢
    · exact hsame q hp (hw q hq hp)
    · exact hw q hq hp
  others r hr hp := by
    refine List.mem_map.mpr ⟨r, hr, if_neg ?_⟩
    simp [stale_host, hp]

/-- **Any run of `sync_hosts`**, whether it ends or raises. -/
theorem sync_hosts_fills (db : VirtDb) (hfound : db.has_platform platform = true) :
    Fills env platform hosts (Walk.start db)
      (exec (sync_hosts env platform (.ok hosts)) (Walk.start db)).2 := by
  have hwalk : Prog.Keeps (Fills env platform hosts) (forEach (visit_host env platform) hosts) :=
    Prog.Keeps.forEach fun host hhost => visit_host_fills hhost
  unfold sync_hosts
  rw [Prog.exec_read_bind]
  have hstart : (Walk.start db).db.has_platform platform = true := hfound
  simp only [hstart, Bool.not_true, Bool.false_eq_true, if_false, Prog.exec_lift_ok_bind]
  refine hwalk.bind (fun _ => Prog.Keeps.bind ?_ fun _ => Prog.Keeps.read _) (Walk.start db)
  exact Prog.Keeps.update fun w => finish_hosts_fills w

/-! ### From the rows to the uuids -/

/-- Where there is a row for each host, the uuids are told apart. -/
theorem told_apart_of_rows (hfound : db.has_platform platform = true)
    (hempty : ∀ r ∈ db.hosts.rows, r.platform ≠ platform)
    (hparse : ∀ host ∈ hosts, ∃ d, parse_host_info host = .ok d) (hrefs : (hosts.map (·.moId)).Nodup)
    (h : OneRowEach platform hosts (exec (sync_hosts env platform (.ok hosts)) (Walk.start db)).2.db.hosts) :
    ToldApart env db hosts := by
  have hfills : Fills env platform hosts (Walk.start db)
      (exec (sync_hosts env platform (.ok hosts)) (Walk.start db)).2 := sync_hosts_fills db hfound
  generalize (exec (sync_hosts env platform (.ok hosts)) (Walk.start db)).2 = w at h hfills
  have hrow := hfills.rows fun r hr hp => absurd hp (hempty r hr)
  have hrefs' : ((parsed hosts).map Record.mo_ref).Nodup := refs_parsed hparse ▸ hrefs
  -- the row of a record has its uuid
  have hfind : ∀ d ∈ parsed hosts, env.hostFault d = none ∧
      ∃ r ∈ w.db.hosts.rows, r.platform = platform ∧ r.uuid = some d.uuid ∧ r.mo_ref = some d.mo_ref := by
    intro d hd
    obtain ⟨host, hhost, hd'⟩ := mem_parsed.mp hd
    obtain ⟨r, hr, hkey⟩ := List.mem_map.mp (h.mem_iff.mpr (List.mem_map_of_mem hhost))
    obtain ⟨hr, hp⟩ := List.mem_filter.mp hr
    have hp : r.platform = platform := of_decide_eq_true hp
    have href : r.mo_ref = some d.mo_ref := by
      rw [(parse_host_info_ok hd').2]
      exact congrArg Prod.fst hkey
    obtain ⟨e, he, hfault, huuid, href'⟩ := hrow r hr hp
    have hsame : e.mo_ref = d.mo_ref := Option.some.inj (href'.symm.trans href)
    obtain rfl := List.inj_on_of_nodup_map hrefs' he hd hsame
    exact ⟨hfault, r, hr, hp, huuid, href⟩
  refine ⟨?_, ?_, fun d hd => (hfind d hd).1⟩
  · refine List.Nodup.map_on (fun d hd d' hd' huuid => ?_) (hrefs'.of_map _)
    obtain ⟨-, r, hr, -, hu, href⟩ := hfind d hd
    obtain ⟨-, r', hr', -, hu', href'⟩ := hfind d' hd'
    obtain rfl := w.db.hosts.eq_of_uuid hr hr' (hu.trans (congrArg some huuid)) hu'
    exact List.inj_on_of_nodup_map hrefs' hd hd' (Option.some.inj (href.symm.trans href'))
  · intro d hd r hr huuid
    obtain ⟨-, r', hr', hp', hu', -⟩ := hfind d hd
    have hother : r ∈ w.db.hosts.rows := hfills.others r hr (hempty r hr)
    obtain rfl := w.db.hosts.eq_of_uuid hother hr' huuid hu'
    exact hempty r hr hp'

/-! ### From the uuids to the rows -/

/-- What the loop still has to write does not meet what is there. -/
structure Ready (env : Env) (platform : Nat) (t : Table HostColumns) (ds : List HostData) : Prop where
  uuids : (ds.map Record.uuid).Nodup
  names : (ds.map Record.name).Nodup
  taken : ∀ d ∈ ds, env.hostFault d = none
  unused : ∀ d ∈ ds, ∀ r ∈ t.rows, r.uuid ≠ some d.uuid
  unnamed : ∀ d ∈ ds, ∀ r ∈ t.rows, r.platform = platform → r.name ≠ d.name

/-- A record that meets nothing becomes a row. -/
theorem Ready.create {t : Table HostColumns} {d : HostData} {ds : List HostData}
    (h : Ready env platform t (d :: ds)) :
    ∃ t', t.update_or_create env.hostFault platform d = .ok t' ∧
      t'.rows = t.rows ++ [Row.create (freshId t.rows) platform d] ∧ Ready env platform t' ds := by
  obtain ⟨hunused, hunused'⟩ := List.forall_mem_cons.mp h.unused
  obtain ⟨hunnamed, hunnamed'⟩ := List.forall_mem_cons.mp h.unnamed
  obtain ⟨htaken, htaken'⟩ := List.forall_mem_cons.mp h.taken
  obtain ⟨huuid, huuids⟩ := List.nodup_cons.mp h.uuids
  obtain ⟨hname, hnames⟩ := List.nodup_cons.mp h.names
  have hno : ¬ ∃ r ∈ t.rows, r.Matches platform d.uuid := by
    rintro ⟨r, hr, hm⟩
    exact hunused r hr hm.2
  have hrows : upsert platform d t.rows = t.rows ++ [Row.create (freshId t.rows) platform d] := if_neg hno
  have hconstraints : Constraints (upsert platform d t.rows) := by
    rw [hrows]
    refine Table.constraints_create (fun r hr hp hn => ?_) (fun r hr hu => ?_) hno
    · exact absurd hn (hunnamed r hr hp)
    · exact absurd hu (hunused r hr)
  obtain ⟨t', hwrite, hrows'⟩ : ∃ t', t.update_or_create env.hostFault platform d = .ok t' ∧
      t'.rows = upsert platform d t.rows := by
    refine ⟨⟨upsert platform d t.rows, hconstraints⟩, ?_, rfl⟩
    rw [Table.update_or_create, htaken]
    exact dif_pos hconstraints
  rw [hrows] at hrows'
  refine ⟨t', hwrite, hrows', huuids, hnames, htaken', fun e he r hr => ?_, fun e he r hr hp => ?_⟩
  · rw [hrows'] at hr
    rcases List.mem_append.mp hr with hr | hr
    · exact hunused' e he r hr
    · rw [List.mem_singleton.mp hr]
      intro heq
      exact huuid (List.mem_map.mpr ⟨e, he, (Option.some.inj heq).symm⟩)
  · rw [hrows'] at hr
    rcases List.mem_append.mp hr with hr | hr
    · exact hunnamed' e he r hr hp
    · rw [List.mem_singleton.mp hr]
      intro heq
      exact hname (List.mem_map.mpr ⟨e, he, heq.symm⟩)

/-- The keys of the rows of the platform. -/
def row_keys (platform : Nat) (rows : List (Row HostColumns)) : List (Option String × Read String) :=
  (rows.filter fun r => r.platform = platform).map fun r => (r.mo_ref, .ok r.name)

/-- **The loop**: each host appends its row. -/
theorem walk_of_ready (hparse : ∀ host ∈ hosts, ∃ d, parse_host_info host = .ok d) {w : Walk}
    (h : Ready env platform w.db.hosts (parsed hosts)) :
    ∃ w', exec (forEach (visit_host env platform) hosts) w = (.ok (), w') ∧
      row_keys platform w'.db.hosts.rows = row_keys platform w.db.hosts.rows ++
        hosts.map fun host => (some host.moId, host.name) := by
  induction hosts generalizing w with
  | nil => exact ⟨w, rfl, (List.append_nil _).symm⟩
  | cons host hosts ih =>
      obtain ⟨⟨d, hd⟩, hrest⟩ := List.forall_mem_cons.mp hparse
      obtain ⟨hname, href⟩ := parse_host_info_ok hd
      rw [parsed_cons hd] at h
      obtain ⟨t, hwrite, hrows, hready⟩ := h.create
      obtain ⟨w', hw', hkeys⟩ := ih hrest
        (w := ⟨{ w.db with hosts := t }, w.uuids ++ [d.uuid], w.synced_count + 1, w.failed_count⟩) hready
      refine ⟨w', ?_, ?_⟩
      · rw [forEach, Prog.exec_bind_of_ok (exec_visit_host_written hd hwrite), hw']
      · have hcreated : row_keys platform t.rows =
            row_keys platform w.db.hosts.rows ++ [(some host.moId, host.name)] := by
          rw [row_keys, hrows, List.filter_append, List.map_append, hname, ← href]
          simp [row_keys, Row.create]
        have hrest : row_keys platform w'.db.hosts.rows =
            row_keys platform t.rows ++ hosts.map fun host => (some host.moId, host.name) := hkeys
        rw [hrest, hcreated, List.append_assoc, List.map_cons]
        rfl

/-- The deactivation at the end leaves the keys. -/
theorem row_keys_deactivate (stale : Row HostColumns → Bool) (rows : List (Row HostColumns)) :
    row_keys platform (deactivate stale rows) = row_keys platform rows := by
  have hplatform (r : Row HostColumns) :
      (if stale r then { r with is_active := false } else r).platform = r.platform := by
    split_ifs <;> rfl
  rw [row_keys, deactivate, List.filter_map, List.map_map, row_keys]
  simp only [Function.comp_def, hplatform]
  refine List.map_congr_left fun r _ => ?_
  split_ifs <;> rfl

/-! ### The exact condition -/

/-- **One row for each host**, on a platform without rows, if and only if the uuids tell them apart. -/
theorem one_row_each_iff (hfound : db.has_platform platform = true)
    (hempty : ∀ r ∈ db.hosts.rows, r.platform ≠ platform)
    (hparse : ∀ host ∈ hosts, ∃ d, parse_host_info host = .ok d)
    (hrefs : (hosts.map (·.moId)).Nodup) (hnames : (hosts.map (·.name)).Nodup) :
    OneRowEach platform hosts (exec (sync_hosts env platform (.ok hosts)) (Walk.start db)).2.db.hosts ↔
      ToldApart env db hosts := by
  refine ⟨told_apart_of_rows hfound hempty hparse hrefs, fun h => ?_⟩
  have hnames' : ((parsed hosts).map Record.name).Nodup := by
    refine List.Nodup.of_map (fun name => (.ok name : Read String)) ?_
    rw [List.map_map]
    exact (names_parsed hparse).symm ▸ hnames
  have hready : Ready env platform (Walk.start db).db.hosts (parsed hosts) :=
    ⟨h.uuids, hnames', h.taken, h.unused, fun _ _ r hr hp => absurd hp (hempty r hr)⟩
  obtain ⟨w, hw, hkeys⟩ := walk_of_ready hparse hready
  have hsync := sync_hosts_success.mpr ⟨hfound, hosts, rfl, w, hw, rfl, rfl, rfl⟩
  have hnone : row_keys platform db.hosts.rows = [] := by
    rw [row_keys, List.filter_eq_nil_iff.mpr fun r hr => by simpa using hempty r hr]
    rfl
  rw [hsync]
  have hrows : row_keys platform (w.finish_hosts platform).db.hosts.rows =
      hosts.map fun host => (some host.moId, host.name) := by
    rw [Walk.finish_hosts, Table.deactivate, row_keys_deactivate, hkeys]
    exact (congrArg (· ++ _) hnone).trans (List.nil_append _)
  exact .of_eq hrows

/-- A host without a hardware summary, as one that has just been added. -/
def sampleUnknown (moId name : String) : HostSystem :=
  { sampleHost moId "" name with summary := .ok none }

/-- Two hosts that are told apart. -/
theorem one_row_each_iff_two :
    let hosts := [sampleHost "host-1" "u1" "esx1", sampleUnknown "host-2" "esx2"]
    OneRowEach 1 hosts (exec (sync_hosts sampleEnv 1 (.ok hosts)) (Walk.start sampleDb)).2.db.hosts := by
  intro hosts
  have hparse : ∀ host ∈ hosts, ∃ d, parse_host_info host = .ok d := by
    simp only [hosts, List.mem_cons, List.not_mem_nil, or_false, forall_eq_or_imp, forall_eq]
    exact ⟨⟨_, rfl⟩, ⟨_, rfl⟩⟩
  have huuids : (parsed hosts).map Record.uuid = ["u1", ""] := rfl
  have hnames : (hosts.map (·.name)).Nodup := by
    have hlist : hosts.map (·.name) = [.ok "esx1", .ok "esx2"] := rfl
    rw [hlist]
    simp
  have hempty : ∀ r ∈ sampleDb.hosts.rows, False := fun _ hr => absurd hr List.not_mem_nil
  refine (one_row_each_iff rfl (fun r hr => (hempty r hr).elim) hparse (by decide) hnames).mpr
    ⟨?_, fun _ _ r hr => (hempty r hr).elim, fun _ _ => rfl⟩
  rw [huuids]
  decide

/-- **Two hosts without a hardware summary share a row**, which has the keys of the second. -/
theorem unknown_hosts_collapse :
    let hosts := [sampleUnknown "host-1" "esx1", sampleUnknown "host-2" "esx2"]
    ((∃ d, parse_host_info (sampleUnknown "host-1" "esx1") = .ok d) ∧
      ∃ d, parse_host_info (sampleUnknown "host-2" "esx2") = .ok d) ∧
    row_keys 1 (exec (sync_hosts sampleEnv 1 (.ok hosts)) (Walk.start sampleDb)).2.db.hosts.rows =
      [(some "host-2", .ok "esx2")] ∧
    ¬ OneRowEach 1 hosts (exec (sync_hosts sampleEnv 1 (.ok hosts)) (Walk.start sampleDb)).2.db.hosts := by
  intro hosts
  refine ⟨⟨⟨_, rfl⟩, ⟨_, rfl⟩⟩, rfl, fun h => ?_⟩
  exact absurd h.length_eq (by decide)

end InfraHub.Virt
