import InfraHub.Virt.Active

/-!
# Virt — Exact

The exact effect of `sync_hosts` on the rows of its platform.

The loop leaves a row active that was active before, or whose record the database took (`Walked`, kept
by each round); a row that it did not record, or that has no uuid, is deactivated at the end.
-/

namespace InfraHub.Virt
open InfraHub.Lib
open InfraHub.Lib.Prog (exec forEach)

variable {env : Env} {platform : Nat} {db : VirtDb} {hosts : List HostSystem} {s : Walk}

/-! ### The statement -/

/-- Some record with the uuid was written: the database took it in its round of the loop. -/
def Written (env : Env) (platform : Nat) (db : VirtDb) (hosts : List HostSystem) (uuid : String) :
    Prop :=
  ∃ pre host post d s t, hosts = pre ++ host :: post ∧ parse_host_info host = .ok d ∧ d.uuid = uuid ∧
    exec (forEach (visit_host env platform) pre) (Walk.start db) = (.ok (), s) ∧
    s.db.hosts.update_or_create env.hostFault platform d = .ok t

/-- The row was there, and active. -/
def WasActive (db : VirtDb) (id : Nat) : Prop := ∃ r ∈ db.hosts.rows, r.id = id ∧ r.is_active = true

/-- The row has a uuid of which some record was written. -/
def RowWritten (env : Env) (platform : Nat) (db : VirtDb) (hosts : List HostSystem)
    (r : Row HostColumns) : Prop :=
  ∃ uuid, r.uuid = some uuid ∧ Written env platform db hosts uuid

/-! ### What was written so far -/

theorem Written.more {uuid : String} (h : Written env platform db hosts uuid) (host : HostSystem) :
    Written env platform db (hosts ++ [host]) uuid := by
  obtain ⟨pre, host', post, d, s, t, rfl, h⟩ := h
  exact ⟨pre, host', post ++ [host], d, s, t, by simp, h⟩

/-- A record written in the rounds up to that of `host` was written before, or is that of `host`. -/
theorem Written.of_snoc {uuid : String} {host : HostSystem}
    (h : Written env platform db (hosts ++ [host]) uuid)
    (hs : exec (forEach (visit_host env platform) hosts) (Walk.start db) = (.ok (), s)) :
    Written env platform db hosts uuid ∨
      ∃ d t, parse_host_info host = .ok d ∧ d.uuid = uuid ∧
        s.db.hosts.update_or_create env.hostFault platform d = .ok t := by
  obtain ⟨pre, host', post, d, s', t, hsplit, hp, hd, hpre, hw⟩ := h
  rcases List.eq_nil_or_concat post with rfl | ⟨post', last, rfl⟩
  · obtain ⟨rfl, hlast⟩ := List.append_inj' hsplit rfl
    obtain rfl : host = host' := List.singleton_inj.mp hlast
    obtain rfl : s' = s := congrArg Prod.snd (hpre.symm.trans hs)
    exact .inr ⟨d, t, hp, hd, hw⟩
  · have hsplit' : hosts ++ [host] = (pre ++ host' :: post') ++ [last] := by simpa using hsplit
    obtain ⟨rfl, -⟩ := List.append_inj' hsplit' rfl
    exact .inl ⟨pre, host', post', d, s', t, rfl, hp, hd, hpre, hw⟩

/-! ### The loop -/

/-- What holds when the loop has walked `hosts`. -/
structure Walked (env : Env) (platform : Nat) (db : VirtDb) (hosts : List HostSystem) (s : Walk) :
    Prop where
  uuids : s.uuids = hosts.flatMap recorded_host
  counts : s.synced_count + s.failed_count = hosts.length
  active : ∀ r ∈ s.db.hosts.rows, r.platform = platform →
    (r.is_active = true ↔ RowWritten env platform db hosts r ∨ WasActive db r.id)

theorem walked_start (db : VirtDb) : Walked env platform db [] (Walk.start db) where
  uuids := rfl
  counts := rfl
  active r hr _ := by
    constructor
    · exact fun ha => .inr ⟨r, hr, rfl, ha⟩
    · rintro (⟨uuid, -, pre, host, post, -, -, -, hsplit, -⟩ | ⟨r', hr', hid, ha⟩)
      · simp at hsplit
      · obtain rfl := db.hosts.eq_of_id hr' hr hid
        exact ha

/-- A round that writes nothing. -/
theorem rowWritten_snoc_iff {host : HostSystem} {r : Row HostColumns}
    (hs : exec (forEach (visit_host env platform) hosts) (Walk.start db) = (.ok (), s))
    (hnone : ∀ d t, parse_host_info host = .ok d →
      s.db.hosts.update_or_create env.hostFault platform d = .ok t → r.uuid ≠ some d.uuid) :
    RowWritten env platform db (hosts ++ [host]) r ↔ RowWritten env platform db hosts r := by
  constructor
  · rintro ⟨uuid, hr, hw⟩
    rcases hw.of_snoc hs with hold | ⟨d, t, hp, rfl, ht⟩
    · exact ⟨uuid, hr, hold⟩
    · exact absurd hr (hnone d t hp ht)
  · rintro ⟨uuid, hr, hw⟩
    exact ⟨uuid, hr, hw.more host⟩

/-- One round. -/
theorem Walked.visit {host : HostSystem} {s' : Walk} (h : Walked env platform db hosts s)
    (hs : exec (forEach (visit_host env platform) hosts) (Walk.start db) = (.ok (), s))
    (hv : VisitedHost env platform host s s') : Walked env platform db (hosts ++ [host]) s' := by
  have hcounts := h.counts
  cases hv with
  | @unparsed e hp =>
      refine ⟨?_, ?_, fun r hr hplatform => ?_⟩
      · simp [h.uuids, recorded_host, hp]
      · simp only [List.length_append, List.length_singleton]
        omega
      · rw [rowWritten_snoc_iff hs fun d t hd => by rw [hp] at hd; cases hd]
        exact h.active r hr hplatform
  | @refused d e hp hw =>
      refine ⟨?_, ?_, fun r hr hplatform => ?_⟩
      · simp [h.uuids, recorded_host, hp]
      · simp only [List.length_append, List.length_singleton]
        omega
      · rw [rowWritten_snoc_iff hs fun d' t hd ht => ?_]
        · exact h.active r hr hplatform
        · obtain rfl : d = d' := Except.ok.inj (hp.symm.trans hd)
          rw [hw] at ht
          cases ht
  | @written d t hp hw =>
      refine ⟨?_, ?_, fun r hr hplatform => ?_⟩
      · simp [h.uuids, recorded_host, hp]
      · simp only [List.length_append, List.length_singleton]
        omega
      · rw [Table.rows_update_or_create hw] at hr
        by_cases hm : r.Matches platform d.uuid
        · have hwritten : RowWritten env platform db (hosts ++ [host]) r :=
            ⟨d.uuid, hm.2, hosts, host, [], d, s, t, rfl, hp, rfl, hs, hw⟩
          exact iff_of_true (holds_of_mem_upsert hr hm).is_active (.inl hwritten)
        · rw [rowWritten_snoc_iff hs fun d' t' hd _ => ?_]
          · exact h.active r ((mem_upsert_of_not_matches hm).mp hr) hplatform
          · obtain rfl : d = d' := Except.ok.inj (hp.symm.trans hd)
            exact fun hu => hm ⟨hplatform, hu⟩

/-- The whole loop. -/
theorem walked_of_exec
    (h : exec (forEach (visit_host env platform) hosts) (Walk.start db) = (.ok (), s)) :
    Walked env platform db hosts s := by
  induction hosts using List.reverseRecOn generalizing s with
  | nil =>
      cases h
      exact walked_start db
  | append_singleton hosts host ih =>
      obtain ⟨u, hu, hlast⟩ := Prog.exec_forEach_cut h
      exact (ih hu).visit hu (visit_host_cases (Prog.exec_forEach_singleton hlast))

/-! ### The end -/

/-- Who is active after the deactivation. -/
theorem active_finish_iff {r : Row HostColumns} (hr : r ∈ (s.finish_hosts platform).db.hosts.rows)
    (hplatform : r.platform = platform) :
    r.is_active = true ↔ (∃ uuid ∈ s.uuids, r.uuid = some uuid) ∧
      ∃ q ∈ s.db.hosts.rows, q.id = r.id ∧ q.platform = platform ∧ q.uuid = r.uuid ∧
        q.is_active = true := by
  obtain ⟨q, hq, rfl⟩ := List.mem_map.mp hr
  have hexcluded : q.excluded s.uuids = false ↔ ∃ uuid ∈ s.uuids, q.uuid = some uuid := by
    rw [Row.excluded]
    cases q.uuid with
    | none => simp
    | some uuid => simp
  split_ifs with hstale
  · simp only [stale_host, Bool.and_eq_true, decide_eq_true_eq] at hstale
    refine iff_of_false (by simp) fun hactive => ?_
    have hkept := hexcluded.mpr hactive.1
    rw [hstale.2] at hkept
    cases hkept
  · have hp : q.platform = platform := by simpa [hstale] using hplatform
    constructor
    · intro ha
      refine ⟨hexcluded.mp ?_, q, hq, rfl, hp, rfl, ha⟩
      simpa [stale_host, hp, ha] using hstale
    · rintro ⟨-, q', hq', hid, -, -, ha⟩
      obtain rfl := s.db.hosts.eq_of_id hq' hq hid
      exact ha

/-- **The exact effect of `sync_hosts`**: which hosts are active when it returns success, and what it
counts. -/
theorem sync_hosts_exact {fetched : Except Fault (List HostSystem)} {n m : Nat}
    (h : exec (sync_hosts env platform fetched) (Walk.start db) = (.ok (.success n m), s)) :
    ∃ hosts, fetched = .ok hosts ∧
      (∀ r ∈ s.db.hosts.rows, r.platform = platform →
        (r.is_active = true ↔
          parsed_host hosts r ∧ (RowWritten env platform db hosts r ∨ WasActive db r.id))) ∧
      (∀ r ∈ s.db.hosts.rows, r.platform = platform → r.uuid = none → r.is_active = false) ∧
      n + m = hosts.length := by
  obtain ⟨-, hosts, rfl, s₁, hwalk, rfl, rfl, rfl⟩ := sync_hosts_success.mp h
  have hwalked := walked_of_exec hwalk
  refine ⟨hosts, rfl, fun r hr hplatform => ?_, fun r hr hplatform hnull => ?_, hwalked.counts⟩
  · rw [active_finish_iff hr hplatform, hwalked.uuids, recorded_host_iff]
    refine and_congr_right fun _ => ?_
    constructor
    · rintro ⟨q, hq, hid, hp, huuid, ha⟩
      have hcase := (hwalked.active q hq hp).mp ha
      rwa [RowWritten, huuid, hid] at hcase
    · intro hcase
      obtain ⟨q, hq, hqr⟩ := List.mem_map.mp hr
      have hid : q.id = r.id := by rw [← hqr]; split_ifs <;> rfl
      have hp : q.platform = r.platform := by rw [← hqr]; split_ifs <;> rfl
      have huuid : q.uuid = r.uuid := by rw [← hqr]; split_ifs <;> rfl
      refine ⟨q, hq, hid, hp.trans hplatform, huuid, ?_⟩
      rw [hwalked.active q hq (hp.trans hplatform), RowWritten, huuid, hid]
      exact hcase
  · refine Bool.eq_false_iff.mpr fun ha => ?_
    obtain ⟨⟨uuid, -, huuid⟩, -⟩ := (active_finish_iff hr hplatform).mp ha
    rw [hnull] at huuid
    cases huuid

/-- A new host, and one whose name cannot be read. -/
theorem sync_hosts_exact_new :
    let hosts := [sampleHost "host-1" "u1" "esx1",
      { sampleHost "host-2" "u2" "esx2" with name := .error "gone" }]
    ∃ s, exec (sync_hosts sampleEnv 1 (.ok hosts)) (Walk.start sampleDb) = (.ok (.success 1 1), s) ∧
      ∃ hosts', (Except.ok hosts : Except Fault _) = .ok hosts' ∧
        (∀ r ∈ s.db.hosts.rows, r.platform = 1 →
          (r.is_active = true ↔
            parsed_host hosts' r ∧ (RowWritten sampleEnv 1 sampleDb hosts' r ∨ WasActive sampleDb r.id))) ∧
        (∀ r ∈ s.db.hosts.rows, r.platform = 1 → r.uuid = none → r.is_active = false) ∧
        1 + 1 = hosts'.length := by
  intro hosts
  have success : exec (sync_hosts sampleEnv 1 (.ok hosts)) (Walk.start sampleDb) =
      (.ok (.success 1 1), _) := rfl
  exact ⟨_, success, sync_hosts_exact success⟩

end InfraHub.Virt
