import InfraHub.Files.Upload

/-!
# Files — Outlive

Whether the files to which committed rows refer are there.

The tables keep their foreign keys whatever happens, and an operation that comes to its end leaves each
file of its row stored and not temporary (`Kept`).  But the stored files go before the commit: what a
transaction has deleted when it is rolled back is gone (`Backed`).  So does `update` with a file that
leaves one field of the row for another one: it deletes the file, and raises when it marks it.
-/

namespace InfraHub.Files
open InfraHub.Lib

/-! ### The statement -/

/-- The file is stored, if it is one that is stored at all and no address in the Internet. -/
def Stored (storage : List String) (u : UploadFile) : Prop := ∀ path ∈ u.filepath, path ∈ storage

/-- **Each file to which a row refers is there**: its row, its stored file, and not temporary. -/
def Outlive (db : Db) (storage : List String) : Prop :=
  ∀ r ∈ db.rows.rows, ∀ f ∈ r.related_filelist,
    ∃ u ∈ db.uploads.get f, Stored storage u ∧ u.is_tmp = false

/-- Some row refers to the file. -/
def Referred (db : Db) (f : Nat) : Prop := ∃ r ∈ db.rows.rows, f ∈ r.related_filelist

/-- Of these files, no row refers to one that is stored. -/
def Spares (db : Db) (files : List Nat) : Prop :=
  ∀ f ∈ files, ∀ u ∈ db.uploads.get f, Referred db f → u.filepath = none

/-- The files that the writes delete. -/
def deletions (ws : List Write) : List Nat :=
  ws.filterMap fun w =>
    match w with
    | .delete f => some f
    | _ => none

/-- The condition on an operation: a row is given stored files only, and a file to which a row refers is
not made temporary. -/
def Op.Careful (w : World) : Op → Prop
  | .create _ data | .update _ data _ _ =>
    ∀ f ∈ data.given, ∀ u ∈ w.db.uploads.get f, Stored w.storage u
  | .edit f _ is_tmp => is_tmp = some true → ¬ Referred w.db f
  | _ => True

/-- The condition on an event: a transaction that is rolled back has not deleted a stored file to which a
committed row refers. -/
def Careful (s : State) : Event → Prop
  | .op op => op.Careful s.world
  | .commit => True
  | .rollback => Spares s.committed (s.world.deleted.map UploadFile.id)
  | .interrupt op n =>
    ∀ ws ∈ op.writes s.world.db s.world.storage,
      Spares s.committed (s.world.deleted.map UploadFile.id ++ deletions (ws.take n))

instance (storage : List String) (u : UploadFile) : Decidable (Stored storage u) :=
  inferInstanceAs (Decidable (∀ path ∈ u.filepath, path ∈ storage))

instance (db : Db) (f : Nat) : Decidable (Referred db f) :=
  inferInstanceAs (Decidable (∃ r ∈ db.rows.rows, f ∈ r.related_filelist))

instance (db : Db) (files : List Nat) : Decidable (Spares db files) :=
  inferInstanceAs (Decidable (∀ f ∈ files, ∀ u ∈ db.uploads.get f, Referred db f → u.filepath = none))

instance (w : World) : (op : Op) → Decidable (op.Careful w)
  | .create _ data | .update _ data _ _ =>
    inferInstanceAs (Decidable (∀ f ∈ data.given, ∀ u ∈ w.db.uploads.get f, Stored w.storage u))
  | .edit f _ is_tmp => inferInstanceAs (Decidable (is_tmp = some true → ¬ Referred w.db f))
  | .destroy _ | .cascade _ | .upload _ | .destroy_file _ => isTrue trivial

instance (s : State) : (e : Event) → Decidable (Careful s e)
  | .op op => inferInstanceAs (Decidable (op.Careful s.world))
  | .commit => isTrue trivial
  | .rollback => inferInstanceAs (Decidable (Spares _ _))
  | .interrupt _ _ => inferInstanceAs (Decidable (∀ ws ∈ _, Spares _ _))

instance (db : Db) (storage : List String) : Decidable (Outlive db storage) :=
  inferInstanceAs (Decidable (∀ r ∈ db.rows.rows, ∀ f ∈ r.related_filelist,
    ∃ u ∈ db.uploads.get f, Stored storage u ∧ u.is_tmp = false))

/-! ### What an operation keeps -/

/-- No two files are stored under one path. -/
def Apart (db : Db) : Prop :=
  ∀ u ∈ db.uploads.rows, ∀ v ∈ db.uploads.rows, ∀ path, u.filepath = some path →
    v.filepath = some path → u.id = v.id

/-- The files of the rows are stored, and only those that are still to be marked are temporary. -/
structure Kept (w : World) (pending : List Nat) : Prop where
  files : ∀ r ∈ w.db.rows.rows, ∀ f ∈ r.related_filelist, ∀ u, w.db.uploads.get f = some u →
    Stored w.storage u ∧ (u.is_tmp = true → f ∈ pending)
  apart : Apart w.db

/-- What a rollback restores: the files to which committed rows refer are stored, and nobody else's, or
the transaction has deleted them. -/
def Backed (committed : Db) (w : World) : Prop :=
  ∀ f u, committed.uploads.get f = some u → Referred committed f → u.is_tmp = false ∧
    ∀ path ∈ u.filepath, (∃ v ∈ w.deleted, v.id = f) ∨
      path ∈ w.storage ∧ ∀ v ∈ w.db.uploads.rows, v.filepath = some path → v.id = f

variable {w w' : World} {committed : Db} {pending : List Nat} {s t : State}

theorem Kept.outlive (h : Kept w []) : Outlive w.db w.storage := by
  intro r hr f hf
  obtain ⟨u, hu⟩ := Option.isSome_iff_exists.mp (w.db.foreign r hr f hf)
  obtain ⟨hstored, htmp⟩ := h.files r hr f hf u hu
  exact ⟨u, hu, hstored, Bool.eq_false_iff.mpr fun h => List.not_mem_nil (htmp h)⟩

theorem Kept.mono {pending' : List Nat} (h : Kept w pending) (hsub : pending ⊆ pending') :
    Kept w pending' where
  files r hr f hf u hu := (h.files r hr f hf u hu).imp_right fun htmp ht => hsub (htmp ht)
  apart := h.apart

/-- Nothing is deleted yet. -/
theorem Kept.backed (h : Kept w []) (deleted : List UploadFile) :
    Backed w.db { w with deleted := deleted } := by
  rintro f u hu ⟨r, hr, hf⟩
  obtain ⟨hstored, htmp⟩ := h.files r hr f hf u hu
  refine ⟨Bool.eq_false_iff.mpr fun h => List.not_mem_nil (htmp h), fun path hpath => .inr ?_⟩
  refine ⟨hstored path hpath, fun v hv hvp => ?_⟩
  rw [← Table.key_of_get hu]
  exact h.apart v hv u (Table.mem_of_get hu) path hvp hpath

/-- What was deleted is not missed. -/
theorem Backed.restored (h : Backed committed w) (hapart : Apart committed)
    (hspares : Spares committed (w.deleted.map UploadFile.id)) :
    Kept ⟨committed, w.storage, []⟩ [] where
  files r hr f hf u hu := by
    obtain ⟨htmp, hpaths⟩ := h f u hu ⟨r, hr, hf⟩
    refine ⟨fun path hpath => ?_, fun ht => by rw [htmp] at ht; cases ht⟩
    rcases hpaths path hpath with ⟨v, hv, rfl⟩ | ⟨hmem, -⟩
    · have hnone := hspares v.id (List.mem_map_of_mem hv) u hu ⟨r, hr, hf⟩
      rw [hnone] at hpath
      cases hpath
    · exact hmem
  apart := hapart

/-! ### One write -/

/-- The files of `w'` are files of `w`, under their paths. -/
def Fewer (w w' : World) : Prop :=
  ∀ v ∈ w'.db.uploads.rows, ∃ u ∈ w.db.uploads.rows, u.id = v.id ∧ u.filepath = v.filepath

theorem Apart.fewer (h : Apart w.db) (hf : Fewer w w') : Apart w'.db := by
  intro u hu v hv path hup hvp
  obtain ⟨u₀, hu₀, hid, hpath⟩ := hf u hu
  obtain ⟨v₀, hv₀, hid', hpath'⟩ := hf v hv
  rw [← hid, ← hid']
  exact h u₀ hu₀ v₀ hv₀ path (hpath.trans hup) (hpath'.trans hvp)

/-- A write that leaves the storage as it is. -/
theorem Backed.fewer (h : Backed committed w) (hf : Fewer w w') (hstorage : w'.storage = w.storage)
    (hdeleted : w'.deleted = w.deleted) : Backed committed w' := by
  intro f u hu href
  obtain ⟨htmp, hpaths⟩ := h f u hu href
  refine ⟨htmp, fun path hpath => ?_⟩
  rw [hstorage, hdeleted]
  refine (hpaths path hpath).imp_right fun ⟨hmem, hown⟩ => ⟨hmem, fun v hv hvp => ?_⟩
  obtain ⟨v₀, hv₀, hid, hp⟩ := hf v hv
  exact hid ▸ hown v₀ hv₀ (hp.trans hvp)

theorem fewer_refl (h : w'.db.uploads = w.db.uploads) : Fewer w w' := by
  intro v hv
  rw [h] at hv
  exact ⟨v, hv, rfl, rfl⟩

theorem fewer_modify {f : Nat} {change : UploadFile → UploadFile} {hid : ∀ u, (change u).id = u.id}
    (hpath : ∀ u, (change u).filepath = u.filepath) :
    Fewer w { w with db := w.db.modify_file f change hid } := by
  intro v hv
  obtain ⟨u, hu, rfl⟩ := List.mem_map.mp hv
  refine ⟨u, hu, ?_, ?_⟩
  · split_ifs
    · exact (hid u).symm
    · rfl
  · split_ifs
    · exact (hpath u).symm
    · rfl

theorem fewer_delete {f : Nat} (h : w'.db.uploads = w.db.uploads.delete f) : Fewer w w' := by
  intro v hv
  rw [h] at hv
  exact ⟨v, Table.mem_delete hv, rfl, rfl⟩

theorem Write.exec_save {row : Row} (h : Write.exec w (.save row) = some w') :
    ∃ db, w.db.save row = some db ∧ w' = { w with db := db } := by
  obtain ⟨db, hdb, rfl⟩ := Option.map_eq_some_iff.mp h
  exact ⟨db, hdb, rfl⟩

theorem Write.exec_mark {f : Nat} (h : Write.exec w (.mark f) = some w') :
    w' = { w with db := w.db.modify_file f (fun u => { u with is_tmp := false }) fun _ => rfl } := by
  rw [Write.exec] at h
  split_ifs at h
  exact (Option.some.inj h).symm

/-- Deleting a file: it was gone, or it goes with its stored file. -/
theorem Write.exec_delete {f : Nat} (h : Write.exec w (.delete f) = some w') :
    w.db.uploads.get f = none ∧ w' = w ∨
      ∃ u, w.db.uploads.get f = some u ∧ w' =
        { db := w.db.delete_file f
          storage := w.storage.filter fun path => u.filepath ≠ some path
          deleted := w.deleted ++ [u] } := by
  rw [Write.exec] at h
  cases hget : w.db.uploads.get f with
  | none =>
      rw [hget] at h
      exact .inl ⟨rfl, (Option.some.inj h).symm⟩
  | some u =>
      rw [hget] at h
      exact .inr ⟨u, rfl, (Option.some.inj h).symm⟩

theorem Db.save_uploads {db db' : Db} {row : Row} (h : db.save row = some db') :
    db'.uploads = db.uploads ∧ db'.rows = (db.rows.delete row.key).insert row := by
  rw [Db.save] at h
  split_ifs at h
  cases h
  exact ⟨rfl, rfl⟩

/-- The path of a new file is free. -/
def Write.Fresh (w : World) : Write → Prop
  | .store u => ∀ path ∈ u.filepath, Free w.db w.storage path
  | _ => True

/-- **One write**, and what a rollback restores. -/
theorem Backed.exec (h : Backed committed w) {x : Write} (hx : Write.exec w x = some w')
    (hfresh : x.Fresh w) : Backed committed w' := by
  cases x with
  | save row =>
      obtain ⟨db, hdb, rfl⟩ := Write.exec_save hx
      exact h.fewer (fewer_refl (Db.save_uploads hdb).1) rfl rfl
  | remove key =>
      cases hx
      exact h.fewer (fewer_refl rfl) rfl rfl
  | mark f =>
      rw [Write.exec_mark hx]
      exact h.fewer (fewer_modify fun _ => rfl) rfl rfl
  | edit f file_url is_tmp =>
      cases hx
      exact h.fewer (fewer_modify fun _ => rfl) rfl rfl
  | delete f =>
      rcases Write.exec_delete hx with ⟨-, rfl⟩ | ⟨v, hv, rfl⟩
      · exact h
      intro g u hu href
      obtain ⟨htmp, hpaths⟩ := h g u hu href
      refine ⟨htmp, fun path hpath => ?_⟩
      rcases hpaths path hpath with ⟨v', hv', hid⟩ | ⟨hmem, hown⟩
      · exact .inl ⟨v', List.mem_append_left _ hv', hid⟩
      · by_cases heq : v.filepath = some path
        · exact .inl ⟨v, by simp, hown v (Table.mem_of_get hv) heq⟩
        · refine .inr ⟨List.mem_filter.mpr ⟨hmem, by simpa using heq⟩, fun v' hv' => ?_⟩
          exact hown v' (Table.mem_delete hv')
  | store v =>
      cases hx
      intro g u hu href
      obtain ⟨htmp, hpaths⟩ := h g u hu href
      refine ⟨htmp, fun path hpath => (hpaths path hpath).imp_right ?_⟩
      rintro ⟨hmem, hown⟩
      refine ⟨List.mem_append_left _ hmem, fun v' hv' hvp => ?_⟩
      rcases Table.mem_insert hv' with hv' | rfl
      · exact hown v' hv' hvp
      · exact absurd hmem (hfresh path hvp).1

/-- A write that adds no reference and no temporary file, and stores what it stored. -/
theorem Kept.of_sub (h : Kept w pending) (hf : Fewer w w')
    (hsub : ∀ r ∈ w'.db.rows.rows, ∀ f ∈ r.related_filelist, Referred w.db f)
    (hget : ∀ f u, w'.db.uploads.get f = some u → Referred w'.db f → ∃ v, w.db.uploads.get f = some v ∧
      (Stored w.storage v → Stored w'.storage u) ∧ (u.is_tmp = true → v.is_tmp = true)) :
    Kept w' pending where
  files r hr f hfr u hu := by
    obtain ⟨v, hv, hstored, htmp⟩ := hget f u hu ⟨r, hr, hfr⟩
    obtain ⟨q, hq, hfq⟩ := hsub r hr f hfr
    obtain ⟨hs, ht⟩ := h.files q hq f hfq v hv
    exact ⟨hstored hs, fun hu => ht (htmp hu)⟩
  apart := h.apart.fewer hf

/-- Deleting a file keeps the others. -/
theorem Kept.delete {f : Nat} (h : Kept w pending) (hx : Write.exec w (.delete f) = some w') :
    Kept w' pending := by
  rcases Write.exec_delete hx with ⟨-, rfl⟩ | ⟨v, hv, rfl⟩
  · exact h
  have hrows (r : Row) (hr : r ∈ (w.db.delete_file f).rows.rows) (g : Nat)
      (hg : g ∈ r.related_filelist) : Referred w.db g := by
    obtain ⟨q, hq, rfl⟩ := List.mem_map.mp hr
    refine ⟨q, (Table.mem_filter.mp hq).1, ?_⟩
    rcases List.mem_append.mp hg with hg | hg
    · exact List.mem_append_left _ hg
    · exact List.mem_append_right _ (List.mem_filter.mp hg).1
  refine h.of_sub (fewer_delete rfl) hrows fun g u hu _ => ?_
  have hne : g ≠ f := by
    rintro rfl
    have hgone : (w.db.uploads.delete g).get g = none := Table.get_delete_self _ _
    cases hu.symm.trans hgone
  have hold : w.db.uploads.get g = some u := by rwa [← Table.get_delete_ne _ hne]
  refine ⟨u, hold, fun hs path hpath => List.mem_filter.mpr ⟨hs path hpath, ?_⟩, id⟩
  -- the paths are apart
  rw [decide_eq_true_eq]
  intro hvp
  have hid := h.apart u (Table.mem_of_get hold) v (Table.mem_of_get hv) path hpath hvp
  rw [Table.key_of_get hold, Table.key_of_get hv] at hid
  exact hne hid

/-- A marked file is no longer temporary. -/
theorem Kept.mark {f : Nat} (h : Kept w (f :: pending)) (hx : Write.exec w (.mark f) = some w') :
    Kept w' pending := by
  rw [Write.exec_mark hx]
  refine ⟨fun r hr g hg u hu => ?_, h.apart.fewer (fewer_modify fun _ => rfl)⟩
  simp only [Db.modify_file, Table.get_modify, Option.map_eq_some_iff] at hu
  obtain ⟨v, hv, rfl⟩ := hu
  obtain ⟨hstored, htmp⟩ := h.files r hr g hg v hv
  have hid : v.id = g := Table.key_of_get hv
  split_ifs with heq
  · exact ⟨hstored, False.elim⟩
  · refine ⟨hstored, fun ht => (List.mem_cons.mp (htmp ht)).resolve_left ?_⟩
    exact fun hgf => heq (hid.trans hgf)

/-- A row with files that are stored, of which the temporary ones are to be marked. -/
theorem Kept.save {row : Row} (h : Kept w []) (hx : Write.exec w (.save row) = some w')
    (hrow : ∀ f ∈ row.related_filelist, ∀ u, w.db.uploads.get f = some u →
      Stored w.storage u ∧ (u.is_tmp = true → f ∈ pending)) : Kept w' pending := by
  obtain ⟨db, hdb, rfl⟩ := Write.exec_save hx
  obtain ⟨huploads, hrows⟩ := Db.save_uploads hdb
  refine ⟨fun r hr f hf u hu => ?_, h.apart.fewer (fewer_refl huploads)⟩
  simp only [huploads] at hu
  rw [hrows] at hr
  rcases Table.mem_insert hr with hr | rfl
  · exact (h.mono (List.nil_subset _)).files r (Table.mem_delete hr) f hf u hu
  · exact hrow f hf u hu

/-! ### One operation -/

theorem perform_cons {x : Write} {ws : List Write} (h : perform w (x :: ws) = some w') :
    ∃ u, Write.exec w x = some u ∧ perform u ws = some w' :=
  Option.bind_eq_some_iff.mp h

theorem perform_append {ws ws' : List Write} (h : perform w (ws ++ ws') = some w') :
    ∃ u, perform w ws = some u ∧ perform u ws' = some w' := by
  rw [perform, List.foldlM_append] at h
  exact Option.bind_eq_some_iff.mp h

theorem Kept.deletes {fs : List Nat} (h : Kept w pending)
    (hx : perform w (fs.map .delete) = some w') : Kept w' pending := by
  induction fs generalizing w with
  | nil =>
      cases hx
      exact h
  | cons f fs ih =>
      obtain ⟨u, hu, hx⟩ := perform_cons hx
      exact ih (h.delete hu) hx

theorem Kept.marks {fs : List Nat} (h : Kept w fs) (hx : perform w (fs.map .mark) = some w') :
    Kept w' [] := by
  induction fs generalizing w with
  | nil =>
      cases hx
      exact h
  | cons f fs ih =>
      obtain ⟨u, hu, hx⟩ := perform_cons hx
      exact ih (h.mark hu) hx

theorem Kept.create {key : Model × Nat} {data : Validated} {ws : List Write} (h : Kept w [])
    (hcareful : (Op.create key data).Careful w)
    (hws : (Op.create key data).writes w.db w.storage = some ws) (hx : perform w ws = some w') :
    Kept w' [] := by
  rw [Op.writes] at hws
  split_ifs at hws
  obtain rfl := Option.some.inj hws
  obtain ⟨u, hu, hx⟩ := perform_cons hx
  refine Kept.marks (h.save hu fun f hf v hv => ?_) hx
  have hgiven : f ∈ data.given := by
    simpa [Row.related_filelist, Validated.given, List.mem_dedup] using hf
  exact ⟨hcareful f hgiven v hv, fun _ => hgiven⟩

/-- A file of the row after an update: it was the row's before, or is one of `n_file_objs`. -/
theorem mem_updated {r : Row} {data : Validated} (hfile : data.file.isSome → r.file.isSome) {f : Nat}
    (hf : f ∈ (r.updated data).related_filelist) :
    f ∈ r.related_filelist ∨ f ∈ data.given ∧ f ∈ (r.changed_files data).2 := by
  by_cases hold : f ∈ r.related_filelist
  · exact .inl hold
  right
  simp only [Row.related_filelist, List.mem_append, Option.mem_toList, not_or] at hold
  simp only [Row.related_filelist, Row.updated, List.mem_append, Option.mem_toList] at hf
  rcases hf with hf | hf
  · cases hd : data.file with
    | none =>
        rw [hd] at hf
        exact absurd hf hold.1
    | some n_file =>
        obtain ⟨o_file, ho⟩ := Option.isSome_iff_exists.mp (hfile (by simp [hd]))
        obtain rfl : n_file = f := by simpa [hd] using hf
        have hne : o_file ≠ n_file := by
          rintro rfl
          exact hold.1 ho
        simp [Validated.given, Row.changed_files, hd, ho, hne]
  · cases hd : data.files with
    | none =>
        rw [hd] at hf
        exact absurd hf hold.2
    | some n_files =>
        have hmem : f ∈ n_files := by simpa [hd, List.mem_dedup] using hf
        simp [Validated.given, Row.changed_files, hd, hmem, hold.2, List.mem_dedup]

theorem Kept.update {key : Model × Nat} {data : Validated} {d_files n_files : List Nat}
    {ws : List Write} (h : Kept w []) (hcareful : (Op.update key data d_files n_files).Careful w)
    (hws : (Op.update key data d_files n_files).writes w.db w.storage = some ws)
    (hx : perform w ws = some w') : Kept w' [] := by
  rw [Op.writes] at hws
  cases hr : w.db.rows.get key with
  | none =>
      rw [hr] at hws
      cases hws
  | some r =>
      simp only [hr] at hws
      split_ifs at hws with hsets
      obtain ⟨-, hn, hfile⟩ := hsets
      obtain rfl := Option.some.inj hws
      obtain ⟨u, hu, hx⟩ := perform_cons hx
      obtain ⟨u', hd, hm⟩ := perform_append hx
      refine Kept.marks (Kept.deletes (h.save hu fun f hf v hv => ?_) hd) hm
      rcases mem_updated hfile hf with hold | ⟨hgiven, hchanged⟩
      · obtain ⟨hstored, htmp⟩ := h.files r (Table.mem_of_get hr) f hold v hv
        exact ⟨hstored, fun ht => absurd (htmp ht) List.not_mem_nil⟩
      · exact ⟨hcareful f hgiven v hv, fun _ => hn.mem_iff.mpr hchanged⟩

theorem Kept.remove (h : Kept w pending) (key : Model × Nat) :
    Kept { w with db := w.db.remove key } pending :=
  h.of_sub (fewer_refl rfl) (fun r hr _ hf => ⟨r, Table.mem_delete hr, hf⟩)
    fun _ u hu _ => ⟨u, hu, id, id⟩

theorem Kept.store {v : UploadFile} (h : Kept w []) (hnew : w.db.uploads.get v.id = none)
    (hfresh : (Write.store v).Fresh w) :
    Kept { w with db := w.db.create_file v, storage := w.storage ++ v.filepath.toList } [] where
  files r hr f hf u hu := by
    obtain ⟨u', hu'⟩ := Option.isSome_iff_exists.mp (w.db.foreign r hr f hf)
    have hne : f ≠ v.id := by
      rintro rfl
      cases hnew.symm.trans hu'
    have hold : w.db.uploads.get f = some u := (Table.get_insert_ne _ hne).symm.trans hu
    obtain ⟨hstored, htmp⟩ := h.files r hr f hf u hold
    exact ⟨fun path hpath => List.mem_append_left _ (hstored path hpath), htmp⟩
  apart u hu u' hu' path hp hp' := by
    have hfree {x : UploadFile} (hx : x ∈ w.db.uploads.rows) (hxp : x.filepath = some path)
        (hvp : v.filepath = some path) : False := (hfresh path hvp).2 x hx hxp
    rcases Table.mem_insert hu with hold | rfl <;> rcases Table.mem_insert hu' with hold' | rfl
    · exact h.apart u hold u' hold' path hp hp'
    · exact (hfree hold hp hp').elim
    · exact (hfree hold' hp' hp).elim
    · rfl

/-- The file of a new row is stored under a free path. -/
theorem Op.writes_upload {v : UploadFile} {ws : List Write}
    (h : (Op.upload v).writes w.db w.storage = some ws) :
    ws = [.store v] ∧ w.db.uploads.get v.id = none ∧ (Write.store v).Fresh w := by
  rw [Op.writes] at h
  split_ifs at h with hok
  obtain ⟨hnew, hacc⟩ := hok
  refine ⟨(Option.some.inj h).symm, by simpa using hnew, fun path hpath => ?_⟩
  rw [Option.mem_def] at hpath
  simp only [hpath, decide_eq_true_eq] at hacc
  exact hacc.2.2.2

theorem Kept.edit {f : Nat} {file_url : Option (Option String)} {is_tmp : Option Bool}
    {ws : List Write} (h : Kept w []) (hcareful : (Op.edit f file_url is_tmp).Careful w)
    (hws : (Op.edit f file_url is_tmp).writes w.db w.storage = some ws)
    (hx : perform w ws = some w') : Kept w' [] := by
  rw [Op.writes] at hws
  cases hv : w.db.uploads.get f with
  | none =>
      rw [hv] at hws
      cases hws
  | some v =>
      simp only [hv] at hws
      split_ifs at hws
      obtain rfl := Option.some.inj hws
      cases hx
      refine h.of_sub (fewer_modify fun _ => rfl) (fun r hr g hg => ⟨r, hr, hg⟩) fun g u hu href => ?_
      simp only [Db.modify_file, Table.get_modify, Option.map_eq_some_iff] at hu
      obtain ⟨u', hu', rfl⟩ := hu
      refine ⟨u', hu', ?_⟩
      split_ifs with heq
      · have hid : u'.id = g := Table.key_of_get hu'
        obtain rfl : f = g := heq.symm.trans hid
        obtain rfl : v = u' := Option.some.inj (hv.symm.trans hu')
        refine ⟨id, fun htmp => ?_⟩
        cases is_tmp with
        | none => exact htmp
        | some b =>
            obtain rfl : b = true := htmp
            exact absurd href (hcareful rfl)
      · exact ⟨id, id⟩

/-- **One operation** that comes to its end. -/
theorem Kept.op {op : Op} {ws : List Write} (h : Kept w []) (hcareful : op.Careful w)
    (hws : op.writes w.db w.storage = some ws) (hx : perform w ws = some w') : Kept w' [] := by
  cases op with
  | create key data => exact h.create hcareful hws hx
  | update key data d_files n_files => exact h.update hcareful hws hx
  | destroy key =>
      rw [Op.writes] at hws
      cases hr : w.db.rows.get key with
      | none =>
          rw [hr] at hws
          cases hws
      | some r =>
          simp only [hr] at hws
          obtain rfl := Option.some.inj hws
          obtain ⟨u, hu, hx⟩ := perform_cons hx
          obtain rfl := Option.some.inj hu
          exact (h.remove key).deletes hx
  | cascade key =>
      cases hws
      cases hx
      exact h.remove key
  | upload v =>
      obtain ⟨rfl, hnew, hfresh⟩ := Op.writes_upload hws
      cases hx
      exact h.store hnew hfresh
  | edit f file_url is_tmp => exact h.edit hcareful hws hx
  | destroy_file f =>
      cases hws
      obtain ⟨u, hu, hx⟩ := perform_cons hx
      cases hx
      exact h.delete hu

/-! ### What a transaction leaves to restore -/

theorem Backed.perform {ws : List Write} (h : Backed committed w) (hx : perform w ws = some w')
    (hfresh : ∀ x ∈ ws, ∀ u, x = .store u → ws = [x] ∧ x.Fresh w) : Backed committed w' := by
  induction ws generalizing w with
  | nil =>
      cases hx
      exact h
  | cons x ws ih =>
      obtain ⟨u, hu, hx⟩ := perform_cons hx
      have hx₀ : x.Fresh w := by
        cases x with
        | store v => exact (hfresh _ List.mem_cons_self v rfl).2
        | _ => trivial
      refine ih (h.exec hu hx₀) hx fun y hy v hv => ?_
      have hsingle := (hfresh y (List.mem_cons_of_mem x hy) v hv).1
      obtain ⟨-, rfl⟩ := List.cons_eq_cons.mp hsingle
      cases hy

/-- A new file is the only write of its operation. -/
theorem Op.writes_fresh {op : Op} {ws : List Write} (h : op.writes w.db w.storage = some ws) :
    ∀ x ∈ ws, ∀ u, x = .store u → ws = [x] ∧ x.Fresh w := by
  rintro _ hx u rfl
  cases op with
  | upload v =>
      obtain ⟨rfl, -, hfresh⟩ := Op.writes_upload h
      obtain rfl : u = v := Write.store.inj (List.mem_singleton.mp hx)
      exact ⟨rfl, hfresh⟩
  | create key data =>
      rw [Op.writes] at h
      split_ifs at h
      obtain rfl := Option.some.inj h
      simp at hx
  | update key data d_files n_files =>
      rw [Op.writes] at h
      split at h
      · cases h
      · simp only at h
        split_ifs at h
        obtain rfl := Option.some.inj h
        simp at hx
  | destroy key =>
      rw [Op.writes] at h
      split at h
      · cases h
      · obtain rfl := Option.some.inj h
        simp at hx
  | edit f file_url is_tmp =>
      rw [Op.writes] at h
      split at h
      · cases h
      · split_ifs at h
        obtain rfl := Option.some.inj h
        simp at hx
  | cascade key | destroy_file f =>
      cases h
      simp at hx

/-- The files that some writes have deleted. -/
theorem mem_deletions {ws : List Write} (hx : perform w ws = some w') :
    ∀ v ∈ w'.deleted, v ∈ w.deleted ∨ v.id ∈ deletions ws := by
  induction ws generalizing w with
  | nil =>
      cases hx
      exact fun v hv => .inl hv
  | cons x ws ih =>
      obtain ⟨u, hu, hx⟩ := perform_cons hx
      intro v hv
      have hmore : v.id ∈ deletions ws → v.id ∈ deletions (x :: ws) := fun h =>
        ((List.sublist_cons_self x ws).filterMap _).subset h
      refine (ih hx v hv).elim (fun hv => ?_) fun h => .inr (hmore h)
      cases x with
      | delete f =>
          rcases Write.exec_delete hu with ⟨-, rfl⟩ | ⟨v', hv', rfl⟩
          · exact .inl hv
          · rcases List.mem_append.mp hv with hv | hv
            · exact .inl hv
            · obtain rfl := List.mem_singleton.mp hv
              exact .inr (by simp [deletions, Table.key_of_get hv'])
      | save row =>
          obtain ⟨db, -, rfl⟩ := Write.exec_save hu
          exact .inl hv
      | mark f =>
          rw [Write.exec_mark hu] at hv
          exact .inl hv
      | remove key | store v' | edit f file_url is_tmp =>
          cases hu
          exact .inl hv

/-! ### Runs -/

structure State.Inv (s : State) : Prop where
  kept : Kept s.world []
  backed : Backed s.committed s.world
  apart : Apart s.committed
  /-- outside a transaction the tables are the committed ones -/
  quiet : s.in_atomic_block = false → s.committed = s.world.db

theorem inv_start : State.Inv .start where
  kept := ⟨nofun, nofun⟩
  backed := nofun
  apart := nofun
  quiet _ := rfl

/-- What a rollback leaves. -/
theorem State.Inv.restore (h : Backed s.committed w) (hapart : Apart s.committed)
    (hspares : Spares s.committed (w.deleted.map UploadFile.id)) : (s.restore w.storage).Inv where
  kept := h.restored hapart hspares
  backed := (h.restored hapart hspares).backed []
  apart := hapart
  quiet _ := rfl

theorem State.Inv.next {e : Event} (h : s.Inv) (hs : guarded Step Careful s e t) : t.Inv := by
  obtain ⟨hstep, hcareful⟩ := hs
  cases e with
  | op op =>
      obtain ⟨ws, hws, hstep⟩ := Option.bind_eq_some_iff.mp hstep
      obtain ⟨w, hw, hstep⟩ := Option.bind_eq_some_iff.mp hstep
      cases hstep
      exact ⟨h.kept.op hcareful hws hw, h.backed.perform hw (Op.writes_fresh hws), h.apart, nofun⟩
  | commit =>
      cases hstep
      exact ⟨⟨h.kept.files, h.kept.apart⟩, h.kept.backed [], h.kept.apart, fun _ => rfl⟩
  | rollback =>
      cases hstep
      exact .restore h.backed h.apart hcareful
  | interrupt op n =>
      obtain ⟨ws, hws, hstep⟩ := Option.bind_eq_some_iff.mp hstep
      obtain ⟨w, hw, hstep⟩ := Option.bind_eq_some_iff.mp hstep
      cases hstep
      have hfresh := Op.writes_fresh hws
      refine .restore (h.backed.perform hw fun x hx u hu => ?_) h.apart fun f hf => ?_
      · obtain ⟨hsingle, hx'⟩ := hfresh x (List.mem_of_mem_take hx) u hu
        refine ⟨?_, hx'⟩
        rw [hsingle] at hx ⊢
        cases n with
        | zero => cases hx
        | succ n => simp
      · obtain ⟨v, hv, rfl⟩ := List.mem_map.mp hf
        refine hcareful ws hws v.id (List.mem_append.mpr ?_)
        exact (mem_deletions hw v hv).imp_left fun hv => List.mem_map_of_mem hv

/-- **Files outlive their references** in every committed state of a run of careful events: outside a
transaction, each file to which a row refers is there. -/
theorem outlive_of_run {l : List Event} (r : Run (guarded Step Careful) .start l t)
    (hcommitted : t.in_atomic_block = false) : Outlive t.committed t.world.storage := by
  have hinv : t.Inv := r.invariant (fun _ _ _ h hs => h.next hs) inv_start
  rw [hinv.quiet hcommitted]
  exact hinv.kept.outlive

/-! ### A book with a file -/

/-- An uploaded file. -/
def sampleFile (id : Nat) (path : String) : UploadFile := ⟨id, some path, none, true, true⟩

/-- Two files are uploaded, and a book is created with the first. -/
def sampleEvents : List Event :=
  [.op (.upload (sampleFile 1 "a.pdf")), .op (.upload (sampleFile 2 "b.pdf")), .commit,
    .op (.create (.Book, 1) ⟨some 1, none⟩), .commit]

/-- The second file takes the place of the first, and a message is created with it and deleted. -/
theorem outlive_of_run_shared :
    let events := sampleEvents ++
      [.op (.update (.Book, 1) ⟨some 2, none⟩ [1] [2]), .commit,
        .op (.create (.MessageContent, 1) ⟨none, some [2]⟩), .commit,
        .interrupt (.destroy (.MessageContent, 1)) 1]
    ∃ t, Run (guarded Step Careful) .start events t ∧ Outlive t.committed t.world.storage := by
  intro events
  have hexec : (exec (fun s e => if Careful s e then next s e else none) .start events).map
      State.in_atomic_block = some false := by
    decide +kernel
  obtain ⟨t, ht, hcommitted⟩ := Option.map_eq_some_iff.mp hexec
  have r := Run.guarded_of_exec ht
  exact ⟨t, r, outlive_of_run r hcommitted⟩

/-- The second file takes the place of the first, which goes to the list of files. -/
def sampleMove : Op := .update (.Book, 1) ⟨some 2, some [1]⟩ [1] [2, 1]

/-- **A file that moves within its row is lost**: the update cannot come to its end, as it marks the file
that it has deleted, and the rollback brings back the row without the stored file.  A file in use
becomes temporary through its own serializer. -/
theorem moved_file_lost :
    (∃ s, exec next .start sampleEvents = some s ∧ next s (.op sampleMove) = none ∧
      ∃ t, next s (.interrupt sampleMove 3) = some t ∧ ¬ Outlive t.committed t.world.storage) ∧
    ∃ t, exec next .start (sampleEvents ++ [.op (.edit 1 none (some true)), .commit]) = some t ∧
      ¬ Outlive t.committed t.world.storage := by
  constructor
  · have hexec : (exec next .start sampleEvents).any fun s =>
        (next s (.op sampleMove)).isNone && (next s (.interrupt sampleMove 3)).any fun t =>
          ¬ Outlive t.committed t.world.storage := by
      decide +kernel
    obtain ⟨s, hs, h⟩ := (Option.any_eq_true _ _).mp hexec
    rw [Bool.and_eq_true] at h
    obtain ⟨t, ht, hlost⟩ := (Option.any_eq_true _ _).mp h.2
    exact ⟨s, hs, Option.isNone_iff_eq_none.mp h.1, t, ht, of_decide_eq_true hlost⟩
  · have hexec : (exec next .start
        (sampleEvents ++ [.op (.edit 1 none (some true)), .commit])).any fun t =>
          ¬ Outlive t.committed t.world.storage := by
      decide +kernel
    obtain ⟨t, ht, hlost⟩ := (Option.any_eq_true _ _).mp hexec
    exact ⟨t, ht, of_decide_eq_true hlost⟩

end InfraHub.Files
