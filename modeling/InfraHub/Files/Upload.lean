import InfraHub.Lib.Run
import InfraHub.Lib.Table
import Mathlib.Data.List.Dedup

/-!
# Files — Upload

The rows of `UploadFile` with their stored files, the rows that refer to them, and what
`BaseModelSerializer` and `AutoCleanFileMixin` do to both.

* `Db`: the tables, with the foreign keys that the database enforces.  `UploadFile` rows take the rows
  with a foreign key to them along, and the links of many-to-many fields.
* `Write`: one write of an operation; `Op.writes`: the writes of an operation, in their order.
* `next`: the transactions.  The tables go back when one is rolled back, the storage does not.
-/

namespace InfraHub.Files
open InfraHub.Lib

/-! ### The tables -/

structure UploadFile where
  id : Nat
  filepath : Option String
  file_url : Option String
  is_tmp : Bool
  is_upload : Bool
  deriving DecidableEq, Repr

/-- The models with a relation to `UploadFile`. -/
inductive Model
  | Book
  | MessageContent
  deriving DecidableEq, Repr

/-- A row of one of them: the foreign key, which only `Book` has and which is not null there, and the
many-to-many field. -/
structure Row where
  key : Model × Nat
  file : Option Nat
  files : List Nat
  deriving DecidableEq, Repr

/-- `__get_related_filelist`. -/
def Row.related_filelist (r : Row) : List Nat := r.file.toList ++ r.files

structure Db where
  uploads : Table Nat UploadFile UploadFile.id
  rows : Table (Model × Nat) Row Row.key
  foreign : ∀ r ∈ rows.rows, ∀ f ∈ r.related_filelist, (uploads.get f).isSome

def Db.empty : Db where
  uploads := .empty
  rows := .empty
  foreign := nofun

/-- The row with this key becomes `r`, or `r` is new; refused where it refers to a file that is not
there. -/
def Db.save (db : Db) (r : Row) : Option Db :=
  if h : ∀ f ∈ r.related_filelist, (db.uploads.get f).isSome then
    some
      { db with
        rows := (db.rows.delete r.key).insert r
        foreign := fun q hq => by
          rcases Table.mem_insert hq with hq | rfl
          · exact db.foreign q (Table.mem_delete hq)
          · exact h }
  else none

def Db.remove (db : Db) (key : Model × Nat) : Db :=
  { db with
    rows := db.rows.delete key
    foreign := fun r hr => db.foreign r (Table.mem_delete hr) }

/-- The link to the file is gone. -/
def Row.unlink (f : Nat) (r : Row) : Row := { r with files := r.files.filter (· ≠ f) }

/-- A row of `UploadFile` goes, with `on_delete=CASCADE`. -/
def Db.delete_file (db : Db) (f : Nat) : Db where
  uploads := db.uploads.delete f
  rows := (db.rows.filter fun r => r.file ≠ some f).map (Row.unlink f) fun _ => rfl
  foreign r hr g hg := by
    obtain ⟨q, hq, rfl⟩ := List.mem_map.mp hr
    obtain ⟨hq, hfile⟩ := Table.mem_filter.mp hq
    have hne : g ≠ f := by
      rintro rfl
      rcases List.mem_append.mp hg with hg | hg
      · simp only [Row.unlink, Option.mem_toList] at hg
        simp [hg] at hfile
      · simp [Row.unlink] at hg
    rw [Table.get_delete_ne _ hne]
    refine db.foreign q hq g ?_
    rcases List.mem_append.mp hg with hg | hg
    · exact List.mem_append_left _ hg
    · exact List.mem_append_right _ (List.mem_filter.mp hg).1

/-- Columns of a row of `UploadFile` change. -/
def Db.modify_file (db : Db) (f : Nat) (change : UploadFile → UploadFile)
    (hid : ∀ u, (change u).id = u.id) : Db :=
  { db with
    uploads := db.uploads.modify f change hid
    foreign := fun r hr g hg => by
      rw [Table.get_modify, Option.isSome_map]
      exact db.foreign r hr g hg }

def Db.create_file (db : Db) (u : UploadFile) : Db :=
  { db with
    uploads := db.uploads.insert u
    foreign := fun r hr g hg => by
      have hold := db.foreign r hr g hg
      by_cases h : g = u.id
      · subst h
        exact Table.get_insert_isSome _ _
      · rwa [Table.get_insert_ne _ h] }

/-! ### Writes -/

/-- What an operation works on.  `deleted` are the files that the open transaction has removed from the
storage. -/
structure World where
  db : Db
  storage : List String
  deleted : List UploadFile

inductive Write
  /-- `super().create` or `super().update`: the row, with its links -/
  | save (row : Row)
  /-- `super().delete()` -/
  | remove (key : Model × Nat)
  /-- `file.delete()` -/
  | delete (file : Nat)
  /-- `setattr(n_file, "is_tmp", False)` and `n_file.save(update_fields=["is_tmp"])` -/
  | mark (file : Nat)
  /-- a new row of `UploadFile`; its file is stored before -/
  | store (file : UploadFile)
  /-- other values for the columns that `UploadFileSerializer` writes -/
  | edit (file : Nat) (file_url : Option String) (is_tmp : Bool)
  deriving DecidableEq, Repr

/-- One write; none where it raises. -/
def Write.exec (w : World) : Write → Option World
  | .save row => (w.db.save row).map fun db => { w with db := db }
  | .remove key => some { w with db := w.db.remove key }
  | .delete file =>
    match w.db.uploads.get file with
    -- the row is gone since the operation read it, and its file with it
    | none => some w
    | some u => some
        { db := w.db.delete_file file
          storage := w.storage.filter fun path => u.filepath ≠ some path
          deleted := w.deleted ++ [u] }
  | .mark file =>
    -- "Save with update_fields did not affect any rows."
    if (w.db.uploads.get file).isSome then
      some { w with db := w.db.modify_file file (fun u => { u with is_tmp := false }) fun _ => rfl }
    else none
  | .store file => some
      { w with
        db := w.db.create_file file
        storage := w.storage ++ file.filepath.toList }
  | .edit file file_url is_tmp => some
      { w with
        db := w.db.modify_file file (fun u => { u with file_url := file_url, is_tmp := is_tmp })
          fun _ => rfl }

/-! ### Operations -/

/-- The fields of `validated_data` that are relations to `UploadFile`. -/
structure Validated where
  file : Option Nat
  files : Option (List Nat)
  deriving DecidableEq, Repr

/-- The files that `validated_data` names. -/
def Validated.given (data : Validated) : List Nat := data.file.toList ++ data.files.getD []

inductive Op
  | create (key : Model × Nat) (validated_data : Validated)
  /-- `d_files` and `n_files` are `d_file_objs` and `n_file_objs`, in the order in which the sets gave
  them -/
  | update (key : Model × Nat) (validated_data : Validated) (d_files n_files : List Nat)
  | destroy (key : Model × Nat)
  /-- a row that goes along with one of another model, a user -/
  | cascade (key : Model × Nat)
  /-- `UploadFileViewSet.upload`, or `UploadFileSerializer.create` for an address in the Internet -/
  | upload (file : UploadFile)
  /-- `UploadFileSerializer.update`; none for what is not in `validated_data` -/
  | edit (file : Nat) (file_url : Option (Option String)) (is_tmp : Option Bool)
  /-- `UploadFile.delete`, of the view and of `auto_clean_tmp_file` -/
  | destroy_file (file : Nat)
  deriving DecidableEq, Repr

/-- The loop over the relations in `BaseModelSerializer.update`: `d_file_objs` and `n_file_objs`. -/
def Row.changed_files (r : Row) (data : Validated) : List Nat × List Nat :=
  let one : List Nat × List Nat :=
    match r.file, data.file with
    | some o_file, some n_file => if o_file ≠ n_file then ([o_file], [n_file]) else ([], [])
    | _, _ => ([], [])
  let many : List Nat × List Nat :=
    match data.files with
    | some n_files =>
      (r.files.filter (· ∉ n_files), (n_files.filter (· ∉ r.files)).dedup)
    | none => ([], [])
  (one.1 ++ many.1, one.2 ++ many.2)

/-- The row as `super().update` leaves it. -/
def Row.updated (r : Row) (data : Validated) : Row where
  key := r.key
  file := data.file.or r.file
  files := (data.files.map List.dedup).getD r.files

/-- The path is in nobody's use: the storage and `upload_directory_path` see to that. -/
def Free (db : Db) (storage : List String) (path : String) : Prop :=
  path ∉ storage ∧ ∀ u ∈ db.uploads.rows, u.filepath ≠ some path

instance (db : Db) (storage : List String) (path : String) : Decidable (Free db storage path) :=
  inferInstanceAs (Decidable (_ ∧ _))

/-- The writes of an operation, in their order; none where it is refused before the first. -/
def Op.writes (db : Db) (storage : List String) : Op → Option (List Write)
  | .create key data =>
    if (db.rows.get key).isNone ∧ (data.file.isSome ↔ key.1 = .Book) then
      some (.save ⟨key, data.file, (data.files.getD []).dedup⟩ :: data.given.map .mark)
    else none
  | .update key data d_files n_files =>
    match db.rows.get key with
    | none => none
    | some r =>
      let changed := r.changed_files data
      if d_files.Perm changed.1 ∧ n_files.Perm changed.2 ∧ (data.file.isSome → r.file.isSome) then
        some (.save (r.updated data) :: (d_files.map .delete ++ n_files.map .mark))
      else none
  | .destroy key =>
    match db.rows.get key with
    | none => none
    | some r => some (.remove key :: r.related_filelist.map .delete)
  | .cascade key => some [.remove key]
  | .upload file =>
    let accepted : Bool :=
      match file.filepath with
      | some path => file.is_tmp ∧ file.is_upload ∧ file.file_url = none ∧ Free db storage path
      -- "Internet url cannot be null"
      | none => file.file_url.isSome ∧ ¬ file.is_upload
    if (db.uploads.get file.id).isNone ∧ accepted then some [.store file] else none
  | .edit file file_url is_tmp =>
    match db.uploads.get file with
    | none => none
    | some u =>
      -- "Internet url cannot be null"
      if (file_url.getD none).isNone ∧ ¬ u.is_upload then none
      else some [.edit file (file_url.getD u.file_url) (is_tmp.getD u.is_tmp)]
  | .destroy_file file => some [.delete file]

def perform (w : World) (ws : List Write) : Option World := ws.foldlM Write.exec w

/-! ### Transactions -/

/-- The committed tables, and the world of the open transaction. -/
structure State where
  committed : Db
  world : World
  in_atomic_block : Bool

def State.start : State where
  committed := .empty
  world := ⟨.empty, [], []⟩
  in_atomic_block := false

inductive Event
  /-- an operation, from its first write to its last -/
  | op (op : Op)
  | commit
  /-- the transaction is rolled back -/
  | rollback
  /-- an operation that comes to `n` writes, and then the transaction is rolled back: the next write
  raises, or anything else does -/
  | interrupt (op : Op) (n : Nat)
  deriving DecidableEq, Repr

/-- The tables as they were before the transaction, and the storage as it is. -/
def State.restore (s : State) (storage : List String) : State where
  committed := s.committed
  world := ⟨s.committed, storage, []⟩
  in_atomic_block := false

def next (s : State) : Event → Option State
  | .op op => do
    let ws ← op.writes s.world.db s.world.storage
    let w ← perform s.world ws
    return ⟨s.committed, w, true⟩
  | .commit => some ⟨s.world.db, { s.world with deleted := [] }, false⟩
  | .rollback => some (s.restore s.world.storage)
  | .interrupt op n => do
    let ws ← op.writes s.world.db s.world.storage
    let w ← perform s.world (ws.take n)
    return s.restore w.storage

def Step (s : State) (e : Event) (t : State) : Prop := next s e = some t

end InfraHub.Files
