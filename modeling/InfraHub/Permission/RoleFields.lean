import InfraHub.Permission.DeptClosure
import InfraHub.Permission.Lapsed

/-!
# Permission — RoleFields

`RoleSerializer.update`, with the field permissions of the role: all of them are deleted, and those
that are sent are saved one by one, each checked before, in one transaction.

* `save_fields_eq`: the entries are saved, unless one is not valid.
* Nothing is deleted where nothing is sent, so that an empty mapping leaves the old rows
  (`represents_iff`).
* `get_field` makes the keys of the result of dicts, which are not the keys of menus
  (`related_str_ne`); so the result is never the mapping that was sent, if that has a field
  (`stores_exactly_iff`).
-/

namespace InfraHub.Permission
open InfraHub.Lib (Table Dict)

/-! ### The role and its rows -/

/-- The other columns of a role. -/
structure Role extends UserRole where
  name : String
  code : String
  description : Option String
  deriving DecidableEq, Repr

structure RoleDb where
  roles : Table Nat Role fun role => role.pk
  field_permissions : Table (Nat × Nat) FieldPermission FieldPermission.key

/-- The validated columns; `none` is not sent. -/
structure RoleData where
  name : Option String
  code : Option String
  is_active : Option Bool
  description : Option (Option String)
  menu : Option (List Nat)

/-- What the querysets of the related fields have: a value that names none of their rows is an
error. -/
structure Scope where
  role : Nat → Bool
  menu : Value → Option Nat
  field : Value → Option Nat

/-- `ManyRelatedField.to_internal_value`; a dict gives its keys. -/
def many (read : Value → Option Nat) : Value → Option (List Nat)
  | .list l => l.mapM read
  | .dict d => (d.map fun p => Value.str p.1).mapM read
  | _ => none

namespace FieldPermissionSerializer

/-- `is_valid`: the role and the menu have no row yet. -/
def is_valid (scope : Scope) (db : RoleDb) (role : Nat) (menu : String) (field : Value) :
    Option FieldPermission :=
  (scope.menu (.str menu)).bind fun menu => (many scope.field field).bind fun field =>
    if scope.role role ∧ (role, menu) ∉ db.field_permissions.rows.map FieldPermission.key then
      some ⟨role, menu, field⟩
    else none

/-- A field is linked once. -/
def save (db : RoleDb) (permission : FieldPermission) : RoleDb :=
  { db with field_permissions :=
      db.field_permissions.insert { permission with field := permission.field.dedup } }

end FieldPermissionSerializer

namespace RoleSerializer

/-- What stands for a related row in a response. -/
structure Related where
  pk : Nat
  label : Nat
  deriving DecidableEq, Repr

def to_representation (pk : Nat) : Related := ⟨pk, pk⟩

/-- `str` of the dict. -/
def related_str (related : Related) : String :=
  "\x7b'pk': UUID('" ++ uuid_str related.pk ++ "'), 'label': UUID('" ++ uuid_str related.label ++
  "')\x7d"

def get_field (db : RoleDb) (role : Nat) : Dict String (List Related) :=
  let results := db.field_permissions.rows.filter fun permission => permission.role = role
  .ofList (results.map fun res =>
    (related_str (to_representation res.menu), res.field.map to_representation))

/-- The first entry that is not valid raises. -/
def save_fields (scope : Scope) (fields : List (String × Value)) (role : Nat) (db : RoleDb) :
    Option RoleDb :=
  fields.foldlM (fun db (k, v) =>
    (FieldPermissionSerializer.is_valid scope db role k v).map (FieldPermissionSerializer.save db))
      db

/-- `super().update`. -/
def set_role (db : RoleDb) (role : Nat) (data : RoleData) : RoleDb :=
  { db with
    roles := db.roles.modify role (fun row =>
      { row with
        name := data.name.getD row.name
        code := data.code.getD row.code
        is_active := data.is_active.getD row.is_active
        description := data.description.getD row.description
        menu := data.menu.getD row.menu }) fun _ => rfl }

/-- `FieldPermission.objects.filter(role=instance).delete()`. -/
def delete_fields (db : RoleDb) (role : Nat) : RoleDb :=
  { db with field_permissions :=
      db.field_permissions.filter fun permission => permission.role ≠ role }

/-- An empty dict is falsy.  `none` is an error. -/
def update (scope : Scope) (db : RoleDb) (role : Nat) (data : RoleData)
    (fields : Option (List (String × Value))) : Option RoleDb :=
  let db := set_role db role data
  match fields with
  | none | some [] => some db
  | some fields => save_fields scope fields role (delete_fields db role)

/-- After an error, the transaction is rolled back. -/
def committed (scope : Scope) (db : RoleDb) (role : Nat) (data : RoleData)
    (fields : Option (List (String × Value))) : RoleDb :=
  (update scope db role data fields).getD db

end RoleSerializer

/-! ### What is asked of it -/

/-- The menus and the fields that the entries name. -/
def entries_of (scope : Scope) (fields : List (String × Value)) : Option (List (Nat × List Nat)) :=
  fields.mapM fun (k, v) => (scope.menu (.str k)).bind fun menu =>
    (many scope.field v).map (menu, ·)

/-- The mapping is `entries`, all of them valid, and of different menus. -/
def Valid (scope : Scope) (role : Nat) (fields : List (String × Value))
    (entries : List (Nat × List Nat)) : Prop :=
  entries_of scope fields = some entries ∧ (entries.map Prod.fst).Nodup ∧
  (fields ≠ [] → scope.role role = true)

/-- The rows of the role have the fields of the entries. -/
def Represents (db : RoleDb) (role : Nat) (entries : List (Nat × List Nat)) : Prop :=
  ∀ menu pk, (∃ permission ∈ db.field_permissions.rows, permission.role = role ∧
    permission.menu = menu ∧
      pk ∈ permission.field) ↔ ∃ fields, (menu, fields) ∈ entries ∧ pk ∈ fields

/-- The result has them, by the keys of the menus; the menus without fields do not count. -/
def Shows (data : Dict String (List RoleSerializer.Related)) (entries : List (Nat × List Nat)) :
    Prop :=
  ∀ key pk, (∃ fields, data.get key = some fields ∧ pk ∈ fields.map RoleSerializer.Related.pk) ↔
    ∃ menu fields, (menu, fields) ∈ entries ∧ key = uuid_str menu ∧ pk ∈ fields

/-- The rows of the other roles. -/
def RoleDb.others (db : RoleDb) (role : Nat) : List FieldPermission :=
  db.field_permissions.rows.filter fun permission => permission.role ≠ role

section
variable (scope : Scope) (db : RoleDb) (role : Nat) (data : RoleData)
  (fields : List (String × Value))

/-- What is valid is stored, in the rows of the role and in no others; else nothing changes. -/
def StoresRows : Prop :=
  (∀ entries, Valid scope role fields entries →
    ∃ db', RoleSerializer.update scope db role data (some fields) =
      some db' ∧ Represents db' role entries ∧ db'.others role = db.others role) ∧
    ((∀ entries, ¬ Valid scope role fields entries) →
      RoleSerializer.committed scope db role data (some fields) = db)

/-- And `get_field` returns it. -/
def StoresExactly : Prop :=
  StoresRows scope db role data fields ∧
    ∀ entries, Valid scope role fields entries →
    ∀ db', RoleSerializer.update scope db role data (some fields) =
      some db' → Shows (RoleSerializer.get_field db' role) entries

/-- No row of the role has a field. -/
def NoFields : Prop :=
  ∀ permission ∈ db.field_permissions.rows, permission.role = role → permission.field = []

end

/-! ### Saving the entries -/

section
variable {scope : Scope} {db db' : RoleDb} {role : Nat} {data : RoleData}
  {fields : List (String × Value)}
  {entries : List (Nat × List Nat)}

open RoleSerializer
open FieldPermissionSerializer (is_valid)

/-- The row of an entry. -/
def row_of (role : Nat) (entry : Nat × List Nat) : FieldPermission := ⟨role, entry.1, entry.2.dedup⟩

theorem entries_of_cons {k : String} {v : Value} {rest : List (String × Value)} :
    entries_of scope ((k, v) :: rest) = some entries ↔
      ∃ menu field below, scope.menu (.str k) = some menu ∧ many scope.field v = some field ∧
        entries_of scope rest = some below ∧ entries = (menu, field) :: below := by
  rw [entries_of, List.mapM_cons]
  cases hmenu : scope.menu (.str k) with
  | none => simp [hmenu]
  | some menu =>
      cases hfield : many scope.field v with
      | none => simp [hmenu, hfield]
      | some field =>
          simp only [hmenu, hfield, Option.bind_some, Option.map_some, Option.bind_eq_bind,
            Option.pure_def]
          rw [← entries_of, Option.bind_eq_some_iff]
          simp [eq_comm]

theorem is_valid_eq_some {k : String} {v : Value} {permission : FieldPermission} :
    is_valid scope db role k v = some permission ↔
      ∃ menu field, scope.menu (.str k) = some menu ∧ many scope.field v = some field ∧
        scope.role role = true ∧ (role, menu) ∉ db.field_permissions.rows.map FieldPermission.key ∧
        permission = ⟨role, menu, field⟩ := by
  rw [is_valid]
  cases hmenu : scope.menu (.str k) with
  | none => simp
  | some menu =>
      cases hfield : many scope.field v with
      | none => simp
      | some field =>
          simp only [Option.bind_some, Option.ite_none_right_eq_some, Option.some.injEq]
          constructor
          · rintro ⟨⟨hrole, hnew⟩, rfl⟩
            exact ⟨menu, field, rfl, rfl, hrole, hnew, rfl⟩
          · rintro ⟨_, _, rfl, rfl, hrole, hnew, rfl⟩
            exact ⟨⟨hrole, hnew⟩, rfl⟩

theorem save_fields_cons (k : String) (v : Value) (rest : List (String × Value)) :
    save_fields scope ((k, v) :: rest) role db = (is_valid scope db role k v).bind fun permission =>
      save_fields scope rest role (FieldPermissionSerializer.save db permission) := by
  rw [save_fields, List.foldlM_cons]
  cases hvalid : is_valid scope db role k v with
  | none => simp [hvalid]
  | some permission => simp [hvalid, save_fields]

theorem rows_save {menu : Nat} {field : List Nat}
    (hnew : (role, menu) ∉ db.field_permissions.rows.map FieldPermission.key) :
    (FieldPermissionSerializer.save db ⟨role, menu, field⟩).field_permissions.rows =
      row_of role (menu, field) :: db.field_permissions.rows :=
  Table.rows_insert hnew

/-- **Valid entries are saved.** -/
theorem save_fields_eq (hentries : entries_of scope fields = some entries)
    (honce : (entries.map Prod.fst).Nodup) (hrole : fields ≠ [] → scope.role role = true)
    (hnew : ∀ menu ∈ entries.map Prod.fst,
      (role, menu) ∉ db.field_permissions.rows.map FieldPermission.key) :
    ∃ db', save_fields scope fields role db = some db' ∧ db'.field_permissions.rows =
      (entries.map (row_of role)).reverse ++ db.field_permissions.rows := by
  induction fields generalizing entries db with
  | nil =>
      obtain rfl : [] = entries := by simpa [entries_of] using hentries
      exact ⟨db, rfl, rfl⟩
  | cons entry rest ih =>
      obtain ⟨menu, field, below, hmenu, hfield, hbelow, rfl⟩ := entries_of_cons.mp hentries
      obtain ⟨hmenu_new, honce⟩ := List.nodup_cons.mp honce
      obtain ⟨hfirst, hrest⟩ := List.forall_mem_cons.mp hnew
      have hrole := hrole (List.cons_ne_nil _ _)
      have hvalid : is_valid scope db role entry.1 entry.2 = some ⟨role, menu, field⟩ :=
        is_valid_eq_some.mpr ⟨menu, field, hmenu, hfield, hrole, hfirst, rfl⟩
      have hnext : ∀ other ∈ below.map Prod.fst, (role, other) ∉
          (FieldPermissionSerializer.save db ⟨role, menu, field⟩).field_permissions.rows.map
            FieldPermission.key := by
        intro other hother hkey
        rw [rows_save hfirst, List.map_cons, List.mem_cons] at hkey
        rcases hkey with heq | hkey
        · cases heq
          exact hmenu_new hother
        · exact hrest other hother hkey
      obtain ⟨db', hsave, hrows⟩ := ih hbelow honce (fun _ => hrole) hnext
      refine ⟨db', ?_, ?_⟩
      · rw [save_fields_cons, hvalid, Option.bind_some, hsave]
      · rw [hrows, rows_save hfirst, List.map_cons, List.reverse_cons, List.append_assoc,
          List.singleton_append]

/-- **No other entries are saved.** -/
theorem valid_of_save (h : save_fields scope fields role db = some db') :
    ∃ entries, Valid scope role fields entries ∧ ∀ menu ∈ entries.map Prod.fst,
      (role, menu) ∉ db.field_permissions.rows.map FieldPermission.key := by
  induction fields generalizing db with
  | nil => exact ⟨[], ⟨rfl, List.nodup_nil, by simp⟩, by simp⟩
  | cons entry rest ih =>
      rw [save_fields_cons] at h
      obtain ⟨permission, hvalid, hrest⟩ := Option.bind_eq_some_iff.mp h
      obtain ⟨menu, field, hmenu, hfield, hrole, hfirst, rfl⟩ := is_valid_eq_some.mp hvalid
      obtain ⟨below, ⟨hbelow, honce, -⟩, hnew⟩ := ih hrest
      simp only [rows_save hfirst, List.map_cons, List.mem_cons, not_or] at hnew
      refine ⟨(menu, field) :: below, ⟨?_, ?_, fun _ => hrole⟩,
        List.forall_mem_cons.mpr ⟨hfirst, ?_⟩⟩
      · exact entries_of_cons.mpr ⟨menu, field, below, hmenu, hfield, hbelow, rfl⟩
      · exact List.nodup_cons.mpr ⟨fun hmem => (hnew menu hmem).1 rfl, honce⟩
      · exact fun other hother => (hnew other hother).2

/-! ### The update -/

theorem not_mem_others {permission : FieldPermission} (h : permission ∈ db.others role) :
    permission.role ≠ role := by
  simpa using (List.mem_filter.mp h).2

theorem filter_row_of (role : Nat) (entries : List (Nat × List Nat)) :
    ((entries.map (row_of role)).reverse.filter fun permission => permission.role ≠ role) = [] := by
  refine List.filter_eq_nil_iff.mpr fun permission hmem => ?_
  obtain ⟨entry, -, rfl⟩ := List.mem_map.mp (List.mem_reverse.mp hmem)
  simp [row_of]

variable (db data) in
/-- **Where the mapping has entries**, the rows of the role are theirs. -/
theorem update_entries (hfields : fields ≠ []) (h : Valid scope role fields entries) :
    ∃ db', update scope db role data (some fields) = some db' ∧
      db'.field_permissions.rows = (entries.map (row_of role)).reverse ++ db.others role := by
  obtain ⟨hentries, honce, hrole⟩ := h
  have hnew : ∀ menu ∈ entries.map Prod.fst, (role, menu) ∉
      (delete_fields (set_role db role data) role).field_permissions.rows.map
      FieldPermission.key := by
    intro menu _ hkey
    obtain ⟨permission, hmem, heq⟩ := List.mem_map.mp hkey
    cases heq
    exact not_mem_others hmem rfl
  obtain ⟨db', hsave, hrows⟩ := save_fields_eq hentries honce hrole hnew
  refine ⟨db', ?_, hrows⟩
  cases fields with
  | nil => exact absurd rfl hfields
  | cons entry rest => exact hsave

/-- **An empty mapping changes no row.** -/
theorem update_nil : update scope db role data (some []) = some (set_role db role data) := rfl

theorem valid_nil : Valid scope role [] entries ↔ entries = [] := by
  constructor
  · rintro ⟨hentries, -⟩
    simpa [entries_of, eq_comm] using hentries
  · rintro rfl
    exact ⟨rfl, List.nodup_nil, by simp⟩

/-- **An entry that is not valid raises.** -/
theorem update_invalid (h : ∀ entries, ¬ Valid scope role fields entries) :
    update scope db role data (some fields) = none := by
  cases fields with
  | nil => exact absurd (valid_nil.mpr rfl) (h [])
  | cons entry rest =>
      refine Option.eq_none_iff_forall_ne_some.mpr fun db' hsave => ?_
      obtain ⟨entries, hvalid, -⟩ := valid_of_save hsave
      exact h entries hvalid

/-! ### The rows -/

theorem represents_entries
    (hrows : db'.field_permissions.rows = (entries.map (row_of role)).reverse ++ db.others role) :
    Represents db' role entries := by
  intro menu pk
  rw [hrows]
  constructor
  · rintro ⟨permission, hmem, hrole, rfl, hpk⟩
    rcases List.mem_append.mp hmem with hmem | hmem
    · obtain ⟨entry, hentry, rfl⟩ := List.mem_map.mp (List.mem_reverse.mp hmem)
      exact ⟨entry.2, hentry, List.mem_dedup.mp hpk⟩
    · exact absurd hrole (not_mem_others hmem)
  · rintro ⟨fields, hentry, hpk⟩
    refine ⟨row_of role (menu, fields), List.mem_append_left _ ?_, rfl, rfl, List.mem_dedup.mpr hpk⟩
    exact List.mem_reverse.mpr (List.mem_map_of_mem hentry)

/-- Without entries, the role has no field. -/
theorem represents_nil_iff : Represents db role [] ↔ NoFields db role := by
  constructor
  · intro h permission hmem hrole
    refine List.eq_nil_iff_forall_not_mem.mpr fun pk hpk => ?_
    obtain ⟨fields, hentry, -⟩ := (h permission.menu pk).mp ⟨permission, hmem, hrole, rfl, hpk⟩
    cases hentry
  · intro h menu pk
    constructor
    · rintro ⟨permission, hmem, hrole, -, hpk⟩
      rw [h permission hmem hrole] at hpk
      cases hpk
    · rintro ⟨fields, hentry, -⟩
      cases hentry

/-- **When the rows are what was sent**: there is an entry, or the role had no field before. -/
theorem stores_rows_iff :
    StoresRows scope db role data fields ↔ fields ≠ [] ∨ NoFields db role := by
  constructor
  · rintro ⟨hstored, -⟩
    by_cases hfields : fields = []
    · subst hfields
      obtain ⟨db', hupdate, hrows, -⟩ := hstored [] (valid_nil.mpr rfl)
      cases hupdate
      exact .inr (represents_nil_iff.mp hrows)
    · exact .inl hfields
  · intro h
    refine ⟨fun entries hvalid => ?_,
      fun hinvalid => by rw [committed, update_invalid hinvalid, Option.getD_none]⟩
    by_cases hfields : fields = []
    · subst hfields
      obtain rfl := valid_nil.mp hvalid
      exact ⟨_, update_nil, represents_nil_iff.mpr (h.resolve_left (· rfl)), rfl⟩
    · obtain ⟨db', hupdate, hrows⟩ := update_entries db data hfields hvalid
      refine ⟨db', hupdate, represents_entries hrows, ?_⟩
      rw [RoleDb.others, hrows, List.filter_append, filter_row_of, List.nil_append]
      exact List.filter_eq_self.mpr fun permission hmem => decide_eq_true (not_mem_others hmem)

/-! ### The result -/

/-- **What `get_field` has for a key of a menu is no key of a menu.** -/
theorem related_str_ne (related : Related) (menu : Nat) : related_str related ≠ uuid_str menu := by
  intro heq
  have hfirst : '{' ∈ (related_str related).toList := by
    delta related_str
    simp only [String.toList_append, List.mem_append]
    exact .inl (.inl (.inl (.inl (by decide))))
  have hbrace : '{' ∈ (related_str related).toList.filter (· ≠ '-') :=
    List.mem_filter.mpr ⟨hfirst, by decide⟩
  rw [heq, filter_uuid_str] at hbrace
  obtain ⟨digit, hdigit, hchar⟩ := List.mem_map.mp hbrace
  have hall : ∀ digit < 16, hex_char digit ≠ '{' := by decide
  exact hall digit (hex_digit_lt hdigit) hchar

theorem mem_get_field {key : String} {related : List Related}
    (h : (get_field db role).get key = some related) :
    ∃ permission ∈ db.field_permissions.rows, permission.role = role ∧
      key = related_str (to_representation permission.menu) ∧
      related = permission.field.map to_representation := by
  obtain ⟨permission, hmem, heq⟩ := List.mem_map.mp (Dict.mem_of_mem_ofList (Dict.mem_of_get h))
  obtain ⟨hmem, hrole⟩ := List.mem_filter.mp hmem
  cases heq
  exact ⟨permission, hmem, of_decide_eq_true hrole, rfl, rfl⟩

/-- So it shows what was sent only where that has no field. -/
theorem shows_iff (h : Represents db role entries) :
    Shows (get_field db role) entries ↔ ∀ entry ∈ entries, entry.2 = [] := by
  constructor
  · intro hshows entry hentry
    refine List.eq_nil_iff_forall_not_mem.mpr fun pk hpk => ?_
    obtain ⟨related, hget, -⟩ :=
      (hshows (uuid_str entry.1) pk).mpr ⟨entry.1, entry.2, hentry, rfl, hpk⟩
    obtain ⟨permission, -, -, heq, -⟩ := mem_get_field hget
    exact related_str_ne _ _ heq.symm
  · intro hempty key pk
    constructor
    · rintro ⟨related, hget, hpk⟩
      obtain ⟨permission, hmem, hrole, -, rfl⟩ := mem_get_field hget
      rw [List.map_map] at hpk
      obtain ⟨field, hfield, rfl⟩ := List.mem_map.mp hpk
      obtain ⟨fields, hentry, hin⟩ :=
        (h permission.menu field).mp ⟨permission, hmem, hrole, rfl, hfield⟩
      obtain rfl : fields = [] := hempty _ hentry
      cases hin
    · rintro ⟨menu, fields, hentry, -, hpk⟩
      obtain rfl : fields = [] := hempty _ hentry
      cases hpk

end

/-- **When what is sent is stored**: the rows have it if there is an entry, or the role had no field
before; and `get_field` returns it only where no entry has a field. -/
theorem stores_exactly_iff (scope : Scope) (db : RoleDb) (role : Nat) (data : RoleData)
    (fields : List (String × Value)) :
    (StoresRows scope db role data fields ↔ fields ≠ [] ∨ NoFields db role) ∧
      (StoresExactly scope db role data fields ↔ (fields ≠ [] ∨ NoFields db role) ∧
        ∀ entries, Valid scope role fields entries → ∀ entry ∈ entries, entry.2 = []) := by
  refine ⟨stores_rows_iff, ?_⟩
  rw [StoresExactly, stores_rows_iff]
  refine and_congr_right fun hcond => forall₂_congr fun entries hvalid => ?_
  obtain ⟨db', hupdate, hrows, -⟩ := (stores_rows_iff.mpr hcond).1 entries hvalid
  rw [← shows_iff hrows]
  constructor
  · exact fun h => h db' hupdate
  · rintro h _ hupdate'
    cases hupdate.symm.trans hupdate'
    exact h

/-! ### A role with one field -/

def sample_scope : Scope where
  role _ := true
  menu _ := some 1
  field _ := some 2

def sample_role : Role := ⟨⟨5, true, [1]⟩, "operator", "operator", none⟩

/-- The role may see the field 2 in the menu 1. -/
def sample_roles : RoleDb where
  roles := ⟨[sample_role], by decide⟩
  field_permissions := ⟨[⟨5, 1, [2]⟩], by decide⟩

def no_change : RoleData := ⟨none, none, none, none, none⟩

/-- **The old field stays** where nothing is sent, and what is sent is not returned. -/
theorem old_fields_stay :
    ¬ StoresRows sample_scope sample_roles 5 no_change [] ∧
      ¬ StoresExactly sample_scope sample_roles 5 no_change [("1", .list [.str "2"])] := by
  constructor
  · rintro ⟨hstored, -⟩
    obtain ⟨db', hupdate, hrows, -⟩ := hstored [] (valid_nil.mpr rfl)
    cases hupdate
    have hnone := represents_nil_iff.mp hrows ⟨5, 1, [2]⟩ List.mem_cons_self rfl
    cases hnone
  · rintro ⟨⟨hstored, -⟩, hshown⟩
    have hvalid : Valid sample_scope 5 [("1", .list [.str "2"])] [(1, [2])] := by
      refine ⟨rfl, by decide, fun _ => rfl⟩
    obtain ⟨db', hupdate, hrows, -⟩ := hstored _ hvalid
    have hempty := (shows_iff hrows).mp (hshown _ hvalid db' hupdate) (1, [2]) List.mem_cons_self
    cases hempty

end InfraHub.Permission
