import InfraHub.Permission.Access

/-!
# Permission — Lapsed

What a deactivated role still grants: the menus of `get_user_menu_queryset` and the field
permissions of `get_user_field_queryset`.

The user's own roles are filtered by their `is_active`, the roles of the department only by that of
the department.  `grants_iff` says so; `nothing_lapsed_iff` is the exact condition under which all
that a user gets comes from active roles.
-/

namespace InfraHub.Permission
open InfraHub.Lib (Table Dict)

structure FieldPermission where
  role : Nat
  menu : Nat
  field : List Nat
  deriving DecidableEq, Repr

/-- `unique_together`, and what `save` makes the primary key of. -/
def FieldPermission.key (permission : FieldPermission) : Nat × Nat :=
  (permission.role, permission.menu)

/-- The database with the field permissions and the column `parent` of the label fields. -/
structure FieldDb extends Db where
  field_permissions : Table (Nat × Nat) FieldPermission FieldPermission.key
  parent : Nat → Option Nat

/-- The `queryset` of `get_user_field_queryset`; the role is joined. -/
def field_queryset (db : FieldDb) (user_obj : UserInfo) (menu : Nat) : List FieldPermission :=
  let has_q := user_obj.roles.length ≠ 0 ∨ user_obj.dept.isSome
  if has_q then
    db.field_permissions.rows.filter fun permission =>
      (db.roles.get permission.role).any (db.grants user_obj) && permission.menu = menu
  else []

/-- `values_list("field__parent__name", "field__name")`: a row for every field, or one with
nothing. -/
def FieldPermission.values (db : FieldDb) (permission : FieldPermission) :
    List (Option String × Option String) :=
  let name (pk : Nat) : Option String := (db.model_label_fields.get pk).map ModelLabelField.name
  match permission.field with
  | [] => [(none, none)]
  | fields => fields.map fun field => ((db.parent field).bind name, name field)

/-- Add a field to those of its model. -/
def add_field (data : Dict (Option String) (List (Option String)))
    (val : Option String × Option String) : Dict (Option String) (List (Option String)) :=
  match data.get val.1 with
  | none => data.set val.1 [val.2]
  | some info => data.set val.1 (info.insert val.2)

def get_user_field_queryset (db : FieldDb) (user_obj : UserInfo) (menu : Nat) :
    Dict (Option String) (List (Option String)) :=
  let rows := (field_queryset db user_obj menu).flatMap (FieldPermission.values db)
  rows.dedup.foldl add_field .empty

/-! ### The fields come from the field permissions of the queryset -/

theorem mem_add_field {data : Dict (Option String) (List (Option String))}
    {val : Option String × Option String} {model name : Option String}
    {info : List (Option String)} (h : (model, info) ∈ (add_field data val).items)
    (hname : name ∈ info) :
    (model, name) = val ∨ ∃ old, (model, old) ∈ data.items ∧ name ∈ old := by
  unfold add_field at h
  split at h
  · rcases Dict.mem_set h with hold | heq
    · exact .inr ⟨info, hold, hname⟩
    · cases heq
      exact .inl (by rw [List.mem_singleton.mp hname])
  · next old hget =>
    rcases Dict.mem_set h with hold | heq
    · exact .inr ⟨info, hold, hname⟩
    · cases heq
      rcases List.mem_insert_iff.mp hname with rfl | hname
      · exact .inl rfl
      · exact .inr ⟨old, Dict.mem_of_get hget, hname⟩

theorem mem_foldl_add_field {vals : List (Option String × Option String)}
    {data : Dict (Option String) (List (Option String))} {model name : Option String}
    {info : List (Option String)} (h : (model, info) ∈ (vals.foldl add_field data).items)
    (hname : name ∈ info) :
    (model, name) ∈ vals ∨ ∃ old, (model, old) ∈ data.items ∧ name ∈ old := by
  induction vals generalizing data with
  | nil => exact .inr ⟨info, h, hname⟩
  | cons val vals ih =>
      rcases ih h with hmem | ⟨old, hold, hname⟩
      · exact .inl (List.mem_cons_of_mem val hmem)
      · rcases mem_add_field hold hname with rfl | hdata
        · exact .inl (List.mem_cons_self ..)
        · exact .inr hdata

/-- Every field the user may see is one of a field permission of the queryset. -/
theorem exists_field_permission {db : FieldDb} {u : UserInfo} {menu : Nat}
    {model name : Option String} {info : List (Option String)}
    (h : (model, info) ∈ (get_user_field_queryset db u menu).items) (hname : name ∈ info) :
    ∃ permission ∈ field_queryset db u menu, (model, name) ∈ permission.values db := by
  rcases mem_foldl_add_field h hname with hmem | ⟨old, hold, -⟩
  · exact List.mem_flatMap.mp (List.mem_dedup.mp hmem)
  · cases hold

/-! ### What a grant is -/

/-- The role is active, and the user's own or one of the user's active department. -/
structure Db.Holds (db : Db) (u : UserInfo) (userrole : UserRole) : Prop where
  active : userrole.is_active = true
  attached : userrole.pk ∈ u.roles ∨
    ∃ dept, db.dept u = some dept ∧ dept.is_active = true ∧ userrole.pk ∈ dept.roles

/-- The role is deactivated, and one of the user's active department. -/
structure Db.Lapsed (db : Db) (u : UserInfo) (userrole : UserRole) : Prop where
  inactive : userrole.is_active = false
  attached : ∃ dept, db.dept u = some dept ∧ dept.is_active = true ∧ userrole.pk ∈ dept.roles

/-- **What the code takes for a grant**: an active role, or a deactivated one of the active
department. -/
theorem grants_iff {db : Db} {u : UserInfo} {r : UserRole} :
    db.grants u r = true ↔ db.Holds u r ∨ db.Lapsed u r := by
  have hdept : ((db.dept u).any fun dept => dept.roles.contains r.pk && dept.is_active) = true ↔
      ∃ dept, db.dept u = some dept ∧ dept.is_active = true ∧ r.pk ∈ dept.roles := by
    simp [Option.any_eq_true, and_comm]
  rw [Db.grants, Bool.or_eq_true, Bool.and_eq_true, List.contains_iff_mem, hdept]
  constructor
  · rintro (⟨hown, hactive⟩ | hatt)
    · exact .inl ⟨hactive, .inl hown⟩
    · cases hactive : r.is_active with
      | true => exact .inl ⟨hactive, .inr hatt⟩
      | false => exact .inr ⟨hactive, hatt⟩
  · rintro (⟨hactive, hown | hatt⟩ | ⟨-, hatt⟩)
    · exact .inl ⟨hown, hactive⟩
    · exact .inr hatt
    · exact .inr hatt

theorem reaches_iff {db : Db} {u : UserInfo} {menu : Nat} :
    db.reaches u menu = true ↔
      ∃ r ∈ db.roles.rows, menu ∈ r.menu ∧ (db.Holds u r ∨ db.Lapsed u r) := by
  simp [Db.reaches, List.any_eq_true, grants_iff]

/-- A user with a grant has a role or a department. -/
theorem has_role_of_grants {db : Db} {u : UserInfo} {r : UserRole} (h : db.grants u r = true) :
    u.roles ≠ [] ∨ u.dept.isSome := by
  by_contra hno
  obtain ⟨hr, hd⟩ := not_or.mp hno
  have hr := not_not.mp hr
  have hd : u.dept = none := by simpa using hd
  simp [Db.grants, Db.dept, hr, hd] at h

theorem mem_menu_queryset {db : Db} {u : UserInfo} {m : Menu} :
    (∃ menus, get_user_menu_queryset db u = some menus ∧ m ∈ menus) ↔
      m ∈ db.menus.rows ∧ m.is_active = true ∧ db.reaches u m.pk = true := by
  unfold get_user_menu_queryset
  constructor
  · rintro ⟨menus, h, hm⟩
    obtain ⟨-, h⟩ := Option.ite_none_right_eq_some.mp h
    cases h
    simpa using hm
  · rintro ⟨hm, hactive, hreach⟩
    obtain ⟨r, -, hr⟩ := List.any_eq_true.mp hreach
    have hrole := has_role_of_grants (Bool.and_eq_true_iff.mp hr).2
    exact ⟨_, if_pos hrole, List.mem_filter.mpr ⟨hm, by rw [hactive, hreach]; rfl⟩⟩

theorem mem_field_queryset {db : FieldDb} {u : UserInfo} {menu : Nat}
    {permission : FieldPermission} :
    permission ∈ field_queryset db u menu ↔
      permission ∈ db.field_permissions.rows ∧ permission.menu = menu ∧
        ∃ r, db.roles.get permission.role = some r ∧ (db.Holds u r ∨ db.Lapsed u r) := by
  simp only [field_queryset]
  constructor
  · intro h
    split at h
    · obtain ⟨hmem, htest⟩ := List.mem_filter.mp h
      obtain ⟨hany, hmenu⟩ := Bool.and_eq_true_iff.mp htest
      obtain ⟨r, hget, hgrants⟩ := (Option.any_eq_true _ _).mp hany
      exact ⟨hmem, of_decide_eq_true hmenu, r, hget, grants_iff.mp hgrants⟩
    · cases h
  · rintro ⟨hmem, hmenu, r, hget, hr⟩
    have hgrants := grants_iff.mpr hr
    have hrole : u.roles.length ≠ 0 ∨ u.dept.isSome :=
      (has_role_of_grants hgrants).imp_left (mt List.length_eq_zero_iff.mp)
    rw [if_pos hrole]
    exact List.mem_filter.mpr ⟨hmem, by simp [hget, hgrants, hmenu]⟩

/-! ### The property and its condition -/

/-- Every menu is linked to an active role that the user holds, and every field permission that is
used, for any menu, belongs to one. -/
structure NothingLapsed (db : FieldDb) (u : UserInfo) : Prop where
  menus : ∀ menus, get_user_menu_queryset db.toDb u = some menus →
    ∀ m ∈ menus, ∃ r ∈ db.roles.rows, m.pk ∈ r.menu ∧ db.Holds u r
  fields : ∀ menu, ∀ permission ∈ field_queryset db u menu,
    ∃ r ∈ db.roles.rows, r.pk = permission.role ∧ db.Holds u r

/-- The role has no field permission, and each of its active menus is also one of a role that the
user holds. -/
structure Spare (db : FieldDb) (u : UserInfo) (userrole : UserRole) : Prop where
  fields : ∀ permission ∈ db.field_permissions.rows, permission.role ≠ userrole.pk
  menus : ∀ m ∈ db.menus.rows, m.is_active = true → m.pk ∈ userrole.menu →
    ∃ r ∈ db.roles.rows, m.pk ∈ r.menu ∧ db.Holds u r

theorem spare_of_nothing_lapsed {db : FieldDb} {u : UserInfo} {r : UserRole}
    (h : NothingLapsed db u) (hr : r ∈ db.roles.rows) (hl : db.Lapsed u r) : Spare db u r where
  fields permission hmem hrole := by
    obtain ⟨q, hq, hkey, hholds⟩ := h.fields permission.menu permission
      (mem_field_queryset.mpr ⟨hmem, rfl, r, hrole ▸ Table.get_of_mem hr, .inr hl⟩)
    obtain rfl := Table.eq_of_key hq hr (hkey.trans hrole)
    exact Bool.noConfusion (hl.inactive.symm.trans hholds.active)
  menus m hm hactive hmenu := by
    have hreach := reaches_iff.mpr ⟨r, hr, hmenu, .inr hl⟩
    obtain ⟨menus, hq, hmem⟩ := mem_menu_queryset.mpr ⟨hm, hactive, hreach⟩
    exact h.menus menus hq m hmem

theorem nothing_lapsed_of_spare {db : FieldDb} {u : UserInfo}
    (h : ∀ r ∈ db.roles.rows, db.Lapsed u r → Spare db u r) : NothingLapsed db u where
  menus menus hq m hmem := by
    obtain ⟨hm, hactive, hreach⟩ := mem_menu_queryset.mp ⟨menus, hq, hmem⟩
    obtain ⟨r, hr, hmenu, hholds | hlapsed⟩ := reaches_iff.mp hreach
    · exact ⟨r, hr, hmenu, hholds⟩
    · exact (h r hr hlapsed).menus m hm hactive hmenu
  fields menu permission hmem := by
    obtain ⟨hmem, -, r, hget, hholds | hlapsed⟩ := mem_field_queryset.mp hmem
    · exact ⟨r, Table.mem_of_get hget, Table.key_of_get hget, hholds⟩
    · exact absurd (Table.key_of_get hget).symm
        ((h r (Table.mem_of_get hget) hlapsed).fields permission hmem)

/-- **When a deactivated role or department grants nothing**: every deactivated role of the user's
active department is spare. -/
theorem nothing_lapsed_iff (db : FieldDb) (u : UserInfo) :
    NothingLapsed db u ↔ ∀ r ∈ db.roles.rows, db.Lapsed u r → Spare db u r :=
  ⟨fun h _ hr hl => spare_of_nothing_lapsed h hr hl, nothing_lapsed_of_spare⟩

/-- A user without roles, in an active department whose one role has been deactivated. -/
def lapsedUser : UserInfo := ⟨1, false, [], [], some 1, .OR⟩

def lapsedMenu : Menu :=
  ⟨1, .PERMISSION, "list:User", "api/system/user$", some .GET, [], none, true⟩

def lapsedDb : FieldDb where
  users := ⟨[lapsedUser], by decide⟩
  roles := ⟨[⟨1, false, [1]⟩], by decide⟩
  depts := ⟨[⟨1, none, [1], [], true, .OR⟩], by decide⟩
  menus := ⟨[lapsedMenu], by decide⟩
  data_permissions := .empty
  model_label_fields := ⟨[⟨1, .ROLE, "phone"⟩, ⟨2, .ROLE, "system.userinfo"⟩], by decide⟩
  field_permissions := ⟨[⟨1, 1, [1]⟩], by decide⟩
  parent field := if field = 1 then some 2 else none

/-- The user gets the menu and the field of the deactivated role. -/
theorem lapsed_role_grants :
    lapsedUser.is_superuser = false ∧
      get_user_menu_queryset lapsedDb.toDb lapsedUser = some [lapsedMenu] ∧
      field_queryset lapsedDb lapsedUser 1 = [⟨1, 1, [1]⟩] ∧
      (get_user_field_queryset lapsedDb lapsedUser 1).items =
        [(some "system.userinfo", [some "phone"])] ∧
      ¬ NothingLapsed lapsedDb lapsedUser := by
  have hfield : field_queryset lapsedDb lapsedUser 1 = [⟨1, 1, [1]⟩] := by decide
  refine ⟨rfl, by decide, hfield, by decide, fun h => ?_⟩
  obtain ⟨r, hr, -, hholds⟩ := h.fields 1 ⟨1, 1, [1]⟩ (by rw [hfield]; exact List.mem_singleton_self _)
  rw [List.mem_singleton.mp hr] at hholds
  exact Bool.noConfusion hholds.active

end InfraHub.Permission
