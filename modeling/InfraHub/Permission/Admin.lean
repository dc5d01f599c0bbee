import InfraHub.Lib.Store
import InfraHub.Permission.Access

/-!
# Permission — Admin

The operations of the administration on users, roles, departments and menus, and the signal
handlers that remove cached permission maps.  An operation gives the rows it leaves and the keys
of the users whose maps its signals remove; `none` is a request that is refused, and rolled back.

* A `post_save` handler runs before the many-to-many fields of its row are set, a `pre_delete`
  handler before the row and its links go.
* `visible` are the rows that the data permissions of the requester show.
-/

namespace InfraHub.Permission
open InfraHub.Lib (Table Store Dict)

/-! ### Signal handlers -/

/-- `get_user_permission_{pk}_{method}`: the digits of a key end before the `_`. -/
def get_cache_data_keys (pks : List Nat) : List (Nat × String) :=
  pks.flatMap fun pk => ["GET", "PUT", "DELETE", "POST", "PATCH"].map fun method => (pk, method)

abbrev Cache := Store (Nat × String) (Dict String Item)

def batch_invalid_cache (cache : Cache) (pks : List Nat) : Cache :=
  cache.deleteMany (get_cache_data_keys pks)

def clean_cache_handler (db : Db) (menu : Nat) : List Nat :=
  let pk0 := db.users.rows.filter fun userinfo => userinfo.is_superuser
  let pk1 := db.users.rows.filter fun userinfo =>
    db.roles.rows.any fun userrole =>
      userrole.menu.contains menu && userinfo.roles.contains userrole.pk
  let pk2 := db.users.rows.filter fun userinfo =>
    db.depts.rows.any fun dept => userinfo.dept = some dept.pk &&
      db.roles.rows.any fun userrole =>
        userrole.menu.contains menu && dept.roles.contains userrole.pk
  (pk0 ++ pk1 ++ pk2).map UserInfo.pk

def invalid_role_cache_handler (db : Db) (role : Nat) : List Nat :=
  let pk1 := db.users.rows.filter fun userinfo => userinfo.roles.contains role
  let pk2 := db.users.rows.filter fun userinfo =>
    db.depts.rows.any fun dept => userinfo.dept = some dept.pk && dept.roles.contains role
  (pk1 ++ pk2).map UserInfo.pk

def invalid_dept_cache_handler (db : Db) (dept : Nat) : List Nat :=
  (db.users.rows.filter fun userinfo => userinfo.dept = some dept).map UserInfo.pk

def invalid_user_cache_handler (user : Nat) : List Nat := [user]

/-- What an operation leaves: the rows, and the users whose cached maps it removes. -/
structure Change where
  db : Db
  invalid : List Nat

/-! ### Giving roles and rules -/

/-- `request.data` -/
structure Empower where
  roles : Option (List Nat)
  rules : Option (List Nat)
  mode_type : Option ModeChoices

/-- `get_filter_queryset(UserRole.objects.filter(pk__in=roles), request.user)` -/
def Db.chosen_roles (db : Db) (visible roles : List Nat) : List Nat :=
  (db.roles.rows.filter fun role => roles.contains role.pk && visible.contains role.pk).map
    UserRole.pk

/-- `DataPermission.objects.filter(pk__in=rules)` -/
def Db.chosen_rules (db : Db) (rules : List Nat) : List Nat :=
  (db.data_permissions.rows.filter fun rule => rules.contains rule.pk).map DataPermission.pk

/-- `instance.roles.set(..)`, if the request has roles: no row is saved, no signal is sent. -/
def UserInfo.set_roles (db : Db) (visible : List Nat) (data : Empower) (user : UserInfo) : UserInfo :=
  { user with roles := (data.roles.map (db.chosen_roles visible)).getD user.roles }

def DeptInfo.set_roles (db : Db) (visible : List Nat) (data : Empower) (dept : DeptInfo) : DeptInfo :=
  { dept with roles := (data.roles.map (db.chosen_roles visible)).getD dept.roles }

theorem UserInfo.set_roles_pk (db : Db) (visible : List Nat) (data : Empower) (user : UserInfo) :
    (user.set_roles db visible data).pk = user.pk := rfl

theorem DeptInfo.set_roles_pk (db : Db) (visible : List Nat) (data : Empower) (dept : DeptInfo) :
    (dept.set_roles db visible data).pk = dept.pk := rfl

/-- `ChangeRolePermissionAction.empower` of a user. -/
def empower_user (db : Db) (visible : List Nat) (pk : Nat) (data : Empower) : Option Change :=
  if (db.users.get pk).isNone then none
  else
    let users := db.users.modify pk (UserInfo.set_roles db visible data)
      (UserInfo.set_roles_pk db visible data)
    match data.rules with
    | some rules =>
      let users := users.modify pk (fun user =>
        { user with
          mode_type := data.mode_type.getD user.mode_type
          rules := db.chosen_rules rules }) fun _ => rfl
      some ⟨{ db with users }, invalid_user_cache_handler pk⟩
    | none => some ⟨{ db with users }, []⟩

/-- `ChangeRolePermissionAction.empower` of a department. -/
def empower_dept (db : Db) (visible : List Nat) (pk : Nat) (data : Empower) : Option Change :=
  if (db.depts.get pk).isNone then none
  else
    let depts := db.depts.modify pk (DeptInfo.set_roles db visible data)
      (DeptInfo.set_roles_pk db visible data)
    match data.rules with
    | some rules =>
      let depts := depts.modify pk (fun dept =>
        { dept with
          mode_type := data.mode_type.getD dept.mode_type
          rules := db.chosen_rules rules }) fun _ => rfl
      some ⟨{ db with depts }, invalid_dept_cache_handler db pk⟩
    | none => some ⟨{ db with depts }, []⟩

/-! ### Users -/

/-- The keys that a row of a user, as it is written by `UserSerializer`, links to exist. -/
def Db.links_user (db : Db) (row : UserInfo) : Bool :=
  row.dept.all (fun dept => (db.depts.get dept).isSome) &&
    row.roles.all (fun role => (db.roles.get role).isSome) &&
      row.rules.all fun rule => (db.data_permissions.get rule).isSome

def user_create (db : Db) (row : UserInfo) : Option Change :=
  if (db.users.get row.pk).isSome || !db.links_user row then none
  else
    let row := { row with is_superuser := false }
    some ⟨{ db with users := db.users.insert row }, invalid_user_cache_handler row.pk⟩

/-- An update of department, roles or rules: `row` is the row as it shall be. -/
def user_update (db : Db) (row : UserInfo) : Option Change :=
  if (db.users.get row.pk).isNone || !db.links_user row then none
  else
    let users := db.users.modify row.pk (fun user =>
      { user with
        dept := row.dept
        roles := row.roles
        rules := row.rules
        mode_type := row.mode_type }) fun _ => rfl
    some ⟨{ db with users }, invalid_user_cache_handler row.pk⟩

def user_delete (db : Db) (pk : Nat) : Option Change :=
  match db.users.get pk with
  | none => none
  | some user =>
    if user.is_superuser then none
    else some ⟨{ db with users := db.users.delete pk }, invalid_user_cache_handler pk⟩

/-! ### Roles -/

def role_create (db : Db) (row : UserRole) : Option Change :=
  if (db.roles.get row.pk).isSome || !row.menu.all (fun menu => (db.menus.get menu).isSome) then none
  else
    let db' := { db with roles := db.roles.insert row }
    some ⟨db', invalid_role_cache_handler db' row.pk⟩

def role_update (db : Db) (row : UserRole) : Option Change :=
  if (db.roles.get row.pk).isNone || !row.menu.all (fun menu => (db.menus.get menu).isSome) then none
  else
    let roles := db.roles.modify row.pk (fun role =>
      { role with is_active := row.is_active, menu := row.menu }) fun _ => rfl
    some ⟨{ db with roles }, invalid_role_cache_handler db row.pk⟩

def UserInfo.drop_role (role : Nat) (user : UserInfo) : UserInfo :=
  { user with roles := user.roles.filter fun pk => pk ≠ role }

theorem UserInfo.drop_role_pk (role : Nat) (user : UserInfo) :
    (user.drop_role role).pk = user.pk := rfl

def DeptInfo.drop_role (role : Nat) (dept : DeptInfo) : DeptInfo :=
  { dept with roles := dept.roles.filter fun pk => pk ≠ role }

theorem DeptInfo.drop_role_pk (role : Nat) (dept : DeptInfo) :
    (dept.drop_role role).pk = dept.pk := rfl

/-- The links to the role go with it. -/
def role_delete (db : Db) (pk : Nat) : Option Change :=
  if (db.roles.get pk).isNone then none
  else
    let db' := { db with
      roles := db.roles.delete pk
      users := db.users.map (UserInfo.drop_role pk) (UserInfo.drop_role_pk pk)
      depts := db.depts.map (DeptInfo.drop_role pk) (DeptInfo.drop_role_pk pk) }
    some ⟨db', invalid_role_cache_handler db pk⟩

/-! ### Departments -/

/-- `DeptSerializer.validate`: a department without a superior gets that of the requester. -/
def validate_parent (user_dept parent : Option Nat) : Option Nat :=
  match parent with
  | some parent => some parent
  | none => user_dept

/-- `roles`, `rules` and `mode_type` are ignored. -/
def dept_create (db : Db) (user_dept : Option Nat) (row : DeptInfo) : Option Change :=
  let parent := validate_parent user_dept row.parent
  if (db.depts.get row.pk).isSome || !parent.all (fun dept => (db.depts.get dept).isSome) then none
  else
    let row := { row with parent, roles := [], rules := [], mode_type := .OR }
    let db' := { db with depts := db.depts.insert row }
    some ⟨db', invalid_dept_cache_handler db' row.pk⟩

/-- `DeptSerializer.update`: the superior is not one of its own subordinates. -/
def dept_update (db : Db) (user_dept : Option Nat) (row : DeptInfo) : Option Change :=
  let parent := validate_parent user_dept row.parent
  let below := if parent.isSome then recursion_dept_info db.dept_values (some row.pk) false else some []
  below.bind fun below =>
    if (db.depts.get row.pk).isNone || parent.any (fun dept => below.contains (some dept)) ||
        !parent.all (fun dept => (db.depts.get dept).isSome) then none
    else
      let depts := db.depts.modify row.pk (fun dept =>
        { dept with parent, is_active := row.is_active }) fun _ => rfl
      some ⟨{ db with depts }, invalid_dept_cache_handler db row.pk⟩

/-- `on_delete=models.PROTECT`: of the users, and of the departments below. -/
def dept_delete (db : Db) (pk : Nat) : Option Change :=
  if (db.depts.get pk).isNone || db.users.rows.any (fun user => user.dept = some pk) ||
      db.depts.rows.any (fun dept => dept.parent = some pk) then none
  else some ⟨{ db with depts := db.depts.delete pk }, invalid_dept_cache_handler db pk⟩

/-! ### Menus -/

/-- A `uuid4` that no row has and no link names. -/
def Db.is_uuid (db : Db) (pk : Nat) : Bool :=
  (db.menus.get pk).isNone && db.roles.rows.all fun role => !role.menu.contains pk

/-- The name is unique, the links exist. -/
def Db.valid_menu (db : Db) (row : Menu) : Bool :=
  (db.menus.rows.all fun menu => menu.pk = row.pk || menu.name ≠ row.name) &&
    row.parent.all (fun parent => (db.menus.get parent).isSome) &&
      row.model.all fun field => (db.model_label_fields.get field).isSome

def menu_create (db : Db) (row : Menu) : Option Change :=
  if !db.is_uuid row.pk || !db.valid_menu row then none
  else
    let db' := { db with menus := db.menus.insert row }
    some ⟨db', clean_cache_handler db' row.pk⟩

def menu_update (db : Db) (row : Menu) : Option Change :=
  if (db.menus.get row.pk).isNone || !db.valid_menu row then none
  else
    let menus := db.menus.modify row.pk (fun menu => { row with pk := menu.pk }) fun _ => rfl
    some ⟨{ db with menus }, clean_cache_handler db row.pk⟩

/-- `on_delete=models.SET_NULL` -/
def Menu.drop_parent (parent : Nat) (menu : Menu) : Menu :=
  { menu with parent := menu.parent.filter fun pk => pk ≠ parent }

theorem Menu.drop_parent_pk (parent : Nat) (menu : Menu) :
    (menu.drop_parent parent).pk = menu.pk := rfl

def UserRole.drop_menu (menu : Nat) (role : UserRole) : UserRole :=
  { role with menu := role.menu.filter fun pk => pk ≠ menu }

theorem UserRole.drop_menu_pk (menu : Nat) (role : UserRole) :
    (role.drop_menu menu).pk = role.pk := rfl

/-- The links to the menu go with it. -/
def menu_delete (db : Db) (pk : Nat) : Option Change :=
  if (db.menus.get pk).isNone then none
  else
    let db' := { db with
      menus := (db.menus.delete pk).map (Menu.drop_parent pk) (Menu.drop_parent_pk pk)
      roles := db.roles.map (UserRole.drop_menu pk) (UserRole.drop_menu_pk pk) }
    some ⟨db', clean_cache_handler db pk⟩

/-! ### The permissions of a view -/

/-- One of the permissions that `get_view_permissions` reads off a view. -/
structure ViewPermission where
  code : String
  url : String
  method : MethodChoices
  models : List String

/-- `ModelLabelField.objects.filter(field_type=ROLE, name__in=models)` -/
def Db.models (db : Db) (models : List String) : List Nat :=
  (db.model_label_fields.rows.filter fun field =>
    field.field_type = .ROLE && models.contains field.name).map ModelLabelField.pk

/-- The menu that a permission shall be. -/
def Db.data (db : Db) (parent : Nat) (permission : ViewPermission) (pk : Nat) : Menu where
  pk
  menu_type := .PERMISSION
  name := permission.code
  path := permission.url
  method := some permission.method
  model := db.models permission.models
  parent := some parent
  is_active := true

def Db.permission_menu (db : Db) (permission : ViewPermission) : Option Menu :=
  db.menus.rows.find? fun menu => menu.menu_type = .PERMISSION && menu.name = permission.code

/-- The update of the menu that a permission has already. -/
def Db.overwrite (db : Db) (parent : Nat) (permission : ViewPermission) (pk : Nat) : Db :=
  let menus := db.menus.modify pk (fun menu => db.data parent permission menu.pk) fun _ => rfl
  { db with menus }

/-- `MenuViewSet._save_permissions`: the signal is disabled.  Every permission comes with the
`uuid4` that its menu gets if there is none yet. -/
def save_permissions (db : Db) (parent : Nat) (skip_existing : Bool) :
    List (ViewPermission × Nat) → Option Db
  | [] => some db
  | (permission, uuid) :: rest =>
    match db.permission_menu permission with
    | some permission_menu =>
      if skip_existing then save_permissions db parent skip_existing rest
      else save_permissions (db.overwrite parent permission permission_menu.pk) parent skip_existing rest
    | none =>
      let row := db.data parent permission uuid
      if !db.is_uuid uuid || !db.valid_menu row then none
      else save_permissions { db with menus := db.menus.insert row } parent skip_existing rest

/-- `MenuViewSet.permissions`: one list of permissions for each view. -/
def permissions (db : Db) (pk : Nat) (views : List (List (ViewPermission × Nat)))
    (skip_existing : Bool) : Option Change := do
  let menu ← db.menus.get pk
  if views = [] then return ⟨db, []⟩
  let db' ← save_permissions db pk skip_existing views.flatten
  -- `instance.save(update_fields=["is_active"])` writes what was loaded
  let menus := db'.menus.modify pk (fun row => { row with is_active := menu.is_active }) fun _ => rfl
  return ⟨{ db' with menus }, clean_cache_handler db' pk⟩

end InfraHub.Permission
