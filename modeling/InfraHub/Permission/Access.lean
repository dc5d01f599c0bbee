import InfraHub.Permission.Models

/-!
# Permission — Access

The menus a user reaches through roles and department, and the permission map made of them.

* `get_user_permission_eq`: the map is that of the active menus the user reaches.
* `reaches_congr`, `get_user_permission_congr`: it depends on the menus and on which roles are
  granted, not on how the rows say it.
* `get_user_permission_other`: a method that no menu can have gives the empty map.
-/

namespace InfraHub.Permission
open InfraHub.Lib (Table Dict)

/-- The role is the user's own and active, or one of the user's active department.  In the second
case the role itself may be inactive. -/
def Db.grants (db : Db) (user_obj : UserInfo) (userrole : UserRole) : Bool :=
  (user_obj.roles.contains userrole.pk && userrole.is_active) ||
    (db.dept user_obj).any fun dept => dept.roles.contains userrole.pk && dept.is_active

/-- The condition `q` of `get_user_menu_queryset`. -/
def Db.reaches (db : Db) (user_obj : UserInfo) (menu : Nat) : Bool :=
  db.roles.rows.any fun userrole => userrole.menu.contains menu && db.grants user_obj userrole

def get_user_menu_queryset (db : Db) (user_obj : UserInfo) : Option (List Menu) :=
  let has_role := user_obj.roles ≠ [] ∨ user_obj.dept.isSome
  if has_role then
    some (db.menus.rows.filter fun menu => menu.is_active && db.reaches user_obj menu.pk)
  else none

def get_user_permission (db : Db) (user_obj : UserInfo) (method : String) : Dict String Item :=
  let menus := match get_user_menu_queryset db user_obj with
    | some menu_queryset => permission_rows menu_queryset method
    | none => []
  Dict.ofList menus

/-- A user without roles and department reaches nothing. -/
theorem reaches_of_no_role {db : Db} {u : UserInfo} (hr : u.roles = []) (hd : u.dept = none)
    (menu : Nat) : db.reaches u menu = false := by
  simp [Db.reaches, Db.grants, Db.dept, hr, hd]

theorem get_user_permission_eq (db : Db) (u : UserInfo) (method : String) :
    get_user_permission db u method =
      Dict.ofList (permission_rows
        (db.menus.rows.filter fun menu => menu.is_active && db.reaches u menu.pk) method) := by
  unfold get_user_permission get_user_menu_queryset
  by_cases h : u.roles ≠ [] ∨ u.dept.isSome
  · simp only [if_pos h]
  · obtain ⟨hr, hd⟩ := not_or.mp h
    have hnone : ∀ menu, db.reaches u menu = false :=
      reaches_of_no_role (not_not.mp hr) (by simpa using hd)
    simp [if_neg h, hnone, permission_rows]

/-! ### What the map depends on -/

theorem reaches_of_grants {db db' : Db} {u u' : UserInfo} (hroles : db'.roles = db.roles)
    (hgrants : ∀ r, db'.grants u' r = db.grants u r) (menu : Nat) :
    db'.reaches u' menu = db.reaches u menu := by
  simp only [Db.reaches, hroles, hgrants]

/-- A change of one role does not matter to a user to whom the role is not granted. -/
theorem reaches_congr {db db' : Db} {u u' : UserInfo} (k : Nat)
    (hroles : db'.roles.without k = db.roles.without k)
    (hgrants : ∀ r : UserRole, db'.grants u' r = db.grants u r)
    (hk : ∀ r : UserRole, r.pk = k → db.grants u r = false) (menu : Nat) :
    db'.reaches u' menu = db.reaches u menu := by
  have hnone : ∀ r : UserRole, r.pk = k → (r.menu.contains menu && db.grants u r) = false :=
    fun r hr => by rw [hk r hr, Bool.and_false]
  simp only [Db.reaches, hgrants]
  rw [Table.any_eq_without hnone, Table.any_eq_without hnone, hroles]

/-- The map looks at a menu's own columns only, not at where it hangs. -/
def Menu.seen (m : Menu) : Menu := { m with parent := none }

theorem permission_rows_seen (menus : List Menu) (method : String) :
    permission_rows (menus.map Menu.seen) method = permission_rows menus method := by
  unfold permission_rows
  rw [List.filter_map, List.flatMap_map]
  rfl

theorem filter_seen (reaches : Nat → Bool) (menus : List Menu) :
    (menus.filter fun m => m.is_active && reaches m.pk).map Menu.seen =
      (menus.map Menu.seen).filter fun m => m.is_active && reaches m.pk := by
  rw [List.filter_map]
  rfl

/-- The same menus, seen alike and reached alike. -/
theorem get_user_permission_of_seen {db db' : Db} {u u' : UserInfo}
    (hmenus : db'.menus.rows.map Menu.seen = db.menus.rows.map Menu.seen)
    (hreach : ∀ menu, db'.reaches u' menu = db.reaches u menu) (method : String) :
    get_user_permission db' u' method = get_user_permission db u method := by
  simp only [get_user_permission_eq, hreach]
  rw [← permission_rows_seen, filter_seen, hmenus, ← filter_seen, permission_rows_seen]

/-- **What the map depends on**: beside a menu `k` that is not reached, the menus as they are
seen, and which of them are reached. -/
theorem get_user_permission_congr {db db' : Db} {u u' : UserInfo} (k : Nat)
    (hmenus : (db'.menus.without k).map Menu.seen = (db.menus.without k).map Menu.seen)
    (hk : db.reaches u k = false) (hreach : ∀ menu, db'.reaches u' menu = db.reaches u menu)
    (method : String) : get_user_permission db' u' method = get_user_permission db u method := by
  have hnone : ∀ m : Menu, m.pk = k → (m.is_active && db.reaches u m.pk) = false :=
    fun m hm => by rw [hm, hk, Bool.and_false]
  simp only [get_user_permission_eq, hreach]
  rw [Table.filter_eq_without hnone, Table.filter_eq_without hnone,
    ← permission_rows_seen, filter_seen, hmenus, ← filter_seen, permission_rows_seen]

theorem get_user_permission_of_menu {db : Db} {menus : Table Nat Menu Menu.pk} {u : UserInfo}
    (k : Nat) (h : menus.without k = db.menus.without k) (hk : db.reaches u k = false)
    (method : String) :
    get_user_permission { db with menus } u method = get_user_permission db u method := by
  have hreach : ∀ menu, Db.reaches { db with menus } u menu = db.reaches u menu := fun _ => rfl
  exact get_user_permission_congr k (congrArg (List.map Menu.seen) h) hk hreach method

/-- The methods that a menu can have. -/
theorem permission_rows_other {method : String} (h : ∀ m : MethodChoices, m.value ≠ method)
    (menus : List Menu) : permission_rows menus method = [] := by
  have hnone : ∀ m : Menu, m.permits method = false := fun m => by
    unfold Menu.permits
    cases hm : m.method with
    | none => simp
    | some choice => simp [h choice]
  simp [permission_rows, hnone]

theorem get_user_permission_other {method : String} (h : ∀ m : MethodChoices, m.value ≠ method)
    (db : Db) (u : UserInfo) : get_user_permission db u method = Dict.ofList [] := by
  rw [get_user_permission_eq, permission_rows_other h]

end InfraHub.Permission
