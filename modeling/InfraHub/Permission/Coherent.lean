import InfraHub.Lib.Run
import InfraHub.Permission.Admin

/-!
# Permission — Coherent

* `Covers`: after an operation every user either lost the cached maps or has the maps of before.
  One lemma for each operation.
-/

namespace InfraHub.Permission
open InfraHub.Lib (Table Store Dict Run)

/-! ### Whom the handlers reach -/

/-- A user whose maps the handler of a menu leaves does not reach the menu. -/
theorem not_reaches_of_clean {db : Db} {u : UserInfo} {menu : Nat} (hu : u ∈ db.users.rows)
    (h : u.pk ∉ clean_cache_handler db menu) : db.reaches u menu = false := by
  refine Bool.eq_false_iff.mpr fun hreach => ?_
  obtain ⟨r, hr, hmenu⟩ := List.any_eq_true.mp hreach
  refine h (List.mem_map.mpr ⟨u, ?_, rfl⟩)
  simp only [Bool.and_eq_true, Db.grants, Bool.or_eq_true] at hmenu
  obtain ⟨hmenu, ⟨hrole, -⟩ | hdept⟩ := hmenu
  · refine List.mem_append_left _ (List.mem_append_right _ (List.mem_filter.mpr ⟨hu, ?_⟩))
    exact List.any_eq_true.mpr ⟨r, hr, by rw [hmenu, hrole]; rfl⟩
  · refine List.mem_append_right _ (List.mem_filter.mpr ⟨hu, ?_⟩)
    obtain ⟨d, hd, hrole⟩ := (Option.any_eq_true _ _).mp hdept
    obtain ⟨k, hk, hd⟩ := Option.bind_eq_some_iff.mp hd
    refine List.any_eq_true.mpr ⟨d, Table.mem_of_get hd, ?_⟩
    rw [Bool.and_eq_true]
    refine ⟨by simp [hk, Table.key_of_get hd], List.any_eq_true.mpr ⟨r, hr, ?_⟩⟩
    simp only [Bool.and_eq_true] at hrole
    rw [hmenu, hrole.1]
    rfl

/-- A user whose maps the handler of a role leaves does not have the role, nor does the user's
department. -/
theorem not_role_of_invalid {db : Db} {u : UserInfo} {role : Nat} (hu : u ∈ db.users.rows)
    (h : u.pk ∉ invalid_role_cache_handler db role) :
    role ∉ u.roles ∧ ∀ d, db.dept u = some d → role ∉ d.roles := by
  constructor
  · intro hr
    refine h (List.mem_map.mpr ⟨u, List.mem_append_left _ (List.mem_filter.mpr ⟨hu, ?_⟩), rfl⟩)
    simpa using hr
  · intro d hd hr
    refine h (List.mem_map.mpr ⟨u, List.mem_append_right _ (List.mem_filter.mpr ⟨hu, ?_⟩), rfl⟩)
    obtain ⟨k, hk, hd⟩ := Option.bind_eq_some_iff.mp hd
    refine List.any_eq_true.mpr ⟨d, Table.mem_of_get hd, ?_⟩
    simp [hk, Table.key_of_get hd, hr]

theorem not_dept_of_invalid {db : Db} {u : UserInfo} {dept : Nat} (hu : u ∈ db.users.rows)
    (h : u.pk ∉ invalid_dept_cache_handler db dept) : u.dept ≠ some dept := by
  intro hd
  exact h (List.mem_map.mpr ⟨u, List.mem_filter.mpr ⟨hu, by simpa using hd⟩, rfl⟩)

/-- A role that neither the user nor the user's department has is not granted. -/
theorem grants_of_not_role {db : Db} {u : UserInfo} {k : Nat}
    (h : k ∉ u.roles ∧ ∀ d, db.dept u = some d → k ∉ d.roles) (r : UserRole) (hr : r.pk = k) :
    db.grants u r = false := by
  obtain ⟨hown, hdept⟩ := h
  cases hd : db.dept u with
  | none => simp [Db.grants, hd, hr, hown]
  | some d => simp [Db.grants, hd, hr, hown, hdept d hd]

theorem grants_of_dept {db db' : Db} {u : UserInfo} (hdept : db'.dept u = db.dept u)
    (r : UserRole) : db'.grants u r = db.grants u r := by
  simp only [Db.grants, hdept]

/-- A change of departments that leaves what the user's one gives. -/
theorem grants_of_depts {db db' : Db} {u : UserInfo} {f : DeptInfo → DeptInfo}
    (hdepts : ∀ k, db'.depts.get k = (db.depts.get k).map f)
    (hsame : ∀ d, db.dept u = some d →
      (f d).is_active = d.is_active ∧ ∀ role, (f d).roles.contains role = d.roles.contains role)
    (r : UserRole) : db'.grants u r = db.grants u r := by
  have hdept : db'.dept u = (db.dept u).map f := by
    unfold Db.dept
    cases u.dept with
    | none => rfl
    | some k => exact hdepts k
  cases hd : db.dept u with
  | none => simp only [Db.grants, hdept, hd, Option.map_none]
  | some d =>
      obtain ⟨hactive, hroles⟩ := hsame d hd
      simp only [Db.grants, hdept, hd, Option.map_some, Option.any_some, hactive, hroles]

/-! ### What a step can do -/

/-- Every user of the new rows lost the cached maps, or has the maps of before. -/
def Covers (db : Db) (c : Change) : Prop :=
  ∀ u' ∈ c.db.users.rows, u'.pk ∈ c.invalid ∨ ∃ u ∈ db.users.rows, u.pk = u'.pk ∧
    ∀ method, get_user_permission c.db u' method = get_user_permission db u method

/-- An operation that leaves the users as they are. -/
theorem covers_of_users {db db' : Db} {invalid : List Nat} (husers : db'.users = db.users)
    (h : ∀ u ∈ db.users.rows, u.pk ∉ invalid →
      ∀ method, get_user_permission db' u method = get_user_permission db u method) :
    Covers db ⟨db', invalid⟩ := by
  intro u hu
  by_cases hin : u.pk ∈ invalid
  · exact .inl hin
  · have hu : u ∈ db.users.rows := husers ▸ hu
    exact .inr ⟨u, hu, rfl, h u hu hin⟩

/-- An operation on one user. -/
theorem covers_of_user {db : Db} {users : Table Nat UserInfo UserInfo.pk} {pk : Nat}
    (h : ∀ u ∈ users.rows, u ∈ db.users.rows ∨ u.pk = pk) :
    Covers db ⟨{ db with users }, invalid_user_cache_handler pk⟩ := by
  intro u hu
  rcases h u hu with hu | rfl
  · exact .inr ⟨u, hu, rfl, fun _ => rfl⟩
  · exact .inl (List.mem_singleton_self _)

/-- An operation on one department. -/
theorem covers_of_dept {db : Db} {depts : Table Nat DeptInfo DeptInfo.pk} {pk : Nat}
    (h : ∀ k, k ≠ pk → depts.get k = db.depts.get k) :
    Covers db ⟨{ db with depts }, invalid_dept_cache_handler db pk⟩ := by
  refine covers_of_users rfl fun u hu hin => ?_
  have hdept : Db.dept { db with depts } u = db.dept u := by
    unfold Db.dept
    cases hd : u.dept with
    | none => rfl
    | some k =>
        have hk : k ≠ pk := fun e => not_dept_of_invalid hu hin (e ▸ hd)
        exact h k hk
  exact get_user_permission_of_seen rfl (reaches_of_grants rfl (grants_of_dept hdept))

/-- An operation on one role. -/
theorem covers_of_role {db : Db} {roles : Table Nat UserRole UserRole.pk} {pk : Nat}
    (h : roles.without pk = db.roles.without pk) :
    Covers db ⟨{ db with roles }, invalid_role_cache_handler db pk⟩ := by
  refine covers_of_users rfl fun u hu hin => ?_
  exact get_user_permission_of_seen rfl
    (reaches_congr pk h (fun _ => rfl) (grants_of_not_role (not_role_of_invalid hu hin)))

/-- An operation on one menu. -/
theorem covers_of_menu {db : Db} {menus : Table Nat Menu Menu.pk} {pk : Nat}
    (h : menus.without pk = db.menus.without pk) :
    Covers db ⟨{ db with menus }, clean_cache_handler db pk⟩ :=
  covers_of_users rfl fun _ hu hin => get_user_permission_of_menu pk h (not_reaches_of_clean hu hin)

/-! ### The operations -/

/-- A request that was not refused. -/
theorem accepted {p : Prop} [Decidable p] {c c' : Change}
    (h : (if p then none else some c) = some c') : ¬ p ∧ c = c' :=
  (Option.ite_none_left_eq_some.mp h).imp_right Option.some.inj

theorem user_create_covers {db : Db} {row : UserInfo} {c : Change}
    (h : user_create db row = some c) : Covers db c := by
  obtain ⟨-, rfl⟩ := accepted h
  exact covers_of_user fun u hu => (Table.mem_insert hu).imp_right fun e => by rw [e]

theorem user_update_covers {db : Db} {row : UserInfo} {c : Change}
    (h : user_update db row = some c) : Covers db c := by
  obtain ⟨-, rfl⟩ := accepted h
  exact covers_of_user fun u hu => (Table.mem_modify hu).imp_left And.right

theorem user_delete_covers {db : Db} {pk : Nat} {c : Change}
    (h : user_delete db pk = some c) : Covers db c := by
  unfold user_delete at h
  split at h
  · cases h
  · obtain ⟨-, rfl⟩ := accepted h
    exact covers_of_user fun u hu => .inl (Table.mem_delete hu)

theorem role_create_covers {db : Db} {row : UserRole} {c : Change}
    (h : role_create db row = some c) : Covers db c := by
  obtain ⟨-, rfl⟩ := accepted h
  exact covers_of_role (Table.without_insert db.roles row)

theorem role_update_covers {db : Db} {row : UserRole} {c : Change}
    (h : role_update db row = some c) : Covers db c := by
  obtain ⟨-, rfl⟩ := accepted h
  exact covers_of_role (Table.without_modify ..)

theorem dept_create_covers {db : Db} {user_dept : Option Nat} {row : DeptInfo} {c : Change}
    (h : dept_create db user_dept row = some c) : Covers db c := by
  obtain ⟨-, rfl⟩ := accepted h
  exact covers_of_dept fun k hk => Table.get_insert_ne db.depts hk

theorem dept_update_covers {db : Db} {user_dept : Option Nat} {row : DeptInfo} {c : Change}
    (h : dept_update db user_dept row = some c) : Covers db c := by
  obtain ⟨below, -, h⟩ := Option.bind_eq_some_iff.mp h
  obtain ⟨-, rfl⟩ := accepted h
  exact covers_of_dept fun k hk => Table.get_modify_ne db.depts _ _ hk

theorem dept_delete_covers {db : Db} {pk : Nat} {c : Change}
    (h : dept_delete db pk = some c) : Covers db c := by
  obtain ⟨-, rfl⟩ := accepted h
  exact covers_of_dept fun k hk => Table.get_delete_ne db.depts hk

theorem menu_create_covers {db : Db} {row : Menu} {c : Change}
    (h : menu_create db row = some c) : Covers db c := by
  obtain ⟨-, rfl⟩ := accepted h
  exact covers_of_menu (Table.without_insert db.menus row)

theorem menu_update_covers {db : Db} {row : Menu} {c : Change}
    (h : menu_update db row = some c) : Covers db c := by
  obtain ⟨-, rfl⟩ := accepted h
  exact covers_of_menu (Table.without_modify ..)

theorem UserInfo.drop_role_of_not_mem {u : UserInfo} {role : Nat} (h : role ∉ u.roles) :
    u.drop_role role = u := by
  have hroles : (u.roles.filter fun pk => pk ≠ role) = u.roles :=
    List.filter_eq_self.mpr fun pk hpk => by simpa using fun e : pk = role => h (e ▸ hpk)
  simp only [UserInfo.drop_role, hroles]

theorem DeptInfo.drop_role_of_not_mem {d : DeptInfo} {role : Nat} (h : role ∉ d.roles) :
    d.drop_role role = d := by
  have hroles : (d.roles.filter fun pk => pk ≠ role) = d.roles :=
    List.filter_eq_self.mpr fun pk hpk => by simpa using fun e : pk = role => h (e ▸ hpk)
  simp only [DeptInfo.drop_role, hroles]

theorem role_delete_covers {db : Db} {pk : Nat} {c : Change}
    (h : role_delete db pk = some c) : Covers db c := by
  obtain ⟨-, rfl⟩ := accepted h
  intro u' hu'
  obtain ⟨u, hu, rfl⟩ := List.mem_map.mp hu'
  by_cases hin : u.pk ∈ invalid_role_cache_handler db pk
  · exact .inl hin
  obtain ⟨hown, hdept⟩ := not_role_of_invalid hu hin
  rw [UserInfo.drop_role_of_not_mem hown]
  refine .inr ⟨u, hu, rfl, get_user_permission_of_seen rfl (reaches_congr pk
    (Table.without_delete db.roles pk) (fun r => ?_) (grants_of_not_role ⟨hown, hdept⟩))⟩
  -- the department of the user does not have the role either
  exact grants_of_depts (Table.get_map db.depts _ (DeptInfo.drop_role_pk pk))
    (fun d hd => by simp [DeptInfo.drop_role_of_not_mem (hdept d hd)]) r

theorem menu_delete_covers {db : Db} {pk : Nat} {c : Change}
    (h : menu_delete db pk = some c) : Covers db c := by
  obtain ⟨-, rfl⟩ := accepted h
  refine covers_of_users rfl fun u hu hin => ?_
  have hnot : db.reaches u pk = false := not_reaches_of_clean hu hin
  refine get_user_permission_congr pk ?_ hnot fun menu => ?_
  · change (((db.menus.delete pk).map (Menu.drop_parent pk) (Menu.drop_parent_pk pk)).without
      pk).map Menu.seen = (db.menus.without pk).map Menu.seen
    rw [Table.without_map, Table.without_delete, List.map_map]
    rfl
  · by_cases hmenu : menu = pk
    · rw [hmenu, hnot]
      simp [Db.reaches, Table.map, UserRole.drop_menu]
    · simp [Db.reaches, Table.map, Function.comp_def, UserRole.drop_menu, hmenu, Db.grants, Db.dept]

/-! ### Giving roles and rules -/

/-- The same roles, in whatever order. -/
def SameRoles (roles roles' : List Nat) : Prop := roles ⊆ roles' ∧ roles' ⊆ roles

theorem SameRoles.contains {roles roles' : List Nat} (h : SameRoles roles roles') (role : Nat) :
    roles.contains role = roles'.contains role := by
  rw [Bool.eq_iff_iff, List.contains_iff_mem, List.contains_iff_mem]
  exact ⟨fun hr => h.1 hr, fun hr => h.2 hr⟩

/-- Rules are given, or the roles of the user stay the same. -/
theorem empower_user_covers {db : Db} {visible : List Nat} {pk : Nat} {data : Empower} {c : Change}
    (h : empower_user db visible pk data = some c)
    (hg : data.rules.isSome ∨
      ∀ u ∈ db.users.rows, u.pk = pk → SameRoles (u.set_roles db visible data).roles u.roles) :
    Covers db c := by
  obtain ⟨-, h⟩ := Option.ite_none_left_eq_some.mp h
  cases hrules : data.rules with
  | some rules =>
      simp only [hrules, Option.some.injEq] at h
      subst h
      refine covers_of_user fun u hu => ?_
      rcases Table.mem_modify hu with ⟨hne, hu⟩ | hpk
      · exact (Table.mem_modify hu).imp_left And.right
      · exact .inr hpk
  | none =>
      simp only [hrules, Option.some.injEq] at h
      subst h
      have hsame := hg.resolve_left (by simp [hrules])
      intro u' hu'
      obtain ⟨u, hu, rfl⟩ := List.mem_map.mp hu'
      by_cases hpk : u.pk = pk
      · refine .inr ⟨u, hu, by rw [if_pos hpk, UserInfo.set_roles_pk], ?_⟩
        rw [if_pos hpk]
        refine get_user_permission_of_seen rfl (reaches_of_grants rfl fun r => ?_)
        simp only [Db.grants, (hsame u hu hpk).contains]
        rfl
      · refine .inr ⟨u, hu, by rw [if_neg hpk], ?_⟩
        rw [if_neg hpk]
        exact fun _ => rfl

/-- Rules are given, or the roles of the department stay the same. -/
theorem empower_dept_covers {db : Db} {visible : List Nat} {pk : Nat} {data : Empower} {c : Change}
    (h : empower_dept db visible pk data = some c)
    (hg : data.rules.isSome ∨
      ∀ d ∈ db.depts.rows, d.pk = pk → SameRoles (d.set_roles db visible data).roles d.roles) :
    Covers db c := by
  obtain ⟨-, h⟩ := Option.ite_none_left_eq_some.mp h
  cases hrules : data.rules with
  | some rules =>
      simp only [hrules, Option.some.injEq] at h
      subst h
      refine covers_of_dept fun k hk => ?_
      rw [Table.get_modify_ne _ _ _ hk, Table.get_modify_ne _ _ _ hk]
  | none =>
      simp only [hrules, Option.some.injEq] at h
      subst h
      have hsame := hg.resolve_left (by simp [hrules])
      refine covers_of_users rfl fun u _ _ => get_user_permission_of_seen rfl
        (reaches_of_grants rfl (grants_of_depts (Table.get_modify db.depts pk _
          (DeptInfo.set_roles_pk db visible data)) fun d hd => ?_))
      obtain ⟨k, -, hd⟩ := Option.bind_eq_some_iff.mp hd
      by_cases hpk : d.pk = pk
      · rw [if_pos hpk]
        exact ⟨rfl, (hsame d (Table.mem_of_get hd) hpk).contains⟩
      · rw [if_neg hpk]
        exact ⟨rfl, fun _ => rfl⟩

end InfraHub.Permission
