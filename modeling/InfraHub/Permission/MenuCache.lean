import InfraHub.Permission.Coherent

/-!
# Permission — MenuCache

The cache of permission maps over a run of operations and requests.

* `save_permissions_same`: with the signal disabled, the menus of the permissions of a view change
  under the users who reach them.  A user keeps the map if each menu stays what it is, or is not
  reached.
* `Guard`: the condition on a step: roles come with rules, or stay the same; a menu that
  `permissions` overwrites stays what it is, or whoever has it has the parent too.
* `next_request_current`: in a run of such steps the next request of any user gets the map of the
  current rows.
-/

namespace InfraHub.Permission
open InfraHub.Lib (Table Store Dict Run guarded)

/-! ### The permissions of a view -/

/-- The menu is, but for its place, what the permission makes it. -/
def Db.Keeps (db : Db) (permission : ViewPermission) (menu : Menu) : Prop :=
  menu.path = permission.url ∧ menu.method = some permission.method ∧
    menu.model = db.models permission.models ∧ menu.is_active = true

/-- A property of the menus that a permission overwrites. -/
def Db.ForExisting (db : Db) (P : ViewPermission → Menu → Prop)
    (permissions : List (ViewPermission × Nat)) : Prop :=
  ∀ p ∈ permissions, ∀ menu ∈ db.menus.rows,
    menu.menu_type = .PERMISSION → menu.name = p.1.code → P p.1 menu

theorem permission_menu_some {db : Db} {permission : ViewPermission} {menu : Menu}
    (h : db.permission_menu permission = some menu) :
    menu ∈ db.menus.rows ∧ menu.menu_type = .PERMISSION ∧ menu.name = permission.code := by
  have hmenu := List.find?_some h
  simp only [Bool.and_eq_true, decide_eq_true_eq] at hmenu
  exact ⟨List.mem_of_find?_eq_some h, hmenu⟩

/-- A menu that stays what it is looks the same. -/
theorem seen_data {db : Db} {permission : ViewPermission} {menu : Menu} {parent : Nat}
    (hk : db.Keeps permission menu) (ht : menu.menu_type = .PERMISSION)
    (hn : menu.name = permission.code) :
    (db.data parent permission menu.pk).seen = menu.seen := by
  obtain ⟨hpath, hmethod, hmodel, hactive⟩ := hk
  cases menu
  simp_all [Db.data, Menu.seen]

/-- A new menu is reached by nobody. -/
theorem not_reaches_of_uuid {db : Db} {uuid : Nat} (h : db.is_uuid uuid = true) (u : UserInfo) :
    db.reaches u uuid = false := by
  refine Bool.eq_false_iff.mpr fun hreach => ?_
  obtain ⟨r, hr, hmenu⟩ := List.any_eq_true.mp hreach
  have hlink := List.all_eq_true.mp ((Bool.and_eq_true _ _).mp h).2 r hr
  rw [((Bool.and_eq_true _ _).mp hmenu).1] at hlink
  cases hlink

/-- The user's view of one overwritten menu. -/
theorem get_user_permission_overwrite {db : Db} {u : UserInfo} {permission : ViewPermission}
    {menu : Menu} {parent : Nat} (hmenu : db.permission_menu permission = some menu)
    (hk : db.Keeps permission menu ∨ db.reaches u menu.pk = false) (method : String) :
    get_user_permission (db.overwrite parent permission menu.pk) u method =
      get_user_permission db u method := by
  obtain ⟨hmem, ht, hn⟩ := permission_menu_some hmenu
  have hreach : ∀ m, (db.overwrite parent permission menu.pk).reaches u m = db.reaches u m :=
    fun _ => rfl
  rcases hk with hk | hk
  · have hseen : (db.overwrite parent permission menu.pk).menus.rows.map Menu.seen =
        db.menus.rows.map Menu.seen := by
      refine (List.map_map ..).trans (List.map_congr_left fun row hrow => ?_)
      by_cases hpk : row.pk = menu.pk
      · obtain rfl : row = menu := Table.eq_of_key hrow hmem hpk
        simpa using seen_data hk ht hn
      · simp [hpk]
    exact get_user_permission_of_seen hseen hreach method
  · refine get_user_permission_of_menu menu.pk ?_ hk method
    exact Table.without_modify ..

/-- Overwriting a menu leaves the condition for the permissions that follow. -/
theorem forExisting_overwrite {db : Db} {u : UserInfo} {permission : ViewPermission} {menu : Menu}
    {rest : List (ViewPermission × Nat)} (parent : Nat)
    (hmenu : db.permission_menu permission = some menu)
    (hk : db.Keeps permission menu ∨ db.reaches u menu.pk = false)
    (hrest : db.ForExisting (fun p m => db.Keeps p m ∨ db.reaches u m.pk = false) rest) :
    (db.overwrite parent permission menu.pk).ForExisting
      (fun p m => db.Keeps p m ∨ db.reaches u m.pk = false) rest := by
  obtain ⟨hmem, ht, hn⟩ := permission_menu_some hmenu
  intro p hp m hm hmt hmn
  obtain ⟨row, hrow, rfl⟩ := List.mem_map.mp hm
  by_cases hpk : row.pk = menu.pk
  · obtain rfl : row = menu := Table.eq_of_key hrow hmem hpk
    simp only [if_true] at hmn ⊢
    rcases hk with hk | hk
    · -- both permissions leave the menu what it is
      refine (hrest p hp row hrow ht (hn.trans hmn)).imp_left fun hkp => ?_
      obtain ⟨hpath, hmethod, hmodel, -⟩ := hkp
      exact ⟨hk.1.symm.trans hpath, hk.2.1.symm.trans hmethod, hk.2.2.1.symm.trans hmodel, rfl⟩
    · exact .inr hk
  · rw [if_neg hpk] at hmt hmn ⊢
    exact hrest p hp row hrow hmt hmn

/-- Only the menus change. -/
theorem save_permissions_db {parent : Nat} {skip_existing : Bool}
    {permissions : List (ViewPermission × Nat)} {db db' : Db}
    (h : save_permissions db parent skip_existing permissions = some db') :
    ∃ menus, db' = { db with menus } := by
  induction permissions generalizing db with
  | nil =>
      obtain rfl : db = db' := Option.some.inj h
      exact ⟨db.menus, rfl⟩
  | cons entry rest ih =>
      unfold save_permissions at h
      split at h
      · split at h
        · exact ih h
        · obtain ⟨menus, rfl⟩ := ih h
          exact ⟨menus, rfl⟩
      · obtain ⟨-, h⟩ := Option.ite_none_left_eq_some.mp h
        obtain ⟨menus, rfl⟩ := ih h
        exact ⟨menus, rfl⟩

/-- **With the signal disabled**: the map of a user stays if each menu that is overwritten stays
what it is or is not reached. -/
theorem save_permissions_same {u : UserInfo} {parent : Nat} {skip_existing : Bool}
    {permissions : List (ViewPermission × Nat)} {db db' : Db}
    (h : save_permissions db parent skip_existing permissions = some db')
    (hg : skip_existing = true ∨
      db.ForExisting (fun p m => db.Keeps p m ∨ db.reaches u m.pk = false) permissions)
    (method : String) : get_user_permission db' u method = get_user_permission db u method := by
  induction permissions generalizing db with
  | nil =>
      obtain rfl : db = db' := Option.some.inj h
      rfl
  | cons entry rest ih =>
      obtain ⟨permission, uuid⟩ := entry
      have hrest : skip_existing = true ∨
          db.ForExisting (fun p m => db.Keeps p m ∨ db.reaches u m.pk = false) rest :=
        hg.imp_right fun hg p hp => hg p (List.mem_cons_of_mem _ hp)
      unfold save_permissions at h
      split at h
      · next menu hmenu =>
        by_cases hskip : skip_existing = true
        · rw [if_pos hskip] at h
          exact ih h hrest
        · rw [if_neg hskip] at h
          obtain ⟨hmem, ht, hn⟩ := permission_menu_some hmenu
          have hk := hg.resolve_left hskip (permission, uuid) (List.mem_cons_self ..) menu hmem ht hn
          have hnext := forExisting_overwrite parent hmenu hk (hrest.resolve_left hskip)
          exact (ih h (.inr hnext)).trans (get_user_permission_overwrite hmenu hk method)
      · obtain ⟨hnew, h⟩ := Option.ite_none_left_eq_some.mp h
        simp only [Bool.or_eq_true, Bool.not_eq_true', not_or, Bool.not_eq_false] at hnew
        have hnot := not_reaches_of_uuid hnew.1 u
        refine (ih h (hrest.imp_right fun hrest p hp m hm hmt hmn => ?_)).trans
          (get_user_permission_of_menu uuid
            (Table.without_insert db.menus (db.data parent permission uuid)) hnot method)
        rcases Table.mem_insert hm with hm | rfl
        · exact hrest p hp m hm hmt hmn
        · exact .inr hnot

/-- Whose maps the handler removes for the overwritten menu, it removes for the parent. -/
def Db.Shares (db : Db) (parent menu : Nat) : Prop :=
  clean_cache_handler db menu ⊆ clean_cache_handler db parent

theorem permissions_covers {db : Db} {pk : Nat} {views : List (List (ViewPermission × Nat))}
    {skip_existing : Bool} {c : Change} (h : permissions db pk views skip_existing = some c)
    (hg : skip_existing = true ∨
      db.ForExisting (fun p m => db.Keeps p m ∨ db.Shares pk m.pk) views.flatten) :
    Covers db c := by
  obtain ⟨menu, -, h⟩ := Option.bind_eq_some_iff.mp h
  split at h
  · obtain rfl := Option.some.inj h
    exact covers_of_users rfl fun _ _ _ _ => rfl
  · obtain ⟨db', hsave, h⟩ := Option.bind_eq_some_iff.mp h
    obtain rfl := Option.some.inj h
    obtain ⟨menus, rfl⟩ := save_permissions_db hsave
    refine covers_of_users rfl fun u hu hin method => ?_
    -- a user whose maps stay reaches neither the parent nor a menu that changes
    have hnot : db.reaches u pk = false := not_reaches_of_clean hu hin
    have hsame := save_permissions_same (u := u) hsave (hg.imp_right fun hg p hp m hm hmt hmn =>
      (hg p hp m hm hmt hmn).imp_right fun hs => not_reaches_of_clean hu fun hmem => hin (hs hmem))
    rw [← hsame method]
    have hnot' : Db.reaches { db with menus } u pk = false := hnot
    refine get_user_permission_of_menu pk ?_ hnot' method
    exact Table.without_modify ..

/-! ### Runs -/

inductive Op
  | empower_user (visible : List Nat) (pk : Nat) (data : Empower)
  | empower_dept (visible : List Nat) (pk : Nat) (data : Empower)
  | user_create (row : UserInfo)
  | user_update (row : UserInfo)
  | user_delete (pk : Nat)
  | role_create (row : UserRole)
  | role_update (row : UserRole)
  | role_delete (pk : Nat)
  | dept_create (user_dept : Option Nat) (row : DeptInfo)
  | dept_update (user_dept : Option Nat) (row : DeptInfo)
  | dept_delete (pk : Nat)
  | menu_create (row : Menu)
  | menu_update (row : Menu)
  | menu_delete (pk : Nat)
  | permissions (pk : Nat) (views : List (List (ViewPermission × Nat))) (skip_existing : Bool)

def Op.apply (db : Db) : Op → Option Change
  | empower_user visible pk data => Permission.empower_user db visible pk data
  | empower_dept visible pk data => Permission.empower_dept db visible pk data
  | user_create row => Permission.user_create db row
  | user_update row => Permission.user_update db row
  | user_delete pk => Permission.user_delete db pk
  | role_create row => Permission.role_create db row
  | role_update row => Permission.role_update db row
  | role_delete pk => Permission.role_delete db pk
  | dept_create user_dept row => Permission.dept_create db user_dept row
  | dept_update user_dept row => Permission.dept_update db user_dept row
  | dept_delete pk => Permission.dept_delete db pk
  | menu_create row => Permission.menu_create db row
  | menu_update row => Permission.menu_update db row
  | menu_delete pk => Permission.menu_delete db pk
  | permissions pk views skip_existing => Permission.permissions db pk views skip_existing

/-- An operation, a request that looks up its map, or an entry that times out. -/
inductive Event
  | op (o : Op)
  | request (pk : Nat) (method : String)
  | expire (key : Nat × String)

structure State where
  db : Db
  cache : Cache

/-- `get_user_permission` as it is decorated: the map that is returned, and the cache after. -/
def cached_permission (s : State) (user_obj : UserInfo) (method : String) :
    Dict String Item × Cache :=
  match s.cache.get (user_obj.pk, method) with
  | some data => (data, s.cache)
  | none =>
    let data := get_user_permission s.db user_obj method
    (data, s.cache.set (user_obj.pk, method) data)

def next (s : State) : Event → Option State
  | .op o => (o.apply s.db).map fun c => ⟨c.db, batch_invalid_cache s.cache c.invalid⟩
  | .request pk method =>
    (s.db.users.get pk).map fun user_obj => ⟨s.db, (cached_permission s user_obj method).2⟩
  | .expire key => some ⟨s.db, s.cache.delete key⟩

/-- What an operation must meet: roles come with rules or stay the same, and a menu that
`permissions` overwrites stays what it is or shares its users with the parent. -/
def Op.Guard (db : Db) : Op → Prop
  | empower_user visible pk data => data.rules.isSome ∨
      ∀ u ∈ db.users.rows, u.pk = pk → SameRoles (u.set_roles db visible data).roles u.roles
  | empower_dept visible pk data => data.rules.isSome ∨
      ∀ d ∈ db.depts.rows, d.pk = pk → SameRoles (d.set_roles db visible data).roles d.roles
  | permissions pk views skip_existing => skip_existing = true ∨
      db.ForExisting (fun p m => db.Keeps p m ∨ db.Shares pk m.pk) views.flatten
  | _ => True

def Guard (s : State) : Event → Prop
  | .op o => o.Guard s.db
  | _ => True

/-- **What one operation does**: it covers every user. -/
theorem Op.apply_covers {db : Db} {o : Op} {c : Change} (h : o.apply db = some c)
    (hg : o.Guard db) : Covers db c := by
  cases o with
  | empower_user visible pk data => exact empower_user_covers h hg
  | empower_dept visible pk data => exact empower_dept_covers h hg
  | user_create row => exact user_create_covers h
  | user_update row => exact user_update_covers h
  | user_delete pk => exact user_delete_covers h
  | role_create row => exact role_create_covers h
  | role_update row => exact role_update_covers h
  | role_delete pk => exact role_delete_covers h
  | dept_create user_dept row => exact dept_create_covers h
  | dept_update user_dept row => exact dept_update_covers h
  | dept_delete pk => exact dept_delete_covers h
  | menu_create row => exact menu_create_covers h
  | menu_update row => exact menu_update_covers h
  | menu_delete pk => exact menu_delete_covers h
  | permissions pk views skip_existing => exact permissions_covers h hg

/-! ### Coherence -/

/-- What is cached for a user is the user's map; for a method that is never removed it is the
empty map, whoever the user was. -/
structure Coherent (s : State) : Prop where
  current : ∀ u ∈ s.db.users.rows, ∀ method data,
    s.cache.get (u.pk, method) = some data → data = get_user_permission s.db u method
  other : ∀ pk method data, (∀ m : MethodChoices, m.value ≠ method) →
    s.cache.get (pk, method) = some data → data = Dict.ofList []

theorem mem_get_cache_data_keys {pks : List Nat} {pk : Nat} (m : MethodChoices) (h : pk ∈ pks) :
    (pk, m.value) ∈ get_cache_data_keys pks := by
  refine List.mem_flatMap.mpr ⟨pk, h, List.mem_map.mpr ⟨m.value, ?_, rfl⟩⟩
  cases m <;> simp [MethodChoices.value]

/-- What an invalidation leaves was there before. -/
theorem get_of_batch_invalid {cache : Cache} {pks : List Nat} {pk : Nat} {method : String}
    {data : Dict String Item} (h : (batch_invalid_cache cache pks).get (pk, method) = some data) :
    cache.get (pk, method) = some data ∧ (pk ∈ pks → ∀ m : MethodChoices, m.value ≠ method) := by
  rw [batch_invalid_cache, Store.get_deleteMany] at h
  obtain ⟨hmem, h⟩ := Option.ite_none_left_eq_some.mp h
  exact ⟨h, fun hpk m hm => hmem (hm ▸ mem_get_cache_data_keys m hpk)⟩

theorem coherent_op {s : State} {c : Change} (h : Coherent s) (hc : Covers s.db c) :
    Coherent ⟨c.db, batch_invalid_cache s.cache c.invalid⟩ where
  current u' hu' method data hdata := by
    obtain ⟨hdata, hinvalid⟩ := get_of_batch_invalid hdata
    rcases hc u' hu' with hin | ⟨u, hu, hpk, hsame⟩
    · rw [h.other _ _ _ (hinvalid hin) hdata, get_user_permission_other (hinvalid hin)]
    · rw [← hpk] at hdata
      rw [hsame, h.current u hu method data hdata]
  other pk method data hmethod hdata :=
    h.other pk method data hmethod (get_of_batch_invalid hdata).1

theorem coherent_request {s : State} {u : UserInfo} (h : Coherent s) (hu : u ∈ s.db.users.rows)
    (method : String) : Coherent ⟨s.db, (cached_permission s u method).2⟩ := by
  unfold cached_permission
  split
  · exact h
  · constructor
    · intro u' hu' method' data hdata
      rw [Store.get_set] at hdata
      split at hdata
      · next hkey =>
        have hpk : u'.pk = u.pk := congrArg Prod.fst hkey
        have hmethod : method' = method := congrArg Prod.snd hkey
        rw [Table.eq_of_key hu' hu hpk, hmethod, Option.some.inj hdata]
      · exact h.current u' hu' method' data hdata
    · intro pk method' data hmethod hdata
      rw [Store.get_set] at hdata
      split at hdata
      · next hkey =>
        have hkey : method' = method := congrArg Prod.snd hkey
        rw [← Option.some.inj hdata, ← hkey, get_user_permission_other hmethod]
      · exact h.other pk method' data hmethod hdata

/-- A timeout removes, and writes nothing. -/
theorem coherent_expire {s : State} (h : Coherent s) (key : Nat × String) :
    Coherent ⟨s.db, s.cache.delete key⟩ where
  current u hu method data hdata := by
    rw [Store.get_delete] at hdata
    exact h.current u hu method data (Option.ite_none_left_eq_some.mp hdata).2
  other pk method data hmethod hdata := by
    rw [Store.get_delete] at hdata
    exact h.other pk method data hmethod (Option.ite_none_left_eq_some.mp hdata).2

theorem coherent_step {s t : State} {e : Event} (h : Coherent s) (hnext : next s e = some t)
    (hg : Guard s e) : Coherent t := by
  cases e with
  | op o =>
      obtain ⟨c, hc, rfl⟩ := Option.map_eq_some_iff.mp hnext
      exact coherent_op h (o.apply_covers hc hg)
  | request pk method =>
      obtain ⟨u, hu, rfl⟩ := Option.map_eq_some_iff.mp hnext
      exact coherent_request h (Table.mem_of_get hu) method
  | expire key =>
      obtain rfl := Option.some.inj hnext
      exact coherent_expire h key

/-- **The next request gets the current map**, in every run whose steps meet the guard. -/
theorem next_request_current {db : Db} {events : List Event} {s : State}
    (r : Run (guarded (fun s e t => next s e = some t) Guard) ⟨db, Store.empty⟩ events s)
    {u : UserInfo} (hu : u ∈ s.db.users.rows) (method : String) :
    (cached_permission s u method).1 = get_user_permission s.db u method := by
  have hempty : Coherent ⟨db, Store.empty⟩ :=
    ⟨fun _ _ _ _ h => (nomatch h), fun _ _ _ _ h => (nomatch h)⟩
  have h : Coherent s := Run.invariant (I := Coherent)
    (fun _ _ _ hs hstep => coherent_step hs hstep.1 hstep.2) r hempty
  unfold cached_permission
  split
  · next data hdata => exact h.current u hu method data hdata
  · rfl

/-! ### Without rules -/

/-- Given without rules, roles change nothing for a user whose map is cached, whatever they are:
the next request gets the cached map. -/
theorem cached_after_empower {s t : State} {visible : List Nat} {pk : Nat} {data : Empower}
    (h : next s (.op (.empower_user visible pk data)) = some t) (hrules : data.rules = none)
    {u : UserInfo} {method : String} {map : Dict String Item}
    (hcached : s.cache.get (u.pk, method) = some map) : (cached_permission t u method).1 = map := by
  obtain ⟨c, hc, rfl⟩ := Option.map_eq_some_iff.mp h
  obtain ⟨-, hc⟩ := Option.ite_none_left_eq_some.mp hc
  simp only [hrules, Option.some.injEq] at hc
  subst hc
  have hkeep : (batch_invalid_cache s.cache []).get (u.pk, method) = some map := by
    simpa [batch_invalid_cache, Store.get_deleteMany, get_cache_data_keys] using hcached
  simp only [cached_permission, hkeep]

/-! ### An example -/

/-- The permission to list users, which an active role carries; no user has the role. -/
def sampleDb : Db where
  users := ⟨[⟨2, false, [], [], none, .OR⟩], by decide⟩
  roles := ⟨[⟨1, true, [5]⟩], by decide⟩
  depts := Table.empty
  menus := ⟨[⟨5, .PERMISSION, "list:SystemUser", "api/system/user$", some .GET, [], none, true⟩],
    by decide⟩
  data_permissions := Table.empty
  model_label_fields := Table.empty

/-- The administrator gives the role, without data rules or with an empty list of them. -/
def giveRole (rules : Option (List Nat)) : Event :=
  .op (.empower_user [1] 2 ⟨some [1], rules, none⟩)

theorem next_request_current_after_rules :
    ∃ s, Run (guarded (fun s e t => next s e = some t) Guard) ⟨sampleDb, Store.empty⟩
      [.request 2 "GET", giveRole (some [])] s ∧
      ∀ u ∈ s.db.users.rows, ∀ method,
        (cached_permission s u method).1 = get_user_permission s.db u method := by
  obtain ⟨s, hrun⟩ : ∃ s, Run (guarded (fun s e t => next s e = some t) Guard)
      ⟨sampleDb, Store.empty⟩ [.request 2 "GET", giveRole (some [])] s :=
    ⟨_, .cons ⟨rfl, trivial⟩ (.cons ⟨rfl, Or.inl rfl⟩ (.nil _))⟩
  exact ⟨s, hrun, fun u hu method => next_request_current hrun hu method⟩

/-- The map that is cached before the role is given is still there after. -/
theorem stale_after_empower :
    ¬ ∀ (db : Db) (events : List Event) (s : State),
      Run (fun s e t => next s e = some t) ⟨db, Store.empty⟩ events s →
        ∀ u ∈ s.db.users.rows, ∀ method,
          (cached_permission s u method).1 = get_user_permission s.db u method := by
  intro h
  have hrun := h sampleDb [.request 2 "GET", giveRole none] _ (.cons rfl (.cons rfl (.nil _)))
    ⟨2, false, [1], [], none, .OR⟩ (by decide) "GET"
  have hlength := congrArg (fun d : Dict String Item => d.items.length) hrun
  revert hlength
  decide

end InfraHub.Permission
