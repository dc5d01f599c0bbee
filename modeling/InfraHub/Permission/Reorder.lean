import InfraHub.Permission.Grow

/-!
# Permission — Reorder

The rows that a user is shown, in two runs over the same permissions in different orders.

* `result_reorder`: a permission with its rules in another order.
* `shown_reorder`: all permissions with their rules in another order.
* `order_free_iff`: only the order of the departments can matter, and when it does.
-/

namespace InfraHub.Permission
open InfraHub.Lib (Query Table Paired)

/-! ### The rules of a permission -/

section
variable (py : Outside) (place : Place) (label : String)

theorem alike_of_mem {mode : ModeChoices} {rules rules' : List Rule}
    (h : ∀ rule, rule ∈ rules ↔ rule ∈ rules') :
    Result.Alike py place ⟨mode, rules⟩ ⟨mode, rules'⟩ := by
  have hhas (q : Q) : Result.Has py place ⟨mode, rules⟩ q ↔ Result.Has py place ⟨mode, rules'⟩ q := by
    simp only [Result.Has, h]
  have hvoid : Result.Void py place ⟨mode, rules⟩ ↔ Result.Void py place ⟨mode, rules'⟩ := by
    simp only [Result.Void, hhas]
  constructor
  · simp only [Result.Empty, hhas]
  · exact hvoid
  · intro Row M row
    simp only [Result.Shows, hhas, hvoid]
  · simp [Result.Ends, h]

/-- Rules for all data that stand alone. -/
theorem alike_of_all {rule rule' : Rule} (htype : rule.type = some .ALL)
    (htype' : rule'.type = some .ALL) :
    Result.Alike py place ⟨.OR, [rule]⟩ ⟨.OR, [rule']⟩ := by
  have hempty : Result.Empty py place ⟨.OR, [rule]⟩ := empty_of_all htype
  have hempty' : Result.Empty py place ⟨.OR, [rule']⟩ := empty_of_all htype'
  constructor
  · exact iff_of_true hempty hempty'
  · exact iff_of_true hempty.void hempty'.void
  · exact fun _ _ => iff_of_true (.inl hempty.void) (.inl hempty'.void)
  · simp [Result.Ends, htype, htype']

/-- **The order of the rules of a permission does not matter.** -/
theorem result_reorder {obj : DataPermission} {rules : List Rule} (h : rules.Perm obj.rules) :
    result label { obj with rules := rules } = none ∧ result label obj = none ∨
      ∃ res' res, result label { obj with rules := rules } = some res' ∧
        result label obj = some res ∧ res'.Alike py place res := by
  have hselect {mode : ModeChoices}
      (hmem : ∀ rule, rule ∈ select label mode [] rules ↔ rule ∈ select label mode [] obj.rules)
      (hmode : (if obj.rules.length = 1 then .OR else obj.mode_type) = mode) :
      result label { obj with rules := rules } = none ∧ result label obj = none ∨
        ∃ res' res, result label { obj with rules := rules } = some res' ∧
          result label obj = some res ∧ res'.Alike py place res := by
    have hnil : select label mode [] rules = [] ↔ select label mode [] obj.rules = [] := by
      simp only [List.eq_nil_iff_forall_not_mem, hmem]
    simp only [result, h.length_eq, hmode, List.isEmpty_iff]
    by_cases hempty : select label mode [] obj.rules = []
    · exact .inl ⟨if_pos (hnil.mpr hempty), if_pos hempty⟩
    · exact .inr ⟨_, _, if_neg (mt hnil.mp hempty), if_neg hempty, alike_of_mem py place hmem⟩
  cases hmode : (if obj.rules.length = 1 then ModeChoices.OR else obj.mode_type) with
  | AND =>
      refine hselect (fun rule => ?_) hmode
      simp only [select_and, List.nil_append, List.mem_filter, h.mem_iff]
  | OR =>
      by_cases hall : ∀ rule ∈ obj.rules, rule.names label = true → rule.type ≠ some .ALL
      · refine hselect (fun rule => ?_) hmode
        rw [select_or hall, select_or fun r hr => hall r (h.mem_iff.mp hr)]
        simp only [List.nil_append, List.mem_filter, h.mem_iff]
      · -- whichever comes first, a rule for all data stands alone
        push Not at hall
        obtain ⟨rule, hrule, hnames, htype⟩ := hall
        obtain ⟨first, -, -, hfirst, hsel⟩ := select_all [] hrule hnames htype
        obtain ⟨first', -, -, hfirst', hsel'⟩ := select_all [] (h.mem_iff.mpr hrule) hnames htype
        refine .inr ⟨⟨.OR, [first']⟩, ⟨.OR, [first]⟩, ?_, ?_, alike_of_all py place hfirst' hfirst⟩
        · simp [result, h.length_eq, hmode, hsel']
        · simp [result, hmode, hsel]

end

/-! ### The permissions of all holders -/

/-- The rules of every permission in another order. -/
def Db.reorder (db : Db) (rules : DataPermission → List Rule) : Db :=
  { db with
    data_permissions := db.data_permissions.map (fun obj => { obj with rules := rules obj })
      fun _ => rfl }

section
variable {py : Outside} {db : Db} {label : String} {menu : Option Nat} {user_obj : UserInfo}
  {rules : DataPermission → List Rule}

theorem permission_reorder (links : List Nat) : (db.reorder rules).permission menu links =
    (db.permission menu links).map fun obj => { obj with rules := rules obj } := by
  simp only [Db.permission, Db.reorder, Table.map, List.filter_map]
  rfl

theorem reorder_rules : db.reorder DataPermission.rules = db := by
  simp [Db.reorder, Table.map]

variable (h : ∀ obj, (rules obj).Perm obj.rules)
include h

theorem results_reorder (place : Place) (links : List Nat) :
    Paired (fun res res' => Result.Alike py place res res')
      ((db.reorder rules).results label menu links) (db.results label menu links) := by
  unfold Db.results
  rw [permission_reorder, List.filterMap_map]
  constructor
  · intro res' hres'
    obtain ⟨obj, hobj, hres'⟩ := List.mem_filterMap.mp hres'
    rcases result_reorder py place label (h obj) with
      ⟨hnone, -⟩ | ⟨res'', res, hsome, hres, halike⟩
    · cases hnone.symm.trans hres'
    · cases hsome.symm.trans hres'
      exact ⟨res, List.mem_filterMap.mpr ⟨obj, hobj, hres⟩, halike⟩
  · intro res hres
    obtain ⟨obj, hobj, hres⟩ := List.mem_filterMap.mp hres
    rcases result_reorder py place label (h obj) with
      ⟨-, hnone⟩ | ⟨res', res'', hres', hsome, halike⟩
    · cases hnone.symm.trans hres
    · cases hsome.symm.trans hres
      exact ⟨res', List.mem_filterMap.mpr ⟨obj, hobj, hres'⟩, halike⟩

/-- **The order of the rules does not matter to what is shown.** -/
theorem shown_reorder {order : Orders} {Row : Type} {M : Rows Row} {row : Row} :
    (db.reorder rules).Shown py order label menu user_obj M row ↔
      db.Shown py order label menu user_obj M row := by
  have hpaired (links : List Nat) :
      Paired (fun res res' => Result.Alike py (db.place user_obj) res res')
        ((db.reorder rules).results label menu links) (db.results label menu links) :=
    results_reorder h (db.place user_obj) links
  have hnil : (db.reorder rules).permission menu user_obj.rules = [] ↔
      db.permission menu user_obj.rules = [] := by
    rw [permission_reorder, List.map_eq_nil_iff]
  have hopens : (db.reorder rules).DeptOpens py order label menu user_obj ↔
      db.DeptOpens py order label menu user_obj :=
    and_congr (forall₂_congr fun _ _ => voids_congr (hpaired _)) <|
      exists₂_congr fun _ _ => and_congr_right fun _ => opens_congr (hpaired _)
  have hvoids : (db.reorder rules).DeptVoids py label menu user_obj ↔
      db.DeptVoids py label menu user_obj :=
    or_congr Iff.rfl <| and_congr_right fun _ => forall₂_congr fun _ _ => voids_congr (hpaired _)
  have hadmits : (db.reorder rules).DeptAdmits py label menu user_obj M row ↔
      db.DeptAdmits py label menu user_obj M row :=
    and_congr_right fun _ => forall₂_congr fun _ _ => admits_congr (hpaired _)
  refine or_congr hopens (or_congr (opens_congr (hpaired _)) ?_)
  by_cases hnone : db.permission menu user_obj.rules = []
  · rw [if_pos (hnil.mpr hnone), if_pos hnone]
    exact hadmits
  · rw [if_neg (mt hnil.mp hnone), if_neg hnone]
    by_cases hvoid : db.DeptVoids py label menu user_obj
    · rw [if_pos (hvoids.mpr hvoid), if_pos hvoid]
      exact admits_congr (hpaired _)
    · rw [if_neg (mt hvoids.mp hvoid), if_neg hvoid]
      exact or_congr hadmits (and_congr (not_congr (voids_congr (hpaired _)))
        (admits_congr (hpaired _)))

end

/-- The departments in an order in which this one, if it is among them, is the last. -/
def lastly (dept : DeptInfo) (l : List DeptInfo) : List DeptInfo :=
  if dept ∈ l then l.erase dept ++ [dept] else l

theorem lastly_perm (dept : DeptInfo) (l : List DeptInfo) : (lastly dept l).Perm l := by
  unfold lastly
  split
  · next hmem => exact (List.perm_append_singleton _ _).trans (List.perm_cons_erase hmem).symm
  · exact .refl l

def Orders.last (dept : DeptInfo) : Orders :=
  { Orders.listed with
    depts := lastly dept
    perm_depts := lastly_perm dept }

section
variable (py : Outside) (db : Db) (label : String) (menu : Option Nat) (user_obj : UserInfo)

/-- The order of the departments matters: none of them adds a condition, some are `Q()` and some are
not, and the permissions of the user do not grant every row. -/
def OrderMatters : Prop :=
  (∀ dept ∈ db.chain user_obj, Voids py (db.place user_obj) (db.mode user_obj)
      (db.results label menu dept.rules)) ∧
    (∃ dept ∈ db.chain user_obj, Opens py (db.place user_obj) (db.mode user_obj)
      (db.results label menu dept.rules)) ∧
    (∃ dept ∈ db.chain user_obj, ¬ Opens py (db.place user_obj) (db.mode user_obj)
      (db.results label menu dept.rules)) ∧
    db.permission menu user_obj.rules ≠ [] ∧
    ∃ (Row : Type) (M : Rows Row) (row : Row),
      ¬ Admits py (db.place user_obj) (db.mode user_obj) (db.results label menu user_obj.rules) M row

end

section
variable {py : Outside} {db : Db} {label : String} {menu : Option Nat} {user_obj : UserInfo}

theorem admits_of_voids {place : Place} {dept_mode : Option ModeChoices} {results : List Result}
    (h : Voids py place dept_mode results) {Row : Type} (M : Rows Row) (row : Row) :
    Admits py place dept_mode results M row := by
  have hshows {res : Result} (hvoid : res.Void py place) : res.Shows py place M row := by
    unfold Result.Shows
    unfold Result.Void at hvoid
    cases hmode : res.mode with
    | OR => exact .inl (by rw [Result.Void, hmode]; rwa [hmode] at hvoid)
    | AND =>
        rw [hmode] at hvoid
        exact fun q hq => Query.holds_of_falsy (hvoid q hq) row
  match dept_mode with
  | none => exact .inl h
  | some .OR => exact .inl h
  | some .AND => exact ⟨h.1, fun res hres => hshows (h.2 res hres)⟩

theorem admits_of_opens {place : Place} {dept_mode : Option ModeChoices} {results : List Result}
    (h : Opens py place dept_mode results) {Row : Type} (M : Rows Row) (row : Row) :
    Admits py place dept_mode results M row := by
  obtain ⟨rfl, hempty⟩ := h
  exact .inl (.inl hempty)

/-- If the departments open the table in one order, every row is shown in any order. -/
theorem shown_of_deptOpens (h : ¬ OrderMatters py db label menu user_obj) {order order' : Orders}
    (hopens : db.DeptOpens py order label menu user_obj) {Row : Type} (M : Rows Row) (row : Row) :
    db.Shown py order' label menu user_obj M row := by
  obtain ⟨hvoids, first, last, hsplit, hlast⟩ := hopens
  have hmem : last ∈ db.chain user_obj :=
    (order.perm_depts _).mem_iff.mp (by simp [hsplit])
  have hdept : db.DeptVoids py label menu user_obj :=
    .inr ⟨List.ne_nil_of_mem hmem, hvoids⟩
  have hadmits : db.DeptAdmits py label menu user_obj M row :=
    ⟨List.ne_nil_of_mem hmem, fun dept hdept => admits_of_voids (hvoids dept hdept) M row⟩
  unfold Db.Shown
  by_cases hopens : db.DeptOpens py order' label menu user_obj
  · exact .inl hopens
  · refine .inr (.inr ?_)
    rw [if_pos hdept]
    split
    · exact hadmits
    · next hne =>
      by_contra hnot
      -- the last department of the other order is not open
      have hsome : order'.depts (db.chain user_obj) ≠ [] := fun hnil =>
        List.ne_nil_of_mem hmem (List.nil_perm.mp (hnil ▸ order'.perm_depts _))
      obtain ⟨first', last', hsplit'⟩ := (List.eq_nil_or_concat' _).resolve_left hsome
      have hmem' : last' ∈ db.chain user_obj :=
        (order'.perm_depts _).mem_iff.mp (by simp [hsplit'])
      exact h ⟨hvoids, ⟨last, hmem, hlast⟩, ⟨last', hmem', fun hlast' =>
        hopens ⟨hvoids, first', last', hsplit', hlast'⟩⟩, hne, Row, M, row, hnot⟩

/-- **The order does not matter.** -/
theorem shown_order (h : ¬ OrderMatters py db label menu user_obj) (order order' : Orders)
    {Row : Type} (M : Rows Row) (row : Row) :
    db.Shown py order label menu user_obj M row ↔ db.Shown py order' label menu user_obj M row := by
  by_cases hopens : db.DeptOpens py order label menu user_obj
  · exact iff_of_true (.inl hopens) (shown_of_deptOpens h hopens M row)
  · by_cases hopens' : db.DeptOpens py order' label menu user_obj
    · exact iff_of_true (shown_of_deptOpens h hopens' M row) (.inl hopens')
    · unfold Db.Shown
      simp only
      rw [or_iff_right hopens, or_iff_right hopens']

/-- Two orders of the departments, and a row that only one of them shows. -/
theorem exists_orders (h : OrderMatters py db label menu user_obj) :
    ∃ (order order' : Orders) (Row : Type) (M : Rows Row) (row : Row),
      db.Shown py order label menu user_obj M row ∧
        ¬ db.Shown py order' label menu user_obj M row := by
  obtain ⟨hvoids, ⟨dept, hdept, hopens⟩, ⟨dept', hdept', hnot⟩, hne, Row, M, row, hrow⟩ := h
  have hlast {d : DeptInfo} (hd : d ∈ db.chain user_obj) :
      (Orders.last d).depts (db.chain user_obj) = (db.chain user_obj).erase d ++ [d] := if_pos hd
  refine ⟨.last dept, .last dept', Row, M, row, .inl ⟨hvoids, _, dept, hlast hdept, hopens⟩, ?_⟩
  have hvoid : db.DeptVoids py label menu user_obj := .inr ⟨List.ne_nil_of_mem hdept, hvoids⟩
  unfold Db.Shown
  simp only
  rw [if_neg hne, if_pos hvoid]
  rintro (⟨-, first, last, hsplit, hlast'⟩ | hopens' | hadmits)
  · obtain rfl : dept' = last := by
      simpa using (List.append_inj' ((hlast hdept').symm.trans hsplit) rfl).2
    exact hnot hlast'
  · exact hrow (admits_of_opens hopens' M row)
  · exact hrow hadmits

end

/-! ### Two runs -/

/-- Two runs show the same rows, over the same permissions in any orders. -/
def OrderFree (py : Outside) (db : Db) (label : String) (menu : Option Nat) (user_obj : UserInfo) :
    Prop :=
  ∀ (order order' : Orders) (rules rules' : DataPermission → List Rule),
    (∀ obj, (rules obj).Perm obj.rules) → (∀ obj, (rules' obj).Perm obj.rules) →
    ∀ queryset queryset',
      get_filter_queryset_in py order true (db.reorder rules) label menu user_obj = some queryset →
      get_filter_queryset_in py order' true (db.reorder rules') label menu user_obj =
        some queryset' →
      ∀ (Row : Type) (M : Rows Row) (row : Row), (queryset.shows M row ↔ queryset'.shows M row)

section
variable {py : Outside} {db : Db} {label : String} {menu : Option Nat} {user_obj : UserInfo}
  (hsuper : user_obj.is_superuser = false)
  (hwell : ∀ rule, db.Applies label user_obj rule →
    rule.conditions py (db.place user_obj) ≠ none)
include hsuper hwell

theorem not_orderFree (hlooping : ¬ (db.place user_obj).Looping)
    (hmatters : OrderMatters py db label menu user_obj) :
    ¬ OrderFree py db label menu user_obj := by
  intro hfree
  obtain ⟨order, order', Row, M, row, hshown, hhidden⟩ := exists_orders hmatters
  have hruns (order : Orders) : ∃ queryset, get_filter_queryset_in py order true
      (db.reorder DataPermission.rules) label menu user_obj = some queryset := by
    rw [reorder_rules]
    exact exists_queryset hlooping hwell
  obtain ⟨queryset, hqueryset⟩ := hruns order
  obtain ⟨queryset', hqueryset'⟩ := hruns order'
  have hperm (obj : DataPermission) : obj.rules.Perm obj.rules := .refl _
  have hiff := hfree order order' _ _ hperm hperm _ _ hqueryset hqueryset' Row M row
  rw [reorder_rules] at hqueryset hqueryset'
  rw [shown_iff hsuper hqueryset, shown_iff hsuper hqueryset'] at hiff
  exact hhidden (hiff.mp hshown)

/-- **The rows that are shown are the same for every order** of the permissions that are fetched, of
the rules inside them, of the departments and of the sets of conditions, exactly if it does not
matter which department comes last.  Where the departments never end, every request fails. -/
theorem order_free_iff : OrderFree py db label menu user_obj ↔
    (db.place user_obj).Looping ∨ ¬ OrderMatters py db label menu user_obj := by
  constructor
  · intro hfree
    by_contra hnot
    obtain ⟨hlooping, hmatters⟩ := not_or.mp hnot
    exact not_orderFree hsuper hwell hlooping (not_not.mp hmatters) hfree
  · rintro (hlooping | hmatters) order order' rules rules' hrules hrules' queryset queryset' h h' Row
      M row
    · have hfails : get_filter_queryset_in py order true (db.reorder rules) label menu user_obj =
          none := fails_in_of_looping hlooping hsuper
      rw [hfails] at h
      cases h
    · rw [shown_iff hsuper h, shown_iff hsuper h', shown_reorder hrules, shown_reorder hrules']
      exact shown_order hmatters order order' M row

end

/-! ### A department above that excludes everything -/

/-- The rule lists every host, and excludes it. -/
def noHost : Rule := { hostsWith "name" "*" with exclude := some (.bool true) }

def branch : DeptInfo where
  pk := 1
  parent := some 2
  roles := []
  rules := [0]
  is_active := true
  mode_type := .OR

def company : DeptInfo where
  pk := 2
  parent := none
  roles := []
  rules := [1]
  is_active := true
  mode_type := .OR

def branchUser : UserInfo := { auditor with dept := some 1, rules := [2] }

def branchDb : Db :=
  { auditorDb with
    depts := ⟨[branch, company], by simp [branch, company]⟩
    data_permissions := ⟨[.single 0 (hostsWith "name" "*"), .single 1 noHost,
      .single 2 (hostsWith "status" "on")], by simp [DataPermission.single]⟩ }

section
variable (py : Outside) (place : Place)

theorem noHost_conditions : noHost.conditions py place = some [.not .empty] := by
  have hway : noHost.way = .other "exact" := by
    simp [Rule.way, noHost, hostsWith, Match.of]
  have hresolve : resolve py place noHost = some noHost := rfl
  rw [Rule.conditions, hresolve, Option.bind_some, attr_qs_match rfl rfl hway (by simp) (by simp)]
  rfl

theorem branch_applies {rule : Rule} (h : branchDb.Applies "virt_center.host" branchUser rule) :
    rule.conditions py place ≠ none := by
  obtain ⟨-, obj, hobj, -, hrule, -⟩ := h
  have hobj : obj = .single 0 (hostsWith "name" "*") ∨ obj = .single 1 noHost ∨
      obj = .single 2 (hostsWith "status" "on") := by simpa [branchDb] using hobj
  rcases hobj with rfl | rfl | rfl
  all_goals
    obtain rfl := List.mem_singleton.mp hrule
    simp [hostsWith_conditions, noHost_conditions]

end

theorem branch_results : branchDb.results "virt_center.host" none branch.rules =
      [⟨.OR, [hostsWith "name" "*"]⟩] ∧
    branchDb.results "virt_center.host" none company.rules = [⟨.OR, [noHost]⟩] ∧
    branchDb.results "virt_center.host" none branchUser.rules =
      [⟨.OR, [hostsWith "status" "on"]⟩] := by
  simp [Db.results, Db.permission, branchDb, DataPermission.single, branch, company, branchUser,
    result, select, Rule.names, hostsWith, noHost]

theorem order_free_iff_operator : ∃ py,
    OrderFree py operatorDb "virt_center.host" none operator := by
  let py : Outside := ⟨fun _ => none, fun _ => true, fun _ => none, fun _ => none, fun _ => none,
    fun _ => none⟩
  refine ⟨py, (order_free_iff rfl fun rule happlies => ?_).mpr (.inr ?_)⟩
  · have happlies : (auditorDb.attach (pair (hostsWith "cluster" "c1") (hostsWith "status" "on"))
        fun _ => []).Applies "virt_center.host" (operator.attach [0, 1]) rule := happlies
    rcases applies_pair happlies with rfl | rfl
    · simp [hostsWith_conditions]
    · simp [hostsWith_conditions]
  · rintro ⟨-, ⟨dept, hdept, -⟩, -⟩
    cases (mem_chain.mp hdept).1

/-- **The department that is fetched last decides**: with the own one last, every host is shown; with
the one above last, those that are on. -/
theorem last_department_decides :
    (∀ py rule, branchDb.Applies "virt_center.host" branchUser rule →
      rule.conditions py (branchDb.place branchUser) ≠ none) ∧
    ¬ ∃ py, OrderFree py branchDb "virt_center.host" none branchUser := by
  refine ⟨fun py rule happlies => branch_applies py _ happlies, ?_⟩
  rintro ⟨py, hfree⟩
  obtain ⟨hbranch, hcompany, huser⟩ := branch_results
  let place := branchDb.place branchUser
  have hmode : branchDb.mode branchUser = some .OR := rfl
  have hchain {dept : DeptInfo} (h : dept ∈ branchDb.chain branchUser) :
      dept = branch ∨ dept = company := by
    simpa [branchDb] using (mem_chain.mp h).1
  have hown : branchDb.dept branchUser = some branch := rfl
  have hbranch_mem : branch ∈ branchDb.chain branchUser :=
    mem_chain.mpr ⟨List.mem_cons_self, rfl, branch, hown, .refl _⟩
  have hcompany_mem : company ∈ branchDb.chain branchUser :=
    mem_chain.mpr ⟨List.mem_cons_of_mem _ List.mem_cons_self, rfl, branch, hown,
      .step List.mem_cons_self (.refl _)⟩
  have hempty : Result.Empty py place ⟨.OR, [hostsWith "name" "*"]⟩ := by
    refine .inl ⟨.empty, ⟨_, List.mem_cons_self, _, hostsWith_conditions py place _ _, ?_⟩, rfl⟩
    simp
  have hhas {q : Q} (h : Result.Has py place ⟨.OR, [noHost]⟩ q) : q = .not .empty := by
    obtain ⟨rule, hrule, qs, hqs, hq⟩ := h
    obtain rfl := List.mem_singleton.mp hrule
    rw [noHost_conditions] at hqs
    cases hqs
    exact List.mem_singleton.mp hq
  have hnot : ¬ Result.Empty py place ⟨.OR, [noHost]⟩ := by
    rintro (⟨q, hq, hempty⟩ | hnone)
    · rw [hhas hq] at hempty
      cases hempty
    · exact hnone _ ⟨_, List.mem_cons_self, _, noHost_conditions py place, List.mem_cons_self⟩
  have hvoid : Result.Void py place ⟨.OR, [noHost]⟩ := .inr fun q hq => by rw [hhas hq]; rfl
  refine not_orderFree rfl (fun rule => branch_applies py _) ?_ ?_ hfree
  · rintro ⟨dept, hdept, hnone⟩
    obtain rfl : 1 = dept := Option.some.inj hdept
    revert hnone
    decide
  · refine ⟨fun dept hdept => ?_, ⟨branch, hbranch_mem, ?_⟩, ⟨company, hcompany_mem, ?_⟩, ?_, Unit,
      missed none, (), ?_⟩
    · rw [hmode]
      rcases hchain hdept with rfl | rfl
      · rw [hbranch]
        exact .inl ⟨_, List.mem_cons_self, hempty⟩
      · rw [hcompany]
        exact .inr ⟨by simp, by simpa using hvoid⟩
    · rw [hmode, hbranch]
      exact ⟨rfl, _, List.mem_cons_self, hempty⟩
    · rw [hmode, hcompany]
      rintro ⟨-, res, hres, h⟩
      obtain rfl := List.mem_singleton.mp hres
      exact hnot h
    · exact fun hnil => by simp [Db.results, hnil] at huser
    · rw [hmode, huser]
      have hvoid : ¬ Result.Void py place ⟨.OR, [hostsWith "status" "on"]⟩ :=
        (missed_hosts py place (by simp)).1
      have hshows : ¬ Result.Shows py place (missed none) ⟨.OR, [hostsWith "status" "on"]⟩ () :=
        (missed_hosts py place (by simp)).2
      rintro ((⟨res, hres, hempty⟩ | ⟨-, hall⟩) | ⟨res, hres, -, hrow⟩)
      · obtain rfl := List.mem_singleton.mp hres
        exact hvoid hempty.void
      · exact hvoid (hall _ List.mem_cons_self)
      · obtain rfl := List.mem_singleton.mp hres
        exact hshows hrow

end InfraHub.Permission
