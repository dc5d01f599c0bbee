import InfraHub.Permission.Modes

/-!
# Permission — Grow

One more permission of a user whose permissions are joined with `|`.

A condition that adds nothing shows every row on its own, and is dropped where another one joins
it.  `Unbound` permissions are in that case: their condition is negated, or stands without a
department, so that nothing ends the search.  One more permission then takes rows away
(`grows_iff`).
-/

namespace InfraHub.Permission
open InfraHub.Lib (Query Table)

/-! ### Permissions that are joined with `|` -/

/-- The permission ends the search: without a department, a rule for all data; else `Q()`. -/
def Result.Stops (py : Outside) (place : Place) (dept_mode : Option ModeChoices) (res : Result) :
    Prop :=
  if dept_mode = none then res.Ends none else res.Empty py place

section
variable {py : Outside} {place : Place} {dept_mode : Option ModeChoices} {results : List Result}
  (hmode : dept_mode ≠ some .AND)
include hmode

theorem voids_or : Voids py place dept_mode results ↔
    (∃ res ∈ results, res.Stops py place dept_mode) ∨
      results ≠ [] ∧ ∀ res ∈ results, res.Void py place := by
  match dept_mode with
  | none => simp [Voids, Result.Stops]
  | some .OR => simp [Voids, Result.Stops]
  | some .AND => exact absurd rfl hmode

theorem admits_or {Row : Type} {M : Rows Row} {row : Row} :
    Admits py place dept_mode results M row ↔ Voids py place dept_mode results ∨
      ∃ res ∈ results, ¬ res.Void py place ∧ res.Shows py place M row := by
  match dept_mode with
  | none => rfl
  | some .OR => rfl
  | some .AND => exact absurd rfl hmode

/-- What is joined with `Q()` is `Q()`, if there is a department. -/
theorem opens_or : Opens py place dept_mode results ↔
    dept_mode ≠ none ∧ ∃ res ∈ results, res.Stops py place dept_mode := by
  match dept_mode with
  | none => simp [Opens]
  | some .OR => simp [Opens, Result.Stops]
  | some .AND => exact absurd rfl hmode

end

/-- The permissions show every row, but for nothing that ends the search. -/
def Unbound (py : Outside) (place : Place) (dept_mode : Option ModeChoices)
    (results : List Result) : Prop :=
  results ≠ [] ∧ ∀ res ∈ results, res.Void py place ∧ ¬ res.Stops py place dept_mode

/-- The permission has a condition, and some row does not meet it. -/
def Result.Narrow (py : Outside) (place : Place) (res : Result) : Prop :=
  ¬ res.Void py place ∧ ∃ (Row : Type) (M : Rows Row) (row : Row), ¬ res.Shows py place M row

/-! ### One more permission -/

/-- Attach one more permission to the user. -/
def UserInfo.grant (user_obj : UserInfo) (obj : DataPermission) : UserInfo :=
  { user_obj with rules := obj.pk :: user_obj.rules }

section
variable {db : Db} {label : String} {menu : Option Nat} {user_obj : UserInfo}
  {obj : DataPermission}

/-- The permission applies to the menu of the request. -/
def DataPermission.OnMenu (menu : Option Nat) (obj : DataPermission) : Prop :=
  obj.menu = [] ∨ ∃ pk ∈ menu, pk ∈ obj.menu

theorem mem_permission_iff {rules : List Nat} {o : DataPermission} :
    o ∈ db.permission menu rules ↔ o ∈ db.data_permissions.rows ∧ o.is_active = true ∧
      o.pk ∈ rules ∧ o.OnMenu menu := by
  cases menu <;> simp [Db.permission, DataPermission.OnMenu, and_assoc]

variable (hobj : obj ∈ db.data_permissions.rows) (hactive : obj.is_active = true)
include hobj hactive

theorem mem_permission_grant {o : DataPermission} :
    o ∈ db.permission menu (user_obj.grant obj).rules ↔
      o ∈ db.permission menu user_obj.rules ∨ o = obj ∧ obj.OnMenu menu := by
  rw [mem_permission_iff, mem_permission_iff]
  constructor
  · rintro ⟨ho, hactive', hpk, hmenu⟩
    rcases List.mem_cons.mp hpk with hpk | hpk
    · obtain rfl := Table.eq_of_key ho hobj hpk
      exact .inr ⟨rfl, hmenu⟩
    · exact .inl ⟨ho, hactive', hpk, hmenu⟩
  · rintro (⟨ho, hactive', hpk, hmenu⟩ | ⟨rfl, hmenu⟩)
    · exact ⟨ho, hactive', List.mem_cons_of_mem _ hpk, hmenu⟩
    · exact ⟨hobj, hactive, List.mem_cons_self, hmenu⟩

theorem mem_results_grant {res : Result} :
    res ∈ db.results label menu (user_obj.grant obj).rules ↔
      res ∈ db.results label menu user_obj.rules ∨ obj.OnMenu menu ∧ result label obj = some res := by
  simp only [Db.results, List.mem_filterMap, mem_permission_grant hobj hactive]
  constructor
  · rintro ⟨o, ho | ⟨rfl, hmenu⟩, hres⟩
    · exact .inl ⟨o, ho, hres⟩
    · exact .inr ⟨hmenu, hres⟩
  · rintro (⟨o, ho, hres⟩ | ⟨hmenu, hres⟩)
    · exact ⟨o, .inl ho, hres⟩
    · exact ⟨obj, .inr ⟨rfl, hmenu⟩, hres⟩

end

section
variable (py : Outside) (db : Db) (label : String) (menu : Option Nat) (user_obj : UserInfo)
  (obj : DataPermission)

/-- One more permission takes rows away.  The departments add no condition and do not open the
table, the permission is a new one, and either it is the first of the user and does not name the
table, or it is narrow where the others, if there are any, are unbound. -/
def Hides : Prop :=
  db.DeptVoids py label menu user_obj ∧ ¬ db.DeptOpens py .listed label menu user_obj ∧
    obj.OnMenu menu ∧ obj.pk ∉ user_obj.rules ∧
    (db.dept user_obj ≠ none ∧ db.permission menu user_obj.rules = [] ∧ result label obj = none ∨
      (db.dept user_obj ≠ none ∧ db.permission menu user_obj.rules = [] ∨
        Unbound py (db.place user_obj) (db.mode user_obj) (db.results label menu user_obj.rules)) ∧
      ∃ res, result label obj = some res ∧ res.Narrow py (db.place user_obj))

end

section
variable {py : Outside} {place : Place} {dept_mode : Option ModeChoices} {label : String}
  {obj : DataPermission} {results results' : List Result} (hmode : dept_mode ≠ some .AND)
  (hmem : ∀ res, res ∈ results' ↔ res ∈ results ∨ result label obj = some res)
include hmode hmem

/-- The rows that the permissions show stay, unless the new one is narrow and the others unbound. -/
theorem admits_grant {Row : Type} {M : Rows Row} {row : Row}
    (h : Admits py place dept_mode results M row)
    (hnarrow : Unbound py place dept_mode results → ∀ res, result label obj = some res →
      ¬ res.Narrow py place) : Admits py place dept_mode results' M row := by
  rw [admits_or hmode, voids_or hmode] at h ⊢
  have hmono {res : Result} (hres : res ∈ results) : res ∈ results' := (hmem res).mpr (.inl hres)
  rcases h with (⟨res, hres, hstops⟩ | ⟨hne, hvoid⟩) | ⟨res, hres, hshows⟩
  · exact .inl (.inl ⟨res, hmono hres, hstops⟩)
  · by_cases hstops : ∃ res ∈ results, res.Stops py place dept_mode
    · obtain ⟨res, hres, hstops⟩ := hstops
      exact .inl (.inl ⟨res, hmono hres, hstops⟩)
    · have hunbound : Unbound py place dept_mode results :=
        ⟨hne, fun res hres => ⟨hvoid res hres, fun h => hstops ⟨res, hres, h⟩⟩⟩
      obtain ⟨old, hold⟩ := List.exists_mem_of_ne_nil _ hne
      by_cases hnew : ∀ res, result label obj = some res → res.Void py place
      · refine .inl (.inr ⟨List.ne_nil_of_mem (hmono hold), fun res hres => ?_⟩)
        exact ((hmem res).mp hres).elim (hvoid res) (hnew res)
      · -- the new one has a condition that every row meets
        push Not at hnew
        obtain ⟨res, hres, hnot⟩ := hnew
        refine .inr ⟨res, (hmem res).mpr (.inr hres), hnot, ?_⟩
        by_contra hrow
        exact hnarrow hunbound res hres ⟨hnot, Row, M, row, hrow⟩
  · exact .inr ⟨res, hmono hres, hshows⟩

/-- A narrow one binds them. -/
theorem not_admits_grant {res : Result} (hres : result label obj = some res)
    (hvoid : ¬ res.Void py place)
    (hold : ∀ res ∈ results, res.Void py place ∧ ¬ res.Stops py place dept_mode) :
    (∀ res ∈ results', ¬ res.Stops py place dept_mode) ∧
      ∀ {Row : Type} {M : Rows Row} {row : Row}, ¬ res.Shows py place M row →
        ¬ Admits py place dept_mode results' M row := by
  have hstops : ∀ res ∈ results', ¬ res.Stops py place dept_mode := by
    intro res' hres'
    rcases (hmem res').mp hres' with hres' | hres'
    · exact (hold res' hres').2
    · obtain rfl := Option.some.inj (hres.symm.trans hres')
      intro hstops
      unfold Result.Stops at hstops
      split at hstops
      · exact hvoid (empty_of_ends hres hstops).void
      · exact hvoid hstops.void
  refine ⟨hstops, fun hrow h => ?_⟩
  rw [admits_or hmode, voids_or hmode] at h
  rcases h with (⟨res', hres', h⟩ | ⟨-, hall⟩) | ⟨res', hres', hnot, hshows⟩
  · exact hstops res' hres' h
  · exact hvoid (hall res ((hmem res).mpr (.inr hres)))
  · rcases (hmem res').mp hres' with hres' | hres'
    · exact hnot (hold res' hres').1
    · obtain rfl := Option.some.inj (hres.symm.trans hres')
      exact hrow hshows

end

section
variable {py : Outside} {db : Db} {label : String} {menu : Option Nat} {user_obj : UserInfo}
  {obj : DataPermission} (hmode : db.mode user_obj ≠ some .AND)
  (hobj : obj ∈ db.data_permissions.rows) (hactive : obj.is_active = true)
include hmode hobj hactive

omit hmode in
open Classical in
/-- What the user is shown with the new permission. -/
theorem shown_grant_iff (hmenu : obj.OnMenu menu) {Row : Type} {M : Rows Row} {row : Row} :
    db.Shown py .listed label menu (user_obj.grant obj) M row ↔
      db.DeptOpens py .listed label menu user_obj ∨
        Opens py (db.place user_obj) (db.mode user_obj)
          (db.results label menu (user_obj.grant obj).rules) ∨
        if db.DeptVoids py label menu user_obj then
          Admits py (db.place user_obj) (db.mode user_obj)
            (db.results label menu (user_obj.grant obj).rules) M row
        else db.DeptAdmits py label menu user_obj M row ∨
          ¬ Voids py (db.place user_obj) (db.mode user_obj)
              (db.results label menu (user_obj.grant obj).rules) ∧
            Admits py (db.place user_obj) (db.mode user_obj)
              (db.results label menu (user_obj.grant obj).rules) M row := by
  have hne : db.permission menu (user_obj.grant obj).rules ≠ [] :=
    List.ne_nil_of_mem ((mem_permission_grant hobj hactive).mpr (.inr ⟨rfl, hmenu⟩))
  simp only [Db.Shown, if_neg hne]
  rfl

/-- Where nothing is hidden, a row stays. -/
theorem shown_grant (h : ¬ Hides py db label menu user_obj obj) {Row : Type} {M : Rows Row}
    {row : Row} (hrow : db.Shown py .listed label menu user_obj M row) :
    db.Shown py .listed label menu (user_obj.grant obj) M row := by
  by_cases hnew : obj.OnMenu menu ∧ obj.pk ∉ user_obj.rules
  · obtain ⟨hmenu, hpk⟩ := hnew
    have hmem (res : Result) : res ∈ db.results label menu (user_obj.grant obj).rules ↔
        res ∈ db.results label menu user_obj.rules ∨ result label obj = some res := by
      rw [mem_results_grant hobj hactive, and_iff_right hmenu]
    rw [shown_grant_iff hobj hactive hmenu]
    by_cases hdept : db.DeptOpens py .listed label menu user_obj
    · exact .inl hdept
    by_cases hopens : Opens py (db.place user_obj) (db.mode user_obj)
        (db.results label menu (user_obj.grant obj).rules)
    · exact .inr (.inl hopens)
    refine .inr (.inr ?_)
    rcases hrow with hrow | hrow | hrow
    · exact absurd hrow hdept
    · rw [opens_or hmode] at hrow hopens
      obtain ⟨hnone, res, hres, hstops⟩ := hrow
      exact absurd ⟨hnone, res, (hmem res).mpr (.inl hres), hstops⟩ hopens
    · by_cases hvoids : db.DeptVoids py label menu user_obj
      · rw [if_pos hvoids]
        rw [if_pos hvoids] at hrow
        by_cases hnil : db.permission menu user_obj.rules = []
        · -- the first permission of the user
          rw [if_pos hnil] at hrow
          have hown : db.dept user_obj ≠ none := fun hnone => hrow.1 (by simp [Db.chain, hnone])
          have hnone : db.results label menu user_obj.rules = [] := by simp [Db.results, hnil]
          cases hresult : result label obj with
          | none => exact absurd ⟨hvoids, hdept, hmenu, hpk, .inl ⟨hown, hnil, hresult⟩⟩ h
          | some res =>
              have hres := (hmem res).mpr (.inr hresult)
              rw [admits_or hmode, voids_or hmode]
              by_cases hvoid : res.Void py (db.place user_obj)
              · refine .inl (.inr ⟨List.ne_nil_of_mem hres, fun res' hres' => ?_⟩)
                rcases (hmem res').mp hres' with hold | hres'
                · rw [hnone] at hold
                  cases hold
                · obtain rfl := Option.some.inj (hresult.symm.trans hres')
                  exact hvoid
              · refine .inr ⟨res, hres, hvoid, ?_⟩
                by_contra hnot
                exact h ⟨hvoids, hdept, hmenu, hpk,
                  .inr ⟨.inl ⟨hown, hnil⟩, res, hresult, hvoid, Row, M, row, hnot⟩⟩
        · rw [if_neg hnil] at hrow
          refine admits_grant hmode hmem hrow fun hunbound res hres hnarrow => ?_
          exact h ⟨hvoids, hdept, hmenu, hpk, .inr ⟨.inr hunbound, res, hres, hnarrow⟩⟩
      · rw [if_neg hvoids]
        rw [if_neg hvoids] at hrow
        split at hrow
        · exact .inl hrow
        · refine hrow.imp_right ?_
          rintro ⟨hnot, hadmits⟩
          rw [admits_or hmode] at hadmits
          obtain ⟨res, hres, hvoid, hshows⟩ := hadmits.resolve_left hnot
          have hres := (hmem res).mpr (.inl hres)
          refine ⟨?_, (admits_or hmode).mpr (.inr ⟨res, hres, hvoid, hshows⟩)⟩
          rw [voids_or hmode]
          rintro (hstops | ⟨-, hall⟩)
          · refine hopens ((opens_or hmode).mpr ⟨?_, hstops⟩)
            intro hnone
            exact hvoids (.inl (Option.map_eq_none_iff.mp hnone))
          · exact hvoid (hall res hres)
  · -- the same permissions apply
    have hsame : db.permission menu (user_obj.grant obj).rules =
        db.permission menu user_obj.rules := by
      refine List.filter_congr fun o ho => Bool.eq_iff_iff.mpr ?_
      have hmem (rules : List Nat) : (o.is_active && rules.contains o.pk &&
          (o.menu.isEmpty || menu.any fun pk => o.menu.contains pk)) = true ↔
            o ∈ db.permission menu rules := by
        rw [Db.permission, List.mem_filter, and_iff_right ho]
      rw [hmem, hmem, mem_permission_grant hobj hactive, or_iff_left_iff_imp]
      rintro ⟨rfl, hmenu⟩
      rw [mem_permission_iff]
      exact ⟨ho, hactive, by simpa [hmenu] using hnew, hmenu⟩
    unfold Db.Shown Db.results at hrow ⊢
    rw [hsame]
    exact hrow

/-- Where something is hidden, there is a row that goes. -/
theorem not_shown_grant (h : Hides py db label menu user_obj obj) :
    ∃ (Row : Type) (M : Rows Row) (row : Row), db.Shown py .listed label menu user_obj M row ∧
      ¬ db.Shown py .listed label menu (user_obj.grant obj) M row := by
  obtain ⟨hvoids, hdept, hmenu, hpk, h⟩ := h
  have hmem (res : Result) : res ∈ db.results label menu (user_obj.grant obj).rules ↔
      res ∈ db.results label menu user_obj.rules ∨ result label obj = some res := by
    rw [mem_results_grant hobj hactive, and_iff_right hmenu]
  -- the departments show every row
  have hall (hown : db.dept user_obj ≠ none) (hnil : db.permission menu user_obj.rules = [])
      {Row : Type} (M : Rows Row) (row : Row) : db.Shown py .listed label menu user_obj M row := by
    have hvoids := hvoids.resolve_left hown
    have hadmits : db.DeptAdmits py label menu user_obj M row :=
      ⟨hvoids.1, fun dept hdept => (admits_or hmode).mpr (.inl (hvoids.2 dept hdept))⟩
    refine .inr (.inr ?_)
    rwa [if_pos hnil]
  have hnot {Row : Type} {M : Rows Row} {row : Row}
      (hstops : ∀ res ∈ db.results label menu (user_obj.grant obj).rules,
        ¬ res.Stops py (db.place user_obj) (db.mode user_obj))
      (hadmits : ¬ Admits py (db.place user_obj) (db.mode user_obj)
        (db.results label menu (user_obj.grant obj).rules) M row) :
      ¬ db.Shown py .listed label menu (user_obj.grant obj) M row := by
    rw [shown_grant_iff hobj hactive hmenu, or_iff_right hdept, opens_or hmode, if_pos hvoids]
    rintro (⟨-, res, hres, h⟩ | h)
    · exact hstops res hres h
    · exact hadmits h
  rcases h with ⟨hown, hnil, hnone⟩ | ⟨hold, res, hres, hvoid, Row, M, row, hrow⟩
  · have hresults : db.results label menu (user_obj.grant obj).rules = [] := by
      rw [List.eq_nil_iff_forall_not_mem]
      intro res hres
      rcases (hmem res).mp hres with hres | hres
      · simp [Db.results, hnil] at hres
      · rw [hnone] at hres
        cases hres
    refine ⟨Unit, missed none, (), hall hown hnil _ _, hnot ?_ ?_⟩
    · simp [hresults]
    · rw [hresults, admits_or hmode, voids_or hmode]
      simp
  · have hunbound : ∀ res ∈ db.results label menu user_obj.rules,
        res.Void py (db.place user_obj) ∧ ¬ res.Stops py (db.place user_obj) (db.mode user_obj) := by
      rcases hold with ⟨-, hnil⟩ | hunbound
      · simp [Db.results, hnil]
      · exact hunbound.2
    obtain ⟨hstops, hadmits⟩ := not_admits_grant hmode hmem hres hvoid hunbound
    refine ⟨Row, M, row, ?_, hnot hstops (hadmits hrow)⟩
    rcases hold with ⟨hown, hnil⟩ | hunbound
    · exact hall hown hnil M row
    · have hne : db.permission menu user_obj.rules ≠ [] := by
        intro hnil
        exact hunbound.1 (by simp [Db.results, hnil])
      refine .inr (.inr ?_)
      rw [if_neg hne, if_pos hvoids, admits_or hmode, voids_or hmode]
      exact .inl (.inr ⟨hunbound.1, fun res hres => (hunbound.2 res hres).1⟩)

end

section
variable {py : Outside} {db : Db} {label : String} {menu : Option Nat} {user_obj : UserInfo}
  {obj : DataPermission} {queryset queryset' : Queryset} (hsuper : user_obj.is_superuser = false)
  (h : get_filter_queryset py true db label menu user_obj = some queryset)
  (h' : get_filter_queryset py true db label menu (user_obj.grant obj) = some queryset')
include hsuper h h'

theorem shows_grant_iff : (∀ (Row : Type) (M : Rows Row) (row : Row),
    queryset.shows M row → queryset'.shows M row) ↔
      ∀ (Row : Type) (M : Rows Row) (row : Row), db.Shown py .listed label menu user_obj M row →
        db.Shown py .listed label menu (user_obj.grant obj) M row := by
  rw [← get_filter_queryset_listed] at h h'
  have hsuper' : (user_obj.grant obj).is_superuser = false := hsuper
  refine forall_congr' fun Row => forall₂_congr fun M row => ?_
  rw [shown_iff hsuper h M row, shown_iff hsuper' h' M row]

/-- **One more permission never hides a row**, exactly if it is not a narrow one beside unbound
ones (or the first one of a user whose departments add no condition, for another table).  The
permissions of the user are joined with `|`. -/
theorem grows_iff (hmode : db.mode user_obj ≠ some .AND) (hobj : obj ∈ db.data_permissions.rows)
    (hactive : obj.is_active = true) : (∀ (Row : Type) (M : Rows Row) (row : Row),
      queryset.shows M row → queryset'.shows M row) ↔ ¬ Hides py db label menu user_obj obj := by
  rw [shows_grant_iff hsuper h h']
  constructor
  · intro hgrows hhides
    obtain ⟨Row, M, row, hshown, hnot⟩ := not_shown_grant hmode hobj hactive hhides
    exact hnot (hgrows Row M row hshown)
  · exact fun hhides Row M row => shown_grant hmode hobj hactive hhides

end

/-! ### A user who is granted all hosts -/

def hostsDb (name value : String) : Db :=
  { auditorDb with data_permissions := pair (hostsWith name value) (hostsWith "status" "on") }

section
variable (py : Outside) (name value : String)

theorem exists_hosts {user_obj : UserInfo} (hdept : user_obj.dept = none) :
    ∃ queryset, get_filter_queryset py true (hostsDb name value) "virt_center.host" none user_obj =
      some queryset := by
  rw [← get_filter_queryset_listed]
  refine exists_queryset ?_ fun rule happlies => ?_
  · rintro ⟨dept, h, -⟩
    simp [Db.place, Db.dept, hdept] at h
  · have happlies : (auditorDb.attach (pair (hostsWith name value) (hostsWith "status" "on"))
        fun _ => []).Applies "virt_center.host" (user_obj.attach user_obj.rules) rule := happlies
    rcases applies_pair happlies with rfl | rfl
    · simp [hostsWith_conditions]
    · simp [hostsWith_conditions]

theorem result_hosts (pk : Nat) : result "virt_center.host" (.single pk (hostsWith name value)) =
    some ⟨.OR, [hostsWith name value]⟩ := by
  simp [result, select, DataPermission.single, Rule.names, hostsWith]

theorem results_hosts : (hostsDb name value).results "virt_center.host" none auditor.rules =
    [⟨.OR, [hostsWith name value]⟩] := by
  have hpermission : (hostsDb name value).permission none auditor.rules =
      [.single 0 (hostsWith name value)] := by
    simp [Db.permission, hostsDb, pair, DataPermission.single, auditor]
  rw [Db.results, hpermission, List.filterMap_cons, result_hosts, List.filterMap_nil]

end

/-- Some host does not have the value. -/
theorem missed_hosts (py : Outside) (place : Place) {name value : String} (hvalue : value ≠ "*") :
    ¬ Result.Void py place ⟨.OR, [hostsWith name value]⟩ ∧
      ¬ Result.Shows py place (missed none) ⟨.OR, [hostsWith name value]⟩ () := by
  have hplain : (hostsWith name value).Plain py place := hostsWith_plain hvalue
  have hvoid : ¬ Result.Void py place ⟨.OR, [hostsWith name value]⟩ :=
    not_void_of_plain _ (by simp) (by simpa using hplain)
  refine ⟨hvoid, fun hshows => ?_⟩
  obtain ⟨q, ⟨rule, hrule, qs, hqs, hq⟩, -, hrow⟩ := hshows.resolve_left hvoid
  obtain rfl := List.mem_singleton.mp hrule
  rw [hostsWith_conditions, if_neg hvalue] at hqs
  cases hqs
  obtain rfl := List.mem_singleton.mp hq
  simp [Query.holds, Rows.lookup, missed, sample] at hrow

theorem grows_iff_cluster : ∃ py queryset queryset',
    get_filter_queryset py true (hostsDb "cluster" "c1") "virt_center.host" none auditor =
      some queryset ∧
    get_filter_queryset py true (hostsDb "cluster" "c1") "virt_center.host" none
      (auditor.grant (.single 1 (hostsWith "status" "on"))) = some queryset' ∧
    ∀ (Row : Type) (M : Rows Row) (row : Row), queryset.shows M row → queryset'.shows M row := by
  let py : Outside := ⟨fun _ => none, fun _ => true, fun _ => none, fun _ => none, fun _ => none,
    fun _ => none⟩
  obtain ⟨queryset, h⟩ := exists_hosts py "cluster" "c1" (rfl : auditor.dept = none)
  obtain ⟨queryset', h'⟩ := exists_hosts py "cluster" "c1"
    (rfl : (auditor.grant (.single 1 (hostsWith "status" "on"))).dept = none)
  refine ⟨py, queryset, queryset', h, h', (grows_iff rfl h h' nofun ?_ rfl).mpr ?_⟩
  · exact List.mem_cons_of_mem _ List.mem_cons_self
  · have hunbound : ¬ Unbound py ((hostsDb "cluster" "c1").place auditor)
        ((hostsDb "cluster" "c1").mode auditor) [⟨.OR, [hostsWith "cluster" "c1"]⟩] := by
      rintro ⟨-, hall⟩
      refine not_void_of_plain _ (by simp) ?_ (hall _ List.mem_cons_self).1
      simpa using hostsWith_plain (by simp)
    rintro ⟨-, -, -, -, ⟨hown, -⟩ | ⟨⟨hown, -⟩ | hold, -⟩⟩
    · exact hown rfl
    · exact hown rfl
    · rw [results_hosts] at hold
      exact hunbound hold

/-- **Another permission takes rows away** from a user who sees every host. -/
theorem second_permission_hides :
    ¬ ∃ py, ∀ queryset queryset',
      get_filter_queryset py true (hostsDb "name" "*") "virt_center.host" none auditor =
        some queryset →
      get_filter_queryset py true (hostsDb "name" "*") "virt_center.host" none
        (auditor.grant (.single 1 (hostsWith "status" "on"))) = some queryset' →
      ∀ (Row : Type) (M : Rows Row) (row : Row), queryset.shows M row → queryset'.shows M row := by
  rintro ⟨py, hgrows⟩
  obtain ⟨queryset, h⟩ := exists_hosts py "name" "*" (rfl : auditor.dept = none)
  obtain ⟨queryset', h'⟩ := exists_hosts py "name" "*"
    (rfl : (auditor.grant (.single 1 (hostsWith "status" "on"))).dept = none)
  have hshown := (shows_grant_iff rfl h h').mp (hgrows queryset queryset' h h')
  let place := (hostsDb "name" "*").place auditor
  have hnarrow : Result.Narrow py place ⟨.OR, [hostsWith "status" "on"]⟩ :=
    have hmissed := missed_hosts py place (by simp)
    ⟨hmissed.1, Unit, missed none, (), hmissed.2⟩
  have hunbound : Unbound py place none [⟨.OR, [hostsWith "name" "*"]⟩] := by
    refine ⟨by simp, fun res hres => ?_⟩
    obtain rfl := List.mem_singleton.mp hres
    have hhas : Result.Has py place ⟨.OR, [hostsWith "name" "*"]⟩ .empty :=
      ⟨_, List.mem_cons_self, _, hostsWith_conditions py place "name" "*", by simp⟩
    refine ⟨.inl ⟨_, hhas, rfl⟩, ?_⟩
    rintro ⟨-, -, rule, hrule, htype⟩
    obtain rfl := List.mem_singleton.mp hrule
    cases htype
  have hhides : Hides py (hostsDb "name" "*") "virt_center.host" none auditor
      (.single 1 (hostsWith "status" "on")) := by
    refine ⟨.inl rfl, ?_, .inl rfl, by simp [auditor, DataPermission.single], .inr ⟨.inr ?_, _,
      result_hosts "status" "on" 1, hnarrow⟩⟩
    · rintro ⟨-, first, last, hsplit, -⟩
      exact List.append_ne_nil_of_right_ne_nil first (by simp) hsplit.symm
    · rw [results_hosts]
      exact hunbound
  have hmode : (hostsDb "name" "*").mode auditor ≠ some .AND := nofun
  obtain ⟨Row, M, row, hrow, hnot⟩ := not_shown_grant hmode
    (List.mem_cons_of_mem _ List.mem_cons_self) rfl hhides
  exact hnot (hshown Row M row hrow)

end InfraHub.Permission
