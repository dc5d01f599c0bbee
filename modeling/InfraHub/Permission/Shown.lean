import InfraHub.Permission.Needed
import InfraHub.Permission.Orders

/-!
# Permission — Shown

What the filter shows, told from the permissions and the departments in no order.

* `Opens`, `Voids`, `Admits`: the permissions of one holder, in the mode of the department
  (`base_opens`, `base_voids`, `base_admits`).
* `Db.DeptOpens`, `Db.DeptVoids`, `Db.DeptAdmits`: the departments of the user.
* `Db.Shown`: the rows that the queryset shows (`shown_iff`).
-/

namespace InfraHub.Permission
open InfraHub.Lib (Query Table Paired exists_of_mem_mapM exists_result_of_mem exists_mapM
  forall₂_of_mapM)

/-! ### The permissions of a holder -/

section
variable (py : Outside) (place : Place) (dept_mode : Option ModeChoices) (results : List Result)

/-- The condition of the permissions is `Q()`. -/
def Opens : Prop := dept_mode = some .OR ∧ ∃ res ∈ results, res.Empty py place

/-- The permissions add no condition. -/
def Voids : Prop :=
  match dept_mode with
  | none =>
    (∃ res ∈ results, res.Ends none) ∨ results ≠ [] ∧ ∀ res ∈ results, res.Void py place
  | some .OR =>
    (∃ res ∈ results, res.Empty py place) ∨ results ≠ [] ∧ ∀ res ∈ results, res.Void py place
  | some .AND => (∃ res ∈ results, ¬ res.Empty py place) ∧ ∀ res ∈ results, res.Void py place

/-- The rows that the permissions show. -/
def Admits {Row : Type} (M : Rows Row) (row : Row) : Prop :=
  match dept_mode with
  | some .AND =>
    (∃ res ∈ results, ¬ res.Empty py place) ∧ ∀ res ∈ results, res.Shows py place M row
  | none | some .OR =>
    Voids py place dept_mode results ∨
      ∃ res ∈ results, ¬ res.Void py place ∧ res.Shows py place M row

end

section
variable {py : Outside} {place : Place} {res : Result} {q : Q} (h : res.Comes py place q)
include h

theorem Result.Comes.empty_iff : q.isEmpty = true ↔ res.Empty py place := by
  obtain ⟨l, hl, rfl⟩ := h
  exact result_q_empty hl

theorem Result.Comes.void_iff : q.falsy = true ↔ res.Void py place := by
  obtain ⟨l, hl, rfl⟩ := h
  exact result_q_void hl

theorem Result.Comes.shows_iff {Row : Type} {M : Rows Row} {row : Row} :
    q.holds M.lookup row ↔ res.Shows py place M row := by
  obtain ⟨l, hl, rfl⟩ := h
  exact result_q_shows hl

end

section
variable {py : Outside} {place : Place} {dept_mode : Option ModeChoices} {label : String}
  {order : Nat → List Q → List Q} {permission : List DataPermission} {q : Q}

/-- What the condition of some permissions is: that of a permission which ends the search, or those
of all of them joined. -/
theorem base_cases (horder : ∀ n l q, q ∈ order n l ↔ q ∈ l)
    (h : get_filter_q_base_in py order label permission place dept_mode = some q) :
    permission.filterMap (result label) = [] ∧ q = .atom .id_zero ∨
    (∃ res ∈ permission.filterMap (result label), res.Ends dept_mode) ∧ q = .empty ∨
    permission.filterMap (result label) ≠ [] ∧
      (∀ res ∈ permission.filterMap (result label), ¬ res.Ends dept_mode) ∧
      ∃ l, Paired (fun q res => res.Comes py place q) l (permission.filterMap (result label)) ∧
        q = join_qs dept_mode l := by
  unfold get_filter_q_base_in at h
  simp only at h
  split at h
  · next hempty =>
    cases h
    exact .inl ⟨List.isEmpty_iff.mp hempty, rfl⟩
  · next hne =>
    obtain ⟨outcome, houtcome, rfl⟩ := Option.map_eq_some_iff.mp h
    cases outcome with
    | returned q =>
        obtain ⟨rfl, hends⟩ := walk_results_returned houtcome
        exact .inr (.inl ⟨hends, rfl⟩)
    | done or_qs =>
        obtain ⟨hall, hends⟩ := walk_results_done horder houtcome
        refine .inr (.inr ⟨by simpa using hne, hends, _, Paired.symm ?_, rfl⟩)
        exact (Paired.of_forall₂ hall).of_mem_iff fun q => horder _ or_qs q

variable (horder : ∀ n l q, q ∈ order n l ↔ q ∈ l)
  (h : get_filter_q_base_in py order label permission place dept_mode = some q)
include horder h

theorem base_opens (hmode : dept_mode ≠ none) :
    q.isEmpty = true ↔ Opens py place dept_mode (permission.filterMap (result label)) := by
  rcases base_cases horder h with ⟨hnil, rfl⟩ | ⟨⟨res, hres, hends⟩, rfl⟩ | ⟨hne, -, l, hl, rfl⟩
  · simp [Opens, hnil, Query.isEmpty]
  · -- a rule for all data
    obtain ⟨obj, -, hobj⟩ := List.mem_filterMap.mp hres
    have hor : dept_mode = some .OR := by
      cases dept_mode with
      | none => exact absurd rfl hmode
      | some mode =>
          cases mode with
          | OR => rfl
          | AND => exact absurd rfl hends.2.1
    exact iff_of_true rfl ⟨hor, res, hres, empty_of_ends hobj hends⟩
  · have hempty := hl.exists_iff fun _ _ hcomes => hcomes.empty_iff
    cases dept_mode with
    | none => exact absurd rfl hmode
    | some mode =>
        cases mode with
        | OR =>
            have hl' : l ≠ [] := fun hnil => hne (hl.nil_iff.mp hnil)
            rw [join_qs, Query.isEmpty_any, or_iff_left hl', hempty]
            simp [Opens]
        | AND =>
            simp only [Opens, join_qs, Option.some.injEq, reduceCtorEq, false_and, iff_false]
            split
            · simp [Query.isEmpty]
            · assumption

theorem base_voids :
    q.falsy = true ↔ Voids py place dept_mode (permission.filterMap (result label)) := by
  rcases base_cases horder h with ⟨hnil, rfl⟩ | ⟨⟨res, hres, hends⟩, rfl⟩ | ⟨hne, hends, l, hl, rfl⟩
  · rw [hnil]
    cases dept_mode with
    | none => simp [Voids, Query.falsy]
    | some mode => cases mode <;> simp [Voids, Query.falsy]
  · obtain ⟨obj, -, hobj⟩ := List.mem_filterMap.mp hres
    refine iff_of_true rfl ?_
    cases dept_mode with
    | none => exact .inl ⟨res, hres, hends⟩
    | some mode =>
        cases mode with
        | OR => exact .inl ⟨res, hres, empty_of_ends hobj hends⟩
        | AND => exact absurd rfl hends.2.1
  · have hempty := hl.exists_iff fun _ _ hcomes => hcomes.empty_iff
    have hall := hl.forall_iff fun _ _ hcomes => hcomes.empty_iff
    have hvoid := hl.forall_iff fun _ _ hcomes => hcomes.void_iff
    cases dept_mode with
    | none =>
        rw [join_qs, Query.falsy_union, hvoid, Voids, or_iff_right, and_iff_right hne]
        rintro ⟨res, hres, h⟩
        exact hends res hres h
    | some mode =>
        cases mode with
        | OR => rw [join_qs, Query.falsy_any, hempty, hvoid, Voids, and_iff_right hne]
        | AND =>
            simp only [join_qs, Voids]
            split
            · next hq =>
              refine iff_of_false Bool.false_ne_true ?_
              rintro ⟨⟨res, hres, hnot⟩, -⟩
              exact hnot (hall.mp (Query.isEmpty_all.mp hq) res hres)
            · next hq =>
              rw [Query.falsy_all, hvoid, and_iff_right]
              rw [Query.isEmpty_all, hall] at hq
              push Not at hq
              exact hq

theorem base_admits {Row : Type} {M : Rows Row} {row : Row} : q.holds M.lookup row ↔
    Admits py place dept_mode (permission.filterMap (result label)) M row := by
  have hvoids := base_voids horder h
  rcases base_cases horder h with ⟨hnil, rfl⟩ | ⟨⟨res, hres, hends⟩, rfl⟩ | ⟨hne, hends, l, hl, rfl⟩
  · rw [hnil] at hvoids ⊢
    cases dept_mode with
    | none => simp [Admits, ← hvoids, Query.falsy, Query.holds, Rows.lookup]
    | some mode =>
        cases mode with
        | OR => simp [Admits, ← hvoids, Query.falsy, Query.holds, Rows.lookup]
        | AND => simp [Admits, Query.holds, Rows.lookup]
  · have hnot : dept_mode ≠ some .AND := hends.2.1
    refine iff_of_true trivial ?_
    cases dept_mode with
    | none => exact .inl (hvoids.mp rfl)
    | some mode =>
        cases mode with
        | OR => exact .inl (hvoids.mp rfl)
        | AND => exact absurd rfl hnot
  · have hshown : (∃ q ∈ l, q.falsy = false ∧ q.holds M.lookup row) ↔
        ∃ res ∈ permission.filterMap (result label),
          ¬ res.Void py place ∧ res.Shows py place M row := by
      refine hl.exists_iff fun _ _ hcomes => ?_
      rw [← hcomes.void_iff, hcomes.shows_iff, Bool.not_eq_true]
    have hshows : (∀ q ∈ l, q.holds M.lookup row) ↔
        ∀ res ∈ permission.filterMap (result label), res.Shows py place M row :=
      hl.forall_iff fun _ _ hcomes => hcomes.shows_iff
    have hall := hl.forall_iff fun _ _ hcomes => hcomes.empty_iff
    cases dept_mode with
    | none =>
        have hfalsy : (∀ q ∈ l, q.falsy = true) ↔ (join_qs none l).falsy = true :=
          Query.falsy_union.symm
        rw [Admits, ← hvoids, ← hshown, ← hfalsy]
        exact Query.holds_union
    | some mode =>
        cases mode with
        | OR =>
            rw [Admits, ← hvoids, ← hshown]
            exact Query.holds_any
        | AND =>
            simp only [join_qs, Admits]
            split
            · next hq =>
              refine iff_of_false id ?_
              rintro ⟨⟨res, hres, hnot⟩, -⟩
              exact hnot (hall.mp (Query.isEmpty_all.mp hq) res hres)
            · next hq =>
              rw [Query.holds_all, hshows, and_iff_right]
              rw [Query.isEmpty_all, hall] at hq
              push Not at hq
              exact hq

end

/-! ### Results that are alike -/

/-- Nothing tells the two results apart. -/
structure Result.Alike (py : Outside) (place : Place) (res res' : Result) : Prop where
  empty : res.Empty py place ↔ res'.Empty py place
  void : res.Void py place ↔ res'.Void py place
  shows {Row : Type} (M : Rows Row) (row : Row) :
    res.Shows py place M row ↔ res'.Shows py place M row
  ends (dept_mode : Option ModeChoices) : res.Ends dept_mode ↔ res'.Ends dept_mode

theorem Result.Alike.refl {py : Outside} {place : Place} (res : Result) :
    res.Alike py place res := ⟨Iff.rfl, Iff.rfl, fun _ _ => Iff.rfl, fun _ => Iff.rfl⟩

section
variable {py : Outside} {place : Place} {dept_mode : Option ModeChoices}
  {results results' : List Result}
  (h : Paired (fun res res' => Result.Alike py place res res') results results')
include h

theorem opens_congr : Opens py place dept_mode results ↔ Opens py place dept_mode results' :=
  and_congr_right fun _ => h.exists_iff fun _ _ halike => halike.empty

theorem voids_congr : Voids py place dept_mode results ↔ Voids py place dept_mode results' := by
  have hempty := h.exists_iff fun _ _ halike => halike.empty
  have hsome := h.exists_iff fun _ _ halike => not_congr halike.empty
  have hends := h.exists_iff fun _ _ halike => halike.ends none
  have hvoid := h.forall_iff fun _ _ halike => halike.void
  have hnil := not_congr h.nil_iff
  match dept_mode with
  | none => exact or_congr hends (and_congr hnil hvoid)
  | some .OR => exact or_congr hempty (and_congr hnil hvoid)
  | some .AND => exact and_congr hsome hvoid

theorem admits_congr {Row : Type} {M : Rows Row} {row : Row} :
    Admits py place dept_mode results M row ↔ Admits py place dept_mode results' M row := by
  have hsome := h.exists_iff fun _ _ halike => not_congr halike.empty
  have hshows := h.forall_iff fun _ _ halike => halike.shows M row
  have hany := h.exists_iff fun _ _ halike => and_congr (not_congr halike.void) (halike.shows M row)
  match dept_mode with
  | none => exact or_congr (voids_congr h) hany
  | some .OR => exact or_congr (voids_congr h) hany
  | some .AND => exact and_congr hsome hshows

end

theorem paired_of_perm {py : Outside} {place : Place} {label : String}
    {permission permission' : List DataPermission} (h : permission.Perm permission') :
    Paired (fun res res' => Result.Alike py place res res')
      (permission.filterMap (result label)) (permission'.filterMap (result label)) := by
  have hmem (res : Result) : res ∈ permission.filterMap (result label) ↔
      res ∈ permission'.filterMap (result label) := (h.filterMap _).mem_iff
  exact ⟨fun res hres => ⟨res, (hmem res).mp hres, .refl res⟩,
    fun res hres => ⟨res, (hmem res).mpr hres, .refl res⟩⟩

/-! ### The departments of a user -/

section
variable (db : Db) (user_obj : UserInfo)

open Classical in
/-- The active departments of the user, from the own one upwards, as they are fetched. -/
noncomputable def Db.chain : List DeptInfo :=
  db.depts.rows.filter fun dept => dept.is_active = true ∧
    ∃ own, db.dept user_obj = some own ∧ Above db.dept_values own.pk dept.pk

/-- The mode that all permissions of the user are joined in. -/
def Db.mode : Option ModeChoices := (db.dept user_obj).map DeptInfo.mode_type

end

theorem mem_chain {db : Db} {user_obj : UserInfo} {dept : DeptInfo} :
    dept ∈ db.chain user_obj ↔ dept ∈ db.depts.rows ∧ dept.is_active = true ∧
      ∃ own, db.dept user_obj = some own ∧ Above db.dept_values own.pk dept.pk := by
  simp [Db.chain]

/-- The departments that the filter goes through. -/
theorem chain_eq {db : Db} {user_obj : UserInfo} {own : DeptInfo} {dept_pks : List (Option Nat)}
    (hown : db.dept user_obj = some own)
    (hpks : recursion_dept_info db.dept_values (some own.pk) true = some dept_pks) :
    (db.depts.rows.filter fun dept => dept_pks.contains (some dept.pk) && dept.is_active) =
      db.chain user_obj := by
  refine List.filter_congr fun dept _ => ?_
  have hmem : some dept.pk ∈ dept_pks ↔ Above db.dept_values own.pk dept.pk := mem_above_iff hpks
  rw [Bool.eq_iff_iff]
  simp [hown, hmem, and_comm]

section
variable (py : Outside) (order : Orders) (db : Db) (label : String) (menu : Option Nat)
  (user_obj : UserInfo)

/-- The rules of the attached permissions that apply. -/
def Db.results (rules : List Nat) : List Result :=
  (db.permission menu rules).filterMap (result label)

/-- The condition of the departments is `Q()`: that of the last one, where none adds any. -/
def Db.DeptOpens : Prop :=
  (∀ dept ∈ db.chain user_obj, Voids py (db.place user_obj) (db.mode user_obj)
      (db.results label menu dept.rules)) ∧
    ∃ first last, order.depts (db.chain user_obj) = first ++ [last] ∧
      Opens py (db.place user_obj) (db.mode user_obj) (db.results label menu last.rules)

/-- The departments add no condition. -/
def Db.DeptVoids : Prop :=
  db.dept user_obj = none ∨ db.chain user_obj ≠ [] ∧
    ∀ dept ∈ db.chain user_obj, Voids py (db.place user_obj) (db.mode user_obj)
      (db.results label menu dept.rules)

/-- The rows that the departments show. -/
def Db.DeptAdmits {Row : Type} (M : Rows Row) (row : Row) : Prop :=
  db.chain user_obj ≠ [] ∧
    ∀ dept ∈ db.chain user_obj, Admits py (db.place user_obj) (db.mode user_obj)
      (db.results label menu dept.rules) M row

open Classical in
/-- The rows that the user is shown. -/
def Db.Shown {Row : Type} (M : Rows Row) (row : Row) : Prop :=
  let personal := db.results label menu user_obj.rules
  db.DeptOpens py order label menu user_obj ∨
    Opens py (db.place user_obj) (db.mode user_obj) personal ∨
    if db.permission menu user_obj.rules = [] then db.DeptAdmits py label menu user_obj M row
    else if db.DeptVoids py label menu user_obj then
      Admits py (db.place user_obj) (db.mode user_obj) personal M row
    else db.DeptAdmits py label menu user_obj M row ∨
      ¬ Voids py (db.place user_obj) (db.mode user_obj) personal ∧
        Admits py (db.place user_obj) (db.mode user_obj) personal M row

end

section
variable {py : Outside} {order : Orders} {db : Db} {label : String} {menu : Option Nat}
  {user_obj : UserInfo}

/-- What the condition of the departments comes to. -/
structure DeptSpec (py : Outside) (order : Orders) (db : Db) (label : String) (menu : Option Nat)
    (user_obj : UserInfo) (q : Q) (has_dept : Bool) : Prop where
  has_dept_iff : has_dept = true ↔ db.chain user_obj ≠ []
  opens : has_dept = true ∧ q.isEmpty = true ↔ db.DeptOpens py order label menu user_obj
  voids : q.falsy = true ↔ db.DeptVoids py label menu user_obj
  admits {Row : Type} (M : Rows Row) (row : Row) : has_dept = true ∧ q.holds M.lookup row ↔
    db.DeptAdmits py label menu user_obj M row
  zero : has_dept = false → q = .empty ∨ q = .atom .id_zero

/-- The condition of the permissions of one holder, in whatever order they are fetched. -/
structure BaseSpec (py : Outside) (db : Db) (label : String) (menu : Option Nat)
    (user_obj : UserInfo) (rules : List Nat) (q : Q) : Prop where
  opens : db.mode user_obj ≠ none → (q.isEmpty = true ↔
    Opens py (db.place user_obj) (db.mode user_obj) (db.results label menu rules))
  voids : q.falsy = true ↔
    Voids py (db.place user_obj) (db.mode user_obj) (db.results label menu rules)
  admits {Row : Type} (M : Rows Row) (row : Row) : q.holds M.lookup row ↔
    Admits py (db.place user_obj) (db.mode user_obj) (db.results label menu rules) M row

theorem base_spec {holder : Option Nat} {rules : List Nat} {q : Q}
    (h : get_filter_q_base_in py (order.walk holder) label
      (order.permission holder (db.permission menu rules)) (db.place user_obj) (db.mode user_obj) =
        some q) : BaseSpec py db label menu user_obj rules q := by
  have horder (n : Nat) (l : List Q) (q : Q) : q ∈ order.walk holder n l ↔ q ∈ l := order.mem_walk
  have hpaired : Paired (fun res res' => Result.Alike py (db.place user_obj) res res')
      ((order.permission holder (db.permission menu rules)).filterMap (result label))
      (db.results label menu rules) := paired_of_perm (order.perm_permission holder _)
  constructor
  · exact fun hmode => (base_opens horder h hmode).trans (opens_congr hpaired)
  · exact (base_voids horder h).trans (voids_congr hpaired)
  · exact fun M row => (base_admits horder h).trans (admits_congr hpaired)

theorem dept_q_spec {q : Q} {has_dept : Bool}
    (h : dept_q_in py order db label menu user_obj = some (q, has_dept)) :
    DeptSpec py order db label menu user_obj q has_dept := by
  unfold dept_q_in at h
  split at h
  · next hown =>
    cases h
    have hchain : db.chain user_obj = [] := by simp [Db.chain, hown]
    have hnil : order.depts [] = [] := List.perm_nil.mp (order.perm_depts [])
    constructor
    · simp [hchain]
    · simp [Db.DeptOpens, hchain, hnil]
    · simp [Db.DeptVoids, hown, Query.falsy]
    · simp [Db.DeptAdmits, hchain]
    · simp
  · next own hown =>
    obtain ⟨dept_pks, hpks, h⟩ := Option.bind_eq_some_iff.mp h
    rw [chain_eq hown hpks] at h
    obtain ⟨qs, hqs, h⟩ := Option.map_eq_some_iff.mp h
    have hmode : db.mode user_obj = some own.mode_type := by simp [Db.mode, hown]
    rw [← hmode] at hqs
    have hperm := order.perm_depts (db.chain user_obj)
    have hmem (dept : DeptInfo) : dept ∈ order.depts (db.chain user_obj) ↔
        dept ∈ db.chain user_obj := hperm.mem_iff
    have hpaired := Paired.of_forall₂ (forall₂_of_mapM hqs)
    by_cases hchain : db.chain user_obj = []
    · have hnil : order.depts [] = [] := List.perm_nil.mp (order.perm_depts [])
      rw [hchain, hnil] at hpaired h
      obtain rfl : qs = [] := hpaired.nil_iff.mp rfl
      cases h
      constructor
      · simp [hchain]
      · simp [Db.DeptOpens, hchain, hnil]
      · simp [Db.DeptVoids, hchain, hown, Query.falsy]
      · simp [Db.DeptAdmits, hchain]
      · simp
    · have hsome : order.depts (db.chain user_obj) ≠ [] := fun hnil =>
        hchain (List.nil_perm.mp (hnil ▸ hperm))
      have hne : (order.depts (db.chain user_obj)).isEmpty = false := by simpa using hsome
      simp only [hne, Bool.false_and, Bool.false_eq_true, if_false, Bool.not_false,
        Prod.mk.injEq] at h
      obtain ⟨rfl, rfl⟩ := h
      have hvoids : (∀ dept ∈ db.chain user_obj, Voids py (db.place user_obj) (db.mode user_obj)
          (db.results label menu dept.rules)) ↔ ∀ q ∈ qs, q.falsy = true := by
        rw [← hpaired.forall_iff fun dept _ hbase => (base_spec hbase).voids.symm]
        simp only [hmem]
      constructor
      · simp [hchain]
      · -- the condition of the last department, where none adds any
        obtain ⟨first, last, hsplit⟩ := (List.eq_nil_or_concat' _).resolve_left hsome
        have hconcat := hqs
        rw [hsplit, List.mapM_append] at hconcat
        obtain ⟨init, -, hconcat⟩ := Option.bind_eq_some_iff.mp hconcat
        obtain ⟨final, hfinal, hconcat⟩ := Option.bind_eq_some_iff.mp hconcat
        obtain ⟨q, hq, rfl⟩ : ∃ q, get_filter_q_base_in py (order.walk (some last.pk)) label
            (order.permission (some last.pk) (db.permission menu last.rules)) (db.place user_obj)
            (db.mode user_obj) = some q ∧ [q] = final := by
          simpa [Option.bind_eq_some_iff] using hfinal
        obtain rfl := Option.some.inj hconcat
        have hopens := (base_spec hq).opens (by simp [hmode])
        rw [and_iff_right rfl, Query.isEmpty_foldl_both_concat, hopens, ← hvoids, Db.DeptOpens]
        refine and_congr_right fun _ => ⟨fun h => ⟨first, last, hsplit, h⟩, ?_⟩
        rintro ⟨first', last', hsplit', h⟩
        obtain rfl : last = last' := by
          simpa using (List.append_inj' (hsplit.symm.trans hsplit') rfl).2
        exact h
      · simp [Query.falsy_foldl_both, Query.falsy, Db.DeptVoids, hown, hchain, hvoids]
      · intro Row M row
        have hadmits : (∀ dept ∈ db.chain user_obj, Admits py (db.place user_obj)
            (db.mode user_obj) (db.results label menu dept.rules) M row) ↔
            ∀ q ∈ qs, q.holds M.lookup row := by
          rw [← hpaired.forall_iff fun dept _ hbase => ((base_spec hbase).admits M row).symm]
          simp only [hmem]
        simp [Query.holds_foldl_both, Query.holds, Db.DeptAdmits, hchain, hadmits]
      · intro hfalse
        cases hfalse

/-- **The rows that the queryset shows.** -/
theorem shown_iff (hsuper : user_obj.is_superuser = false) {queryset : Queryset}
    (h : get_filter_queryset_in py order true db label menu user_obj = some queryset)
    {Row : Type} (M : Rows Row) (row : Row) :
    queryset.shows M row ↔ db.Shown py order label menu user_obj M row := by
  unfold get_filter_queryset_in at h
  rw [if_neg (by simp [hsuper])] at h
  obtain ⟨⟨q, has_dept⟩, hq, h⟩ := Option.bind_eq_some_iff.mp h
  have hdept := dept_q_spec hq
  have hadmits := hdept.admits M row
  simp only at h
  unfold Db.Shown
  simp only
  split at h
  · next hall =>
    cases h
    refine iff_of_true trivial (.inl (hdept.opens.mp ?_))
    simpa using hall
  · next hall =>
    have hnot : ¬ db.DeptOpens py order label menu user_obj := by
      rw [← hdept.opens]
      simpa using hall
    rw [or_iff_right hnot]
    split at h
    · next hnil =>
      -- no permission of the user
      have hnil : db.permission menu user_obj.rules = [] := by simpa using hnil
      cases h
      have hresults : db.results label menu user_obj.rules = [] := by simp [Db.results, hnil]
      rw [if_pos hnil, hresults, ← hadmits]
      cases has_dept with
      | true => simp [Opens, Queryset.shows]
      | false => simp [Opens, Queryset.shows]
    · next hsome =>
      have hsome : db.permission menu user_obj.rules ≠ [] := by simpa using hsome
      rw [if_neg hsome]
      obtain ⟨q₁, hq₁, rfl⟩ := Option.map_eq_some_iff.mp h
      have hbase : BaseSpec py db label menu user_obj user_obj.rules q₁ := base_spec hq₁
      have hvoids := hbase.voids
      have hshows := hbase.admits M row
      cases hown : db.dept user_obj with
      | none =>
          -- the condition of the permissions, whatever it is
          have hvoid : db.DeptVoids py label menu user_obj := .inl hown
          have hfalsy := hdept.voids.mpr hvoid
          have hmode : ¬ Opens py (db.place user_obj) (db.mode user_obj)
              (db.results label menu user_obj.rules) := by
            simp [Opens, Db.mode, hown]
          rw [or_iff_right hmode, if_pos hvoid, Query.either_of_falsy hfalsy, ite_self]
          exact hshows
      | some own =>
          have hopens := hbase.opens (by simp [Db.mode, hown])
          by_cases hempty : q₁.isEmpty = true
          · rw [if_pos hempty]
            have hfalsy := Query.falsy_of_isEmpty hempty
            exact iff_of_true (Query.holds_of_falsy hfalsy row) (.inl (hopens.mp hempty))
          · rw [if_neg hempty, or_iff_right fun h => hempty (hopens.mpr h)]
            by_cases hfalsy : q.falsy = true
            · rw [if_pos (hdept.voids.mp hfalsy), Query.either_of_falsy hfalsy]
              exact hshows
            · rw [if_neg fun h => hfalsy (hdept.voids.mpr h), ← hadmits]
              have hq : has_dept = true ∧ q.holds M.lookup row ↔ q.holds M.lookup row := by
                refine ⟨And.right, fun hrow => ⟨?_, hrow⟩⟩
                by_contra hnone
                rcases hdept.zero (by simpa using hnone) with rfl | rfl
                · exact hfalsy rfl
                · exact hrow
              rw [hq]
              have hq₁ : q₁.falsy = true ∨ q₁.falsy = false := by cases q₁.falsy <;> simp
              rcases hq₁ with hq₁ | hq₁
              · have hboth : q.either q₁ = q := by simp [Query.either, hfalsy, hq₁]
                have hvoid := hvoids.mp hq₁
                rw [hboth, or_iff_left fun h => h.1 hvoid]
                rfl
              · have hnot := mt hvoids.mpr (by simp [hq₁])
                have hor : (q.either q₁).holds M.lookup row ↔
                    q.holds M.lookup row ∨ q₁.holds M.lookup row :=
                  Query.holds_either_of_truthy (by simpa using hfalsy) hq₁
                change (q.either q₁).holds M.lookup row ↔ _
                rw [hor, hshows]
                exact or_congr_right (and_iff_right hnot).symm

/-- A rule of a permission that the filter looks at applies to the user. -/
theorem applies_of_permission {rules : List Nat} {obj : DataPermission} {rule : Rule}
    (hrules : rules = user_obj.rules ∨ ∃ dept ∈ db.chain user_obj, rules = dept.rules)
    (hobj : obj ∈ db.permission menu rules) (hrule : rule ∈ obj.rules)
    (hnames : rule.names label = true) : db.Applies label user_obj rule := by
  obtain ⟨hmem, hactive, hpk⟩ := mem_permission hobj
  refine ⟨hnames, obj, hmem, hactive, hrule, ?_⟩
  rcases hrules with rfl | ⟨dept, hdept, rfl⟩
  · exact .inl hpk
  · obtain ⟨hrow, hdept, habove⟩ := mem_chain.mp hdept
    exact .inr ⟨dept, hrow, hdept, hpk, habove⟩

theorem fails_in_of_looping (hlooping : (db.place user_obj).Looping)
    (hsuper : user_obj.is_superuser = false) :
    get_filter_queryset_in py order true db label menu user_obj = none := by
  obtain ⟨dept, hdept, hnone⟩ := hlooping
  obtain ⟨own, hown, rfl⟩ := Option.map_eq_some_iff.mp hdept
  have hq : dept_q_in py order db label menu user_obj = none := by
    unfold dept_q_in
    rw [hown]
    simp only
    rw [show db.dept_values = (db.place user_obj).dept_values from rfl, hnone]
    rfl
  rw [get_filter_queryset_in, if_neg (by simp [hsuper]), hq]
  rfl

/-- A condition is made of the permissions, if none of their rules raises. -/
theorem exists_base {order : Nat → List Q → List Q} {permission : List DataPermission}
    {place : Place} {dept_mode : Option ModeChoices}
    (h : ∀ obj ∈ permission, ∀ rule ∈ obj.rules, rule.names label = true →
      rule.conditions py place ≠ none) :
    get_filter_q_base_in py order label permission place dept_mode ≠ none := by
  unfold get_filter_q_base_in
  simp only
  split
  · simp
  · have hwalk : ∃ outcome, walk_results_in py place dept_mode order
        (permission.filterMap (result label)) = some outcome := by
      refine exists_walk_results fun res hres rule hrule => ?_
      obtain ⟨obj, hobj, hres⟩ := List.mem_filterMap.mp hres
      obtain ⟨-, hrules⟩ := result_spec hres
      exact h obj hobj rule (hrules rule hrule).1 (hrules rule hrule).2
    obtain ⟨outcome, houtcome⟩ := hwalk
    simp [houtcome]

/-- **The request succeeds**, if the departments end and no rule that applies raises. -/
theorem exists_queryset (hlooping : ¬ (db.place user_obj).Looping)
    (h : ∀ rule, db.Applies label user_obj rule → rule.conditions py (db.place user_obj) ≠ none) :
    ∃ queryset, get_filter_queryset_in py order true db label menu user_obj = some queryset := by
  have hbase (holder : Option Nat) (rules : List Nat) (dept_mode : Option ModeChoices)
      (hrules : rules = user_obj.rules ∨ ∃ dept ∈ db.chain user_obj, rules = dept.rules) :
      get_filter_q_base_in py (order.walk holder) label
        (order.permission holder (db.permission menu rules)) (db.place user_obj) dept_mode ≠ none :=
    exists_base fun obj hobj rule hrule hnames =>
      h rule (applies_of_permission hrules ((order.perm_permission _ _).mem_iff.mp hobj) hrule
        hnames)
  have hdept : ∃ q, dept_q_in py order db label menu user_obj = some q := by
    unfold dept_q_in
    cases hown : db.dept user_obj with
    | none => exact ⟨_, rfl⟩
    | some own =>
        obtain ⟨dept_pks, hpks⟩ : ∃ dept_pks,
            recursion_dept_info db.dept_values (some own.pk) true = some dept_pks := by
          refine Option.ne_none_iff_exists'.mp fun hnone => hlooping ⟨own.pk, ?_, hnone⟩
          simp [Db.place, hown]
        simp only [hpks, Option.bind_some, chain_eq hown hpks]
        have hqs : ∃ qs, (order.depts (db.chain user_obj)).mapM (fun p_dept_obj =>
            get_filter_q_base_in py (order.walk (some p_dept_obj.pk)) label
              (order.permission (some p_dept_obj.pk) (db.permission menu p_dept_obj.rules))
              (db.place user_obj) (some own.mode_type)) = some qs := by
          refine exists_mapM fun dept hdept => hbase _ dept.rules _ (.inr ⟨dept, ?_, rfl⟩)
          exact (order.perm_depts _).mem_iff.mp hdept
        obtain ⟨qs, hqs⟩ := hqs
        rw [hqs]
        exact ⟨_, rfl⟩
  unfold get_filter_queryset_in
  split
  · exact ⟨_, rfl⟩
  · obtain ⟨⟨q, has_dept⟩, hq⟩ := hdept
    rw [hq, Option.bind_some]
    simp only
    split
    · exact ⟨_, rfl⟩
    · split
      · exact ⟨_, rfl⟩
      · obtain ⟨q₁, hq₁⟩ := Option.ne_none_iff_exists'.mp
          (hbase none user_obj.rules ((db.dept user_obj).map DeptInfo.mode_type) (.inl rfl))
        rw [hq₁]
        exact ⟨_, rfl⟩

end

end InfraHub.Permission
