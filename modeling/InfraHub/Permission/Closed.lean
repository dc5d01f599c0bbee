import InfraHub.Permission.DeptSearch
import InfraHub.Permission.Sound

/-!
# Permission — Closed

The filter of the data permissions fails closed where the rules are safe.

A condition is `Within` the rules of the user if it shows only rows that one of them grants.  The
loops of `get_filter_q_base` and `get_filter_queryset` keep conditions within the rules
(`get_filter_q_base_granted`, `failsClosed_of_safe`).
-/

namespace InfraHub.Permission
open InfraHub.Lib (Query exists_of_mem_mapM exists_result_of_mem)
open InfraHub.Lib.Query (Within)

/-! ### The rules that are looked at -/

theorem mem_select {label : String} {mode : ModeChoices} {acc rules : List Rule} {rule : Rule}
    (h : rule ∈ select label mode acc rules) :
    rule ∈ acc ∨ rule ∈ rules ∧ rule.names label = true := by
  induction rules generalizing acc with
  | nil => exact .inl h
  | cons first rest ih =>
      have hrest {acc' : List Rule} (h : rule ∈ select label mode acc' rest)
          (hacc : rule ∈ acc' → rule ∈ acc ∨ rule = first ∧ first.names label = true) :
          rule ∈ acc ∨ rule ∈ first :: rest ∧ rule.names label = true := by
        rcases ih h with h | ⟨h, hn⟩
        · rcases hacc h with h | ⟨rfl, hn⟩
          · exact .inl h
          · exact .inr ⟨List.mem_cons_self, hn⟩
        · exact .inr ⟨List.mem_cons_of_mem _ h, hn⟩
      unfold select at h
      split at h
      · next hnames =>
        split at h
        · split at h
          · exact hrest h .inl
          · -- the rule for all data stands alone
            obtain rfl := List.mem_singleton.mp h
            exact .inr ⟨List.mem_cons_self, hnames⟩
        · refine hrest h fun hmem => ?_
          rcases List.mem_append.mp hmem with h | h
          · exact .inl h
          · exact .inr ⟨List.mem_singleton.mp h, hnames⟩
      · exact hrest h .inl

theorem result_spec {label : String} {obj : DataPermission} {res : Result}
    (h : result label obj = some res) :
    res.rules ≠ [] ∧ ∀ rule ∈ res.rules, rule ∈ obj.rules ∧ rule.names label = true := by
  obtain ⟨hne, h⟩ := Option.ite_none_left_eq_some.mp h
  cases h
  refine ⟨by simpa using hne, fun rule hrule => ?_⟩
  exact (mem_select hrule).resolve_left (by simp)

/-! ### The conditions of a permission -/

section
variable {py : Outside} {place : Place} {Row : Type} {M : Rows Row} {A : Rule → Prop}

/-- The condition shows only rows that a rule of `A` grants. -/
abbrev Granted (py : Outside) (place : Place) {Row : Type} (M : Rows Row) (A : Rule → Prop) :
    Q → Prop :=
  Within M.lookup A fun rule row => Denotes py place M rule row

/-- A rule that the user has, and that is safe. -/
def Good (py : Outside) (place : Place) (A : Rule → Prop) (rule : Rule) : Prop :=
  A rule ∧ Safe py place rule

/-- The rules that are walked through are resolved in turn, or one of them is for all data. -/
theorem walk_rules_spec {dept_mode : Option ModeChoices} {mode : ModeChoices} {rules : List Rule}
    {outcome : Outcome (List Rule)} (h : walk_rules py place dept_mode mode rules = some outcome) :
    (∃ rule ∈ rules, rule.type = some .ALL) ∨
      ∃ rs, outcome = .done rs ∧ rules.mapM (resolve py place) = some rs := by
  induction rules generalizing outcome with
  | nil =>
      cases h
      exact .inr ⟨[], rfl, rfl⟩
  | cons rule rest ih =>
      unfold walk_rules at h
      split at h
      · next hall => exact .inl ⟨rule, List.mem_cons_self, hall.1⟩
      · obtain ⟨r, hr, h⟩ := Option.bind_eq_some_iff.mp h
        obtain ⟨outcome', houtcome, rfl⟩ := Option.map_eq_some_iff.mp h
        rcases ih houtcome with ⟨q, hq, hall⟩ | ⟨rs, rfl, hrs⟩
        · exact .inl ⟨q, List.mem_cons_of_mem _ hq, hall⟩
        · refine .inr ⟨r :: rs, rfl, ?_⟩
          rw [List.mapM_cons, hr, hrs]
          rfl

/-- A safe rule for all data grants every row. -/
theorem denotes_of_all {rule : Rule} (hsafe : Safe py place rule) (htype : rule.type = some .ALL)
    (row : Row) : Denotes py place M rule row := by
  have hway : rule.meant_way = .all := by simp [Rule.meant_way, htype]
  obtain hrefused | h := hsafe
  · -- no condition of it raises
    exfalso
    have hresolve : resolve py place rule = some { rule with «match» := some "all" } := by
      simp [resolve, htype]
    rw [hresolve, Option.bind_some] at hrefused
    have hr : ({ rule with «match» := some "all" } : Rule).way = .all := of_all
    unfold attr_qs at hrefused
    split at hrefused
    · rw [hr] at hrefused
      cases hrefused
    · cases hrefused
  · cases hex : rule.excluded with
    | true =>
        rw [if_pos hex] at h
        exact absurd hway h.1
    | false =>
        rw [Denotes, if_neg (by simp [hex])]
        exact .inl hway

/-- **The conditions of the rules of a permission**, in whatever mode they are joined. -/
theorem result_q_granted {mode : ModeChoices} {rules rs : List Rule} {qs : List Q}
    (hne : rules ≠ []) (hgood : ∀ rule ∈ rules, Good py place A rule)
    (hrs : rules.mapM (resolve py place) = some rs) (hqs : get_filter_attrs_qs py rs = some qs) :
    Granted py place M A (result_q mode qs) := by
  by_cases hevery : ∃ rule ∈ rules, ∀ row, Denotes py place M rule row
  · obtain ⟨rule, hrule, hevery⟩ := hevery
    exact Within.of_every (hgood rule hrule).1 hevery _
  · obtain ⟨parts, hparts, rfl⟩ := Option.map_eq_some_iff.mp hqs
    -- every rule has conditions, and they show only rows it grants
    have hsafe {rule r : Rule} {part : List Q} (hrule : rule ∈ rules)
        (hr : resolve py place rule = some r) (hpart : attr_qs py r = some part) :
        part ≠ [] ∧ ∀ q ∈ part, ∀ row, q.holds M.lookup row → Denotes py place M rule row :=
      (denotes_of_safe (hgood rule hrule).2 hr hpart).resolve_left fun h => hevery ⟨rule, hrule, h⟩
    have hflatten : parts.flatten ≠ [] := by
      obtain ⟨rule, hrule⟩ := List.exists_mem_of_ne_nil rules hne
      obtain ⟨r, hmem, hr⟩ := exists_result_of_mem hrs hrule
      obtain ⟨part, hpart, hattr⟩ := exists_result_of_mem hparts hmem
      intro hnil
      exact (hsafe hrule hr hattr).1 (List.flatten_eq_nil_iff.mp hnil part hpart)
    have hgranted : ∀ q ∈ parts.flatten, Granted py place M A q := by
      intro q hq
      obtain ⟨part, hpart, hq⟩ := List.mem_flatten.mp hq
      obtain ⟨r, hmem, hattr⟩ := exists_of_mem_mapM hparts hpart
      obtain ⟨rule, hrule, hr⟩ := exists_of_mem_mapM hrs hmem
      exact Within.of_holds (hgood rule hrule).1 ((hsafe hrule hr hattr).2 q hq)
    cases mode with
    | AND => exact Within.all hflatten hgranted
    | OR => exact Within.any hflatten hgranted

/-- The results of the permissions, in turn. -/
theorem walk_results_granted {dept_mode : Option ModeChoices} {results : List Result}
    {outcome : Outcome (List Q)}
    (hgood : ∀ res ∈ results, res.rules ≠ [] ∧ ∀ rule ∈ res.rules, Good py place A rule)
    (h : walk_results py place dept_mode results = some outcome) :
    match outcome with
    | .returned q => Granted py place M A q
    | .done or_qs => or_qs.length = results.length ∧ ∀ q ∈ or_qs, Granted py place M A q := by
  induction results generalizing outcome with
  | nil =>
      cases h
      exact ⟨rfl, by simp⟩
  | cons res rest ih =>
      obtain ⟨⟨hne, hres⟩, hrest⟩ := List.forall_mem_cons.mp hgood
      obtain ⟨walked, hwalked, h⟩ := Option.bind_eq_some_iff.mp h
      have hall (htype : ∃ rule ∈ res.rules, rule.type = some .ALL) (q : Q) :
          Granted py place M A q := by
        obtain ⟨rule, hrule, htype⟩ := htype
        have hrule := hres rule hrule
        exact Within.of_every hrule.1 (denotes_of_all hrule.2 htype) q
      cases walked with
      | returned q =>
          cases h
          refine hall ((walk_rules_spec hwalked).resolve_right ?_) q
          rintro ⟨rs, hrs, -⟩
          cases hrs
      | done rs =>
          obtain ⟨qs, hqs, h⟩ := Option.bind_eq_some_iff.mp h
          obtain ⟨outcome', houtcome, rfl⟩ := Option.map_eq_some_iff.mp h
          have hfirst : Granted py place M A (result_q res.mode qs) := by
            rcases walk_rules_spec hwalked with htype | ⟨rs', hrs', hresolve⟩
            · exact hall htype _
            · cases hrs'
              exact result_q_granted hne hres hresolve hqs
          have hlater := ih hrest houtcome
          cases outcome' with
          | returned q => exact hlater
          | done or_qs =>
              exact ⟨by simpa using hlater.1, List.forall_mem_cons.mpr ⟨hfirst, hlater.2⟩⟩

/-- **What a list of permissions comes to.** -/
theorem get_filter_q_base_granted {label : String} {permission : List DataPermission}
    {dept_mode : Option ModeChoices} {q : Q}
    (hgood : ∀ obj ∈ permission, ∀ rule ∈ obj.rules, rule.names label = true →
      Good py place A rule)
    (h : get_filter_q_base py label permission place dept_mode = some q) :
    Granted py place M A q := by
  have hzero : Granted py place M A (.atom .id_zero) := Within.of_never rfl fun _ => id
  unfold get_filter_q_base at h
  simp only at h
  split at h
  · cases h
    exact hzero
  · next hne =>
    obtain ⟨outcome, houtcome, rfl⟩ := Option.map_eq_some_iff.mp h
    have hresults : ∀ res ∈ permission.filterMap (result label),
        res.rules ≠ [] ∧ ∀ rule ∈ res.rules, Good py place A rule := by
      intro res hres
      obtain ⟨obj, hobj, hres⟩ := List.mem_filterMap.mp hres
      obtain ⟨hne, hrules⟩ := result_spec hres
      exact ⟨hne, fun rule hrule => hgood obj hobj rule (hrules rule hrule).1 (hrules rule hrule).2⟩
    have hspec := walk_results_granted (M := M) hresults houtcome
    cases outcome with
    | returned q => exact hspec
    | done or_qs =>
        obtain ⟨hlength, hmem⟩ := hspec
        have hor : or_qs ≠ [] := by
          rintro rfl
          exact hne (by simpa using (List.length_eq_zero_iff.mp hlength.symm))
        match dept_mode with
        | none => exact Within.union hor hmem
        | some .OR => exact Within.any hor hmem
        | some .AND =>
            simp only [join_qs]
            split
            · exact hzero
            · exact Within.all hor hmem

end

/-! ### The queryset of a user -/

section
variable {py : Outside} {db : Db} {label : String} {menu : Option Nat} {user_obj : UserInfo}

theorem mem_permission {rules : List Nat} {obj : DataPermission}
    (h : obj ∈ db.permission menu rules) :
    obj ∈ db.data_permissions.rows ∧ obj.is_active = true ∧ obj.pk ∈ rules := by
  obtain ⟨hmem, h⟩ := List.mem_filter.mp h
  simp only [Bool.and_eq_true, List.contains_iff_mem] at h
  exact ⟨hmem, h.1.1, h.1.2⟩

section
variable {Row : Type} {M : Rows Row}
  (h : ∀ rule, db.Applies label user_obj rule → Safe py (db.place user_obj) rule)
include h

/-- The condition of the departments. -/
theorem dept_q_granted {q : Q} {has_dept : Bool}
    (hq : dept_q py db label menu user_obj = some (q, has_dept)) :
    if has_dept then Granted py (db.place user_obj) M (db.Applies label user_obj) q
    else q = .atom .id_zero ∨ q = .empty := by
  unfold dept_q at hq
  split at hq
  · cases hq
    exact .inr rfl
  · next own hown =>
    obtain ⟨dept_pks, hpks, hq⟩ := Option.bind_eq_some_iff.mp hq
    obtain ⟨qs, hqs, hq⟩ := Option.map_eq_some_iff.mp hq
    simp only at hq
    split at hq
    · cases hq
      exact .inl rfl
    · next hne =>
      cases hq
      have hgranted : ∀ p ∈ qs, Granted py (db.place user_obj) M (db.Applies label user_obj) p := by
        intro p hp
        obtain ⟨dept, hdept, hbase⟩ := exists_of_mem_mapM hqs hp
        obtain ⟨hmem, hdept⟩ := List.mem_filter.mp hdept
        simp only [Bool.and_eq_true, List.contains_iff_mem] at hdept
        refine get_filter_q_base_granted (fun obj hobj rule hrule hnames => ?_) hbase
        obtain ⟨hobj, hactive, hpk⟩ := mem_permission hobj
        have happlies : db.Applies label user_obj rule :=
          ⟨hnames, obj, hobj, hactive, hrule, .inr ⟨dept, hmem, hdept.2, hpk, own, hown,
            (mem_above_iff hpks).mp hdept.1⟩⟩
        exact ⟨happlies, h rule happlies⟩
      cases qs with
      | nil =>
          -- no condition: there is no department
          have hnone : (db.depts.rows.filter fun dept =>
              dept_pks.contains (some dept.pk) && dept.is_active).isEmpty = true := by
            rw [List.isEmpty_iff, List.eq_nil_iff_forall_not_mem]
            intro dept hdept
            obtain ⟨_, hmem, -⟩ := exists_result_of_mem hqs hdept
            cases hmem
          exact absurd (by rw [hnone]; rfl) hne
      | cons p qs =>
          have hsome : (db.depts.rows.filter fun dept =>
              dept_pks.contains (some dept.pk) && dept.is_active).isEmpty = false := by
            obtain ⟨dept, hdept, -⟩ := exists_of_mem_mapM hqs List.mem_cons_self
            exact Bool.eq_false_iff.mpr fun hnil => by
              rw [List.isEmpty_iff.mp hnil] at hdept
              cases hdept
          rw [hsome, Bool.not_false, if_pos rfl, List.foldl_cons]
          exact Within.foldl_both ((hgranted p List.mem_cons_self).both_right _)

/-- **The filter fails closed**, if the rules that apply are safe. -/
theorem failsClosed_of_safe (hsuper : user_obj.is_superuser = false) :
    FailsClosed py db label menu user_obj := by
  intro queryset hqueryset Row M row hshows
  unfold get_filter_queryset at hqueryset
  rw [if_neg (by simp [hsuper])] at hqueryset
  obtain ⟨⟨q, has_dept⟩, hq, hqueryset⟩ := Option.bind_eq_some_iff.mp hqueryset
  have hdept := dept_q_granted (M := M) h hq
  simp only at hqueryset
  split at hqueryset
  · -- the departments grant everything
    next hall =>
    cases hqueryset
    simp only [Bool.and_eq_true] at hall
    rw [if_pos hall.1] at hdept
    exact hdept.granted (Query.holds_of_falsy (Query.falsy_of_isEmpty hall.2) row)
  · split at hqueryset
    · cases hqueryset
      cases has_dept with
      | true =>
          rw [if_pos rfl] at hdept hshows
          exact hdept.granted hshows
      | false => exact hshows.elim
    · obtain ⟨q₁, hq₁, rfl⟩ := Option.map_eq_some_iff.mp hqueryset
      have hbase : Granted py (db.place user_obj) M (db.Applies label user_obj) q₁ := by
        refine get_filter_q_base_granted (fun obj hobj rule hrule hnames => ?_) hq₁
        obtain ⟨hobj, hactive, hpk⟩ := mem_permission hobj
        have happlies : db.Applies label user_obj rule :=
          ⟨hnames, obj, hobj, hactive, hrule, .inl hpk⟩
        exact ⟨happlies, h rule happlies⟩
      have hjoined : Granted py (db.place user_obj) M (db.Applies label user_obj) (q.either q₁) := by
        cases has_dept with
        | true =>
            rw [if_pos rfl] at hdept
            exact hdept.either hbase
        | false =>
            rw [if_neg (by simp)] at hdept
            obtain rfl | rfl := hdept
            · exact Within.either (Within.of_never rfl fun _ => id) hbase
            · rw [Query.either_of_falsy rfl]
              exact hbase
      refine Within.granted ?_ hshows
      split
      · exact hbase
      · exact hjoined

end

end

end InfraHub.Permission
