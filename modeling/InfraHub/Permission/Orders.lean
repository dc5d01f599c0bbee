import InfraHub.Permission.Closed

/-!
# Permission — Orders

The filter with the orders in which its sets and its fetches are walked.  `get_filter_queryset_in`
is `get_filter_queryset` where each of them has an order of its own (`get_filter_queryset_listed`).

What the condition of a permission shows (`Result.Shows`), whether it is falsy (`Result.Void`) and
whether it is `Q()` (`Result.Empty`) are told from its rules, and so in no order: `result_q_empty`
and the lemmas after it.  `walk_results_done` and `walk_results_returned` say what the walk through
the permissions comes to.
-/

namespace InfraHub.Permission
open InfraHub.Lib (Query Table exists_of_mem_mapM exists_result_of_mem exists_mapM forall₂_of_mapM)

/-! ### The filter -/

/-- The orders of a request, for a department (or, without one, for the user): of every `set()`, that
of the permission with `n` more to come and that of the conditions of all of them; of the
permissions that are fetched; and of the departments. -/
structure Orders where
  walk : Option Nat → Nat → List Q → List Q
  permission : Option Nat → List DataPermission → List DataPermission
  depts : List DeptInfo → List DeptInfo
  mem_walk : ∀ {holder n l q}, q ∈ walk holder n l ↔ q ∈ l
  perm_permission : ∀ holder l, (permission holder l).Perm l
  perm_depts : ∀ l, (depts l).Perm l

/-- The orders of the lists. -/
def Orders.listed : Orders where
  walk _ _ l := l
  permission _ l := l
  depts l := l
  mem_walk := Iff.rfl
  perm_permission _ _ := .refl _
  perm_depts _ := .refl _

section
variable (py : Outside)

def walk_results_in (place : Place) (dept_mode : Option ModeChoices)
    (order : Nat → List Q → List Q) : List Result → Option (Outcome (List Q))
  | [] => some (.done [])
  | result :: rest =>
    (walk_rules py place dept_mode result.mode result.rules).bind fun outcome => match outcome with
      | .returned q => some (.returned q)
      | .done rules =>
        (get_filter_attrs_qs py rules).bind fun qs =>
          (walk_results_in place dept_mode order rest).map fun outcome => match outcome with
            | .returned q => .returned q
            | .done or_qs => .done (result_q result.mode (order rest.length qs) :: or_qs)

def get_filter_q_base_in (order : Nat → List Q → List Q) (label : String)
    (permission : List DataPermission) (place : Place) (dept_mode : Option ModeChoices) : Option Q :=
  let results := permission.filterMap (result label)
  if results.isEmpty then some (.atom .id_zero)
  else (walk_results_in py place dept_mode order results).map fun outcome => match outcome with
    | .returned q => q
    | .done or_qs => join_qs dept_mode (order results.length or_qs)

def dept_q_in (order : Orders) (db : Db) (label : String) (menu : Option Nat)
    (user_obj : UserInfo) : Option (Q × Bool) :=
  match db.dept user_obj with
  | none => some (.empty, false)
  | some dept_obj =>
    (recursion_dept_info db.dept_values (some dept_obj.pk) true).bind fun dept_pks =>
      let depts := order.depts <| db.depts.rows.filter fun dept =>
        dept_pks.contains (some dept.pk) && dept.is_active
      (depts.mapM fun p_dept_obj =>
        get_filter_q_base_in py (order.walk (some p_dept_obj.pk)) label
          (order.permission (some p_dept_obj.pk) (db.permission menu p_dept_obj.rules))
          (db.place user_obj) (some dept_obj.mode_type)).map
        fun qs =>
          let q := qs.foldl Query.both .empty
          if depts.isEmpty && q.isEmpty then (.atom .id_zero, false) else (q, !depts.isEmpty)

def get_filter_queryset_in (order : Orders) (enabled : Bool) (db : Db) (label : String)
    (menu : Option Nat) (user_obj : UserInfo) : Option Queryset :=
  if !enabled || user_obj.is_superuser then some .all
  else (dept_q_in py order db label menu user_obj).bind fun (q, has_dept) =>
    if has_dept && q.isEmpty then some .all
    else
      let permission := db.permission menu user_obj.rules
      if permission.isEmpty then some (if has_dept then .filter q else .none)
      else
        (get_filter_q_base_in py (order.walk none) label (order.permission none permission)
          (db.place user_obj) ((db.dept user_obj).map DeptInfo.mode_type)).map fun q1 =>
            .filter (if q1.isEmpty then q1 else q.either q1)

theorem walk_results_listed {place : Place} {dept_mode : Option ModeChoices} :
    ∀ results : List Result,
      walk_results_in py place dept_mode (fun _ l => l) results =
        walk_results py place dept_mode results := by
  intro results
  induction results with
  | nil => rfl
  | cons res rest ih =>
      rw [walk_results, ← ih]
      rfl

/-- **`get_filter_queryset` walks its sets in the order of their lists.** -/
theorem get_filter_queryset_listed (enabled : Bool) (db : Db) (label : String) (menu : Option Nat)
    (user_obj : UserInfo) :
    get_filter_queryset_in py .listed enabled db label menu user_obj =
      get_filter_queryset py enabled db label menu user_obj := by
  have hbase (permission : List DataPermission) (place : Place) (mode : Option ModeChoices) :
      get_filter_q_base_in py (fun _ l => l) label permission place mode =
        get_filter_q_base py label permission place mode := by
    simp only [get_filter_q_base, ← walk_results_listed]
    rfl
  unfold get_filter_queryset_in get_filter_queryset dept_q_in dept_q
  simp only [Orders.listed, hbase]
  rfl

end

/-! ### The rules of a permission -/

section
variable (py : Outside) (place : Place)

/-- The conditions that a rule comes to; `none` is an exception. -/
def Rule.conditions (rule : Rule) : Option (List Q) := (resolve py place rule).bind (attr_qs py)

/-- One of the conditions of the rules. -/
def Result.Has (res : Result) (q : Q) : Prop :=
  ∃ rule ∈ res.rules, ∃ qs, rule.conditions py place = some qs ∧ q ∈ qs

/-- The permission adds `Q()`. -/
def Result.Empty (res : Result) : Prop :=
  match res.mode with
  | .OR => (∃ q, res.Has py place q ∧ q.isEmpty = true) ∨ ∀ q, ¬ res.Has py place q
  | .AND => ∀ q, res.Has py place q → q.isEmpty = true

/-- The permission adds no condition. -/
def Result.Void (res : Result) : Prop :=
  match res.mode with
  | .OR => (∃ q, res.Has py place q ∧ q.isEmpty = true) ∨ ∀ q, res.Has py place q → q.falsy = true
  | .AND => ∀ q, res.Has py place q → q.falsy = true

/-- The rows that the condition of the permission shows. -/
def Result.Shows {Row : Type} (M : Rows Row) (res : Result) (row : Row) : Prop :=
  match res.mode with
  | .OR => res.Void py place ∨
      ∃ q, res.Has py place q ∧ q.falsy = false ∧ q.holds M.lookup row
  | .AND => ∀ q, res.Has py place q → q.holds M.lookup row

end

/-- A rule for all data ends the search. -/
def Result.Ends (dept_mode : Option ModeChoices) (res : Result) : Prop :=
  res.mode = .OR ∧ dept_mode ≠ some .AND ∧ ∃ rule ∈ res.rules, rule.type = some .ALL

theorem Result.Empty.void {py : Outside} {place : Place} {res : Result}
    (h : res.Empty py place) : res.Void py place := by
  unfold Result.Empty at h
  unfold Result.Void
  cases hmode : res.mode with
  | OR =>
      rw [hmode] at h
      exact h.imp_right fun hnone q hq => absurd hq (hnone q)
  | AND =>
      rw [hmode] at h
      exact fun q hq => Query.falsy_of_isEmpty (h q hq)

section
variable {py : Outside} {place : Place} {res : Result} {l : List Q}
  (h : ∀ q, q ∈ l ↔ res.Has py place q)
include h

theorem result_q_empty : (result_q res.mode l).isEmpty = true ↔ res.Empty py place := by
  unfold Result.Empty result_q
  cases res.mode with
  | OR => simp [Query.isEmpty_any, List.eq_nil_iff_forall_not_mem, h]
  | AND => simp [Query.isEmpty_all, h]

theorem result_q_void : (result_q res.mode l).falsy = true ↔ res.Void py place := by
  unfold Result.Void result_q
  cases res.mode with
  | OR => simp [Query.falsy_any, h]
  | AND => simp [Query.falsy_all, h]

theorem result_q_shows {Row : Type} {M : Rows Row} {row : Row} :
    (result_q res.mode l).holds M.lookup row ↔ res.Shows py place M row := by
  have hvoid := result_q_void h
  unfold Result.Shows
  unfold result_q at hvoid ⊢
  cases hmode : res.mode with
  | OR =>
      rw [hmode] at hvoid
      simp only at hvoid ⊢
      rw [Query.holds_any, hvoid]
      simp [h]
  | AND => simp [Query.holds_all, h]

end

/-! ### The rules that are chosen -/

section
variable {label : String} {acc rules : List Rule}

theorem select_and : select label .AND acc rules =
    acc ++ rules.filter fun rule => rule.names label && rule.type ≠ some .ALL := by
  induction rules generalizing acc with
  | nil => simp [select]
  | cons rule rest ih =>
      unfold select
      cases hnames : rule.names label with
      | false => simp [ih, hnames]
      | true =>
          by_cases htype : rule.type = some .ALL
          · simp [ih, hnames, htype]
          · simp [ih, hnames, htype]

/-- Without a rule for all data, those that name the table. -/
theorem select_or (h : ∀ rule ∈ rules, rule.names label = true → rule.type ≠ some .ALL) :
    select label .OR acc rules = acc ++ rules.filter (Rule.names label) := by
  induction rules generalizing acc with
  | nil => simp [select]
  | cons rule rest ih =>
      obtain ⟨hrule, hrest⟩ := List.forall_mem_cons.mp h
      unfold select
      cases hnames : rule.names label with
      | false => simp [ih hrest, hnames]
      | true => simp [ih hrest, hnames, hrule hnames]

/-- A rule for all data stands alone. -/
theorem select_all (acc : List Rule) {rule : Rule} (hrule : rule ∈ rules) (hnames : rule.names label = true)
    (htype : rule.type = some .ALL) : ∃ first ∈ rules, first.names label = true ∧
      first.type = some .ALL ∧ select label .OR acc rules = [first] := by
  induction rules generalizing acc with
  | nil => cases hrule
  | cons first rest ih =>
      by_cases hfirst : first.names label = true ∧ first.type = some .ALL
      · refine ⟨first, List.mem_cons_self, hfirst.1, hfirst.2, ?_⟩
        simp [select, hfirst.1, hfirst.2]
      · have hmem : rule ∈ rest := by
          rcases List.mem_cons.mp hrule with rfl | hmem
          · exact absurd ⟨hnames, htype⟩ hfirst
          · exact hmem
        have hselect : ∃ acc', select label .OR acc (first :: rest) = select label .OR acc' rest := by
          cases hn : first.names label with
          | false => exact ⟨acc, by rw [select, hn]; rfl⟩
          | true =>
              have ht : first.type ≠ some .ALL := fun ht => hfirst ⟨hn, ht⟩
              exact ⟨acc ++ [first], by rw [select, hn, if_pos rfl, if_neg ht]⟩
        obtain ⟨acc', hselect⟩ := hselect
        obtain ⟨found, hfound, hspec⟩ := ih acc' hmem
        exact ⟨found, List.mem_cons_of_mem _ hfound, hspec.1, hspec.2.1, hselect ▸ hspec.2.2⟩

end

/-- The conditions of a rule for all data are `Q()`, if there are any. -/
theorem conditions_of_all {py : Outside} {place : Place} {rule : Rule}
    (htype : rule.type = some .ALL) :
    rule.conditions py place = some [] ∨ rule.conditions py place = some [.empty] := by
  have hresolve : resolve py place rule = some { rule with «match» := some "all" } := by
    simp [resolve, htype]
  have hway : ({ rule with «match» := some "all" } : Rule).way = .all := of_all
  unfold Rule.conditions
  rw [hresolve, Option.bind_some]
  unfold attr_qs
  split
  · exact .inr (by rw [hway])
  · exact .inl rfl

/-- A rule for all data that stands alone. -/
theorem empty_of_all {py : Outside} {place : Place} {rule : Rule} (htype : rule.type = some .ALL) :
    Result.Empty py place ⟨.OR, [rule]⟩ := by
  have hconditions : rule.conditions py place = some [] ∨ rule.conditions py place = some [.empty] :=
    conditions_of_all htype
  rcases hconditions with hnone | hone
  · exact .inr fun q hq => by simp [Result.Has, hnone] at hq
  · exact .inl ⟨.empty, by simp [Result.Has, hone], rfl⟩

/-- A permission that ends the search adds `Q()`. -/
theorem empty_of_ends {py : Outside} {place : Place} {dept_mode : Option ModeChoices}
    {label : String} {obj : DataPermission} {res : Result} (h : result label obj = some res)
    (hends : res.Ends dept_mode) : res.Empty py place := by
  obtain ⟨hmode, -, rule, hrule, htype⟩ := hends
  obtain ⟨-, h⟩ := Option.ite_none_left_eq_some.mp h
  cases h
  simp only at hmode hrule
  have hnames := (mem_select hrule).resolve_left (by simp)
  obtain ⟨first, -, -, hfirst, hselect⟩ :=
    select_all [] hnames.1 hnames.2 htype
  rw [hmode, hselect]
  exact empty_of_all hfirst

/-! ### The walk -/

section
variable {py : Outside} {place : Place} {dept_mode : Option ModeChoices}
  {order : Nat → List Q → List Q}

theorem walk_rules_returned {mode : ModeChoices} {rules : List Rule} {q : Q}
    (h : walk_rules py place dept_mode mode rules = some (.returned q)) :
    q = .empty ∧ Result.Ends dept_mode ⟨mode, rules⟩ := by
  induction rules with
  | nil => cases h
  | cons rule rest ih =>
      unfold walk_rules at h
      split at h
      · next hall =>
        cases h
        exact ⟨rfl, hall.2.1, hall.2.2, rule, List.mem_cons_self, hall.1⟩
      · obtain ⟨r, -, h⟩ := Option.bind_eq_some_iff.mp h
        obtain ⟨outcome, houtcome, h⟩ := Option.map_eq_some_iff.mp h
        cases outcome with
        | returned q' =>
            cases h
            obtain ⟨hq, hmode, hdept, found, hfound, htype⟩ := ih houtcome
            exact ⟨hq, hmode, hdept, found, List.mem_cons_of_mem _ hfound, htype⟩
        | done rs => cases h

theorem walk_rules_done {mode : ModeChoices} {rules rs : List Rule}
    (h : walk_rules py place dept_mode mode rules = some (.done rs)) :
    rules.mapM (resolve py place) = some rs ∧ ¬ Result.Ends dept_mode ⟨mode, rules⟩ := by
  induction rules generalizing rs with
  | nil =>
      cases h
      exact ⟨rfl, fun ⟨_, _, _, hmem, _⟩ => by cases hmem⟩
  | cons rule rest ih =>
      unfold walk_rules at h
      split at h
      · cases h
      · next hall =>
        obtain ⟨r, hr, h⟩ := Option.bind_eq_some_iff.mp h
        obtain ⟨outcome, houtcome, h⟩ := Option.map_eq_some_iff.mp h
        cases outcome with
        | returned q => cases h
        | done rs' =>
            cases h
            obtain ⟨hmap, hends⟩ := ih houtcome
            refine ⟨by rw [List.mapM_cons, hr, hmap]; rfl, ?_⟩
            rintro ⟨hmode, hdept, found, hfound, htype⟩
            rcases List.mem_cons.mp hfound with rfl | hfound
            · exact hall ⟨htype, hmode, hdept⟩
            · exact hends ⟨hmode, hdept, found, hfound, htype⟩

/-- The conditions of the resolved rules are those of the rules. -/
theorem has_of_qs {mode : ModeChoices} {rules rs : List Rule} {qs : List Q}
    (hrs : rules.mapM (resolve py place) = some rs) (hqs : get_filter_attrs_qs py rs = some qs)
    (q : Q) : q ∈ qs ↔ Result.Has py place ⟨mode, rules⟩ q := by
  obtain ⟨parts, hparts, rfl⟩ := Option.map_eq_some_iff.mp hqs
  rw [List.mem_flatten]
  constructor
  · rintro ⟨part, hpart, hq⟩
    obtain ⟨r, hr, hattr⟩ := exists_of_mem_mapM hparts hpart
    obtain ⟨rule, hrule, hresolve⟩ := exists_of_mem_mapM hrs hr
    exact ⟨rule, hrule, part, by rw [Rule.conditions, hresolve]; exact hattr, hq⟩
  · rintro ⟨rule, hrule, part, hpart, hq⟩
    obtain ⟨r, hr, hresolve⟩ := exists_result_of_mem hrs hrule
    obtain ⟨part', hpart', hattr⟩ := exists_result_of_mem hparts hr
    rw [Rule.conditions, hresolve, Option.bind_some, hattr, Option.some.injEq] at hpart
    subst hpart
    exact ⟨part', hpart', hq⟩

theorem exists_attrs_qs {rules rs : List Rule}
    (h : ∀ rule ∈ rules, rule.conditions py place ≠ none)
    (hrs : rules.mapM (resolve py place) = some rs) : ∃ qs, get_filter_attrs_qs py rs = some qs := by
  have hparts : ∃ parts, rs.mapM (attr_qs py) = some parts := by
    refine exists_mapM fun r hr => ?_
    obtain ⟨rule, hrule, hresolve⟩ := exists_of_mem_mapM hrs hr
    have hne := h rule hrule
    rwa [Rule.conditions, hresolve, Option.bind_some] at hne
  obtain ⟨parts, hparts⟩ := hparts
  exact ⟨parts.flatten, by rw [get_filter_attrs_qs, hparts]; rfl⟩

/-- The condition of a permission is that of its rules, in some order. -/
def Result.Comes (py : Outside) (place : Place) (res : Result) (q : Q) : Prop :=
  ∃ l, (∀ p, p ∈ l ↔ res.Has py place p) ∧ q = result_q res.mode l

theorem walk_results_returned {results : List Result} {q : Q}
    (h : walk_results_in py place dept_mode order results = some (.returned q)) :
    q = .empty ∧ ∃ res ∈ results, res.Ends dept_mode := by
  induction results with
  | nil => cases h
  | cons res rest ih =>
      unfold walk_results_in at h
      obtain ⟨walked, hwalked, h⟩ := Option.bind_eq_some_iff.mp h
      cases walked with
      | returned q' =>
          cases h
          obtain ⟨hq, hends⟩ := walk_rules_returned hwalked
          exact ⟨hq, res, List.mem_cons_self, hends⟩
      | done rs =>
          obtain ⟨qs, -, h⟩ := Option.bind_eq_some_iff.mp h
          obtain ⟨outcome, houtcome, h⟩ := Option.map_eq_some_iff.mp h
          cases outcome with
          | returned q' =>
              cases h
              obtain ⟨hq, found, hfound, hends⟩ := ih houtcome
              exact ⟨hq, found, List.mem_cons_of_mem _ hfound, hends⟩
          | done or_qs => cases h

theorem walk_results_done (horder : ∀ n l q, q ∈ order n l ↔ q ∈ l) {results : List Result}
    {or_qs : List Q}
    (h : walk_results_in py place dept_mode order results = some (.done or_qs)) :
    List.Forall₂ (fun res q => res.Comes py place q) results or_qs ∧
      ∀ res ∈ results, ¬ res.Ends dept_mode := by
  induction results generalizing or_qs with
  | nil =>
      cases h
      exact ⟨.nil, by simp⟩
  | cons res rest ih =>
      unfold walk_results_in at h
      obtain ⟨walked, hwalked, h⟩ := Option.bind_eq_some_iff.mp h
      cases walked with
      | returned q => cases h
      | done rs =>
          obtain ⟨qs, hqs, h⟩ := Option.bind_eq_some_iff.mp h
          obtain ⟨outcome, houtcome, h⟩ := Option.map_eq_some_iff.mp h
          cases outcome with
          | returned q => cases h
          | done or_qs' =>
              cases h
              obtain ⟨hmap, hends⟩ := walk_rules_done hwalked
              obtain ⟨hall, hrest⟩ := ih houtcome
              refine ⟨.cons ⟨_, fun p => ?_, rfl⟩ hall, List.forall_mem_cons.mpr ⟨hends, hrest⟩⟩
              rw [horder]
              exact has_of_qs hmap hqs p

/-- The walk comes to its end, if no rule raises. -/
theorem exists_walk_results {results : List Result}
    (h : ∀ res ∈ results, ∀ rule ∈ res.rules, rule.conditions py place ≠ none) :
    ∃ outcome, walk_results_in py place dept_mode order results = some outcome := by
  induction results with
  | nil => exact ⟨_, rfl⟩
  | cons res rest ih =>
      obtain ⟨hres, hrest⟩ := List.forall_mem_cons.mp h
      obtain ⟨outcome', houtcome'⟩ := ih hrest
      have hwalk (rules : List Rule) (hrules : ∀ rule ∈ rules, rule.conditions py place ≠ none) :
          ∃ outcome, walk_rules py place dept_mode res.mode rules = some outcome := by
        induction rules with
        | nil => exact ⟨_, rfl⟩
        | cons rule rules ih =>
            obtain ⟨hrule, hrules⟩ := List.forall_mem_cons.mp hrules
            unfold walk_rules
            split
            · exact ⟨_, rfl⟩
            · obtain ⟨outcome, houtcome⟩ := ih hrules
              obtain ⟨qs, hqs⟩ := Option.ne_none_iff_exists'.mp hrule
              obtain ⟨r, hr, -⟩ := Option.bind_eq_some_iff.mp hqs
              rw [hr, houtcome]
              exact ⟨_, rfl⟩
      obtain ⟨walked, hwalked⟩ := hwalk res.rules hres
      unfold walk_results_in
      rw [hwalked]
      cases walked with
      | returned q => exact ⟨_, rfl⟩
      | done rs =>
          obtain ⟨hmap, -⟩ := walk_rules_done hwalked
          obtain ⟨qs, hqs⟩ := exists_attrs_qs hres hmap
          simp only [Option.bind_some, hqs, houtcome', Option.map_some]
          exact ⟨_, rfl⟩

end

end InfraHub.Permission
