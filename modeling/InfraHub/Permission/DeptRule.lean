import InfraHub.Lib.Text
import InfraHub.Permission.DeptSearch
import InfraHub.Permission.Sound

/-!
# Permission — DeptRule

A rule of the type `value.dept.ids`, "Department ID and data below the department".

The departments stand in the rule as JSON, and so as texts.  `recursion_dept_info` compares them
with the `UUID`s of the column `parent`, which no text is equal to (`search_text`): nothing is found
below a department, and a list cannot even be put into a set.  `dept_rule_iff` says when the
condition of the rule is still that of the departments with all below them.
-/

namespace InfraHub.Permission
open InfraHub.Lib (Acyclic Query isDigit_of_mem_toString toString_injective)
open Relation (TransGen)

/-! ### The search from what stands in a rule -/

/-- What is searched from: the key of a row, or the text of one. -/
inductive DeptId
  | pk (pk : Nat)
  | text (s : String)
  deriving DecidableEq

/-- The recursion, from either.  What is found are keys. -/
def search (dept_all_list : List (Nat × Option Nat)) : Nat → DeptId → Option (List Nat)
  | 0, _ => none
  | limit + 1, dept_id =>
    let lists := (dept_all_list.filter fun dept => dept.2.map DeptId.pk = some dept_id).mapM
        fun dept =>
      (search dept_all_list limit (.pk dept.1)).map fun dept_list => dept.1 :: dept_list
    lists.map List.flatten

section
variable {l : List (Nat × Option Nat)}

/-- From a key, it is the search that was described. -/
theorem search_pk (limit dept : Nat) :
    search l limit (.pk dept) =
      recurse_dept Prod.snd (fun dept => some dept.1) l limit (some dept) := by
  induction limit generalizing dept with
  | zero => rfl
  | succ limit ih =>
      have hparent : (l.filter fun row => row.2.map DeptId.pk = some (.pk dept)) =
          l.filter fun row => row.2 = some dept := by
        refine List.filter_congr fun row _ => decide_eq_decide.mpr ?_
        simp [Option.map_eq_some_iff]
      rw [search, recurse_dept, hparent]
      simp only [ih]

/-- **No text is the key of a parent.** -/
theorem search_text (limit : Nat) (s : String) : search l (limit + 1) (.text s) = some [] := by
  have hnone : (l.filter fun row => row.2.map DeptId.pk = some (.text s)) = [] := by
    refine List.filter_eq_nil_iff.mpr fun row _ => ?_
    simp [Option.map_eq_some_iff]
  rw [search, hnone]
  rfl

/-- So the condition has the text alone. -/
theorem departments_text (place : Place) (limit : Nat) (s : String) :
    departments place (.str s) = (search place.dept_values (limit + 1) (.text s)).map
      fun dept_list =>
      .list (.str s :: dept_list.map fun dept => .str (toString dept)) := by
  rw [search_text]
  rfl

end

/-! ### The rule -/

/-- What the JSON of the rule names: one department, or a list of them. -/
inductive Named
  | one (dept : Nat)
  | list (depts : List Nat)

/-- The keys travel as strings. -/
def Named.value : Named → Value
  | .one dept => .str (toString dept)
  | .list depts => .list (depts.map fun dept => .str (toString dept))

def Named.depts : Named → List Nat
  | .one dept => [dept]
  | .list depts => depts

section
variable (py : Outside) (label : String)

/-- A rule for the departments, which applies to the table. -/
structure Rule.IsDepartments (rule : Rule) (name : String) (named : Named) : Prop where
  table : rule.names label = true
  type : rule.type = some .DEPARTMENTS
  field : rule.field = some name
  value : ∃ text, rule.value = some (.str text) ∧ py.json_loads text = some named.value
  included : rule.excluded = false

/-- **The rule reaches the descendants**: its condition is there, and selects the rows of the
departments and of all below them. -/
def ReachesBelow (obj : DataPermission) (place : Place) (dept_mode : ModeChoices) (name : String)
    (named : Named) :
    Prop :=
  ∃ q, get_filter_q_base py label [obj] place (some dept_mode) = some q ∧
    ∀ (Row : Type) (M : Rows Row) (row : Row), q.holds M.lookup row ↔
      ∃ dept ∈ named.depts, ∃ below, Above place.dept_values below dept ∧
        M.sat name "exact" (.str (toString below)) row

end

/-! ### The condition -/

section
variable {py : Outside} {label : String} {obj : DataPermission} {rule r : Rule} {place : Place}
  {dept_mode : ModeChoices} {name : String} {named : Named}

/-- The condition of a permission with one rule. -/
theorem q_base_single (hobj : obj.rules = [rule]) (htable : rule.names label = true)
    (htype : rule.type = some .DEPARTMENTS) :
    get_filter_q_base py label [obj] place (some dept_mode) =
      (resolve py place rule).bind fun r => (attr_qs py r).map fun qs =>
        join_qs (some dept_mode) [result_q .OR qs] := by
  have hresult : [obj].filterMap (result label) = [⟨.OR, [rule]⟩] := by
    simp [result, hobj, select, htable, htype]
  have hall : rule.type ≠ some .ALL := by simp [htype]
  rw [get_filter_q_base, hresult, if_neg (by simp), walk_results, walk_rules,
    if_neg (by simp [hall])]
  cases resolve py place rule with
  | none => rfl
  | some r =>
      cases hqs : attr_qs py r with
      | none => simp [walk_rules, walk_results, get_filter_attrs_qs, hqs]
      | some qs => simp [walk_rules, walk_results, get_filter_attrs_qs, hqs]

theorem toString_ne_star (n : Nat) : toString n ≠ "*" := by
  intro h
  have hdigit : '*'.isDigit := isDigit_of_mem_toString (n := n) (by rw [h]; decide)
  cases hdigit

theorem join_single (dept_mode : ModeChoices) (a : Lookup) :
    join_qs (some dept_mode) [result_q .OR [.atom a]] = .atom a := by
  cases dept_mode with
  | OR => rfl
  | AND => rfl

/-- What the rule is resolved to. -/
theorem Rule.IsDepartments.resolve_eq (h : rule.IsDepartments py label name named) {dept : Nat}
    (hdept : place.dept = some dept) :
    resolve py place rule = (departments place named.value).map fun v =>
      { rule with «match» := some "in", value := some v } := by
  obtain ⟨text, hvalue, hloads⟩ := h.value
  rw [resolve, h.type]
  simp only [hdept, Rule.loads, hvalue, hloads, Option.bind_some]

theorem attr_qs_one {d : Nat} (hfield : r.field = some name) (hmatch : r.match = some "in")
    (hvalue : r.value = some (.list [.str (toString d)])) (hincluded : r.excluded = false) :
    attr_qs py r = some [.atom (.field name "in" (.list [.str (toString d)]))] := by
  have hval : r.val = some (.list [.str (toString d)]) := by rw [Rule.val, hvalue]
  have hway : r.way = .in_ := by rw [Rule.way, hmatch, Option.getD_some, of_in]
  have hstar : (Value.list [.str (toString d)]).aslist.any (Value.isStr "*") = false := by
    rw [Value.aslist, List.any_cons, List.any_nil, Bool.or_false, Value.isStr]
    exact decide_eq_false (toString_ne_star d)
  rw [attr_qs_match hfield hval hway (by simp) (by simp), match_q, hstar, hincluded]
  rfl

/-- **Of one department**, the condition has that one. -/
theorem q_base_one {dept d : Nat} (h : rule.IsDepartments py label name (.one d))
    (hobj : obj.rules = [rule])
    (hdept : place.dept = some dept) (dept_mode : ModeChoices) :
    get_filter_q_base py label [obj] place (some dept_mode) =
      some (.atom (.field name "in" (.list [.str (toString d)]))) := by
  have hvalue : departments place (Named.value (.one d)) = some (.list [.str (toString d)]) := rfl
  have hqs : attr_qs py { rule with «match» := some "in", value := some (.list [.str (toString d)]) }
      = _ :=
    attr_qs_one h.field rfl rfl h.included
  rw [q_base_single hobj h.table h.type, h.resolve_eq hdept, hvalue, Option.map_some,
    Option.bind_some, hqs,
    Option.map_some, join_single]

/-- **A list raises.** -/
theorem q_base_list {dept : Nat} {depts : List Nat}
    (h : rule.IsDepartments py label name (.list depts))
    (hobj : obj.rules = [rule]) (hdept : place.dept = some dept) :
    get_filter_q_base py label [obj] place (some dept_mode) = none := by
  rw [q_base_single hobj h.table h.type, h.resolve_eq hdept]
  rfl

/-- The rows are the texts of the keys. -/
def TextRows : Rows String where
  sat _ lookup v row :=
    lookup = "exact" ∧ v = .str row ∨ lookup = "in" ∧ ∃ l, v = .list l ∧ ∃ w ∈ l, w ≠ .null ∧
    w = .str row
  address _ _ := none
  between _ _ _ _ := False
  sat_in name l row := by simp

theorem textRows_exact {s row : String} : TextRows.sat name "exact" (.str s) row ↔ s = row := by
  simp [TextRows]

/-- The rows of one department. -/
theorem holds_one {Row : Type} (M : Rows Row) {d : Nat} {row : Row} :
    (Query.atom (.field name "in" (.list [.str (toString d)])) : Q).holds M.lookup row ↔
      M.sat name "exact" (.str (toString d)) row :=
  sat_in_single.trans (and_iff_right (by simp))

/-- **When the rule reaches the descendants**: it names one department, alone, and no department is
below it. -/
theorem dept_rule_iff {dept : Nat} (hacyclic : Acyclic (Up place.dept_values))
    (hdept : place.dept = some dept)
    (hobj : obj.rules = [rule]) (h : rule.IsDepartments py label name named) :
    ReachesBelow py label obj place dept_mode name named ↔
      ∃ d, named = .one d ∧ ∀ below, ¬ Up place.dept_values below d := by
  cases named with
  | list depts =>
      constructor
      · rintro ⟨q, hq, -⟩
        rw [q_base_list h hobj hdept] at hq
        cases hq
      · rintro ⟨d, heq, -⟩
        cases heq
  | one d =>
      have hq := q_base_one h hobj hdept dept_mode
      constructor
      · rintro ⟨q, hq', hrows⟩
        obtain rfl := Option.some.inj (hq.symm.trans hq')
        refine ⟨d, rfl, fun below hup => ?_⟩
        -- the row of the department below is not selected
        have hrow := (hrows String TextRows (toString below)).mpr
          ⟨d, List.mem_singleton_self d, below, .step hup (.refl d), textRows_exact.mpr rfl⟩
        have heq : d = below :=
          toString_injective (textRows_exact.mp ((holds_one TextRows).mp hrow))
        exact hacyclic d (.single (heq ▸ hup))
      · rintro ⟨_, heq, hnone⟩
        cases heq
        refine ⟨_, hq, fun Row M row => (holds_one M).trans ?_⟩
        constructor
        · exact fun hsat => ⟨d, List.mem_singleton_self d, d, .refl d, hsat⟩
        · rintro ⟨_, hd, below, habove, hsat⟩
          obtain rfl := List.mem_singleton.mp hd
          rcases Relation.ReflTransGen.cases_tail (above_iff.mp habove) with rfl | ⟨c, -, hup⟩
          · exact hsat
          · exact absurd hup (hnone c)

end

/-! ### A department with one below it -/

/-- The texts that stand in the rules. -/
def sample_outside : Outside where
  json_loads s :=
    if s = "\"1\"" then some (.str "1")
    else if s = "\"2\"" then some (.str "2")
    else if s = "[\"2\"]" then some (.list [.str "2"])
    else none
  re_compile _ := true
  parse_datetime _ := none
  ip_network _ := none
  ip_address _ := none
  seconds_from_now _ := none

def sample_rule (text : String) : Rule where
  table := some "*"
  type := some .DEPARTMENTS
  field := some "dept_belong"
  value := some (.str text)
  «match» := some "in"
  exclude := none

def sample_permission (text : String) : DataPermission where
  pk := 1
  is_active := true
  mode_type := .OR
  rules := [sample_rule text]
  menu := []

def sample_place : Place := ⟨1, some 1, two_depts⟩

theorem sample_is_departments {text : String} {named : Named}
    (h : sample_outside.json_loads text = some named.value) :
    (sample_rule text).IsDepartments sample_outside "virt.host" "dept_belong" named where
  table := by simp [Rule.names, sample_rule]
  type := rfl
  field := rfl
  value := ⟨text, rfl, h⟩
  included := rfl

/-- Nothing is below the second department. -/
theorem dept_rule_iff_leaf :
    ReachesBelow sample_outside "virt.host" (sample_permission "\"2\"") sample_place .OR
      "dept_belong" (.one 2) :=
  (dept_rule_iff two_depts_acyclic rfl rfl (sample_is_departments rfl)).mpr
    ⟨2, rfl, by simp [sample_place, two_depts, Up]⟩

/-- **The department below is not reached**, and a list of one department raises. -/
theorem dept_below_not_reached :
    ¬ ReachesBelow sample_outside "virt.host" (sample_permission "\"1\"") sample_place .OR
      "dept_belong" (.one 1) ∧
      get_filter_q_base sample_outside "virt.host" [sample_permission "[\"2\"]"] sample_place
      (some .OR) =
        none := by
  constructor
  · rintro ⟨q, hq, hrows⟩
    have hrule : (sample_rule "\"1\"").IsDepartments sample_outside "virt.host" "dept_belong"
        (.one 1) :=
      sample_is_departments rfl
    have hone : get_filter_q_base sample_outside "virt.host"
        [sample_permission "\"1\""] sample_place (some .OR) =
        _ := q_base_one hrule rfl rfl .OR
    obtain rfl := Option.some.inj (hone.symm.trans hq)
    have hrow := (hrows String TextRows (toString 2)).mpr
      ⟨1, List.mem_singleton_self 1, 2, .step (by simp [sample_place, two_depts]) (.refl 1),
        textRows_exact.mpr rfl⟩
    have heq := toString_injective (textRows_exact.mp ((holds_one TextRows).mp hrow))
    cases heq
  · have hrule : (sample_rule "[\"2\"]").IsDepartments sample_outside "virt.host" "dept_belong"
        (.list [2]) :=
      sample_is_departments rfl
    exact q_base_list hrule rfl rfl

end InfraHub.Permission
