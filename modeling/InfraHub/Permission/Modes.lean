import InfraHub.Permission.Shown

/-!
# Permission — Modes

What the modes are for: the permissions of a department are combined in the department's mode,
those of the user in the user's, and the rules of a permission in the permission's.

* `Combined`: any of a list, or each of it.
* `Db.Meant`: the rows that a user is meant to see.
* `shown_plain_iff`: what the user is shown, where no rule is a wildcard or excludes.
* `combines_iff`: both are the same for all arrangements of the rules of a set exactly if the modes
  agree, or do not matter, and the elements of an `m2m_all` rule do not differ.
-/

namespace InfraHub.Permission
open InfraHub.Lib (Query Table)

/-! ### The purpose -/

/-- The mode says whether any of a list is enough, or each is needed. -/
def Combined {α : Type} (mode : ModeChoices) (l : List α) (P : α → Prop) : Prop :=
  match mode with
  | .OR => ∃ a ∈ l, P a
  | .AND => l ≠ [] ∧ ∀ a ∈ l, P a

section
variable {α : Type} {mode : ModeChoices} {l : List α} {P P' : α → Prop}

theorem combined_congr (h : ∀ a ∈ l, (P a ↔ P' a)) : Combined mode l P ↔ Combined mode l P' := by
  cases mode with
  | OR =>
      exact exists_congr fun a => and_congr_right fun ha => h a ha
  | AND =>
      exact and_congr_right fun _ => forall₂_congr fun a ha => h a ha

theorem not_combined_nil : ¬ Combined mode [] P := by
  cases mode <;> simp [Combined]

theorem combined_single {a : α} : Combined mode [a] P ↔ P a := by
  cases mode <;> simp [Combined]

/-- Where all are alike, the mode does not matter. -/
theorem combined_alike {p : Prop} (hl : l ≠ []) (h : ∀ a ∈ l, (P a ↔ p)) : Combined mode l P ↔ p := by
  obtain ⟨a, ha⟩ := List.exists_mem_of_ne_nil l hl
  rw [combined_congr h]
  cases mode with
  | OR => exact ⟨fun ⟨_, _, hp⟩ => hp, fun hp => ⟨a, ha, hp⟩⟩
  | AND => exact ⟨fun hall => hall.2 a ha, fun hp => ⟨hl, fun _ _ => hp⟩⟩

theorem combined_map {β : Type} {f : β → α} {l : List β} :
    Combined mode (l.map f) P ↔ Combined mode l fun b => P (f b) := by
  cases mode <;> simp [Combined]

/-- Of two that differ, one is not enough where each is needed. -/
theorem combined_pair {a b : α} (ha : P a) (hb : ¬ P b) : Combined mode [a, b] P ↔ mode = .OR := by
  cases mode <;> simp [Combined, ha, hb]

end

section
variable (py : Outside) (place : Place)

/-- Well-formed, no wildcard, and without `exclude`. -/
def Rule.Plain (rule : Rule) : Prop :=
  rule.type ≠ some .ALL ∧ rule.excluded = false ∧
    ∃ qs, rule.conditions py place = some qs ∧ qs ≠ [] ∧ ∀ q ∈ qs, q.falsy = false

/-- Where each element of a list is looked up, they do not differ. -/
def Rule.Even (rule : Rule) : Prop :=
  rule.meant_way = .m2m_all →
    ∀ val, rule.resolved_value py place = some val → Tight py val .m2m_all

variable {Row : Type} (M : Rows Row) (row : Row)

/-- The row satisfies the rule: all its conditions, which are several for `m2m_all`. -/
def Rule.Satisfied (rule : Rule) : Prop :=
  ∀ qs, rule.conditions py place = some qs → ∀ q ∈ qs, q.holds M.lookup row

/-- The rules of a permission that name the table. -/
def DataPermission.named (label : String) (obj : DataPermission) : List Rule :=
  obj.rules.filter (Rule.names label)

/-- The rows that a permission is meant to grant. -/
def DataPermission.Meant (label : String) (obj : DataPermission) : Prop :=
  Combined obj.mode_type (obj.named label) (Rule.Satisfied py place M row)

end

section
variable (py : Outside) (db : Db) (label : String) (menu : Option Nat) (user_obj : UserInfo)

/-- The attached permissions that have a rule for the table. -/
def Db.objs (rules : List Nat) : List DataPermission :=
  (db.permission menu rules).filter fun obj => !(obj.named label).isEmpty

/-- The rows that a holder of permissions is meant to be granted. -/
def Db.HolderMeant {Row : Type} (M : Rows Row) (row : Row) (mode : ModeChoices)
    (rules : List Nat) : Prop :=
  Combined mode (db.objs label menu rules) (DataPermission.Meant py (db.place user_obj) M row label)

/-- The rows that the user is meant to see: what all departments grant, and what the user's own
permissions grant. -/
def Db.Meant {Row : Type} (M : Rows Row) (row : Row) : Prop :=
  (db.chain user_obj ≠ [] ∧ ∀ dept ∈ db.chain user_obj,
      db.HolderMeant py label menu user_obj M row dept.mode_type dept.rules) ∨
    db.HolderMeant py label menu user_obj M row user_obj.mode_type user_obj.rules

/-- The filter shows what is meant. -/
def CombinesAsMeant : Prop :=
  ∃ queryset, get_filter_queryset py true db label menu user_obj = some queryset ∧
    ∀ {Row : Type} (M : Rows Row) (row : Row),
      queryset.shows M row ↔ db.Meant py label menu user_obj M row

end

/-! ### The permissions of plain rules -/

section
variable {py : Outside} {place : Place} {label : String} {obj : DataPermission}

/-- A permission has a result if a rule of it names the table. -/
theorem result_plain (h : ∀ rule ∈ obj.rules, rule.names label = true → rule.type ≠ some .ALL) :
    result label obj = if (obj.named label).isEmpty then none else
      some ⟨if obj.rules.length = 1 then .OR else obj.mode_type, obj.named label⟩ := by
  have hselect : select label (if obj.rules.length = 1 then .OR else obj.mode_type) [] obj.rules =
      obj.named label := by
    cases hmode : (if obj.rules.length = 1 then ModeChoices.OR else obj.mode_type) with
    | OR => exact select_or h
    | AND =>
        rw [select_and, List.nil_append]
        refine List.filter_congr fun rule hrule => ?_
        cases hnames : rule.names label with
        | false => rfl
        | true => simpa using h rule hrule hnames
  unfold result
  simp only [hselect]

section
variable (mode : ModeChoices) {rules : List Rule} (hne : rules ≠ [])
  (hplain : ∀ rule ∈ rules, rule.Plain py place)
include hne hplain

/-- Plain rules have a condition, and none that adds nothing. -/
theorem has_of_plain : (∃ q, Result.Has py place ⟨mode, rules⟩ q) ∧
    ∀ q, Result.Has py place ⟨mode, rules⟩ q → q.falsy = false := by
  constructor
  · obtain ⟨rule, hrule⟩ := List.exists_mem_of_ne_nil rules hne
    obtain ⟨-, -, qs, hqs, hsome, -⟩ := hplain rule hrule
    obtain ⟨q, hq⟩ := List.exists_mem_of_ne_nil qs hsome
    exact ⟨q, rule, hrule, qs, hqs, hq⟩
  · rintro q ⟨rule, hrule, qs, hqs, hq⟩
    obtain ⟨-, -, qs', hqs', -, hfalsy⟩ := hplain rule hrule
    obtain rfl := Option.some.inj (hqs.symm.trans hqs')
    exact hfalsy q hq

theorem not_void_of_plain : ¬ Result.Void py place ⟨mode, rules⟩ := by
  obtain ⟨⟨q, hq⟩, hfalsy⟩ := has_of_plain mode hne hplain
  cases mode with
  | OR =>
      rintro (⟨q', hq', hempty⟩ | hall)
      · exact absurd (Query.falsy_of_isEmpty hempty) (by simp [hfalsy q' hq'])
      · exact absurd (hall q hq) (by simp [hfalsy q hq])
  | AND => exact fun hall => absurd (hall q hq) (by simp [hfalsy q hq])

end

/-- The conditions of a rule, if the elements of its list do not differ. -/
theorem conditions_alike {rule : Rule} {qs : List Q} (heven : rule.Even py place)
    (hqs : rule.conditions py place = some qs) :
    ∀ q ∈ qs, ∀ p ∈ qs, q = p := by
  obtain ⟨r, hr, hqs⟩ := Option.bind_eq_some_iff.mp hqs
  obtain ⟨-, -, hway⟩ := resolve_spec hr
  cases hfield : r.field with
  | none =>
      obtain rfl : [] = qs := by simpa [attr_qs, hfield] using hqs
      simp
  | some name =>
      cases hval : r.val with
      | none =>
          obtain rfl : [] = qs := by simpa [attr_qs, hfield, hval] using hqs
          simp
      | some val =>
          by_cases hall : r.way = .all
          · obtain rfl : [.empty] = qs := by simpa [attr_qs, hfield, hval, hall] using hqs
            simp
          · by_cases hm2m : r.way = .m2m_all
            · rw [attr_qs_m2m_all hfield hval hm2m] at hqs
              cases hqs
              have htight := heven (hway.symm.trans hm2m) val
                (by rw [resolved_value_of_resolve hr, hval])
              simp only [List.mem_map]
              rintro _ ⟨v, hv, rfl⟩ _ ⟨w, hw, rfl⟩
              rw [htight v hv w hw]
            · rw [attr_qs_match hfield hval rfl hall hm2m] at hqs
              obtain ⟨q, -, rfl⟩ := Option.map_eq_some_iff.mp hqs
              simp

/-- The rows that a permission shows are those that it is meant to grant. -/
theorem shows_iff_meant {Row : Type} {M : Rows Row} {row : Row} {res : Result}
    (hplain : ∀ rule ∈ obj.rules, rule.names label = true → rule.Plain py place)
    (heven : ∀ rule ∈ obj.rules, rule.names label = true → rule.Even py place)
    (hres : result label obj = some res) :
    res.Shows py place M row ↔ obj.Meant py place M row label := by
  rw [result_plain fun rule hrule hnames => (hplain rule hrule hnames).1] at hres
  obtain ⟨hne, hres⟩ := Option.ite_none_left_eq_some.mp hres
  have hne : obj.named label ≠ [] := by simpa using hne
  have hmem {rule : Rule} (h : rule ∈ obj.named label) :
      rule ∈ obj.rules ∧ rule.names label = true := List.mem_filter.mp h
  have hvoid (mode : ModeChoices) : ¬ Result.Void py place ⟨mode, obj.named label⟩ :=
    not_void_of_plain _ hne fun rule hrule => hplain rule (hmem hrule).1 (hmem hrule).2
  have hone {rule : Rule} (hrule : rule ∈ obj.named label) :
      rule.Satisfied py place M row ↔
        ∃ qs, rule.conditions py place = some qs ∧ ∃ q ∈ qs, q.holds M.lookup row := by
    obtain ⟨-, -, qs, hqs, hsome, -⟩ := hplain rule (hmem hrule).1 (hmem hrule).2
    have halike := conditions_alike (heven rule (hmem hrule).1 (hmem hrule).2) hqs
    constructor
    · intro h
      obtain ⟨q, hq⟩ := List.exists_mem_of_ne_nil qs hsome
      exact ⟨qs, hqs, q, hq, h qs hqs q hq⟩
    · rintro ⟨qs', hqs', q, hq, hrow⟩ qs'' hqs'' p hp
      cases hqs.symm.trans hqs'
      cases hqs.symm.trans hqs''
      rwa [halike p hp q hq]
  have hor : Result.Shows py place M ⟨.OR, obj.named label⟩ row ↔
      Combined .OR (obj.named label) (Rule.Satisfied py place M row) := by
    have hfalsy := (has_of_plain .OR hne fun rule hrule =>
      hplain rule (hmem hrule).1 (hmem hrule).2).2
    rw [Result.Shows, or_iff_right (hvoid .OR)]
    constructor
    · rintro ⟨q, ⟨rule, hrule, qs, hqs, hq⟩, -, hrow⟩
      exact ⟨rule, hrule, (hone hrule).mpr ⟨qs, hqs, q, hq, hrow⟩⟩
    · rintro ⟨rule, hrule, hsat⟩
      obtain ⟨qs, hqs, q, hq, hrow⟩ := (hone hrule).mp hsat
      have hhas : Result.Has py place ⟨.OR, obj.named label⟩ q := ⟨rule, hrule, qs, hqs, hq⟩
      exact ⟨q, hhas, hfalsy q hhas, hrow⟩
  have hand : Result.Shows py place M ⟨.AND, obj.named label⟩ row ↔
      Combined .AND (obj.named label) (Rule.Satisfied py place M row) := by
    rw [Combined, and_iff_right hne]
    constructor
    · exact fun h rule hrule qs hqs q hq => h q ⟨rule, hrule, qs, hqs, hq⟩
    · rintro h q ⟨rule, hrule, qs, hqs, hq⟩
      exact h rule hrule qs hqs q hq
  cases hres
  unfold DataPermission.Meant
  by_cases hlength : obj.rules.length = 1
  · -- one rule, in either mode
    obtain ⟨rule, hrules⟩ := List.length_eq_one_iff.mp hlength
    have hnamed : obj.named label = [rule] := by
      have hsub : obj.named label = [] ∨ obj.named label = [rule] := by
        unfold DataPermission.named
        rw [hrules, List.filter_cons]
        split <;> simp
      exact hsub.resolve_left hne
    rw [if_pos hlength, hor, hnamed, combined_single, combined_single]
  · rw [if_neg hlength]
    cases obj.mode_type with
    | OR => exact hor
    | AND => exact hand

/-- The rules of a permission that name the table are plain. -/
def DataPermission.Plain (py : Outside) (place : Place) (label : String) (obj : DataPermission) :
    Prop :=
  ∀ rule ∈ obj.rules, rule.names label = true → rule.Plain py place

section
variable {mode : ModeChoices} {objs : List DataPermission}
  (hplain : ∀ obj ∈ objs, obj.Plain py place label)
include hplain

theorem spec_of_plain {res : Result} (h : res ∈ objs.filterMap (result label)) :
    ¬ res.Void py place ∧ ¬ res.Empty py place ∧ ∀ mode, ¬ res.Ends mode := by
  obtain ⟨obj, hobj, hres⟩ := List.mem_filterMap.mp h
  obtain ⟨hne, hrules⟩ := result_spec hres
  have hvoid : ¬ res.Void py place := not_void_of_plain _ hne fun rule hrule =>
    hplain obj hobj rule (hrules rule hrule).1 (hrules rule hrule).2
  refine ⟨hvoid, fun hempty => hvoid hempty.void, ?_⟩
  rintro mode ⟨-, -, rule, hrule, htype⟩
  exact (hplain obj hobj rule (hrules rule hrule).1 (hrules rule hrule).2).1 htype

theorem not_voids_of_plain {dept_mode : Option ModeChoices} :
    ¬ Voids py place dept_mode (objs.filterMap (result label)) := by
  have hnone : ¬ (objs.filterMap (result label) ≠ [] ∧
      ∀ res ∈ objs.filterMap (result label), res.Void py place) := by
    rintro ⟨hne, hall⟩
    obtain ⟨res, hres⟩ := List.exists_mem_of_ne_nil _ hne
    exact (spec_of_plain hplain hres).1 (hall res hres)
  match dept_mode with
  | none =>
      rintro (⟨res, hres, hends⟩ | hall)
      · exact (spec_of_plain hplain hres).2.2 _ hends
      · exact hnone hall
  | some .OR =>
      rintro (⟨res, hres, hempty⟩ | hall)
      · exact (spec_of_plain hplain hres).2.1 hempty
      · exact hnone hall
  | some .AND =>
      rintro ⟨⟨res, hres, -⟩, hall⟩
      exact hnone ⟨List.ne_nil_of_mem hres, hall⟩

theorem not_opens_of_plain {dept_mode : Option ModeChoices} :
    ¬ Opens py place dept_mode (objs.filterMap (result label)) := by
  rintro ⟨-, res, hres, hempty⟩
  exact (spec_of_plain hplain hres).2.1 hempty

/-- What the permissions of a holder show, in the mode of the user's department. -/
theorem admits_plain_iff {dept_mode : Option ModeChoices} {Row : Type} {M : Rows Row} {row : Row} :
    Admits py place dept_mode (objs.filterMap (result label)) M row ↔
      Combined (dept_mode.getD .OR) (objs.filterMap (result label)) (Result.Shows py place M · row) := by
  have hany : (∃ res ∈ objs.filterMap (result label), ¬ res.Void py place ∧
      res.Shows py place M row) ↔
        ∃ res ∈ objs.filterMap (result label), res.Shows py place M row :=
    exists_congr fun res => and_congr_right fun hres =>
      and_iff_right (spec_of_plain hplain hres).1
  have hsome : (∃ res ∈ objs.filterMap (result label), ¬ res.Empty py place) ↔
      objs.filterMap (result label) ≠ [] := by
    constructor
    · rintro ⟨res, hres, -⟩
      exact List.ne_nil_of_mem hres
    · intro hne
      obtain ⟨res, hres⟩ := List.exists_mem_of_ne_nil _ hne
      exact ⟨res, hres, (spec_of_plain hplain hres).2.1⟩
  match dept_mode with
  | none => rw [Admits, or_iff_right (not_voids_of_plain hplain), hany]; rfl
  | some .OR => rw [Admits, or_iff_right (not_voids_of_plain hplain), hany]; rfl
  | some .AND => rw [Admits, hsome]; rfl

end

end

/-! ### What the user is shown -/

section
variable {py : Outside} {db : Db} {label : String} {menu : Option Nat} {user_obj : UserInfo}
  (hplain : ∀ rule, db.Applies label user_obj rule → rule.Plain py (db.place user_obj))
include hplain

theorem permission_plain {rules : List Nat}
    (hrules : rules = user_obj.rules ∨ ∃ dept ∈ db.chain user_obj, rules = dept.rules) :
    ∀ obj ∈ db.permission menu rules, obj.Plain py (db.place user_obj) label :=
  fun _ hobj rule hrule hnames => hplain rule (applies_of_permission hrules hobj hrule hnames)

/-- **Plain rules are combined in the mode of the user's department**, or with `|` without one. -/
theorem shown_plain_iff {order : Orders} {Row : Type} {M : Rows Row} {row : Row} :
    db.Shown py order label menu user_obj M row ↔
      (db.chain user_obj ≠ [] ∧ ∀ dept ∈ db.chain user_obj, Combined ((db.mode user_obj).getD .OR)
        (db.results label menu dept.rules) (Result.Shows py (db.place user_obj) M · row)) ∨
      Combined ((db.mode user_obj).getD .OR) (db.results label menu user_obj.rules)
        (Result.Shows py (db.place user_obj) M · row) := by
  have hown : ∀ obj ∈ db.permission menu user_obj.rules, obj.Plain py (db.place user_obj) label :=
    permission_plain hplain (.inl rfl)
  have hchain {dept : DeptInfo} (hdept : dept ∈ db.chain user_obj) :
      ∀ obj ∈ db.permission menu dept.rules, obj.Plain py (db.place user_obj) label :=
    permission_plain hplain (.inr ⟨dept, hdept, rfl⟩)
  have hadmits : db.DeptAdmits py label menu user_obj M row ↔
      db.chain user_obj ≠ [] ∧ ∀ dept ∈ db.chain user_obj, Combined ((db.mode user_obj).getD .OR)
        (db.results label menu dept.rules) (Result.Shows py (db.place user_obj) M · row) :=
    and_congr_right fun _ => forall₂_congr fun dept hdept => admits_plain_iff (hchain hdept)
  have hpersonal : Admits py (db.place user_obj) (db.mode user_obj)
      (db.results label menu user_obj.rules) M row ↔ _ := admits_plain_iff hown
  have hdept : ¬ db.DeptOpens py order label menu user_obj := by
    rintro ⟨-, first, last, hsplit, hopens⟩
    have hlast : last ∈ order.depts (db.chain user_obj) := by simp [hsplit]
    exact not_opens_of_plain (hchain ((order.perm_depts _).mem_iff.mp hlast)) hopens
  have hopens : ¬ Opens py (db.place user_obj) (db.mode user_obj)
      (db.results label menu user_obj.rules) := not_opens_of_plain hown
  have hvoids : ¬ Voids py (db.place user_obj) (db.mode user_obj)
      (db.results label menu user_obj.rules) := not_voids_of_plain hown
  unfold Db.Shown
  simp only
  rw [or_iff_right hdept, or_iff_right hopens, hadmits, hpersonal]
  split
  · next hnil =>
    have hresults : db.results label menu user_obj.rules = [] := by simp [Db.results, hnil]
    rw [hresults, or_iff_left not_combined_nil]
  · split
    · next hvoid =>
      rcases hvoid with hnone | ⟨hne, hall⟩
      · have hchain : db.chain user_obj = [] := by simp [Db.chain, hnone]
        simp [hchain]
        rfl
      · obtain ⟨dept, hmem⟩ := List.exists_mem_of_ne_nil _ hne
        exact absurd (hall dept hmem) (not_voids_of_plain (hchain hmem))
    · rw [and_iff_right hvoids]
      rfl

end

/-! ### Rules arranged in permissions -/

def DeptInfo.relink (links : Nat → List Nat) (dept : DeptInfo) : DeptInfo :=
  { dept with rules := links dept.pk }

/-- Other permissions, and other links from the departments. -/
def Db.attach (db : Db) (perms : Table Nat DataPermission DataPermission.pk)
    (links : Nat → List Nat) : Db :=
  { db with
    data_permissions := perms
    depts := db.depts.map (.relink links) fun _ => rfl }

/-- Other links from the user. -/
def UserInfo.attach (user_obj : UserInfo) (own : List Nat) : UserInfo :=
  { user_obj with rules := own }

section
variable {db : Db} {user_obj : UserInfo} {perms : Table Nat DataPermission DataPermission.pk}
  {links : Nat → List Nat} {own : List Nat}

theorem dept_attach : (db.attach perms links).dept (user_obj.attach own) =
    (db.dept user_obj).map (.relink links) := by
  unfold Db.dept Db.attach UserInfo.attach
  cases user_obj.dept with
  | none => rfl
  | some pk => exact Table.get_map db.depts (.relink links) (fun _ => rfl) pk

theorem dept_values_attach : (db.attach perms links).dept_values = db.dept_values := by
  simp [Db.dept_values, Db.attach, Table.map, DeptInfo.relink, Function.comp_def]

theorem place_attach : (db.attach perms links).place (user_obj.attach own) = db.place user_obj := by
  unfold Db.place
  rw [dept_attach, dept_values_attach]
  simp [UserInfo.attach, DeptInfo.relink, Function.comp_def]

theorem mode_attach : (db.attach perms links).mode (user_obj.attach own) = db.mode user_obj := by
  unfold Db.mode
  rw [dept_attach]
  simp [DeptInfo.relink, Function.comp_def]

theorem chain_attach : (db.attach perms links).chain (user_obj.attach own) =
    (db.chain user_obj).map (.relink links) := by
  unfold Db.chain
  rw [dept_values_attach, dept_attach]
  simp only [Db.attach, Table.map, List.filter_map, Function.comp_def]
  congr 1
  refine List.filter_congr fun dept _ => ?_
  rw [decide_eq_decide]
  cases db.dept user_obj <;> simp [DeptInfo.relink]

end

section
variable (db : Db) (user_obj : UserInfo)

/-- The user and the departments have the mode that the filter uses. -/
def ModesAgree : Prop :=
  user_obj.mode_type = (db.mode user_obj).getD .OR ∧
    ∀ dept ∈ db.chain user_obj, dept.mode_type = (db.mode user_obj).getD .OR

/-- The rules are satisfied by the same rows. -/
def SameRows (py : Outside) (place : Place) (label : String) (S : Rule → Prop) : Prop :=
  ∀ rule rule', S rule → S rule' → rule.names label = true → rule'.names label = true →
    rule.Plain py place → rule'.Plain py place → ∀ {Row : Type} (M : Rows Row) (row : Row),
      (rule.Satisfied py place M row ↔ rule'.Satisfied py place M row)

end

section
variable {py : Outside} {db : Db} {label : String} {menu : Option Nat} {user_obj : UserInfo}

/-- The permissions of a holder, as they are combined and as they are meant. -/
theorem combined_results_iff {mode : ModeChoices} {rules : List Nat} {place : Place}
    (hplain : ∀ obj ∈ db.permission menu rules, obj.Plain py place label)
    (heven : ∀ obj ∈ db.permission menu rules, ∀ rule ∈ obj.rules, rule.names label = true →
      rule.Even py place) {Row : Type} {M : Rows Row} {row : Row} :
    Combined mode (db.results label menu rules) (Result.Shows py place M · row) ↔
      Combined mode (db.objs label menu rules) (DataPermission.Meant py place M row label) := by
  unfold Db.results Db.objs
  generalize db.permission menu rules = objs at hplain heven
  let f (obj : DataPermission) : Result :=
    ⟨if obj.rules.length = 1 then .OR else obj.mode_type, obj.named label⟩
  have hresult {obj : DataPermission} (hobj : obj ∈ objs) :
      result label obj = if (obj.named label).isEmpty then none else some (f obj) :=
    result_plain fun rule hrule hnames => (hplain obj hobj rule hrule hnames).1
  have hmap : objs.filterMap (result label) =
      (objs.filter fun obj => !(obj.named label).isEmpty).map f := by
    rw [← List.filterMap_eq_map, ← List.filterMap_eq_filter, List.filterMap_filterMap]
    refine List.filterMap_congr fun obj hobj => ?_
    rw [hresult hobj]
    cases hnamed : (obj.named label).isEmpty <;> simp [Option.guard, hnamed]
  rw [hmap, combined_map]
  refine combined_congr fun obj hobj => ?_
  obtain ⟨hobj, hne⟩ := List.mem_filter.mp hobj
  refine shows_iff_meant (hplain obj hobj) (heven obj hobj) ?_
  rw [hresult hobj, if_neg (by simpa using hne)]

/-- Rules that are satisfied by the same rows are combined alike in either mode. -/
theorem combined_same_rows {mode mode' : ModeChoices} {rules : List Nat}
    (hrules : rules = user_obj.rules ∨ ∃ dept ∈ db.chain user_obj, rules = dept.rules)
    (hplain : ∀ rule, db.Applies label user_obj rule → rule.Plain py (db.place user_obj))
    (h : SameRows py (db.place user_obj) label (db.Applies label user_obj))
    {Row : Type} {M : Rows Row} {row : Row} :
    Combined mode (db.objs label menu rules)
        (DataPermission.Meant py (db.place user_obj) M row label) ↔
      Combined mode' (db.objs label menu rules)
        (DataPermission.Meant py (db.place user_obj) M row label) := by
  by_cases hnil : db.objs label menu rules = []
  · rw [hnil]
    exact iff_of_false not_combined_nil not_combined_nil
  · have hnamed {obj : DataPermission} (hobj : obj ∈ db.objs label menu rules) :
        obj.named label ≠ [] ∧ ∀ rule ∈ obj.named label, db.Applies label user_obj rule := by
      obtain ⟨hobj, hne⟩ := List.mem_filter.mp hobj
      refine ⟨by simpa using hne, fun rule hrule => ?_⟩
      obtain ⟨hrule, hnames⟩ := List.mem_filter.mp hrule
      exact applies_of_permission hrules hobj hrule hnames
    obtain ⟨first, hfirst⟩ := List.exists_mem_of_ne_nil _ hnil
    obtain ⟨rule, hrule⟩ := List.exists_mem_of_ne_nil _ (hnamed hfirst).1
    have happlies := (hnamed hfirst).2 rule hrule
    have hmeant : ∀ obj ∈ db.objs label menu rules,
        (obj.Meant py (db.place user_obj) M row label ↔
          rule.Satisfied py (db.place user_obj) M row) := by
      refine fun obj hobj => combined_alike (hnamed hobj).1 fun rule' hrule' => ?_
      have happlies' := (hnamed hobj).2 rule' hrule'
      exact h rule' rule happlies' happlies happlies'.1 happlies.1 (hplain rule' happlies')
        (hplain rule happlies) M row
    rw [combined_alike hnil hmeant, combined_alike hnil hmeant]

/-- **The filter shows what is meant**, if the modes agree, or do not matter. -/
theorem combines_of_agree (hsuper : user_obj.is_superuser = false)
    (hlooping : ¬ (db.place user_obj).Looping)
    (hplain : ∀ rule, db.Applies label user_obj rule → rule.Plain py (db.place user_obj))
    (heven : ∀ rule, db.Applies label user_obj rule → rule.Even py (db.place user_obj))
    (h : ModesAgree db user_obj ∨
      SameRows py (db.place user_obj) label (db.Applies label user_obj)) :
    CombinesAsMeant py db label menu user_obj := by
  have hraise : ∀ rule, db.Applies label user_obj rule →
      rule.conditions py (db.place user_obj) ≠ none := by
    intro rule happlies
    obtain ⟨-, -, qs, hqs, -⟩ := hplain rule happlies
    simp [hqs]
  have hqueryset : ∃ queryset, get_filter_queryset_in py .listed true db label menu user_obj =
      some queryset := exists_queryset hlooping hraise
  obtain ⟨queryset, hqueryset⟩ := hqueryset
  refine ⟨queryset, by rwa [get_filter_queryset_listed] at hqueryset, fun M row => ?_⟩
  rw [shown_iff hsuper hqueryset, shown_plain_iff hplain]
  have hholder (mode : ModeChoices) (rules : List Nat)
      (hrules : rules = user_obj.rules ∨ ∃ dept ∈ db.chain user_obj, rules = dept.rules)
      (hmode : ModesAgree db user_obj → mode = (db.mode user_obj).getD .OR) :
      Combined ((db.mode user_obj).getD .OR) (db.results label menu rules)
          (Result.Shows py (db.place user_obj) M · row) ↔
        db.HolderMeant py label menu user_obj M row mode rules := by
    rw [combined_results_iff (permission_plain hplain hrules) fun obj hobj rule hrule hnames =>
      heven rule (applies_of_permission hrules hobj hrule hnames)]
    rcases h with h | h
    · rw [← hmode h]
      rfl
    · exact combined_same_rows hrules hplain h
  refine or_congr (and_congr_right fun _ => forall₂_congr fun dept hdept => ?_) ?_
  · exact hholder dept.mode_type dept.rules (.inr ⟨dept, hdept, rfl⟩) fun h => h.2 dept hdept
  · exact hholder user_obj.mode_type user_obj.rules (.inl rfl) And.left

/-- What the permissions show is what is meant, in the modes of both. -/
theorem CombinesAsMeant.combined_iff (h : CombinesAsMeant py db label menu user_obj)
    (hsuper : user_obj.is_superuser = false)
    (hplain : ∀ rule, db.Applies label user_obj rule → rule.Plain py (db.place user_obj))
    {Row : Type} (M : Rows Row) (row : Row) :
    (db.chain user_obj ≠ [] ∧ ∀ dept ∈ db.chain user_obj, Combined ((db.mode user_obj).getD .OR)
        (db.results label menu dept.rules) (Result.Shows py (db.place user_obj) M · row)) ∨
      Combined ((db.mode user_obj).getD .OR) (db.results label menu user_obj.rules)
        (Result.Shows py (db.place user_obj) M · row) ↔ db.Meant py label menu user_obj M row := by
  obtain ⟨queryset, hqueryset, hshows⟩ := h
  rw [← get_filter_queryset_listed] at hqueryset
  rw [← shown_plain_iff hplain, ← shown_iff hsuper hqueryset, hshows]

end

/-! ### Where the modes matter -/

/-- A permission with one rule, for all menus. -/
def DataPermission.single (pk : Nat) (rule : Rule) : DataPermission where
  pk := pk
  is_active := true
  mode_type := .OR
  rules := [rule]
  menu := []

/-- Two rules, each in a permission of its own. -/
def pair (rule rule' : Rule) : Table Nat DataPermission DataPermission.pk :=
  ⟨[.single 0 rule, .single 1 rule'], by simp [DataPermission.single]⟩

section
variable {py : Outside} {db : Db} {label : String} {user_obj : UserInfo} {rule rule' : Rule}
  {links : Nat → List Nat} {own : List Nat}

theorem permission_pair (rules : List Nat) :
    (db.attach (pair rule rule') links).permission none rules =
      [DataPermission.single 0 rule, .single 1 rule'].filter fun obj => rules.contains obj.pk := by
  simp [Db.permission, Db.attach, pair, DataPermission.single, List.filter_cons]

theorem applies_pair {applied : Rule}
    (h : (db.attach (pair rule rule') links).Applies label (user_obj.attach own) applied) :
    applied = rule ∨ applied = rule' := by
  obtain ⟨-, obj, hobj, -, happlied, -⟩ := h
  have hobj : obj = .single 0 rule ∨ obj = .single 1 rule' := by
    simpa [Db.attach, pair] using hobj
  rcases hobj with rfl | rfl
  · exact .inl (List.mem_singleton.mp happlied)
  · exact .inr (List.mem_singleton.mp happlied)

theorem meant_single {place : Place} {Row : Type} {M : Rows Row} {row : Row}
    (hnames : rule.names label = true) (pk : Nat) :
    (DataPermission.single pk rule).Meant py place M row label ↔ rule.Satisfied py place M row := by
  have hnamed : (DataPermission.single pk rule).named label = [rule] := by
    simp [DataPermission.named, DataPermission.single, hnames]
  rw [DataPermission.Meant, hnamed, combined_single]

variable (hnames : rule.names label = true) (hnames' : rule'.names label = true)
include hnames hnames'

theorem objs_pair (rules : List Nat) : (db.attach (pair rule rule') links).objs label none rules =
    [DataPermission.single 0 rule, .single 1 rule'].filter fun obj => rules.contains obj.pk := by
  unfold Db.objs
  rw [permission_pair, List.filter_filter]
  refine List.filter_congr fun obj hobj => ?_
  have hobj : obj = .single 0 rule ∨ obj = .single 1 rule' := by simpa using hobj
  rcases hobj with rfl | rfl
  · simp [DataPermission.named, DataPermission.single, hnames]
  · simp [DataPermission.named, DataPermission.single, hnames']

/-- The departments and the user with the permissions that they are linked to, as they are combined
and as they are meant. -/
theorem pair_iff (hsuper : user_obj.is_superuser = false)
    (hplain : rule.Plain py (db.place user_obj)) (hplain' : rule'.Plain py (db.place user_obj))
    (heven : rule.Even py (db.place user_obj)) (heven' : rule'.Even py (db.place user_obj))
    (h : CombinesAsMeant py (db.attach (pair rule rule') links) label none (user_obj.attach own))
    {Row : Type} (M : Rows Row) (row : Row) :
    let picked (mode : ModeChoices) (rules : List Nat) : Prop :=
      Combined mode ([DataPermission.single 0 rule, .single 1 rule'].filter fun obj =>
        rules.contains obj.pk) (DataPermission.Meant py (db.place user_obj) M row label)
    (db.chain user_obj ≠ [] ∧
        ∀ dept ∈ db.chain user_obj, picked ((db.mode user_obj).getD .OR) (links dept.pk)) ∨
      picked ((db.mode user_obj).getD .OR) own ↔
    (db.chain user_obj ≠ [] ∧
        ∀ dept ∈ db.chain user_obj, picked dept.mode_type (links dept.pk)) ∨
      picked user_obj.mode_type own := by
  have happlies {applied : Rule}
      (h : (db.attach (pair rule rule') links).Applies label (user_obj.attach own) applied) :
      applied.Plain py (db.place user_obj) ∧ applied.Even py (db.place user_obj) := by
    rcases applies_pair h with rfl | rfl
    · exact ⟨hplain, heven⟩
    · exact ⟨hplain', heven'⟩
  have hobjs {rules : List Nat} {obj : DataPermission}
      (hobj : obj ∈ (db.attach (pair rule rule') links).permission none rules) :
      ∀ r ∈ obj.rules, r.Plain py (db.place user_obj) ∧ r.Even py (db.place user_obj) := by
    rw [permission_pair] at hobj
    have hobj : obj = .single 0 rule ∨ obj = .single 1 rule' := by
      simpa using List.mem_of_mem_filter hobj
    rcases hobj with rfl | rfl
    · intro r hr
      obtain rfl := List.mem_singleton.mp hr
      exact ⟨hplain, heven⟩
    · intro r hr
      obtain rfl := List.mem_singleton.mp hr
      exact ⟨hplain', heven'⟩
  have hiff := h.combined_iff hsuper (fun applied h => by
    rw [place_attach]
    exact (happlies h).1) M row
  have hresults (mode : ModeChoices) (rules : List Nat) :
      Combined mode ((db.attach (pair rule rule') links).results label none rules)
          (Result.Shows py (db.place user_obj) M · row) ↔
        Combined mode ((db.attach (pair rule rule') links).objs label none rules)
          (DataPermission.Meant py (db.place user_obj) M row label) :=
    combined_results_iff (fun obj hobj r hr _ => (hobjs hobj r hr).1)
      fun obj hobj r hr _ => (hobjs hobj r hr).2
  unfold Db.Meant Db.HolderMeant at hiff
  rw [chain_attach, mode_attach, place_attach] at hiff
  simp only [hresults, objs_pair hnames hnames', List.forall_mem_map, ne_eq, List.map_eq_nil_iff]
    at hiff
  exact hiff

end

section
variable {py : Outside} {db : Db} {label : String} {user_obj : UserInfo} {S : Rule → Prop}

/-- The filter shows what is meant, however plain rules of `S` are arranged. -/
def AlwaysMeant (py : Outside) (db : Db) (label : String) (user_obj : UserInfo)
    (S : Rule → Prop) : Prop :=
  ∀ perms links own menu,
    (∀ rule, (db.attach perms links).Applies label (user_obj.attach own) rule →
      S rule ∧ rule.Plain py (db.place user_obj)) →
    CombinesAsMeant py (db.attach perms links) label menu (user_obj.attach own)

variable (h : AlwaysMeant py db label user_obj S) (hsuper : user_obj.is_superuser = false)
include h hsuper

theorem not_looping_of_meant : ¬ (db.place user_obj).Looping := by
  intro hlooping
  obtain ⟨queryset, hqueryset, -⟩ := h .empty (fun _ => []) [] none fun rule happlies => by
    obtain ⟨-, obj, hobj, -⟩ := happlies
    cases hobj
  have hfails : get_filter_queryset py true (db.attach .empty fun _ => []) label none
      (user_obj.attach []) = none := fails_of_looping (by rwa [place_attach]) hsuper
  rw [hfails] at hqueryset
  cases hqueryset

section
variable {rule : Rule} (hrule : S rule) (hnames : rule.names label = true)
  (hplain : rule.Plain py (db.place user_obj))
include hrule hnames hplain

/-- The elements of a list are joined with `|`, also where a row has to have each of them. -/
theorem even_of_meant : rule.Even py (db.place user_obj) := by
  intro hway val hval
  by_contra htight
  obtain ⟨r, hr, hval⟩ := Option.bind_eq_some_iff.mp hval
  obtain ⟨hfield, -, hr_way⟩ := resolve_spec hr
  obtain ⟨-, -, qs, hqs, hne, -⟩ := id hplain
  have hattr : attr_qs py r = some qs := by
    rwa [Rule.conditions, hr, Option.bind_some] at hqs
  cases hname : r.field with
  | none =>
      rw [attr_qs_of_none (.inl hname)] at hattr
      exact hne (Option.some.inj hattr).symm
  | some name =>
      rw [attr_qs_m2m_all hname hval (hr_way.trans hway)] at hattr
      obtain ⟨M, ⟨v, hv, hin⟩, hnot⟩ := exists_single_not_listed name htight
      cases hattr
      have happlies {applied : Rule} (happlies : (db.attach (pair rule rule) fun _ => []).Applies
          label (user_obj.attach [0]) applied) : applied = rule :=
        (applies_pair happlies).elim id id
      have hmeant := h (pair rule rule) (fun _ => []) [0] none fun applied h => by
        rw [happlies h]
        exact ⟨hrule, hplain⟩
      have hiff := hmeant.combined_iff hsuper (fun applied h => by
        rw [happlies h, place_attach]
        exact hplain) M ()
      unfold Db.Meant Db.HolderMeant at hiff
      rw [place_attach] at hiff
      have hshown : Result.Shows py (db.place user_obj) M ⟨.OR, [rule]⟩ () :=
        .inr ⟨_, ⟨rule, List.mem_cons_self, _, hqs, List.mem_map_of_mem hv⟩, rfl, hin⟩
      have hresults : (db.attach (pair rule rule) fun _ => []).results label none
          (user_obj.attach [0]).rules = [⟨.OR, [rule]⟩] := by
        simp [Db.results, permission_pair, DataPermission.single, result, select, hnames,
          hplain.1, UserInfo.attach]
      rw [hresults, combined_single, objs_pair hnames hnames] at hiff
      rcases hiff.mp (.inr hshown) with ⟨hsome, hall⟩ | hsat
      · -- the departments have no permissions
        obtain ⟨dept, hdept⟩ := List.exists_mem_of_ne_nil _ hsome
        have hnone := hall dept hdept
        rw [chain_attach] at hdept
        obtain ⟨dept, -, rfl⟩ := List.mem_map.mp hdept
        rw [objs_pair hnames hnames] at hnone
        exact not_combined_nil hnone
      · have hone : ([DataPermission.single 0 rule, .single 1 rule].filter fun obj =>
            (user_obj.attach [0]).rules.contains obj.pk) = [.single 0 rule] := rfl
        rw [hone, combined_single, meant_single hnames] at hsat
        exact hnot fun w hw => hsat _ hqs _ (List.mem_map_of_mem hw)

end

/-- Two rules that differ on a row show in which mode they are combined. -/
theorem agree_of_meant (heven : ∀ rule, S rule → rule.names label = true →
      rule.Plain py (db.place user_obj) → rule.Even py (db.place user_obj)) :
    ModesAgree db user_obj ∨ SameRows py (db.place user_obj) label S := by
  by_contra hnot
  obtain ⟨hmodes, hsame⟩ := not_or.mp hnot
  have hdiffer : ∃ rule rule', (S rule ∧ rule.names label = true ∧
      rule.Plain py (db.place user_obj)) ∧ (S rule' ∧ rule'.names label = true ∧
      rule'.Plain py (db.place user_obj)) ∧ ∃ (Row : Type) (M : Rows Row) (row : Row),
        rule.Satisfied py (db.place user_obj) M row ∧
          ¬ rule'.Satisfied py (db.place user_obj) M row := by
    unfold SameRows at hsame
    push Not at hsame
    obtain ⟨rule, rule', hrule, hrule', hnames, hnames', hplain, hplain', Row, M, row, h⟩ := hsame
    rcases h with h | h
    · exact ⟨rule, rule', ⟨hrule, hnames, hplain⟩, ⟨hrule', hnames', hplain'⟩, Row, M, row, h⟩
    · exact ⟨rule', rule, ⟨hrule', hnames', hplain'⟩, ⟨hrule, hnames, hplain⟩, Row, M, row, h.symm⟩
  obtain ⟨rule, rule', ⟨hrule, hnames, hplain⟩, ⟨hrule', hnames', hplain'⟩, Row, M, row, hsat,
    hunsat⟩ := hdiffer
  have hiff (links : Nat → List Nat) (own : List Nat) :=
    pair_iff hnames hnames' hsuper hplain hplain' (heven rule hrule hnames hplain)
      (heven rule' hrule' hnames' hplain') (h (pair rule rule') links own none fun applied h => by
        rcases applies_pair h with rfl | rfl
        · exact ⟨hrule, hplain⟩
        · exact ⟨hrule', hplain'⟩) M row
  simp only at hiff
  have hboth (mode : ModeChoices) : Combined mode
      ([DataPermission.single 0 rule, .single 1 rule'].filter fun obj => [0, 1].contains obj.pk)
      (DataPermission.Meant py (db.place user_obj) M row label) ↔ mode = .OR :=
    combined_pair ((meant_single hnames 0).mpr hsat) (mt (meant_single hnames' 1).mp hunsat)
  have hfirst (mode : ModeChoices) : Combined mode
      ([DataPermission.single 0 rule, .single 1 rule'].filter fun obj => [0].contains obj.pk)
      (DataPermission.Meant py (db.place user_obj) M row label) :=
    combined_single.mpr ((meant_single hnames 0).mpr hsat)
  have hnone (mode : ModeChoices) : ¬ Combined mode
      ([DataPermission.single 0 rule, .single 1 rule'].filter fun obj => [].contains obj.pk)
      (DataPermission.Meant py (db.place user_obj) M row label) := not_combined_nil
  have hsame {mode mode' : ModeChoices} (h : mode = .OR ↔ mode' = .OR) : mode = mode' := by
    cases mode <;> cases mode' <;> simp at h ⊢
  refine hmodes ⟨?_, fun dept hdept => ?_⟩
  · -- both rules are the user's
    have hdepts (mode : DeptInfo → ModeChoices) : ¬ (db.chain user_obj ≠ [] ∧
        ∀ dept ∈ db.chain user_obj, Combined (mode dept)
          ([DataPermission.single 0 rule, .single 1 rule'].filter fun obj => [].contains obj.pk)
          (DataPermission.Meant py (db.place user_obj) M row label)) := by
      rintro ⟨hsome, hall⟩
      obtain ⟨dept, hdept⟩ := List.exists_mem_of_ne_nil _ hsome
      exact hnone _ (hall dept hdept)
    have h := hiff (fun _ => []) [0, 1]
    rw [or_iff_right (hdepts fun _ => _), or_iff_right (hdepts DeptInfo.mode_type), hboth,
      hboth] at h
    exact (hsame h).symm
  · -- both are the department's, and the others have the first
    have hdepts (mode : DeptInfo → ModeChoices) : (db.chain user_obj ≠ [] ∧
        ∀ d ∈ db.chain user_obj, Combined (mode d)
          ([DataPermission.single 0 rule, .single 1 rule'].filter fun obj =>
            (if d.pk = dept.pk then [0, 1] else [0]).contains obj.pk)
          (DataPermission.Meant py (db.place user_obj) M row label)) ↔ mode dept = .OR := by
      rw [and_iff_right (List.ne_nil_of_mem hdept)]
      constructor
      · intro hall
        have := hall dept hdept
        rwa [if_pos rfl, hboth] at this
      · intro hmode d hd
        by_cases hpk : d.pk = dept.pk
        · obtain rfl := Table.eq_of_key (mem_chain.mp hd).1 (mem_chain.mp hdept).1 hpk
          rw [if_pos rfl, hboth]
          exact hmode
        · rw [if_neg hpk]
          exact hfirst _
    have h := hiff (fun pk => if pk = dept.pk then [0, 1] else [0]) []
    rw [or_iff_left (hnone _), or_iff_left (hnone _), hdepts fun _ => _,
      hdepts DeptInfo.mode_type] at h
    exact (hsame h).symm

end

/-- The hosts with this value in a field. -/
def hostsWith (name value : String) : Rule where
  table := some "virt_center.host"
  type := some .TEXT
  field := some name
  value := some (.str value)
  «match» := some "exact"
  exclude := none

theorem hostsWith_conditions (py : Outside) (place : Place) (name value : String) :
    (hostsWith name value).conditions py place =
      some [if value = "*" then .empty else .atom (.field name "exact" (.str value))] := by
  have hway : (hostsWith name value).way = .other "exact" := by
    simp [Rule.way, hostsWith, Match.of]
  have hresolve : resolve py place (hostsWith name value) = some (hostsWith name value) := rfl
  rw [Rule.conditions, hresolve, Option.bind_some,
    attr_qs_match rfl rfl hway (by simp) (by simp)]
  simp [match_q, Value.isStr, Rule.excluded, hostsWith]

theorem hostsWith_plain {py : Outside} {place : Place} {name value : String} (h : value ≠ "*") :
    (hostsWith name value).Plain py place := by
  refine ⟨nofun, rfl, _, hostsWith_conditions py place name value, by simp, ?_⟩
  simp [h, Query.falsy]

theorem hostsWith_even {py : Outside} {place : Place} {name value : String} :
    (hostsWith name value).Even py place := by
  have hway : (hostsWith name value).meant_way = .other "exact" := by
    simp [Rule.meant_way, Rule.way, hostsWith, Match.of]
  rw [Rule.Even, hway]
  simp

/-- The user asks for the hosts that every permission grants. -/
def operator : UserInfo :=
  { auditor with rules := [0, 1], mode_type := .AND }

def operatorDb : Db :=
  { auditorDb with data_permissions := pair (hostsWith "cluster" "c1") (hostsWith "status" "on") }

end InfraHub.Permission
