import InfraHub.Permission.Needed

/-!
# Permission — RowSet

The rows that a list of rules selects.

`get_filter_attrs_qs` turns every rule into conditions.  `Rule.Grants` is what a rule means: the rows that
match, and with `exclude` the others.

* `attr_qs_eq_none_iff`: which rules raise an exception.
* `Rule.Slips`: a row on which the condition of a rule and its meaning differ; `holds_attr_qs_iff` says that
  they differ there and nowhere else.
* `selects_iff`: the conditions of a list of rules select what the rules mean if and only if no rule raises,
  and no row slips through.
-/

namespace InfraHub.Permission
open InfraHub.Lib (Query exists_mapM exists_of_mem_mapM exists_result_of_mem)

/-! ### What a rule means -/

/-- There is `"*"` among the addresses. -/
def ip_star (val : Value) : Bool := ((ip_list val).getD []).any (Value.isStr "*")

section
variable (py : Outside) {Row : Type} (M : Rows Row)

/-- The rows that match.  `"*"` is every row for `exact`, `in` and `ip_in`, and a text for any other lookup. -/
def Matches (name : String) (val : Value) : Match → Row → Prop
  | .ip_in, row => ip_star val = true ∨ Lists M name py val .ip_in row
  | .other lookup, row => lookup = "exact" ∧ val.isStr "*" = true ∨ M.sat name lookup val row
  | way, row => Lists M name py val way row

/-- **The rows that a rule means**: those that match, or with `exclude` the others. -/
def Rule.Grants (rule : Rule) (row : Row) : Prop :=
  ∀ name val, rule.field = some name → rule.val = some val →
    if rule.excluded then ¬ Matches py M name val rule.way row else Matches py M name val rule.way row

/-- **The list of rules selects what it means.** -/
def Selects (rules : List Rule) : Prop :=
  ∃ qs, get_filter_attrs_qs py rules = some qs ∧
    ∀ row, (∀ q ∈ qs, q.holds M.lookup row) ↔ ∀ rule ∈ rules, rule.Grants py M row

/-! ### Where the code differs -/

/-- `"/" in ip` or `"-" in ip` raises for the entry, or `ip.split` does. -/
def Value.untyped : Value → Bool
  | .str _ => false
  | ip => ip.truthy && !ip.slashed

/-- The value raises: a regular expression that is no string, or addresses that are no list of strings. -/
def Untyped (val : Value) : Match → Prop
  | .regex => ∀ s, val ≠ .str s
  | .ip_in => ip_list val = none ∨ nested_star val = false ∧ ((ip_list val).getD []).any Value.untyped = true
  | _ => False

def Rule.Raises (rule : Rule) : Prop :=
  ∃ name val, rule.field = some name ∧ rule.val = some val ∧ Untyped val rule.way

/-- An address is matched, but found by no lookup: by `"*"`, or at an end of a network. -/
def Unfound (name : String) (val : Value) (row : Row) : Prop :=
  Matches py M name val .ip_in row ∧ ∀ entry ∈ ip_entries py val, ¬ M.lookup (entry.lookup name) row

/-- **A rule slips on a row**: its condition is empty and the rule does not mean the row; it excludes by
`m2m_all`; or the row has an address that is not found. -/
def Rule.Slips (rule : Rule) (row : Row) : Prop :=
  ∃ name val, rule.field = some name ∧ rule.val = some val ∧
    (Unconditional py val rule.way ∧ ¬ rule.Grants py M row ∨
      ¬ Unconditional py val rule.way ∧
        (rule.way = .m2m_all ∧ rule.excluded = true ∨ rule.way = .ip_in ∧ Unfound py M name val row))

/-- No row slips through: if a rule slips on it, another one refuses it and means to, or one that shows it
and one that refuses it slip. -/
def Tightly (rules : List Rule) (row : Row) : Prop :=
  (∃ rule ∈ rules, rule.Slips py M row) →
    (∃ rule ∈ rules, ¬ rule.Grants py M row ∧ ¬ rule.Slips py M row) ∨
      (∃ rule ∈ rules, rule.Grants py M row ∧ rule.Slips py M row) ∧
        ∃ rule ∈ rules, ¬ rule.Grants py M row ∧ rule.Slips py M row

end

/-! ### Rules that raise -/

section
variable {py : Outside} {rule : Rule} {name : String} {val : Value}

theorem readable_eq_none_iff {l : List Value} : readable py l = none ↔ l.any Value.untyped = true := by
  induction l with
  | nil => simp [readable]
  | cons ip l ih =>
      rw [List.any_cons, Bool.or_eq_true, ← ih]
      cases ip with
      | str s => by_cases hs : s = "" <;> simp [readable, Value.untyped, Value.truthy, hs]
      | _ =>
          simp only [readable, Value.untyped, Bool.and_eq_true, Bool.not_eq_true']
          grind

theorem match_q_eq_none_iff {way : Match} : match_q py name val way = none ↔ Untyped val way := by
  cases way with
  | regex => cases val <;> simp [match_q, Untyped]
  | ip_in =>
      rw [match_q, get_ip_in_q, Untyped, nested_star]
      cases hl : ip_list val with
      | none => simp
      | some l =>
          rw [Option.bind_some, Option.getD_some]
          cases hstar : l.any Value.isStar with
          | true => simp
          | false => simp [readable_eq_none_iff]
  | _ => simp [match_q, Untyped]

/-- **The rules that raise.** -/
theorem attr_qs_eq_none_iff : attr_qs py rule = none ↔ rule.Raises := by
  rw [Rule.Raises]
  cases hfield : rule.field with
  | none => simp [attr_qs, hfield]
  | some name =>
      cases hval : rule.val with
      | none => simp [attr_qs, hfield, hval]
      | some val =>
          simp only [Option.some_inj, exists_eq_left', exists_and_left]
          cases hway : rule.way with
          | all => simp [attr_qs, hfield, hval, hway, Untyped]
          | m2m_all => simp [attr_qs, hfield, hval, hway, Untyped]
          | _ =>
              rw [attr_qs_match hfield hval hway (by simp) (by simp), Option.map_eq_none_iff,
                match_q_eq_none_iff]

/-! ### The rows that a rule selects -/

variable {Row : Type} {M : Rows Row} {row : Row} {way : Match} {q : Q} {qs : List Q}

/-- **A condition that is not empty** finds what matches, but for addresses that it does not find. -/
theorem found_iff (hcond : ¬ Unconditional py val way) : Found py M name val way row ↔
    Matches py M name val way row ∧ ¬ (way = .ip_in ∧ Unfound py M name val row) := by
  cases way with
  | ip_in =>
      constructor
      · intro hfound
        refine ⟨.inr (lists_of_found hfound), fun h => ?_⟩
        obtain ⟨entry, hentry, hlookup⟩ := hfound
        exact h.2.2 entry hentry hlookup
      · rintro ⟨hmatch, hfound⟩
        by_contra hno
        exact hfound ⟨rfl, hmatch, fun entry hentry hlookup => hno ⟨entry, hentry, hlookup⟩⟩
  | other lookup =>
      have hstar : ¬ val.isStr "*" = true := hcond
      simp [Found, Lists, Matches, hstar]
  | _ => simp [Found, Matches]

theorem not_slips_of_missing (h : rule.field = none ∨ rule.val = none) : ¬ rule.Slips py M row := by
  rintro ⟨name, val, hfield, hval, -⟩
  rcases h with h | h
  · rw [h] at hfield
    cases hfield
  · rw [h] at hval
    cases hval

theorem grants_of_missing (h : rule.field = none ∨ rule.val = none) : rule.Grants py M row := by
  intro name val hfield hval
  rcases h with h | h
  · rw [h] at hfield
    cases hfield
  · rw [h] at hval
    cases hval

theorem grants_iff_matches (hfield : rule.field = some name) (hval : rule.val = some val) :
    rule.Grants py M row ↔
      if rule.excluded then ¬ Matches py M name val rule.way row else Matches py M name val rule.way row := by
  simp [Rule.Grants, hfield, hval]

theorem slips_iff (hfield : rule.field = some name) (hval : rule.val = some val) :
    rule.Slips py M row ↔ Unconditional py val rule.way ∧ ¬ rule.Grants py M row ∨
      ¬ Unconditional py val rule.way ∧
        (rule.way = .m2m_all ∧ rule.excluded = true ∨ rule.way = .ip_in ∧ Unfound py M name val row) := by
  simp [Rule.Slips, hfield, hval]

/-- A rule with an empty condition shows every row, and slips where it does not mean to. -/
theorem grants_iff_not_slips (hfield : rule.field = some name) (hval : rule.val = some val)
    (hempty : Unconditional py val rule.way) : rule.Grants py M row ↔ ¬ rule.Slips py M row := by
  rw [slips_iff hfield hval]
  simp [hempty]

theorem attr_qs_missing (h : rule.field = none ∨ rule.val = none) : attr_qs py rule = some [] := by
  unfold attr_qs
  rcases h with h | h
  · rw [h]
  · rw [h]
    cases rule.field <;> rfl

theorem attr_qs_all (hfield : rule.field = some name) (hval : rule.val = some val)
    (hall : rule.way = .all) : attr_qs py rule = some [.empty] := by
  simp [attr_qs, hfield, hval, hall]

/-- `m2m_all` passes over `exclude`. -/
theorem holds_m2m_all (hfield : rule.field = some name) (hval : rule.val = some val)
    (hway : rule.way = .m2m_all) : (∀ v ∈ val.aslist, M.sat name "in" (.list [v]) row) ↔
      (rule.Grants py M row ↔ ¬ rule.Slips py M row) := by
  have hcond : ¬ Unconditional py val .m2m_all := id
  rw [grants_iff_matches hfield hval, slips_iff hfield hval, hway]
  cases rule.excluded with
  | false => simp [hcond, Matches, Lists]
  | true => simp [hcond, Matches, Lists]

theorem and_not_iff {p u : Prop} (h : u → p) : p ∧ ¬ u ↔ (p ↔ ¬ u) := by
  by_cases hu : u
  · simp [hu, h hu]
  · simp [hu]

/-- A condition that `exclude` negates. -/
theorem holds_conditional (hfield : rule.field = some name) (hval : rule.val = some val)
    (hcond : ¬ Unconditional py val rule.way) (hm2m : rule.way ≠ .m2m_all)
    (hq : match_q py name val rule.way = some q) :
    (if rule.excluded then q.invert else q).holds M.lookup row ↔
      (rule.Grants py M row ↔ ¬ rule.Slips py M row) := by
  obtain ⟨hfalsy, hfound⟩ : q.falsy = false ∧ (q.holds M.lookup row ↔ Found py M name val rule.way row) :=
    match_q_of_conditional hcond hm2m hq
  have hholds := hfound.trans (found_iff hcond)
  have hinvert : q.invert.holds M.lookup row ↔ ¬ q.holds M.lookup row := Query.holds_invert hfalsy
  have hunfound : rule.way = .ip_in ∧ Unfound py M name val row → Matches py M name val rule.way row := by
    rintro ⟨hip, hmatch, -⟩
    rw [hip]
    exact hmatch
  rw [grants_iff_matches hfield hval, slips_iff hfield hval]
  simp only [hcond, hm2m, false_and, not_false_eq_true, true_and, false_or]
  cases rule.excluded with
  | false =>
      rw [if_neg (by simp), if_neg (by simp), hholds]
      exact and_not_iff hunfound
  | true =>
      rw [if_pos rfl, if_pos rfl, hinvert, hholds, and_not_iff hunfound, not_iff, not_iff_not]

/-- **The condition of a rule** shows the rows that the rule grants, but for those on which it slips. -/
theorem holds_attr_qs_iff (h : attr_qs py rule = some qs) : (∀ q ∈ qs, q.holds M.lookup row) ↔
    (rule.Grants py M row ↔ ¬ rule.Slips py M row) := by
  by_cases hmissing : rule.field = none ∨ rule.val = none
  · rw [attr_qs_missing hmissing] at h
    cases h
    simp [grants_of_missing hmissing, not_slips_of_missing hmissing]
  · simp only [not_or, ← ne_eq, Option.ne_none_iff_exists'] at hmissing
    obtain ⟨⟨name, hfield⟩, val, hval⟩ := hmissing
    by_cases hm2m : rule.way = .m2m_all
    · rw [attr_qs_m2m_all hfield hval hm2m] at h
      cases h
      rw [← holds_m2m_all hfield hval hm2m]
      simp [Query.holds, Rows.lookup]
    · by_cases hempty : Unconditional py val rule.way
      · rw [iff_true_right (grants_iff_not_slips hfield hval hempty)]
        by_cases hall : rule.way = .all
        · rw [attr_qs_all hfield hval hall] at h
          cases h
          simp [Query.holds]
        · rw [attr_qs_match hfield hval rfl hall hm2m] at h
          obtain ⟨q, hq, rfl⟩ := Option.map_eq_some_iff.mp h
          obtain rfl := match_q_of_unconditional hempty hall hq
          -- negated, it is still empty
          cases rule.excluded <;> simp [Query.holds, Query.invert, Query.falsy]
      · have hall : rule.way ≠ .all := by
          intro hall
          rw [hall] at hempty
          exact hempty trivial
        rw [attr_qs_match hfield hval rfl hall hm2m] at h
        obtain ⟨q, hq, rfl⟩ := Option.map_eq_some_iff.mp h
        rw [List.forall_mem_singleton]
        exact holds_conditional hfield hval hempty hm2m hq

/-! ### A list of rules -/

/-- The conditions of a list, rule by rule. -/
theorem holds_attrs_qs_iff {rules : List Rule} (h : get_filter_attrs_qs py rules = some qs) :
    (∀ q ∈ qs, q.holds M.lookup row) ↔
      ∀ rule ∈ rules, rule.Grants py M row ↔ ¬ rule.Slips py M row := by
  obtain ⟨qss, hqss, rfl⟩ := Option.map_eq_some_iff.mp h
  constructor
  · intro hall rule hrule
    obtain ⟨qs, hqs, hattr⟩ := exists_result_of_mem hqss hrule
    exact (holds_attr_qs_iff hattr).mp fun q hq => hall q (List.mem_flatten_of_mem hqs hq)
  · intro hall q hq
    obtain ⟨qs, hqs, hmem⟩ := List.mem_flatten.mp hq
    obtain ⟨rule, hrule, hattr⟩ := exists_of_mem_mapM hqss hqs
    exact (holds_attr_qs_iff hattr).mpr (hall rule hrule) q hmem

theorem exists_attrs_qs_iff {rules : List Rule} :
    (∃ qs, get_filter_attrs_qs py rules = some qs) ↔ ∀ rule ∈ rules, ¬ rule.Raises := by
  have hraises (rule : Rule) : rule.Raises ↔ attr_qs py rule = none := attr_qs_eq_none_iff.symm
  simp only [hraises]
  constructor
  · rintro ⟨qs, h⟩ rule hrule
    obtain ⟨qss, hqss, -⟩ := Option.map_eq_some_iff.mp h
    obtain ⟨qs, -, hattr⟩ := exists_result_of_mem hqss hrule
    rw [hattr]
    exact nofun
  · intro h
    obtain ⟨qss, hqss⟩ := exists_mapM h
    exact ⟨qss.flatten, by rw [get_filter_attrs_qs, hqss, Option.map_some]⟩

/-- What slips is not noticed where a rule refuses the row anyway. -/
theorem tightly_iff {rules : List Rule} : Tightly py M rules row ↔
    ((∀ rule ∈ rules, rule.Grants py M row ↔ ¬ rule.Slips py M row) ↔
      ∀ rule ∈ rules, rule.Grants py M row) := by
  by_cases hrefused : ∃ rule ∈ rules, ¬ rule.Grants py M row ∧ ¬ rule.Slips py M row
  · refine iff_of_true (fun _ => .inl hrefused) (iff_of_false ?_ ?_)
    all_goals
      obtain ⟨rule, hrule, hgrants, hslips⟩ := hrefused
      intro h
    · exact hgrants ((h rule hrule).mpr hslips)
    · exact hgrants (h rule hrule)
  · -- every rule grants the row, or slips on it
    have hslips (rule : Rule) (hrule : rule ∈ rules) (hgrants : ¬ rule.Grants py M row) :
        rule.Slips py M row := by
      by_contra hno
      exact hrefused ⟨rule, hrule, hgrants, hno⟩
    have hshown : (∀ rule ∈ rules, rule.Grants py M row ↔ ¬ rule.Slips py M row) ↔
        ¬ ∃ rule ∈ rules, rule.Grants py M row ∧ rule.Slips py M row := by
      push Not
      refine forall₂_congr fun rule hrule => ⟨Iff.mp, fun h => ⟨h, fun hno => ?_⟩⟩
      by_contra hgrants
      exact hno (hslips rule hrule hgrants)
    have hgranted : (∀ rule ∈ rules, rule.Grants py M row) ↔
        ¬ ∃ rule ∈ rules, ¬ rule.Grants py M row ∧ rule.Slips py M row := by
      push Not
      refine forall₂_congr fun rule hrule => ⟨fun hgrants hno => absurd hgrants hno, fun h => ?_⟩
      by_contra hgrants
      exact h hgrants (hslips rule hrule hgrants)
    have hany : (∃ rule ∈ rules, rule.Slips py M row) ↔
        (∃ rule ∈ rules, rule.Grants py M row ∧ rule.Slips py M row) ∨
          ∃ rule ∈ rules, ¬ rule.Grants py M row ∧ rule.Slips py M row := by
      constructor
      · rintro ⟨rule, hrule, hslip⟩
        by_cases hgrants : rule.Grants py M row
        · exact .inl ⟨rule, hrule, hgrants, hslip⟩
        · exact .inr ⟨rule, hrule, hgrants, hslip⟩
      · rintro (⟨rule, hrule, -, hslip⟩ | ⟨rule, hrule, -, hslip⟩)
        · exact ⟨rule, hrule, hslip⟩
        · exact ⟨rule, hrule, hslip⟩
    rw [hshown, hgranted, not_iff_not, Tightly, or_iff_right hrefused, hany]
    refine ⟨fun h => ⟨fun hwrong => (h (.inl hwrong)).2, fun hwrong => (h (.inr hwrong)).1⟩, fun h => ?_⟩
    rintro (hwrong | hwrong)
    · exact ⟨hwrong, h.mp hwrong⟩
    · exact ⟨h.mpr hwrong, hwrong⟩

end

/-! ### A wildcard that is excluded -/

/-- `exact` with `"*"` is every row, and to exclude it is none. -/
def noRow : Rule where
  table := none
  type := none
  field := some "name"
  value := some (.str "*")
  «match» := none
  exclude := some (.bool true)

end InfraHub.Permission
