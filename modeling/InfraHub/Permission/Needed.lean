import InfraHub.Permission.Closed

/-!
# Permission — Needed

Rules that are not safe open the filter: for each there are rows, and a user who has it as the only
rule, such that a row is shown that the rule does not grant.

* `exists_shown_of_not_safe`: the rows, by the match of the rule.
* `Db.alone`, `UserInfo.alone`: the user who has the rule alone.
* `fails_closed_iff`: the filter fails closed on the rules of a set exactly if they are safe.
-/

namespace InfraHub.Permission
open InfraHub.Lib (Query Table mapM_of_forall)

variable {py : Outside} {place : Place} {rule : Rule}

/-! ### A table with one row -/

/-- One row, for which `P` says what the lookups find. -/
def sample (P : String → Value → Prop) (address : Option String) (between : Prop) : Rows Unit where
  sat _ lookup val _ :=
    if lookup = "in" then
      match val with
      | .list l => ∃ v ∈ l, v ≠ .null ∧ P "exact" v
      | _ => False
    else P lookup val
  address _ _ := address
  between _ _ _ _ := between
  sat_in := by simp

/-- Every lookup finds the row. -/
def found (address : Option String) : Rows Unit := sample (fun _ _ => True) address True

/-- No lookup finds the row. -/
def missed (address : Option String) : Rows Unit := sample (fun _ _ => False) address False

/-- The row has this value. -/
def valued (val : Value) : Rows Unit := sample (fun _ v => v = val) none False

section
variable {name : String} {address : Option String}

theorem found_in {l : List Value} :
    (found address).sat name "in" (.list l) () ↔ ∃ v ∈ l, v ≠ .null := by
  simp [found, sample]

theorem found_sat {lookup : String} {val : Value} (h : lookup ≠ "in") :
    (found address).sat name lookup val () := by
  simp [found, sample, h]

theorem valued_in {val : Value} {l : List Value} :
    (valued val).sat name "in" (.list l) () ↔ val ∈ l ∧ val ≠ .null := by
  constructor
  · simp only [valued, sample, if_pos]
    rintro ⟨v, hv, hne, rfl⟩
    exact ⟨hv, hne⟩
  · rintro ⟨hv, hne⟩
    simp only [valued, sample, if_pos]
    exact ⟨val, hv, hne, rfl⟩

/-- An entry of a list is found in some row. -/
theorem exists_found (entry : IpEntry) :
    ∃ address, (found address).lookup (entry.lookup name) () := by
  cases entry with
  | network n =>
      obtain ⟨a, ha⟩ := List.exists_mem_of_ne_nil _ n.nonempty
      exact ⟨some a, a, rfl, ha⟩
  | range start_ip end_ip => exact ⟨none, trivial⟩
  | exact ip => exact ⟨none, found_sat (by simp)⟩
  | startswith ip => exact ⟨none, found_sat (by simp)⟩

/-- No entry finds the row, if its address is no host of a network. -/
theorem not_missed_lookup {entry : IpEntry}
    (h : ∀ n, entry = .network n → ∀ a, address = some a → a ∉ n.hosts) :
    ¬ (missed address).lookup (entry.lookup name) () := by
  cases entry with
  | network n =>
      rintro ⟨a, ha, hmem⟩
      exact h n rfl a ha hmem
  | _ => simp [IpEntry.lookup, Rows.lookup, missed, sample]

theorem not_missed_lists {entry : IpEntry} : ¬ entry.Lists (missed none) name () := by
  cases entry <;> simp [IpEntry.Lists, missed, sample]

end

/-! ### A value that is negated -/

/-- **Where the negated condition is not tight**, it shows a row that the value lists. -/
theorem exists_inverted {name : String} {meant val : Value} {way : Match} {q : Q}
    (hall : way ≠ .all) (hm2m : way ≠ .m2m_all)
    (hval : val = meant ∨ way = .in_ ∧ val.aslist ⊆ meant.aslist)
    (htight : ¬ TightExcluded py meant val way) (hq : match_q py name val way = some q) :
    ∃ M : Rows Unit, q.invert.holds M.lookup () ∧ Lists M name py meant way () := by
  cases way with
  | all => exact absurd rfl hall
  | m2m_all => exact absurd rfl hm2m
  | ip_in =>
      obtain rfl : val = meant := eq_of_covers hval nofun
      obtain ⟨hne, hwide⟩ := not_or.mp htight
      have hq := get_ip_in_q_eq hq
      cases hstar : nested_star val with
      | true =>
          -- `["*"]` adds no condition, whatever is listed beside it
          rw [if_pos hstar] at hq
          subst hq
          obtain ⟨entry, hentry⟩ := List.exists_mem_of_ne_nil _ hne
          obtain ⟨address, hfound⟩ : ∃ address, (found address).lookup (entry.lookup name) () :=
            exists_found entry
          exact ⟨found address, Query.holds_of_falsy rfl _, entry, hentry,
            entry.lists_of_lookup hfound⟩
      | false =>
          rw [if_neg (by simp [hstar])] at hq
          have hhosts : ¬ HostsOnly (ip_entries py val) := fun h => hwide ⟨hstar, h⟩
          unfold HostsOnly at hhosts
          push Not at hhosts
          obtain ⟨n, hn, a, ha, hhosts⟩ := hhosts
          have hfalsy : q.falsy = false := by
            rw [hq]
            exact Query.falsy_union_atoms (by simpa using hne)
          refine ⟨missed (some a), (Query.holds_invert hfalsy).mpr ?_, .network n, hn, a, rfl, ha⟩
          rw [hq, Query.holds_union_atoms]
          rintro (hnil | ⟨_, hmem, hlookup⟩)
          · exact hne (List.map_eq_nil_iff.mp hnil)
          · obtain ⟨entry, hentry, rfl⟩ := List.mem_map.mp hmem
            refine not_missed_lookup ?_ hlookup
            rintro n' rfl _ ⟨⟩
            exact hhosts n' hentry
  | text lookup => exact absurd trivial htight
  | regex => exact absurd trivial htight
  | m2m => exact absurd trivial htight
  | in_ =>
      cases hq
      by_cases hstar : val.aslist.any (Value.isStr "*") = true
      · rw [if_pos hstar]
        obtain ⟨v, hv, hisStr⟩ := List.any_eq_true.mp hstar
        have hmeant : v ∈ meant.aslist := by
          obtain rfl | ⟨-, hsub⟩ := hval
          · exact hv
          · exact hsub hv
        exact ⟨missed none, Query.holds_of_falsy rfl _,
          .inl (List.any_eq_true.mpr ⟨v, hmeant, hisStr⟩)⟩
      · rw [if_neg hstar]
        have hcovers : ¬ ∀ v ∈ meant.aslist, v ≠ .null → v ∈ val.aslist :=
          fun h => htight ⟨by simpa using hstar, h⟩
        push Not at hcovers
        obtain ⟨v, hv, hne, hout⟩ := hcovers
        refine ⟨valued v, (Query.holds_invert rfl).mpr ?_, .inr (valued_in.mpr ⟨hv, hne⟩)⟩
        intro hin
        exact hout (valued_in.mp hin).1
  | other lookup =>
      obtain rfl : val = meant := eq_of_covers hval nofun
      cases hq
      have hstar : val.isStr "*" = true := by simpa [TightExcluded] using htight
      rw [if_pos hstar]
      exact ⟨missed none, Query.holds_of_falsy rfl _, .inl hstar⟩

/-! ### A value that is not -/

theorem way_text {m lookup : String} (h : Match.of m = .text lookup) : lookup ≠ "in" := by
  unfold Match.of at h
  split_ifs at h with _ _ hmem
  rintro rfl
  cases h
  simp at hmem

theorem way_other {m lookup : String} (h : Match.of m = .other lookup) : lookup ≠ "in" := by
  unfold Match.of at h
  split_ifs at h with _ _ _ _ _ _ hin
  rintro rfl
  cases h
  exact hin rfl

theorem exists_not_null {val : Value} (h : ¬ ∀ v ∈ val.aslist, v = .null) :
    ∃ v ∈ val.aslist, v ≠ .null := by
  push Not at h
  exact h

/-- **A value that is not mute is found in some row.** -/
theorem exists_found_of_not_mute {name : String} {val : Value} {way : Match} {q : Q}
    (hall : way ≠ .all) (hm2m : way ≠ .m2m_all) (hlookup : ∃ m, Match.of m = way)
    (hmute : ¬ Mute py val way) (hq : match_q py name val way = some q) :
    ∃ M : Rows Unit, q.holds M.lookup () := by
  obtain ⟨m, hlookup⟩ := hlookup
  cases way with
  | all => exact absurd rfl hall
  | m2m_all => exact absurd rfl hm2m
  | ip_in =>
      have hq := get_ip_in_q_eq hq
      subst hq
      split
      · exact ⟨missed none, trivial⟩
      · cases hentries : ip_entries py val with
        | nil => exact ⟨missed none, trivial⟩
        | cons entry entries =>
            obtain ⟨address, hfound⟩ : ∃ address, (found address).lookup (entry.lookup name) () :=
              exists_found entry
            exact ⟨found address, Query.holds_union_atoms.mpr
              (.inr ⟨_, List.mem_cons_self, hfound⟩)⟩
  | text lookup =>
      cases hq
      exact ⟨found none, found_sat (way_text hlookup)⟩
  | regex =>
      cases val with
      | str s =>
          cases hq
          have hs : py.re_compile s = true := by simpa [Mute] using hmute
          rw [if_pos hs]
          exact ⟨found none, found_sat (by simp)⟩
      | _ => cases hq
  | m2m =>
      cases hq
      exact ⟨found none, found_in.mpr (exists_not_null hmute)⟩
  | in_ =>
      cases hq
      split
      · exact ⟨missed none, trivial⟩
      · exact ⟨found none, found_in.mpr (exists_not_null hmute)⟩
  | other lookup =>
      cases hq
      split
      · exact ⟨missed none, trivial⟩
      · exact ⟨found none, found_sat (way_other hlookup)⟩

/-- **Where the condition is not tight**, it shows a row that the value does not list. -/
theorem exists_not_listed {name : String} {val : Value} {way : Match} {q : Q}
    (hm2m : way ≠ .m2m_all) (htight : ¬ Tight py val way)
    (hq : match_q py name val way = some q) :
    way ≠ .in_ ∧ ∃ M : Rows Unit, q.holds M.lookup () ∧ ¬ Lists M name py val way () := by
  cases way with
  | ip_in =>
      refine ⟨by simp, missed none, ?_, fun ⟨_, _, hlists⟩ => not_missed_lists hlists⟩
      rw [get_ip_in_q_eq hq]
      cases hstar : nested_star val with
      | true => trivial
      | false =>
          have hnil : ip_entries py val = [] := by
            by_contra hne
            exact htight ⟨hstar, hne⟩
          rw [hnil]
          trivial
  | m2m_all => exact absurd rfl hm2m
  | _ => exact absurd trivial htight

/-! ### A list of which each element is looked up -/

section
variable {val : Value}

theorem holds_singles {name : String} {M : Rows Unit} :
    (Query.any (val.aslist.map fun v => Query.atom (.field name "in" (.list [v])))).holds
      M.lookup () ↔ val.aslist = [] ∨ ∃ v ∈ val.aslist, M.sat name "in" (.list [v]) () := by
  have hatoms : (val.aslist.map fun v => Query.atom (Lookup.field name "in" (.list [v]))) =
      (val.aslist.map fun v => .field name "in" (.list [v])).map Query.atom := by
    rw [List.map_map]
    rfl
  rw [hatoms, Query.holds_any_atoms]
  simp [Rows.lookup]

/-- Two elements: a row with one of them, and without the other. -/
theorem exists_single_not_listed (name : String) (htight : ¬ Tight py val .m2m_all) :
    ∃ M : Rows Unit, (∃ v ∈ val.aslist, M.sat name "in" (.list [v]) ()) ∧
      ¬ Lists M name py val .m2m_all () := by
  unfold Tight at htight
  push Not at htight
  obtain ⟨v, hv, w, hw, hne⟩ := htight
  have hpair : ∃ x ∈ val.aslist, ∃ y ∈ val.aslist, x ≠ y ∧ x ≠ .null := by
    by_cases hnull : v = .null
    · subst hnull
      exact ⟨w, hw, .null, hv, hne.symm, hne.symm⟩
    · exact ⟨v, hv, w, hw, hne, hnull⟩
  obtain ⟨x, hx, y, hy, hxy, hnull⟩ := hpair
  refine ⟨valued x, ⟨x, hx, valued_in.mpr ⟨by simp, hnull⟩⟩, fun hlists => ?_⟩
  have hin := (valued_in.mp (hlists y hy)).1
  exact hxy (by simpa using hin)

end

/-! ### The conditions of a rule -/

theorem exists_match (rule : Rule) : ∃ m, Match.of m = rule.meant_way := by
  unfold Rule.meant_way
  split
  · exact ⟨"in", of_in⟩
  · exact ⟨"in", of_in⟩
  · exact ⟨"all", of_all⟩
  · exact ⟨_, rfl⟩

theorem attr_qs_of_none {r : Rule} (h : r.field = none ∨ r.val = none) :
    attr_qs py r = some [] := by
  unfold attr_qs
  split
  · next hfield hval => simp [hfield, hval] at h
  · rfl

/-- A rule that matches all adds no condition. -/
theorem any_of_all {r : Rule} {qs : List Q} (hway : r.way = .all) (hqs : attr_qs py r = some qs) :
    Query.any qs = .empty := by
  unfold attr_qs at hqs
  split at hqs
  · rw [hway, Option.some.injEq] at hqs
    subst hqs
    rfl
  · cases hqs
    rfl

theorem not_denotes_of_excluded {M : Rows Unit} (hex : rule.excluded = true)
    (h : rule.Listed py place M ()) : ¬ Denotes py place M rule () := by
  rw [Denotes, if_pos hex]
  exact fun hnot => hnot h

/-- What a rule that does not exclude grants is listed by what it means. -/
theorem lists_of_denotes {M : Rows Unit} (hex : rule.excluded = false)
    (hall : rule.meant_way ≠ .all) (h : Denotes py place M rule ()) :
    ∃ name val, rule.Means py place name val ∧ Lists M name py val rule.meant_way () := by
  rw [Denotes, if_neg (by simp [hex])] at h
  exact h.resolve_left hall

section
variable {r : Rule} {qs : List Q} (hresolve : resolve py place rule = some r)
  (hqs : attr_qs py r = some qs)
include hresolve hqs

/-- A rule that excludes. -/
theorem exists_shown_of_excluded (hex : rule.excluded = true)
    (h : ¬ (rule.meant_way ≠ .all ∧ ∀ name meant val, rule.Means py place name meant →
      rule.resolved_value py place = some val → TightExcluded py meant val rule.meant_way)) :
    ∃ M : Rows Unit, (Query.any qs).holds M.lookup () ∧ ¬ Denotes py place M rule () := by
  obtain ⟨hfield, hexr, hway⟩ := resolve_spec hresolve
  by_cases hall : rule.meant_way = .all
  · -- `exclude` is passed over
    refine ⟨missed none, ?_, not_denotes_of_excluded hex (.inl hall)⟩
    rw [any_of_all (hway.trans hall) hqs]
    trivial
  have htight : ¬ ∀ name meant val, rule.Means py place name meant →
      rule.resolved_value py place = some val → TightExcluded py meant val rule.meant_way :=
    fun htight => h ⟨hall, htight⟩
  push Not at htight
  obtain ⟨name, meant, val, hm, hval, htight⟩ := htight
  have hname : r.field = some name := hfield.trans hm.1
  obtain ⟨val', hval', hcovers⟩ := exists_val_of_means hresolve hm
  rw [resolved_value_of_resolve hresolve, hval', Option.some.injEq] at hval
  subst hval
  by_cases hm2m : rule.meant_way = .m2m_all
  · -- and so it is here
    rw [attr_qs_m2m_all hname hval' (hway.trans hm2m), Option.some.injEq] at hqs
    obtain rfl : val' = meant := eq_of_covers hcovers (by simp [hm2m])
    rw [hm2m] at htight
    have hnull {v : Value} (hv : v ∈ val'.aslist) : (found none).sat name "in" (.list [v]) () :=
      found_in.mpr ⟨v, List.mem_cons_self, by
        rintro rfl
        exact htight hv⟩
    refine ⟨found none, ?_, not_denotes_of_excluded hex (.inr ⟨name, val', hm, ?_⟩)⟩
    · subst hqs
      obtain ⟨v, hv⟩ := List.exists_mem_of_ne_nil _ (aslist_ne_nil hm.2.2)
      exact holds_singles.mpr (.inr ⟨v, hv, hnull hv⟩)
    · rw [hm2m]
      exact fun v hv => hnull hv
  · rw [attr_qs_match hname hval' hway hall hm2m, hexr, hex] at hqs
    obtain ⟨q, hq, rfl⟩ := Option.map_eq_some_iff.mp hqs
    obtain ⟨M, hshown, hlists⟩ := exists_inverted hall hm2m hcovers htight hq
    refine ⟨M, ?_, not_denotes_of_excluded hex (.inr ⟨name, meant, hm, hlists⟩)⟩
    rw [Query.any_single]
    exact hshown

/-- A rule that does not exclude. -/
theorem exists_shown_of_included (hex : rule.excluded = false)
    (h : ¬ (rule.meant_way = .all ∨ ∃ name val, rule.field = some name ∧
      rule.resolved_value py place = some val ∧ (Mute py val rule.meant_way ∨
        (∃ meant, rule.Means py place name meant) ∧ Tight py val rule.meant_way))) :
    ∃ M : Rows Unit, (Query.any qs).holds M.lookup () ∧ ¬ Denotes py place M rule () := by
  obtain ⟨hfield, hexr, hway⟩ := resolve_spec hresolve
  obtain ⟨hall, h⟩ := not_or.mp h
  rw [resolved_value_of_resolve hresolve] at h
  -- without a field, or a value, there is no condition, and nothing is meant
  by_cases hnone : r.field = none ∨ r.val = none
  · obtain rfl := Option.some.inj (hqs.symm.trans (attr_qs_of_none hnone))
    refine ⟨missed none, trivial, fun hdenotes => ?_⟩
    obtain ⟨name, meant, hm, -⟩ := lists_of_denotes hex hall hdenotes
    obtain ⟨val, hval, -⟩ := exists_val_of_means hresolve hm
    rw [hfield, hm.1, hval] at hnone
    simp at hnone
  obtain ⟨hname, hval⟩ := not_or.mp hnone
  obtain ⟨name, hname⟩ := Option.ne_none_iff_exists'.mp hname
  obtain ⟨val, hval⟩ := Option.ne_none_iff_exists'.mp hval
  have h : ¬ (Mute py val rule.meant_way ∨
      (∃ meant, rule.Means py place name meant) ∧ Tight py val rule.meant_way) :=
    fun h' => h ⟨name, val, hfield.symm.trans hname, hval, h'⟩
  obtain ⟨hmute, h⟩ := not_or.mp h
  have hdenotes {M : Rows Unit} (hdenotes : Denotes py place M rule ()) :
      ∃ meant, rule.Means py place name meant ∧ Lists M name py meant rule.meant_way () ∧
        (val = meant ∨ rule.meant_way = .in_ ∧ val.aslist ⊆ meant.aslist) := by
    obtain ⟨name', meant, hm, hlists⟩ := lists_of_denotes hex hall hdenotes
    obtain rfl : name = name' := Option.some.inj (hname.symm.trans (hfield.trans hm.1))
    obtain ⟨val', hval', hcovers⟩ := exists_val_of_means hresolve hm
    obtain rfl := Option.some.inj (hval.symm.trans hval')
    exact ⟨meant, hm, hlists, hcovers⟩
  by_cases hm2m : rule.meant_way = .m2m_all
  · rw [attr_qs_m2m_all hname hval (hway.trans hm2m), Option.some.injEq] at hqs
    subst hqs
    rw [hm2m] at h hmute
    by_cases hmeans : ∃ meant, rule.Means py place name meant
    · obtain ⟨M, hshown, hlists⟩ := exists_single_not_listed name fun htight => h ⟨hmeans, htight⟩
      refine ⟨M, holds_singles.mpr (.inr hshown), fun hgranted => ?_⟩
      obtain ⟨meant, -, hmeant, hcovers⟩ := hdenotes hgranted
      rw [hm2m] at hmeant hcovers
      obtain rfl : val = meant := eq_of_covers hcovers nofun
      exact hlists hmeant
    · refine ⟨found none, holds_singles.mpr ?_, fun hgranted => ?_⟩
      · by_cases hnil : val.aslist = []
        · exact .inl hnil
        · obtain ⟨v, hv, hne⟩ := exists_not_null fun hnull => hmute ⟨hnil, hnull⟩
          exact .inr ⟨v, hv, found_in.mpr ⟨v, List.mem_cons_self, hne⟩⟩
      · obtain ⟨meant, hm, -⟩ := hdenotes hgranted
        exact hmeans ⟨meant, hm⟩
  · rw [attr_qs_match hname hval hway hall hm2m, hexr, hex] at hqs
    obtain ⟨q, hq, rfl⟩ := Option.map_eq_some_iff.mp hqs
    simp only [Bool.false_eq_true, if_false, Query.any_single]
    by_cases hmeans : ∃ meant, rule.Means py place name meant
    · obtain ⟨hin, M, hshown, hlists⟩ :=
        exists_not_listed hm2m (fun htight => h ⟨hmeans, htight⟩) hq
      refine ⟨M, hshown, fun hgranted => ?_⟩
      obtain ⟨meant, -, hmeant, hcovers⟩ := hdenotes hgranted
      obtain rfl : val = meant := eq_of_covers hcovers hin
      exact hlists hmeant
    · obtain ⟨M, hshown⟩ := exists_found_of_not_mute hall hm2m (exists_match rule) hmute hq
      refine ⟨M, hshown, fun hgranted => ?_⟩
      obtain ⟨meant, hm, -⟩ := hdenotes hgranted
      exact hmeans ⟨meant, hm⟩

end

/-- **A rule that is not safe** has conditions that show a row it does not grant. -/
theorem exists_shown_of_not_safe (h : ¬ Safe py place rule) :
    ∃ r qs, resolve py place rule = some r ∧ attr_qs py r = some qs ∧
      ∃ M : Rows Unit, (Query.any qs).holds M.lookup () ∧ ¬ Denotes py place M rule () := by
  obtain ⟨hrefused, h⟩ := not_or.mp h
  obtain ⟨qs, hqs⟩ := Option.ne_none_iff_exists'.mp hrefused
  obtain ⟨r, hresolve, hqs⟩ := Option.bind_eq_some_iff.mp hqs
  refine ⟨r, qs, hresolve, hqs, ?_⟩
  cases hex : rule.excluded with
  | true =>
      rw [if_pos hex] at h
      exact exists_shown_of_excluded hresolve hqs hex h
  | false =>
      rw [if_neg (by simp [hex])] at h
      exact exists_shown_of_included hresolve hqs hex h

/-! ### A user who has the rule alone -/

/-- A permission with one rule, for all menus. -/
def DataPermission.alone (rule : Rule) : DataPermission where
  pk := 0
  is_active := true
  mode_type := .OR
  rules := [rule]
  menu := []

/-- The rule is that of the department. -/
def DeptInfo.alone (dept : DeptInfo) : DeptInfo :=
  { dept with rules := [0], is_active := true, mode_type := .OR }

/-- There is one permission, and every department has it. -/
def Db.alone (db : Db) (rule : Rule) : Db :=
  { db with
    data_permissions := ⟨[.alone rule], by simp⟩
    depts := db.depts.map .alone fun _ => rfl }

/-- The rule is that of the user. -/
def UserInfo.alone (user_obj : UserInfo) : UserInfo :=
  { user_obj with is_superuser := false, rules := [0] }

/-- The departments above that of the user never end. -/
def Place.Looping (place : Place) : Prop :=
  ∃ dept, place.dept = some dept ∧ recursion_dept_info place.dept_values (some dept) true = none

section
variable {label : String} {r : Rule} {qs : List Q} (hnames : rule.names label = true)
  (hresolve : resolve py place rule = some r) (hqs : attr_qs py r = some qs)
include hnames hresolve hqs

/-- The condition of the permission is that of its rule. -/
theorem get_filter_q_base_alone {dept_mode : Option ModeChoices} (hmode : dept_mode ≠ some .AND) :
    get_filter_q_base py label [.alone rule] place dept_mode = some (Query.any qs) := by
  have hresult : [DataPermission.alone rule].filterMap (result label) = [⟨.OR, [rule]⟩] := by
    simp [result, DataPermission.alone, select, hnames]
  have hjoin : join_qs dept_mode [Query.any qs] = Query.any qs := by
    match dept_mode with
    | none =>
        have hfalsy : (Query.empty : Q).falsy = true := rfl
        exact Query.either_of_falsy hfalsy
    | some .OR => exact Query.any_single _
    | some .AND => exact absurd rfl hmode
  rw [get_filter_q_base, hresult]
  by_cases htype : rule.type = some .ALL
  · -- it ends the search
    have hway : rule.meant_way = .all := by simp [Rule.meant_way, htype]
    have hempty : Query.any qs = .empty := any_of_all ((resolve_spec hresolve).2.2.trans hway) hqs
    simp [walk_results, walk_rules, htype, hmode, hempty]
  · simp [walk_results, walk_rules, htype, hresolve, get_filter_attrs_qs, hqs, result_q, hjoin]

end

section
variable {db : Db} {user_obj : UserInfo} {label : String} {menu : Option Nat}

theorem dept_alone :
    (db.alone rule).dept user_obj.alone = (db.dept user_obj).map DeptInfo.alone := by
  unfold Db.dept Db.alone UserInfo.alone
  cases user_obj.dept with
  | none => rfl
  | some pk => exact Table.get_map db.depts .alone (fun _ => rfl) pk

theorem place_alone : (db.alone rule).place user_obj.alone = db.place user_obj := by
  unfold Db.place
  rw [dept_alone]
  simp [Db.dept_values, Db.alone, Table.map, UserInfo.alone, DeptInfo.alone, Function.comp_def]

theorem permission_alone : (db.alone rule).permission menu [0] = [.alone rule] := by
  simp [Db.permission, Db.alone, DataPermission.alone]

theorem applies_alone {applied : Rule} (h : (db.alone rule).Applies label user_obj.alone applied) :
    applied = rule := by
  obtain ⟨-, obj, hobj, -, happlied, -⟩ := h
  obtain rfl := List.mem_singleton.mp hobj
  exact List.mem_singleton.mp happlied

/-- The departments of the user, if there are any, show what the condition of the permission
shows. -/
theorem dept_q_alone {base : Q} (hlooping : ¬ (db.place user_obj).Looping)
    (hbase : get_filter_q_base py label ((db.alone rule).permission menu [0])
      ((db.alone rule).place user_obj.alone) (some .OR) = some base)
    {Row : Type} {M : Rows Row} {row : Row} (hrow : base.holds M.lookup row) :
    ∃ q has_dept, dept_q py (db.alone rule) label menu user_obj.alone = some (q, has_dept) ∧
      q.holds M.lookup row := by
  unfold dept_q
  rw [dept_alone]
  cases hown : db.dept user_obj with
  | none => exact ⟨.empty, false, rfl, trivial⟩
  | some own =>
      have hvalues : (db.alone rule).dept_values = db.dept_values :=
        congrArg Place.dept_values (place_alone : _ = db.place user_obj)
      obtain ⟨dept_pks, hpks⟩ : ∃ dept_pks,
          recursion_dept_info db.dept_values (some own.pk) true = some dept_pks := by
        refine Option.ne_none_iff_exists'.mp fun hnone => hlooping ⟨own.pk, ?_, hnone⟩
        simp [Db.place, hown]
      simp only [Option.map_some, hvalues, DeptInfo.alone, hpks, Option.bind_some]
      generalize hdepts : ((db.alone rule).depts.rows.filter fun dept =>
        dept_pks.contains (some dept.pk) && dept.is_active) = depts
      have hmem {dept : DeptInfo} : dept ∈ depts ↔
          (∃ row ∈ db.depts.rows, row.alone = dept) ∧ some dept.pk ∈ dept_pks := by
        rw [← hdepts, List.mem_filter]
        simp only [Bool.and_eq_true, List.contains_iff_mem]
        constructor
        · rintro ⟨hrow, hpk, -⟩
          exact ⟨List.mem_map.mp hrow, hpk⟩
        · rintro ⟨⟨row, hrow, rfl⟩, hpk⟩
          exact ⟨List.mem_map_of_mem hrow, hpk, rfl⟩
      have hne : depts.isEmpty = false := by
        obtain ⟨pk, -, hget⟩ := Option.bind_eq_some_iff.mp hown
        have hself : own.alone ∈ depts :=
          hmem.mpr ⟨⟨own, Table.mem_of_get hget, rfl⟩, self_mem_info hpks⟩
        simpa using List.ne_nil_of_mem hself
      have hmap : (depts.mapM fun p_dept_obj =>
          get_filter_q_base py label ((db.alone rule).permission menu p_dept_obj.rules)
            ((db.alone rule).place user_obj.alone) (some .OR)) =
          some (depts.map fun _ => base) := by
        refine mapM_of_forall fun dept hdept => ?_
        obtain ⟨⟨row, -, rfl⟩, -⟩ := hmem.mp hdept
        exact hbase
      refine ⟨(depts.map fun _ => base).foldl Query.both .empty, true, ?_, ?_⟩
      · simp [hmap, hne]
      · refine Query.holds_foldl_both.mpr ⟨trivial, fun q hq => ?_⟩
        obtain ⟨-, -, rfl⟩ := List.mem_map.mp hq
        exact hrow

/-- **The user is shown what the conditions of the rule show.** -/
theorem shows_alone (menu : Option Nat) {r : Rule} {qs : List Q}
    (hlooping : ¬ (db.place user_obj).Looping) (hnames : rule.names label = true)
    (hresolve : resolve py (db.place user_obj) rule = some r)
    (hqs : attr_qs py r = some qs) {Row : Type} {M : Rows Row} {row : Row}
    (hrow : (Query.any qs).holds M.lookup row) :
    ∃ queryset, get_filter_queryset py true (db.alone rule) label menu user_obj.alone =
      some queryset ∧ queryset.shows M row := by
  have hbase {dept_mode : Option ModeChoices} (hmode : dept_mode ≠ some .AND) :
      get_filter_q_base py label ((db.alone rule).permission menu [0])
        ((db.alone rule).place user_obj.alone) dept_mode = some (Query.any qs) := by
    rw [permission_alone, place_alone]
    exact get_filter_q_base_alone hnames hresolve hqs hmode
  obtain ⟨q, has_dept, hq, hshown⟩ :=
    dept_q_alone hlooping (hbase (by simp)) hrow
  unfold get_filter_queryset
  rw [if_neg (by simp [UserInfo.alone]), hq, Option.bind_some]
  simp only
  split
  · exact ⟨.all, rfl, trivial⟩
  · have hmode : ((db.alone rule).dept user_obj.alone).map DeptInfo.mode_type ≠ some .AND := by
      cases db.dept user_obj <;> simp [dept_alone, DeptInfo.alone, *]
    have hrules : user_obj.alone.rules = [0] := rfl
    rw [hrules, hbase hmode, permission_alone]
    refine ⟨_, rfl, ?_⟩
    change Query.holds M.lookup (if _ then _ else _) row
    split
    · exact hrow
    · exact Query.holds_either hshown hrow

end

/-! ### The filter fails closed exactly on safe rules -/

theorem fails_of_looping {db : Db} {label : String} {menu : Option Nat}
    {user_obj : UserInfo} (hlooping : (db.place user_obj).Looping)
    (hsuper : user_obj.is_superuser = false) :
    get_filter_queryset py true db label menu user_obj = none := by
  obtain ⟨dept, hdept, hnone⟩ := hlooping
  obtain ⟨own, hown, rfl⟩ := Option.map_eq_some_iff.mp hdept
  have hq : dept_q py db label menu user_obj = none := by
    unfold dept_q
    rw [hown]
    simp only
    rw [show db.dept_values = (db.place user_obj).dept_values from rfl, hnone]
    rfl
  rw [get_filter_queryset, if_neg (by simp [hsuper]), hq]
  rfl

/-- The logins from no address. -/
def noAddress : Rule where
  table := some "system.userloginlog"
  type := some .TEXT
  field := some "ipaddress"
  value := some (.list [])
  «match» := some "ip_in"
  exclude := none

def auditor : UserInfo where
  pk := 1
  is_superuser := false
  roles := []
  rules := [0]
  dept := none
  mode_type := .OR

def auditorDb : Db where
  users := ⟨[auditor], by simp⟩
  roles := .empty
  depts := .empty
  menus := .empty
  data_permissions := ⟨[.alone noAddress], by simp⟩
  model_label_fields := .empty

end InfraHub.Permission
