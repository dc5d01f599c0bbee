import InfraHub.Permission.Denotes

/-!
# Permission — Sound

The conditions of a safe rule show only rows that the rule grants (`denotes_of_safe`).

* `resolve_spec`: what `resolve` leaves of a rule.
* `lists_of_holds`, `not_lists_of_invert`: the condition of a value, and the negated one, against
  the rows that the value lists.
-/

namespace InfraHub.Permission
open InfraHub.Lib (Query)

variable {py : Outside} {place : Place} {rule : Rule}

/-! ### What a rule is resolved to -/

@[simp] theorem of_all : Match.of "all" = .all := by simp [Match.of]

@[simp] theorem of_in : Match.of "in" = .in_ := by simp [Match.of]

/-- The field and `exclude` stay, and the match is the one that is meant. -/
theorem resolve_spec {r : Rule} (h : resolve py place rule = some r) :
    r.field = rule.field ∧ r.excluded = rule.excluded ∧ r.way = rule.meant_way := by
  have hvalue {v : Option Value} (hway : rule.meant_way = rule.way) :
      ({ rule with value := v } : Rule).field = rule.field ∧
        ({ rule with value := v } : Rule).excluded = rule.excluded ∧
        ({ rule with value := v } : Rule).way = rule.meant_way := ⟨rfl, rfl, hway.symm⟩
  have hmatch {v : Option Value} {m : String} (hway : rule.meant_way = .of m) :
      ({ rule with «match» := some m, value := v } : Rule).field = rule.field ∧
        ({ rule with «match» := some m, value := v } : Rule).excluded = rule.excluded ∧
        ({ rule with «match» := some m, value := v } : Rule).way = rule.meant_way :=
    ⟨rfl, rfl, hway.symm⟩
  unfold resolve at h
  split at h
  next htype =>
    cases h
    exact hvalue (by simp [Rule.meant_way, htype])
  next htype =>
    cases h
    exact hvalue (by simp [Rule.meant_way, htype])
  next htype =>
    obtain ⟨v, -, rfl⟩ := Option.map_eq_some_iff.mp h
    exact hmatch (by simp [Rule.meant_way, htype])
  next htype =>
    obtain ⟨v, -, rfl⟩ := Option.map_eq_some_iff.mp h
    exact hmatch (by simp [Rule.meant_way, htype])
  next htype =>
    cases h
    exact hmatch (by simp [Rule.meant_way, htype])
  next htype =>
    obtain ⟨v, -, h⟩ := Option.bind_eq_some_iff.mp h
    obtain ⟨t, -, rfl⟩ := Option.map_eq_some_iff.mp h
    exact hvalue (by simp [Rule.meant_way, htype])
  next htype =>
    have hway : rule.meant_way = rule.way := by simp [Rule.meant_way, htype]
    split at h
    · obtain ⟨a, -, h⟩ := Option.bind_eq_some_iff.mp h
      obtain ⟨b, -, rfl⟩ := Option.map_eq_some_iff.mp h
      exact hvalue hway
    · cases h
      exact hvalue hway
    · cases h
  next htype =>
    have hway : rule.meant_way = rule.way := by simp [Rule.meant_way, htype]
    split at h
    · obtain ⟨v, -, rfl⟩ := Option.map_eq_some_iff.mp h
      exact hvalue hway
    · cases h
      exact hvalue hway
    · cases h
  -- the tables
  iterate 4
    next htype =>
      obtain ⟨items, -, rfl⟩ := Option.map_eq_some_iff.mp h
      exact hvalue (by simp [Rule.meant_way, htype])
  next htype =>
    obtain ⟨v, -, rfl⟩ := Option.map_eq_some_iff.mp h
    exact hvalue (by simp [Rule.meant_way, htype])
  next htype =>
    cases h
    exact hvalue (by simp [Rule.meant_way, htype])
  next htype =>
    cases h
    exact hvalue (by simp [Rule.meant_way, htype])

theorem resolved_value_of_resolve {r : Rule} (h : resolve py place rule = some r) :
    rule.resolved_value py place = r.val := by
  rw [Rule.resolved_value, h, Option.bind_some]

/-- A rule that means something is compared with a value, and that value is no more than what is
meant. -/
theorem exists_val_of_means {r : Rule} {name : String} {meant : Value}
    (h : resolve py place rule = some r) (hm : rule.Means py place name meant) :
    ∃ val, r.val = some val ∧
      (val = meant ∨ rule.meant_way = .in_ ∧ val.aslist ⊆ meant.aslist) := by
  obtain ⟨-, hmeant, -⟩ := hm
  unfold Rule.meant_value at hmeant
  split at hmeant
  next htype =>
    obtain ⟨dept, hdept, rfl⟩ := Option.map_eq_some_iff.mp hmeant
    simp only [resolve, htype, hdept] at h
    cases h
    exact ⟨_, rfl, .inl rfl⟩
  next htype =>
    have hway : rule.meant_way = .in_ := by simp [Rule.meant_way, htype]
    split at hmeant
    next => cases hmeant
    next => cases hmeant
    next => cases hmeant
    next => cases hmeant
    next v hnull hlist hdict hloads =>
      cases hmeant
      simp only [resolve, htype] at h
      cases hdept : place.dept with
      | none =>
          simp only [hdept] at h
          cases h
          exact ⟨_, rfl, .inr ⟨hway, by simp [Value.aslist]⟩⟩
      | some dept =>
          have hdepartments : departments place v = some (.list [v]) := by
            cases v with
            | null => exact absurd rfl hnull
            | list l => exact absurd rfl (hlist l)
            | dict d => exact absurd rfl (hdict d)
            | _ => rfl
          simp only [hdept, hloads, Option.bind_some, hdepartments] at h
          cases h
          exact ⟨_, rfl, .inr ⟨hway, by simp [Value.aslist]⟩⟩
  next =>
    rw [h, Option.bind_some] at hmeant
    exact ⟨meant, hmeant, .inl rfl⟩

/-- Only the departments below are meant without being compared. -/
theorem eq_of_covers {meant val : Value} {way : Match}
    (h : val = meant ∨ way = .in_ ∧ val.aslist ⊆ meant.aslist) (hway : way ≠ .in_) : val = meant :=
  h.resolve_right fun h => hway h.1

/-! ### Addresses -/

theorem entries_of_readable {l : List Value} {entries : List IpEntry}
    (h : readable py l = some entries) :
    entries = l.filterMap fun ip =>
      match ip with
      | .str s => if s = "" then none else ip_entry py s
      | _ => none := by
  induction l generalizing entries with
  | nil =>
      cases h
      rfl
  | cons ip l ih =>
      unfold readable at h
      by_cases ht : ip.truthy = true
      · rw [if_neg (by simp [ht])] at h
        cases ip with
        | str s =>
            obtain ⟨rest, hrest, rfl⟩ := Option.map_eq_some_iff.mp h
            have hs : s ≠ "" := by simpa [Value.truthy] using ht
            rw [ih hrest, List.filterMap_cons]
            cases hentry : ip_entry py s with
            | none => simp [hs, hentry]
            | some entry => simp [hs, hentry]
        | _ =>
            obtain ⟨-, h⟩ := Option.ite_none_right_eq_some.mp h
            rw [ih h]
            rfl
      · rw [if_pos (by simpa using ht)] at h
        rw [ih h, List.filterMap_cons]
        cases ip with
        | str s =>
            have hs : s = "" := by simpa [Value.truthy] using ht
            simp [hs]
        | _ => rfl

/-- The condition of an `ip_in` rule, by its entries. -/
theorem get_ip_in_q_eq {name : String} {val : Value} {q : Q}
    (h : get_ip_in_q py name val = some q) :
    q = if nested_star val then .empty
      else Query.union (((ip_entries py val).map (IpEntry.lookup name)).map .atom) := by
  obtain ⟨l, hl, h⟩ := Option.bind_eq_some_iff.mp h
  unfold nested_star ip_entries
  rw [hl, Option.getD_some]
  by_cases hstar : l.any Value.isStar = true
  · rw [if_pos hstar] at h ⊢
    cases h
    rfl
  · rw [if_neg hstar] at h ⊢
    obtain ⟨entries, hentries, rfl⟩ := Option.map_eq_some_iff.mp h
    rw [entries_of_readable hentries, List.map_map]
    rfl

section
variable {Row : Type} {M : Rows Row} {name : String} {row : Row}

theorem IpEntry.lists_of_lookup {entry : IpEntry} (h : M.lookup (entry.lookup name) row) :
    entry.Lists M name row := by
  cases entry with
  | network n =>
      obtain ⟨a, ha, hmem⟩ := h
      exact ⟨a, ha, n.hosts_subset hmem⟩
  | _ => exact h

/-! ### The condition of a value -/

/-- `in` a list of one. -/
theorem sat_in_single {v : Value} :
    M.sat name "in" (.list [v]) row ↔ v ≠ .null ∧ M.sat name "exact" v row := by
  simp [M.sat_in]

variable (py) in
/-- The condition is empty, which negation does not change. -/
def Unconditional (val : Value) : Match → Prop
  | .all => True
  | .ip_in => nested_star val = true ∨ ip_entries py val = []
  | .in_ => val.aslist.any (Value.isStr "*") = true
  | .other _ => val.isStr "*" = true
  | _ => False

variable (py M name) in
/-- What the lookups of a value find: of the addresses that it lists, those of hosts. -/
def Found (val : Value) : Match → Row → Prop
  | .ip_in, row => ∃ entry ∈ ip_entries py val, M.lookup (entry.lookup name) row
  | way, row => Lists M name py val way row

variable {val : Value} {way : Match} {q : Q}

/-- An empty condition. -/
theorem match_q_of_unconditional (hempty : Unconditional py val way) (hall : way ≠ .all)
    (hq : match_q py name val way = some q) : q = .empty := by
  cases way with
  | all => exact absurd rfl hall
  | ip_in =>
      rw [get_ip_in_q_eq hq]
      rcases hempty with hstar | hnil
      · rw [if_pos hstar]
      · rw [hnil, ite_eq_left_iff]
        exact fun _ => rfl
  | in_ =>
      cases hq
      exact if_pos hempty
  | other lookup =>
      cases hq
      exact if_pos hempty
  | _ => exact hempty.elim

/-- A condition that is not empty, and what it shows. -/
theorem match_q_of_conditional (hcond : ¬ Unconditional py val way) (hm2m : way ≠ .m2m_all)
    (hq : match_q py name val way = some q) :
    q.falsy = false ∧ (q.holds M.lookup row ↔ Found py M name val way row) := by
  cases way with
  | all => exact absurd trivial hcond
  | m2m_all => exact absurd rfl hm2m
  | ip_in =>
      simp only [Unconditional, not_or] at hcond
      have hne : (ip_entries py val).map (IpEntry.lookup name) ≠ [] :=
        fun hnil => hcond.2 (List.map_eq_nil_iff.mp hnil)
      rw [get_ip_in_q_eq hq, if_neg hcond.1, Query.holds_union_atoms, or_iff_right hne]
      exact ⟨Query.falsy_union_atoms hne, by simp [Found]⟩
  | regex =>
      cases val with
      | str s =>
          cases hq
          refine ⟨rfl, ?_⟩
          by_cases hs : py.re_compile s = true <;> simp [Found, Lists, hs, Query.holds, Rows.lookup]
      | _ => cases hq
  | in_ =>
      cases hq
      have hstar : ¬ val.aslist.any (Value.isStr "*") = true := hcond
      rw [if_neg hstar]
      exact ⟨rfl, (or_iff_right hstar).symm⟩
  | other lookup =>
      cases hq
      have hstar : ¬ val.isStr "*" = true := hcond
      rw [if_neg hstar]
      exact ⟨rfl, (or_iff_right hstar).symm⟩
  | _ =>
      cases hq
      exact ⟨rfl, Iff.rfl⟩

/-- What is found is listed. -/
theorem lists_of_found (h : Found py M name val way row) : Lists M name py val way row := by
  cases way with
  | ip_in =>
      obtain ⟨entry, hentry, hlookup⟩ := h
      exact ⟨entry, hentry, entry.lists_of_lookup hlookup⟩
  | _ => exact h

/-- **The rows that the condition of a tight value shows are listed.** -/
theorem lists_of_holds (hall : way ≠ .all) (hm2m : way ≠ .m2m_all) (htight : Tight py val way)
    (hq : match_q py name val way = some q) (h : q.holds M.lookup row) : Lists M name py val way row := by
  by_cases hempty : Unconditional py val way
  · cases way with
    | all => exact absurd rfl hall
    | ip_in =>
        rcases hempty with hstar | hnil
        · rw [htight.1] at hstar
          cases hstar
        · exact absurd hnil htight.2
    | in_ => exact .inl hempty
    | other lookup => exact .inl hempty
    | _ => exact hempty.elim
  · exact lists_of_found ((match_q_of_conditional hempty hm2m hq).2.mp h)

/-- The condition of a mute value shows nothing. -/
theorem not_holds_of_mute (hm2m : way ≠ .m2m_all) (hmute : Mute py val way)
    (hq : match_q py name val way = some q) : ¬ q.holds M.lookup row := by
  have hin (hnull : ∀ v ∈ val.aslist, v = .null) : ¬ M.sat name "in" (.list val.aslist) row := by
    rw [M.sat_in]
    rintro ⟨v, hv, hne, -⟩
    exact hne (hnull v hv)
  have hstar (hnull : ∀ v ∈ val.aslist, v = .null) : ¬ val.aslist.any (Value.isStr "*") = true := by
    intro hstar
    obtain ⟨v, hv, hisStr⟩ := List.any_eq_true.mp hstar
    rw [hnull v hv] at hisStr
    cases hisStr
  have hcond : ¬ Unconditional py val way := by
    cases way with
    | in_ => exact hstar hmute
    | m2m_all => exact absurd rfl hm2m
    | m2m => exact id
    | regex => exact id
    | _ => exact hmute.elim
  intro h
  have hlists := lists_of_found ((match_q_of_conditional hcond hm2m hq).2.mp h)
  cases way with
  | m2m => exact hin hmute hlists
  | in_ => exact hin hmute (hlists.resolve_left (hstar hmute))
  | regex =>
      obtain ⟨s, rfl, hs⟩ := hmute
      obtain ⟨_, ⟨⟩, hcompile, -⟩ := hlists
      rw [hs] at hcompile
      cases hcompile
  | m2m_all => exact hm2m rfl
  | _ => exact hmute.elim

/-- What is meant and listed is found, by the value of a tight rule that excludes. -/
theorem found_of_lists {meant : Value} (hval : val = meant ∨ way = .in_ ∧ val.aslist ⊆ meant.aslist)
    (htight : TightExcluded py meant val way) (h : Lists M name py meant way row) :
    ¬ Unconditional py val way ∧ Found py M name val way row := by
  cases way with
  | all => exact htight.elim
  | ip_in =>
      obtain rfl : val = meant := eq_of_covers hval nofun
      obtain ⟨entry, hentry, hlists⟩ := h
      have hne : ip_entries py val ≠ [] := List.ne_nil_of_mem hentry
      obtain ⟨hstar, hhosts⟩ := htight.resolve_left hne
      refine ⟨?_, ?_⟩
      · rintro (hnested | hnil)
        · rw [hstar] at hnested
          cases hnested
        · exact hne hnil
      · cases entry with
        | network n =>
            obtain ⟨a, ha, hmem⟩ := hlists
            obtain ⟨n', hn', hhost⟩ := hhosts n hentry a hmem
            exact ⟨_, hn', a, ha, hhost⟩
        | _ => exact ⟨_, hentry, hlists⟩
  | in_ =>
      obtain ⟨hstar, hcovers⟩ := htight
      refine ⟨by simp [Unconditional, hstar], .inr ((M.sat_in ..).mpr ?_)⟩
      obtain hmeant | hmeant := h
      · -- the star that is meant would be in the value
        obtain ⟨v, hv, hisStr⟩ := List.any_eq_true.mp hmeant
        have hne : v ≠ .null := by
          rintro rfl
          cases hisStr
        have : val.aslist.any (Value.isStr "*") = true :=
          List.any_eq_true.mpr ⟨v, hcovers v hv hne, hisStr⟩
        rw [hstar] at this
        cases this
      · obtain ⟨v, hv, hne, hexact⟩ := (M.sat_in ..).mp hmeant
        exact ⟨v, hcovers v hv hne, hne, hexact⟩
  | other lookup =>
      obtain rfl : val = meant := eq_of_covers hval nofun
      have hstar : val.isStr "*" = false := htight
      exact ⟨by simp [Unconditional, hstar], h⟩
  | _ =>
      obtain rfl : val = meant := eq_of_covers hval nofun
      exact ⟨id, h⟩

/-- **The rows that the negated condition shows are not listed.** -/
theorem not_lists_of_invert {meant : Value} (hm2m : way ≠ .m2m_all)
    (hval : val = meant ∨ way = .in_ ∧ val.aslist ⊆ meant.aslist)
    (htight : TightExcluded py meant val way) (hq : match_q py name val way = some q)
    (h : q.invert.holds M.lookup row) : ¬ Lists M name py meant way row := by
  intro hlists
  obtain ⟨hcond, hfound⟩ := found_of_lists hval htight hlists
  obtain ⟨hfalsy, hholds⟩ := match_q_of_conditional hcond hm2m hq
  exact (Query.holds_invert hfalsy).mp h (hholds.mpr hfound)

end

/-! ### The conditions of a rule -/

theorem attr_qs_m2m_all {r : Rule} {name : String} {val : Value} (hfield : r.field = some name)
    (hval : r.val = some val) (hway : r.way = .m2m_all) :
    attr_qs py r = some (val.aslist.map fun v => .atom (.field name "in" (.list [v]))) := by
  simp [attr_qs, hfield, hval, hway]

theorem attr_qs_match {r : Rule} {name : String} {val : Value} {way : Match}
    (hfield : r.field = some name) (hval : r.val = some val) (hway : r.way = way)
    (hall : way ≠ .all) (hm2m : way ≠ .m2m_all) :
    attr_qs py r = (match_q py name val way).map fun q => [if r.excluded then q.invert else q] := by
  subst hway
  cases hway : r.way with
  | all => exact absurd hway hall
  | m2m_all => exact absurd hway hm2m
  | _ => simp [attr_qs, hfield, hval, hway]

theorem Rule.Means.unique {name name' : String} {meant meant' : Value}
    (h : rule.Means py place name meant) (h' : rule.Means py place name' meant') :
    name = name' ∧ meant = meant' :=
  ⟨Option.some.inj (h.1.symm.trans h'.1), Option.some.inj (h.2.1.symm.trans h'.2.1)⟩

theorem aslist_ne_nil {val : Value} (h : val.isNothing = false) : val.aslist ≠ [] := by
  cases val with
  | list l =>
      rintro hnil
      have hnil : l = [] := hnil
      simp [Value.isNothing, hnil] at h
  | _ => simp [Value.aslist]

section
variable {Row : Type} {M : Rows Row}

/-- More values list more rows. -/
theorem lists_mono {name : String} {val meant : Value} {way : Match} {row : Row}
    (h : val = meant ∨ way = .in_ ∧ val.aslist ⊆ meant.aslist)
    (hlists : Lists M name py val way row) : Lists M name py meant way row := by
  obtain rfl | ⟨rfl, hsub⟩ := h
  · exact hlists
  · obtain hstar | hin := hlists
    · obtain ⟨v, hv, hisStr⟩ := List.any_eq_true.mp hstar
      exact .inl (List.any_eq_true.mpr ⟨v, hsub hv, hisStr⟩)
    · obtain ⟨v, hv, hne, hexact⟩ := (M.sat_in ..).mp hin
      exact .inr ((M.sat_in ..).mpr ⟨v, hsub hv, hne, hexact⟩)

/-- A rule that excludes, with the conditions it comes to. -/
theorem denotes_of_excluded {r : Rule} {qs : List Q} {name : String} {meant : Value}
    (hex : rule.excluded = true) (hresolve : resolve py place rule = some r)
    (hqs : attr_qs py r = some qs) (hm : rule.Means py place name meant)
    (hall : rule.meant_way ≠ .all)
    (htight : ∀ val, rule.resolved_value py place = some val →
      TightExcluded py meant val rule.meant_way) :
    qs ≠ [] ∧ ∀ q ∈ qs, ∀ row, q.holds M.lookup row → Denotes py place M rule row := by
  obtain ⟨hfield, hexr, hway⟩ := resolve_spec hresolve
  obtain ⟨val, hval, hcovers⟩ := exists_val_of_means hresolve hm
  have htight := htight val (by rw [resolved_value_of_resolve hresolve, hval])
  have hfield : r.field = some name := hfield.trans hm.1
  have hdenotes {row : Row} (h : ¬ Lists M name py meant rule.meant_way row) :
      Denotes py place M rule row := by
    rw [Denotes, if_pos hex]
    rintro (h' | ⟨name', meant', hm', hlists⟩)
    · exact hall h'
    · obtain ⟨rfl, rfl⟩ := hm.unique hm'
      exact h hlists
  by_cases hm2m : rule.meant_way = .m2m_all
  · -- `exclude` is passed over
    rw [attr_qs_m2m_all hfield hval (hway.trans hm2m)] at hqs
    cases hqs
    rw [hm2m] at htight
    obtain rfl : val = meant := eq_of_covers hcovers (by simp [hm2m])
    refine ⟨by simpa using List.ne_nil_of_mem htight, fun q _ row _ => hdenotes fun hlists => ?_⟩
    rw [hm2m] at hlists
    exact (sat_in_single.mp (hlists .null htight)).1 rfl
  · rw [attr_qs_match hfield hval hway hall hm2m, hexr, hex] at hqs
    obtain ⟨q, hq, rfl⟩ := Option.map_eq_some_iff.mp hqs
    refine ⟨by simp, fun q' hq' row h => hdenotes ?_⟩
    obtain rfl : q' = q.invert := by simpa using hq'
    exact not_lists_of_invert hm2m hcovers htight hq h

/-- A rule that does not exclude, with the conditions it comes to. -/
theorem denotes_of_included {r : Rule} {qs : List Q} {name : String} {val : Value}
    (hex : rule.excluded = false) (hresolve : resolve py place rule = some r)
    (hqs : attr_qs py r = some qs) (hall : rule.meant_way ≠ .all) (hfield : rule.field = some name)
    (hval : rule.resolved_value py place = some val)
    (h : Mute py val rule.meant_way ∨
      (∃ meant, rule.Means py place name meant) ∧ Tight py val rule.meant_way) :
    qs ≠ [] ∧ ∀ q ∈ qs, ∀ row, q.holds M.lookup row → Denotes py place M rule row := by
  obtain ⟨hfieldr, hexr, hway⟩ := resolve_spec hresolve
  rw [resolved_value_of_resolve hresolve] at hval
  have hfieldr : r.field = some name := hfieldr.trans hfield
  have hdenotes {meant : Value} (hm : rule.Means py place name meant) {row : Row}
      (h : Lists M name py meant rule.meant_way row) : Denotes py place M rule row := by
    rw [Denotes, if_neg (by simp [hex])]
    exact .inr ⟨name, meant, hm, h⟩
  by_cases hm2m : rule.meant_way = .m2m_all
  · rw [hm2m] at h
    rw [attr_qs_m2m_all hfieldr hval (hway.trans hm2m)] at hqs
    cases hqs
    obtain ⟨hne, hnull⟩ | ⟨⟨meant, hm⟩, htight⟩ := h
    · -- nothing is in a list of `None`
      refine ⟨by simpa using hne, fun q hq row hrow => ?_⟩
      obtain ⟨v, hv, rfl⟩ := List.mem_map.mp hq
      exact absurd (hnull v hv) (sat_in_single.mp hrow).1
    obtain ⟨val', hval', hcovers⟩ := exists_val_of_means hresolve hm
    obtain rfl : val = val' := Option.some.inj (hval.symm.trans hval')
    obtain rfl : val = meant := eq_of_covers hcovers (by simp [hm2m])
    refine ⟨by simpa using aslist_ne_nil hm.2.2, fun q hq row hrow => hdenotes hm ?_⟩
    obtain ⟨v, hv, rfl⟩ := List.mem_map.mp hq
    rw [hm2m]
    intro w hw
    rw [htight w hw v hv]
    exact hrow
  · rw [attr_qs_match hfieldr hval hway hall hm2m, hexr, hex] at hqs
    obtain ⟨q, hq, rfl⟩ := Option.map_eq_some_iff.mp hqs
    refine ⟨by simp, fun q' hq' row hrow => ?_⟩
    obtain rfl : q' = q := by simpa using hq'
    obtain hmute | ⟨⟨meant, hm⟩, htight⟩ := h
    · exact absurd hrow (not_holds_of_mute hm2m hmute hq)
    · obtain ⟨val', hval', hcovers⟩ := exists_val_of_means hresolve hm
      obtain rfl : val = val' := Option.some.inj (hval.symm.trans hval')
      exact hdenotes hm (lists_mono hcovers (lists_of_holds hall hm2m htight hq hrow))

/-- **A safe rule grants every row, or it has conditions, and each shows only rows it grants.** -/
theorem denotes_of_safe {r : Rule} {qs : List Q} (h : Safe py place rule)
    (hresolve : resolve py place rule = some r) (hqs : attr_qs py r = some qs) :
    (∀ row, Denotes py place M rule row) ∨
      qs ≠ [] ∧ ∀ q ∈ qs, ∀ row, q.holds M.lookup row → Denotes py place M rule row := by
  obtain hrefused | h := h
  · rw [hresolve, Option.bind_some, hqs] at hrefused
    cases hrefused
  · cases hex : rule.excluded with
    | true =>
        rw [if_pos hex] at h
        obtain ⟨hall, htight⟩ := h
        by_cases hm : ∃ name meant, rule.Means py place name meant
        · obtain ⟨name, meant, hm⟩ := hm
          exact .inr (denotes_of_excluded hex hresolve hqs hm hall fun val => htight name meant val hm)
        · -- it means nothing
          refine .inl fun row => ?_
          rw [Denotes, if_pos hex]
          rintro (hway | ⟨name, meant, hmeans, -⟩)
          · exact hall hway
          · exact hm ⟨name, meant, hmeans⟩
    | false =>
        rw [if_neg (by simp [hex])] at h
        obtain hall | ⟨name, val, hfield, hval, h⟩ := h
        · refine .inl fun row => ?_
          rw [Denotes, if_neg (by simp [hex])]
          exact .inl hall
        · by_cases hall : rule.meant_way = .all
          · refine .inl fun row => ?_
            rw [Denotes, if_neg (by simp [hex])]
            exact .inl hall
          · exact .inr (denotes_of_included hex hresolve hqs hall hfield hval h)

end

end InfraHub.Permission
