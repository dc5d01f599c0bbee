import Mathlib.Data.List.Basic

/-!
# Library — Query

Conditions on rows, with an empty condition that means three things: on its own it shows every
row, joined with another condition it is neutral, and negated it still adds no condition.

* `falsy`: an empty condition, or a negated one; `both` and `either` drop a falsy operand.
* `holds`: what a condition shows, for any meaning `sat` of the atoms.
* `all`, `union`, `any`: the loops over lists of conditions.  What they show, and whether they are
  falsy, does not depend on the order (`holds_all`, `holds_union`, `holds_any`).
* `Within A D q`: `q` shows only rows that `D` grants by some rule of `A`; a `q` that shows every
  row needs a rule that grants every row.  `Within.both_left`, `Within.either`, `Within.all` and
  `Within.any` carry it through the connectives and through the loops over lists of conditions.
-/

namespace InfraHub.Lib

inductive Query (α : Type)
  | empty
  | atom (a : α)
  | not (q : Query α)
  | and (p q : Query α)
  | or (p q : Query α)

namespace Query

variable {α Row ρ : Type}

/-- There is nothing in the condition. -/
def falsy : Query α → Bool
  | empty => true
  | not q => q.falsy
  | _ => false

/-- The empty condition itself, not negated. -/
def isEmpty : Query α → Bool
  | empty => true
  | _ => false

def invert : Query α → Query α
  | not q => q
  | q => not q

def both (p q : Query α) : Query α :=
  if p.falsy then q else if q.falsy then p else and p q

def either (p q : Query α) : Query α :=
  if p.falsy then q else if q.falsy then p else or p q

/-- The rows that a condition shows. -/
def holds (sat : α → Row → Prop) : Query α → Row → Prop
  | empty, _ => True
  | atom a, row => sat a row
  | not q, row => q.falsy = true ∨ ¬ q.holds sat row
  | and p q, row => p.holds sat row ∧ q.holds sat row
  | or p q, row => p.holds sat row ∨ q.holds sat row

variable {sat : α → Row → Prop} {p q : Query α}

/-- A falsy condition adds none. -/
theorem holds_of_falsy (h : q.falsy = true) (row : Row) : q.holds sat row := by
  cases q with
  | empty => trivial
  | not q => exact .inl h
  | _ => cases h

theorem falsy_of_isEmpty (h : q.isEmpty = true) : q.falsy = true := by
  cases q with
  | empty => rfl
  | _ => cases h

@[simp] theorem falsy_both (p q : Query α) : (p.both q).falsy = (p.falsy && q.falsy) := by
  unfold both
  cases hp : p.falsy <;> cases hq : q.falsy <;> simp [hp, hq, falsy]

@[simp] theorem falsy_either (p q : Query α) : (p.either q).falsy = (p.falsy && q.falsy) := by
  unfold either
  cases hp : p.falsy <;> cases hq : q.falsy <;> simp [hp, hq, falsy]

theorem holds_both {row : Row} :
    (p.both q).holds sat row ↔ p.holds sat row ∧ q.holds sat row := by
  unfold both
  split
  · next hp => simp [holds_of_falsy hp]
  · split
    · next hq => simp [holds_of_falsy hq]
    · rfl

theorem holds_either_of_truthy (hp : p.falsy = false) (hq : q.falsy = false) {row : Row} :
    (p.either q).holds sat row ↔ p.holds sat row ∨ q.holds sat row := by
  simp [either, hp, hq, holds]

theorem holds_either {row : Row} (hp : p.holds sat row) (hq : q.holds sat row) :
    (p.either q).holds sat row := by
  unfold either
  split
  · exact hq
  · split
    · exact hp
    · exact .inl hp

theorem either_of_falsy (hp : p.falsy = true) : p.either q = q := by
  simp [either, hp]

theorem holds_invert (h : q.falsy = false) {row : Row} :
    q.invert.holds sat row ↔ ¬ q.holds sat row := by
  cases q with
  | empty => cases h
  | not q =>
      have hq : q.falsy = false := h
      simp [invert, holds, hq]
  | _ => simp [invert, holds, falsy]

/-! ### Loops over conditions -/

/-- `q &= a` for every condition that is not the empty one. -/
def all (l : List (Query α)) : Query α :=
  (l.filter fun a => !a.isEmpty).foldl both empty

/-- `q |= a` for every condition. -/
def union (l : List (Query α)) : Query α := l.foldl either empty

/-- `q |= a` for every condition; the empty one ends the loop. -/
def any (l : List (Query α)) : Query α := if l.any isEmpty then empty else union l

theorem holds_foldl_both {l : List (Query α)} {row : Row} :
    (l.foldl both p).holds sat row ↔ p.holds sat row ∧ ∀ q ∈ l, q.holds sat row := by
  induction l generalizing p with
  | nil => simp
  | cons a l ih => simp [ih, holds_both, and_assoc]

/-- A loop of `|=` over atoms; over none it shows every row. -/
theorem holds_union_atoms {l : List α} {row : Row} :
    (union (l.map atom)).holds sat row ↔ l = [] ∨ ∃ a ∈ l, sat a row := by
  have hfold (l : List α) (p : Query α) (hp : p.falsy = false) :
      ((l.map atom).foldl either p).holds sat row ↔ p.holds sat row ∨ ∃ a ∈ l, sat a row := by
    induction l generalizing p with
    | nil => simp
    | cons a l ih =>
        have ha : (atom a : Query α).falsy = false := rfl
        rw [List.map_cons, List.foldl_cons, ih _ (by rw [falsy_either, hp, ha]; rfl),
          holds_either_of_truthy hp ha]
        simp [holds, or_assoc]
  cases l with
  | nil => simp [union, holds]
  | cons a l =>
      rw [union, List.map_cons, List.foldl_cons, either_of_falsy rfl, hfold l _ rfl]
      simp [holds]

theorem falsy_union_atoms {l : List α} (h : l ≠ []) : (union (l.map atom)).falsy = false := by
  have hfold (l : List α) (p : Query α) (hp : p.falsy = false) :
      ((l.map atom).foldl either p).falsy = false := by
    induction l generalizing p with
    | nil => exact hp
    | cons a l ih => exact ih _ (by rw [falsy_either, hp]; rfl)
  cases l with
  | nil => exact absurd rfl h
  | cons a l =>
      rw [union, List.map_cons, List.foldl_cons, either_of_falsy rfl]
      exact hfold l _ rfl

theorem any_single (q : Query α) : any [q] = q := by
  cases q <;> rfl

/-- The same for a loop that the empty condition ends. -/
theorem holds_any_atoms {l : List α} {row : Row} :
    (any (l.map atom)).holds sat row ↔ l = [] ∨ ∃ a ∈ l, sat a row := by
  have hatoms : (l.map atom).any isEmpty = false := by
    rw [List.any_eq_false]
    intro q hq
    obtain ⟨a, -, rfl⟩ := List.mem_map.mp hq
    simp [isEmpty]
  rw [any, if_neg (by simp [hatoms])]
  exact holds_union_atoms

/-! ### What a loop comes to -/

@[simp] theorem isEmpty_both (p q : Query α) :
    (p.both q).isEmpty = (if p.falsy then q.isEmpty else p.isEmpty) := by
  unfold both
  split
  · rfl
  · next hp =>
    split
    · rfl
    · exact (Bool.eq_false_iff.mpr fun h => hp (falsy_of_isEmpty h)).symm

theorem falsy_foldl_both {l : List (Query α)} :
    (l.foldl both p).falsy = true ↔ p.falsy = true ∧ ∀ q ∈ l, q.falsy = true := by
  induction l generalizing p with
  | nil => simp
  | cons a l ih => simp [ih, and_assoc]

/-- The last condition is left, where none adds anything. -/
theorem isEmpty_foldl_both_concat {l : List (Query α)} :
    ((l ++ [q]).foldl both empty).isEmpty = true ↔
      (∀ p ∈ l ++ [q], p.falsy = true) ∧ q.isEmpty = true := by
  have hfalsy : (l.foldl both empty).falsy = true ↔ ∀ p ∈ l, p.falsy = true := by
    simp [falsy_foldl_both, falsy]
  rw [List.foldl_append, List.foldl_cons, List.foldl_nil, isEmpty_both]
  split
  · next h =>
    refine ⟨fun hq => ⟨fun p hp => ?_, hq⟩, And.right⟩
    rcases List.mem_append.mp hp with hp | hp
    · exact hfalsy.mp h p hp
    · obtain rfl := List.mem_singleton.mp hp
      exact falsy_of_isEmpty hq
  · next h =>
    refine iff_of_false (fun hempty => h (falsy_of_isEmpty hempty)) ?_
    rintro ⟨hall, -⟩
    exact h (hfalsy.mpr fun p hp => hall p (List.mem_append_left _ hp))

theorem holds_all {l : List (Query α)} {row : Row} :
    (all l).holds sat row ↔ ∀ q ∈ l, q.holds sat row := by
  rw [all, holds_foldl_both]
  constructor
  · rintro ⟨-, h⟩ q hq
    by_cases hempty : q.isEmpty = true
    · exact holds_of_falsy (falsy_of_isEmpty hempty) row
    · exact h q (List.mem_filter.mpr ⟨hq, by simpa using hempty⟩)
  · exact fun h => ⟨trivial, fun q hq => h q (List.mem_of_mem_filter hq)⟩

theorem falsy_all {l : List (Query α)} : (all l).falsy = true ↔ ∀ q ∈ l, q.falsy = true := by
  rw [all, falsy_foldl_both]
  constructor
  · rintro ⟨-, h⟩ q hq
    by_cases hempty : q.isEmpty = true
    · exact falsy_of_isEmpty hempty
    · exact h q (List.mem_filter.mpr ⟨hq, by simpa using hempty⟩)
  · exact fun h => ⟨rfl, fun q hq => h q (List.mem_of_mem_filter hq)⟩

theorem isEmpty_all {l : List (Query α)} : (all l).isEmpty = true ↔ ∀ q ∈ l, q.isEmpty = true := by
  have hfold (l : List (Query α)) (p : Query α) (hp : p.isEmpty = false)
      (h : ∀ q ∈ l, q.isEmpty = false) : (l.foldl both p).isEmpty = false := by
    induction l generalizing p with
    | nil => exact hp
    | cons a l ih =>
        obtain ⟨ha, hl⟩ := List.forall_mem_cons.mp h
        exact ih _ (by rw [isEmpty_both, ha, hp, ite_self]) hl
  rw [all]
  cases hf : l.filter fun a => !a.isEmpty with
  | nil =>
      have hempty := List.filter_eq_nil_iff.mp hf
      simpa [isEmpty] using hempty
  | cons a rest =>
      have hmem (q : Query α) (hq : q ∈ a :: rest) : q ∈ l ∧ q.isEmpty = false := by
        have := List.mem_filter.mp (hf ▸ hq)
        simpa using this
      have ha := hmem a List.mem_cons_self
      have hne : ((a :: rest).foldl both empty).isEmpty = false :=
        hfold rest _ (by simp [ha.2, falsy]) fun q hq => (hmem q (List.mem_cons_of_mem _ hq)).2
      rw [hne]
      constructor
      · exact nofun
      · intro h
        rw [h a ha.1] at ha
        cases ha.2

theorem falsy_union {l : List (Query α)} : (union l).falsy = true ↔ ∀ q ∈ l, q.falsy = true := by
  have hfold (l : List (Query α)) (p : Query α) :
      (l.foldl either p).falsy = true ↔ p.falsy = true ∧ ∀ q ∈ l, q.falsy = true := by
    induction l generalizing p with
    | nil => simp
    | cons a l ih => simp [ih, and_assoc]
  rw [union, hfold]
  simp [falsy]

/-- The falsy conditions are dropped, unless all of them are. -/
theorem holds_union {l : List (Query α)} {row : Row} :
    (union l).holds sat row ↔
      (∀ q ∈ l, q.falsy = true) ∨ ∃ q ∈ l, q.falsy = false ∧ q.holds sat row := by
  have htruthy (l : List (Query α)) (p : Query α) (hp : p.falsy = false) :
      (l.foldl either p).holds sat row ↔
        p.holds sat row ∨ ∃ q ∈ l, q.falsy = false ∧ q.holds sat row := by
    induction l generalizing p with
    | nil => simp
    | cons a l ih =>
        rw [List.foldl_cons, ih _ (by rw [falsy_either, hp]; rfl)]
        cases ha : a.falsy with
        | true => simp [either, hp, ha]
        | false =>
            rw [holds_either_of_truthy hp ha]
            simp [ha, or_assoc]
  have hfalsy (l : List (Query α)) (p : Query α) (hp : p.falsy = true) :
      (l.foldl either p).holds sat row ↔
        (∀ q ∈ l, q.falsy = true) ∨ ∃ q ∈ l, q.falsy = false ∧ q.holds sat row := by
    induction l generalizing p with
    | nil => simp [holds_of_falsy hp]
    | cons a l ih =>
        rw [List.foldl_cons, either_of_falsy hp]
        cases ha : a.falsy with
        | true => simp [ih a ha, ha]
        | false => simp [htruthy l a ha, ha]
  exact hfalsy l empty rfl

theorem isEmpty_any {l : List (Query α)} :
    (any l).isEmpty = true ↔ (∃ q ∈ l, q.isEmpty = true) ∨ l = [] := by
  have hfold (l : List (Query α)) (p : Query α) (hp : p.isEmpty = false)
      (h : ∀ q ∈ l, q.isEmpty = false) : (l.foldl either p).isEmpty = false := by
    induction l generalizing p with
    | nil => exact hp
    | cons a l ih =>
        obtain ⟨ha, hl⟩ := List.forall_mem_cons.mp h
        refine ih _ ?_ hl
        unfold either
        split
        · exact ha
        · split
          · exact hp
          · rfl
  unfold any
  split
  · next h => simpa [isEmpty] using .inl (List.any_eq_true.mp h)
  · next h =>
    have hnone : ∀ q ∈ l, q.isEmpty = false := by simpa using h
    have hno : ¬ ∃ q ∈ l, q.isEmpty = true := by
      rintro ⟨q, hq, hempty⟩
      rw [hnone q hq] at hempty
      cases hempty
    cases l with
    | nil => simp [union, isEmpty]
    | cons a l =>
        obtain ⟨ha, hl⟩ := List.forall_mem_cons.mp hnone
        rw [union, List.foldl_cons, either_of_falsy rfl, hfold l a ha hl]
        refine iff_of_false nofun ?_
        rintro (h | h)
        · exact hno h
        · cases h

theorem falsy_any {l : List (Query α)} : (any l).falsy = true ↔
    (∃ q ∈ l, q.isEmpty = true) ∨ ∀ q ∈ l, q.falsy = true := by
  unfold any
  split
  · next h => simpa [falsy] using .inl (List.any_eq_true.mp h)
  · next h =>
    have hno : ¬ ∃ q ∈ l, q.isEmpty = true := by simpa using h
    rw [falsy_union, or_iff_right hno]

theorem holds_any {l : List (Query α)} {row : Row} : (any l).holds sat row ↔
    (any l).falsy = true ∨ ∃ q ∈ l, q.falsy = false ∧ q.holds sat row := by
  rw [falsy_any]
  unfold any
  split
  · next h => simpa [holds] using .inl (.inl (List.any_eq_true.mp h))
  · next h =>
    have hno : ¬ ∃ q ∈ l, q.isEmpty = true := by simpa using h
    rw [holds_union, or_iff_right hno]

/-- `q` shows only rows that a rule of `A` grants. -/
structure Within (sat : α → Row → Prop) (A : ρ → Prop) (D : ρ → Row → Prop) (q : Query α) :
    Prop where
  every : q.falsy = true → ∃ r, A r ∧ ∀ row, D r row
  each : q.falsy = false → ∀ row, q.holds sat row → ∃ r, A r ∧ D r row

namespace Within

variable {A B : ρ → Prop} {D : ρ → Row → Prop}

theorem granted (h : Within sat A D q) {row : Row} (hrow : q.holds sat row) :
    ∃ r, A r ∧ D r row := by
  cases hq : q.falsy with
  | true =>
      obtain ⟨r, hr, hall⟩ := h.every hq
      exact ⟨r, hr, hall row⟩
  | false => exact h.each hq row hrow

theorem of_holds {r : ρ} (hr : A r) (h : ∀ row, q.holds sat row → D r row) : Within sat A D q where
  every hf := ⟨r, hr, fun row => h row (holds_of_falsy hf row)⟩
  each _ row hrow := ⟨r, hr, h row hrow⟩

/-- A rule that grants every row. -/
theorem of_every {r : ρ} (hr : A r) (hall : ∀ row, D r row) (q : Query α) : Within sat A D q where
  every _ := ⟨r, hr, hall⟩
  each _ row _ := ⟨r, hr, hall row⟩

/-- A condition that shows nothing. -/
theorem of_never (hq : q.falsy = false) (h : ∀ row, ¬ q.holds sat row) : Within sat A D q where
  every hf := by rw [hq] at hf; cases hf
  each _ row hrow := absurd hrow (h row)

theorem both_left (h : Within sat A D p) (q : Query α) : Within sat A D (p.both q) where
  every hf := h.every (Bool.and_eq_true_iff.mp ((falsy_both p q) ▸ hf)).1
  each _ _ hrow := h.granted (holds_both.mp hrow).1

theorem both_right (h : Within sat A D q) (p : Query α) : Within sat A D (p.both q) where
  every hf := h.every (Bool.and_eq_true_iff.mp ((falsy_both p q) ▸ hf)).2
  each _ _ hrow := h.granted (holds_both.mp hrow).2

theorem either (hp : Within sat A D p) (hq : Within sat A D q) : Within sat A D (p.either q) := by
  unfold Query.either
  split
  · exact hq
  · next hpf =>
    split
    · exact hp
    · refine ⟨fun hf => (nomatch hf), fun _ row hrow => ?_⟩
      rcases hrow with hrow | hrow
      · exact hp.granted hrow
      · exact hq.granted hrow

theorem foldl_both {l : List (Query α)} (h : Within sat A D p) :
    Within sat A D (l.foldl Query.both p) := by
  induction l generalizing p with
  | nil => exact h
  | cons a l ih => exact ih (h.both_left a)

theorem foldl_either {l : List (Query α)} (hp : Within sat A D p)
    (h : ∀ a ∈ l, Within sat A D a) : Within sat A D (l.foldl Query.either p) := by
  induction l generalizing p with
  | nil => exact hp
  | cons a l ih =>
      exact ih (hp.either (h a (List.mem_cons_self ..))) fun b hb => h b (List.mem_cons_of_mem _ hb)

/-- A loop of `|=` over at least one condition. -/
theorem union {l : List (Query α)} (hl : l ≠ []) (h : ∀ a ∈ l, Within sat A D a) :
    Within sat A D (Query.union l) := by
  cases l with
  | nil => exact absurd rfl hl
  | cons a l =>
      unfold Query.union
      rw [List.foldl_cons, either_of_falsy rfl]
      exact foldl_either (h a (List.mem_cons_self ..)) fun b hb => h b (List.mem_cons_of_mem _ hb)

/-- The same, where the empty condition ends the loop. -/
theorem any {l : List (Query α)} (hl : l ≠ []) (h : ∀ a ∈ l, Within sat A D a) :
    Within sat A D (Query.any l) := by
  unfold Query.any
  split
  · next hempty =>
    obtain ⟨a, ha, hempty⟩ := List.any_eq_true.mp hempty
    obtain ⟨r, hr, hall⟩ := (h a ha).every (falsy_of_isEmpty hempty)
    exact of_every hr hall empty
  · exact union hl h

/-- A loop of `&=` over at least one condition; the empty ones are skipped. -/
theorem all {l : List (Query α)} (hl : l ≠ []) (h : ∀ a ∈ l, Within sat A D a) :
    Within sat A D (Query.all l) := by
  unfold Query.all
  cases hf : l.filter fun a => !a.isEmpty with
  | cons a rest =>
      have ha : a ∈ l := (List.mem_filter.mp (hf ▸ List.mem_cons_self ..)).1
      rw [List.foldl_cons]
      exact foldl_both ((h a ha).both_right empty)
  | nil =>
      obtain ⟨a, ha⟩ := List.exists_mem_of_ne_nil l hl
      have hempty : a.isEmpty = true := by simpa using List.filter_eq_nil_iff.mp hf a ha
      obtain ⟨r, hr, hall⟩ := (h a ha).every (falsy_of_isEmpty hempty)
      exact of_every hr hall empty

end Within

end Query

end InfraHub.Lib
