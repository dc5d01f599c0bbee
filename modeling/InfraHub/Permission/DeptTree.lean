import InfraHub.Lib.Run
import InfraHub.Permission.DeptSearch

/-!
# Permission — DeptTree

The tree of the departments, under creates and updates that look first and write later.

`DeptSerializer.update` reads the departments below the one that it updates, and refuses one of them
as its parent; the write comes later, and writes all columns.  `recursion_dept_info` ends where there
are no cycles; `dept_forest_iff` says which writes keep it so.
-/

namespace InfraHub.Permission
open InfraHub.Lib (Table Run exec guarded Throughout throughout_of_guarded Acyclic acyclic_rehang
  rehang)
open Relation (TransGen ReflTransGen)

/-! ### The requests -/

/-- The department with its parent: the columns that a search reads. -/
abbrev DeptRow := Nat × Option Nat

abbrev DeptTable := Table Nat DeptRow Prod.fst

/-- What is sent to `DeptSerializer`: a create, or an update of `instance`.  `pk` is the key that is
sent (or `uuid4()`), or the key of the instance; `none` is a `parent` that is not sent.  The user who
sends it is in the department `dept`. -/
structure DeptRequest where
  «instance» : Option Nat
  pk : Nat
  parent : Option (Option Nat)
  dept : Option Nat
  deriving DecidableEq, Repr

/-- `DeptSerializer.validate`: the parent among the validated data. -/
def validate (request : DeptRequest) («instance» : Option DeptRow) : Option (Option Nat) :=
  let parent := request.parent.getD («instance».bind Prod.snd)
  if parent.isNone then some request.dept else request.parent

/-- The row that is saved: all columns of the instance, with those of the validated data. -/
def saved (request : DeptRequest) («instance» : Option DeptRow) (parent : Option (Option Nat)) :
    DeptRow :=
  (request.pk, parent.getD («instance».bind Prod.snd))

/-- `save()` of an instance, or `create()`.  The database refuses a key that is taken, and a parent
that does not exist. -/
def save (depts : DeptTable) («instance» : Option DeptRow) (row : DeptRow) : Option DeptTable :=
  let taken := row.1 ∈ depts.rows.map Prod.fst
  if («instance».isNone ∧ taken) ∨ ∃ parent ∈ row.2, parent ≠ row.1 ∧ parent ∉ depts.rows.map Prod.fst
  then none
  else if taken then some (depts.modify row.1 (fun dept => (dept.1, row.2)) fun _ => rfl)
  else some (depts.insert row)

inductive DeptPhase
  | sent (request : DeptRequest)
  | loaded (request : DeptRequest) («instance» : Option DeptRow)
  | validated (request : DeptRequest) («instance» : Option DeptRow) (parent : Option (Option Nat))
  | checked (request : DeptRequest) («instance» : Option DeptRow) (parent : Option (Option Nat))
  | done
  deriving DecidableEq

structure Depts where
  depts : DeptTable
  phases : List DeptPhase

/-- The next access of a request to the database, or its end by some other exception. -/
inductive DeptEvent
  | load (i : Nat)
  | validate (i : Nat)
  | check (i : Nat)
  | save (i : Nat)
  | refuse (i : Nat)
  deriving DecidableEq, Repr

def Depts.goto (s : Depts) (i : Nat) (phase : DeptPhase) : Depts :=
  { s with phases := s.phases.set i phase }

def Depts.exists (s : Depts) (pk : Nat) : Bool := (s.depts.rows.map Prod.fst).contains pk

def Depts.next (s : Depts) : DeptEvent → Option Depts
  | .load i => match s.phases[i]? with
    | some (.sent request) => match request.instance with
      | none => some (s.goto i (.loaded request none))
      | some pk => match s.depts.get pk with
        | some row => some (s.goto i (.loaded request (some row)))
        | none => some (s.goto i .done)
    | _ => none
  | .validate i => match s.phases[i]? with
    | some (.loaded request row) =>
      -- another department has the key, or the parent does not exist
      if (s.exists request.pk ∧ request.instance ≠ some request.pk) ∨
          ∃ parent ∈ request.parent.join, ¬ s.exists parent then some (s.goto i .done)
      else some (s.goto i (.validated request row (validate request row)))
    | _ => none
  | .check i => match s.phases[i]? with
    | some (.validated request none parent) => some (s.goto i (.checked request none parent))
    | some (.validated request (some row) parent) => match parent.join with
      | none => some (s.goto i (.checked request (some row) parent))
      | some pk => match recursion_dept_info s.depts.rows (some row.1) false with
        | none => some (s.goto i .done)
        | some dept_pks =>
          if some pk ∈ dept_pks then some (s.goto i .done)
          else some (s.goto i (.checked request (some row) parent))
    | _ => none
  | .save i => match s.phases[i]? with
    | some (.checked request row parent) => match save s.depts row (saved request row parent) with
      | some depts => some { s.goto i .done with depts }
      | none => some (s.goto i .done)
    | _ => none
  | .refuse i => if i < s.phases.length then some (s.goto i .done) else none

def DeptStep (s : Depts) (e : DeptEvent) (t : Depts) : Prop := s.next e = some t

def Depts.start (depts : DeptTable) (requests : List DeptRequest) : Depts where
  depts := depts
  phases := requests.map .sent

/-! ### The forest -/

/-- No department is above itself, and `recursion_dept_info` returns for every department. -/
def DeptForest (depts : DeptTable) : Prop :=
  Acyclic (Up depts.rows) ∧
    ∀ dept is_parent, recursion_dept_info depts.rows (some dept) is_parent ≠ none

/-- A write that the database accepts gives no department a parent that is the department itself, or
below it. -/
def Depts.SafeSave (s : Depts) (e : DeptEvent) : Prop :=
  ∀ i request row parent, e = .save i → s.phases[i]? = some (.checked request row parent) →
    save s.depts row (saved request row parent) ≠ none →
    ∀ pk, (saved request row parent).2 = some pk →
      ¬ Above s.depts.rows pk (saved request row parent).1

theorem deptForest_iff {depts : DeptTable} : DeptForest depts ↔ Acyclic (Up depts.rows) :=
  and_iff_left_of_imp recursion_dept_info_ends

section
variable {depts depts' : DeptTable} {«instance» : Option DeptRow} {row : DeptRow}

/-- **A write moves one department.** -/
theorem up_save (h : save depts «instance» row = some depts') :
    Up depts'.rows = rehang (Up depts.rows) row.1 row.2 := by
  unfold save at h
  simp only at h
  split at h
  · cases h
  · split at h
    · next htaken =>
      cases h
      funext a b
      simp only [Up, rehang, Table.modify, Table.map, List.mem_map, eq_iff_iff]
      constructor
      · rintro ⟨⟨c, parent⟩, hc, heq⟩
        split at heq
        · next hkey =>
          obtain ⟨rfl, hparent⟩ := Prod.mk.inj heq
          exact .inl ⟨hkey, hparent⟩
        · next hkey =>
          cases heq
          exact .inr ⟨hkey, hc⟩
      · rintro (⟨rfl, hparent⟩ | ⟨hne, hup⟩)
        · obtain ⟨dept, hdept, hkey⟩ := List.mem_map.mp htaken
          exact ⟨dept, hdept, by rw [if_pos hkey, hkey, hparent]⟩
        · exact ⟨_, hup, if_neg hne⟩
    · next hfree =>
      cases h
      funext a b
      simp only [Up, rehang, Table.insert, hfree, dif_neg, not_false_eq_true, List.mem_cons,
        eq_iff_iff]
      constructor
      · rintro (rfl | hup)
        · exact .inl ⟨rfl, rfl⟩
        · refine .inr ⟨?_, hup⟩
          rintro rfl
          exact hfree (List.mem_map.mpr ⟨_, hup, rfl⟩)
      · rintro (⟨rfl, hparent⟩ | ⟨-, hup⟩)
        · exact .inl (by rw [← hparent])
        · exact .inr hup

theorem acyclic_save (h : Acyclic (Up depts.rows)) (hsave : save depts «instance» row = some depts') :
    Acyclic (Up depts'.rows) ↔ ∀ pk, row.2 = some pk → ¬ Above depts.rows pk row.1 := by
  rw [up_save hsave, acyclic_rehang h]
  simp only [above_iff]

end

/-! ### Runs -/

section
variable {s t : Depts} {e : DeptEvent}

/-- **What a step does to the table**: nothing, or the write of the request that saves. -/
theorem depts_of_next (h : s.next e = some t) :
    t.depts = s.depts ∧ (∀ i, e ≠ .save i) ∨
      ∃ i request row parent, e = .save i ∧ s.phases[i]? = some (.checked request row parent) ∧
        t.depts = (save s.depts row (saved request row parent)).getD s.depts := by
  cases e with
  | save i =>
      simp only [Depts.next] at h
      split at h
      · next request row parent hphase =>
        refine .inr ⟨i, request, row, parent, rfl, hphase, ?_⟩
        split at h
        · next hsave =>
          rw [hsave]
          exact Option.some.inj h ▸ rfl
        · next hsave =>
          rw [hsave]
          exact Option.some.inj h ▸ rfl
      · cases h
  | refuse i =>
      refine .inl ⟨?_, by simp⟩
      obtain ⟨-, h⟩ := Option.ite_none_right_eq_some.mp h
      exact Option.some.inj h ▸ rfl
  | load i =>
      refine .inl ⟨?_, by simp⟩
      simp only [Depts.next] at h
      repeat' split at h
      all_goals cases h <;> rfl
  | validate i =>
      refine .inl ⟨?_, by simp⟩
      simp only [Depts.next] at h
      repeat' split at h
      all_goals cases h <;> rfl
  | check i =>
      refine .inl ⟨?_, by simp⟩
      simp only [Depts.next] at h
      repeat' split at h
      all_goals cases h <;> rfl

theorem acyclic_next (h : Acyclic (Up s.depts.rows)) (hs : s.next e = some t) (hsafe : s.SafeSave e) :
    Acyclic (Up t.depts.rows) := by
  rcases depts_of_next hs with ⟨hsame, -⟩ | ⟨i, request, row, parent, rfl, hphase, hdepts⟩
  · rwa [hsame]
  · rw [hdepts]
    cases hsave : save s.depts row (saved request row parent) with
    | none => exact h
    | some depts =>
        refine (acyclic_save h hsave).mpr ?_
        exact hsafe i request row parent rfl hphase (by simp [hsave])

theorem safeSave_of_acyclic (h : Acyclic (Up s.depts.rows)) (hs : s.next e = some t)
    (h' : Acyclic (Up t.depts.rows)) : s.SafeSave e := by
  rintro i request row parent rfl hphase hsome
  rcases depts_of_next hs with ⟨-, hne⟩ | ⟨_, request', row', parent', he, hphase', hdepts⟩
  · exact absurd rfl (hne i)
  · cases he
    cases hphase.symm.trans hphase'
    obtain ⟨depts, hsave⟩ := Option.ne_none_iff_exists'.mp hsome
    rw [hdepts, hsave] at h'
    exact (acyclic_save h hsave).mp h'

end

/-! ### A request that runs alone -/

/-- Parents exist. -/
def Rooted (depts : DeptTable) : Prop :=
  ∀ dept parent, Up depts.rows dept parent → parent ∈ depts.rows.map Prod.fst

section
variable {s t : Depts} {i : Nat} {request : DeptRequest}

/-- Nothing is below a department that does not exist. -/
theorem not_above_new {depts : DeptTable} (hrooted : Rooted depts) {a b : Nat}
    (ha : a ∈ depts.rows.map Prod.fst) (hb : b ∉ depts.rows.map Prod.fst) :
    ¬ Above depts.rows a b := by
  intro h
  induction h with
  | refl => exact hb ha
  | step hstep _ ih => exact ih (hrooted _ _ hstep) hb

/-- What `validate` gives as the parent, or leaves as it is. -/
theorem saved_parent {row : Option DeptRow} {pk : Nat}
    (hpk : (saved request row (validate request row)).2 = some pk) :
    (validate request row).join = some pk ∧ (request.parent.join = some pk ∨ request.dept = some pk) ∨
      validate request row = none ∧ row.bind Prod.snd = some pk := by
  simp only [saved] at hpk
  cases hparent : validate request row with
  | none => exact .inr ⟨rfl, by simpa [hparent] using hpk⟩
  | some parent =>
      obtain rfl : parent = some pk := by simpa [hparent] using hpk
      refine .inl ⟨rfl, ?_⟩
      simp only [validate] at hparent
      split at hparent
      · exact .inr (Option.some.inj hparent)
      · exact .inl (by simp [hparent])

/-- The row that is saved right after it was loaded, validated and checked. -/
theorem not_above_saved {depts : DeptTable} (hacyclic : Acyclic (Up depts.rows))
    (hrooted : Rooted depts) (hdept : ∀ pk ∈ request.dept, pk ∈ depts.rows.map Prod.fst)
    {row : Option DeptRow} (hrow : ∀ own ∈ row, own ∈ depts.rows)
    (hkey : request.pk ∈ depts.rows.map Prod.fst → row.map Prod.fst = some request.pk)
    (hsent : ∀ pk ∈ request.parent.join, pk ∈ depts.rows.map Prod.fst)
    (hcheck : ∀ own ∈ row, ∀ pk, (validate request row).join = some pk → ¬ Above depts.rows pk own.1)
    {pk : Nat} (hpk : (saved request row (validate request row)).2 = some pk) :
    ¬ Above depts.rows pk request.pk := by
  have hup (h : row.bind Prod.snd = some pk) : ∃ own ∈ row, Up depts.rows own.1 pk := by
    obtain ⟨own, hown, hparent⟩ := Option.bind_eq_some_iff.mp h
    exact ⟨own, hown, by simpa [Up, ← hparent] using hrow own hown⟩
  by_cases htaken : request.pk ∈ depts.rows.map Prod.fst
  · obtain ⟨own, hrow', hown⟩ := Option.map_eq_some_iff.mp (hkey htaken)
    rcases saved_parent hpk with ⟨hparent, -⟩ | ⟨-, hparent⟩
    · exact hown ▸ hcheck own hrow' pk hparent
    · obtain ⟨_, hown', hstep⟩ := hup hparent
      cases hrow'.symm.trans hown'
      intro habove
      exact hacyclic _ (.head' (hown ▸ hstep) (above_iff.mp habove))
  · refine not_above_new hrooted ?_ htaken
    rcases saved_parent hpk with ⟨-, hparent | hparent⟩ | ⟨-, hparent⟩
    · exact hsent pk hparent
    · exact hdept pk hparent
    · obtain ⟨own, -, hstep⟩ := hup hparent
      exact hrooted _ _ hstep

theorem goto_phase {phase : DeptPhase} (h : i < s.phases.length) :
    (s.goto i phase).phases[i]? = some phase := by
  simp [Depts.goto, h]

theorem loaded_of_load (hphase : s.phases[i]? = some (.sent request)) (h : s.next (.load i) = some t) :
    t.depts = s.depts ∧ (t.phases[i]? = some .done ∨ ∃ row, t.phases[i]? = some (.loaded request row) ∧
      row.map Prod.fst = request.instance ∧ ∀ own ∈ row, own ∈ s.depts.rows) := by
  have hi := (List.getElem?_eq_some_iff.mp hphase).1
  simp only [Depts.next, hphase] at h
  split at h
  · next hnew =>
    cases h
    exact ⟨rfl, .inr ⟨none, goto_phase hi, hnew.symm, by simp⟩⟩
  · next hold =>
    split at h
    · next row hrow =>
      cases h
      refine ⟨rfl, .inr ⟨some row, goto_phase hi, ?_, ?_⟩⟩
      · rw [hold, ← Table.key_of_get hrow, Option.map_some]
      · intro own hown
        cases hown
        exact Table.mem_of_get hrow
    · cases h
      exact ⟨rfl, .inl (goto_phase hi)⟩

theorem validated_of_validate {row : Option DeptRow}
    (hphase : s.phases[i]? = some (.loaded request row)) (h : s.next (.validate i) = some t) :
    t.depts = s.depts ∧ (t.phases[i]? = some .done ∨
      t.phases[i]? = some (.validated request row (validate request row)) ∧
        (request.pk ∈ s.depts.rows.map Prod.fst → request.instance = some request.pk) ∧
        ∀ pk ∈ request.parent.join, pk ∈ s.depts.rows.map Prod.fst) := by
  have hi := (List.getElem?_eq_some_iff.mp hphase).1
  simp only [Depts.next, hphase] at h
  split at h
  · cases h
    exact ⟨rfl, .inl (goto_phase hi)⟩
  · next hvalid =>
    cases h
    simp only [Depts.exists, List.contains_iff_mem, not_or, not_and, not_exists, not_not] at hvalid
    exact ⟨rfl, .inr ⟨goto_phase hi, hvalid.1, hvalid.2⟩⟩

theorem checked_of_check {row : Option DeptRow} {parent : Option (Option Nat)}
    (hphase : s.phases[i]? = some (.validated request row parent)) (h : s.next (.check i) = some t) :
    t.depts = s.depts ∧ (t.phases[i]? = some .done ∨
      t.phases[i]? = some (.checked request row parent) ∧
        ∀ own ∈ row, ∀ pk, parent.join = some pk → ¬ Above s.depts.rows pk own.1) := by
  have hi := (List.getElem?_eq_some_iff.mp hphase).1
  simp only [Depts.next, hphase] at h
  cases row with
  | none =>
      cases h
      exact ⟨rfl, .inr ⟨goto_phase hi, nofun⟩⟩
  | some own =>
      simp only at h
      split at h
      · next hnone =>
        cases h
        exact ⟨rfl, .inr ⟨goto_phase hi, by simp [hnone]⟩⟩
      · next pk hpk =>
        split at h
        · cases h
          exact ⟨rfl, .inl (goto_phase hi)⟩
        · next hinfo =>
          split at h
          · cases h
            exact ⟨rfl, .inl (goto_phase hi)⟩
          · next hnot =>
            cases h
            refine ⟨rfl, .inr ⟨goto_phase hi, ?_⟩⟩
            intro own' hown pk' hpk'
            cases hown
            cases hpk.symm.trans hpk'
            rwa [mem_info_iff hinfo] at hnot

/-- **A request that runs alone keeps the departments a forest.** -/
theorem acyclic_alone (hphase : s.phases[i]? = some (.sent request))
    (hacyclic : Acyclic (Up s.depts.rows)) (hrooted : Rooted s.depts)
    (hdept : ∀ pk ∈ request.dept, pk ∈ s.depts.rows.map Prod.fst)
    (h : exec Depts.next s [.load i, .validate i, .check i, .save i] = some t) :
    Acyclic (Up t.depts.rows) := by
  obtain ⟨s₁, hload, h⟩ := Option.bind_eq_some_iff.mp h
  obtain ⟨s₂, hvalidate, h⟩ := Option.bind_eq_some_iff.mp h
  obtain ⟨s₃, hcheck, h⟩ := Option.bind_eq_some_iff.mp h
  obtain ⟨s₄, hsave, h⟩ := Option.bind_eq_some_iff.mp h
  obtain rfl : s₄ = t := Option.some.inj h
  obtain ⟨h₁, hdone | ⟨row, hloaded, hinstance, hrow⟩⟩ := loaded_of_load hphase hload
  · simp [Depts.next, hdone] at hvalidate
  obtain ⟨h₂, hdone | ⟨hvalidated, hkey, hsent⟩⟩ := validated_of_validate hloaded hvalidate
  · simp [Depts.next, hdone] at hcheck
  obtain ⟨h₃, hdone | ⟨hchecked, hbelow⟩⟩ := checked_of_check hvalidated hcheck
  · simp [Depts.next, hdone] at hsave
  have hsame : s₃.depts = s.depts := h₃.trans (h₂.trans h₁)
  refine acyclic_next (hsame ▸ hacyclic) hsave ?_
  rintro _ request' row' parent' ⟨⟩ hphase' - pk hpk
  cases hchecked.symm.trans hphase'
  rw [hsame]
  rw [h₁] at hkey hsent
  rw [h₂, h₁] at hbelow
  exact not_above_saved hacyclic hrooted hdept hrow (fun hpk => hinstance.trans (hkey hpk)) hsent hbelow
    hpk

end

/-- The first department goes under the second one, and the second under the first. -/
def crossing : List DeptRequest :=
  [⟨some 1, 1, some (some 2), none⟩, ⟨some 2, 2, some (some 1), none⟩]

def two_roots : DeptTable := ⟨[(1, none), (2, none)], by decide⟩

theorem two_roots_forest : DeptForest two_roots := by
  refine deptForest_iff.mpr fun a hcycle => ?_
  obtain ⟨b, hup, -⟩ := TransGen.head'_iff.mp hcycle
  simp [Up, two_roots] at hup

end InfraHub.Permission
