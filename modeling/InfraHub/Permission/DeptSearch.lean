import InfraHub.Lib.Forest
import InfraHub.Permission.Models

/-!
# Permission — DeptSearch

What `recursion_dept_info` finds, in either direction.

* `Edge`: one step of the search; `mem_recurse_iff`: it finds what is reached.
* `mem_info_iff`, `mem_above_iff`: the departments below one, and those above one, each with itself.
* `recursion_dept_info_ends`: without cycles the recursion ends.
-/

namespace InfraHub.Permission
open InfraHub.Lib (Acyclic acyclic_of_lt acyclic_swap height height_le height_lt exists_of_mem_mapM exists_result_of_mem
  exists_mapM)
open Relation (TransGen ReflTransGen)

section
variable {parent pk : Nat × Option Nat → Option Nat} {l : List (Nat × Option Nat)}

/-- A department is found from another one, in the direction of the search. -/
def Edge (parent pk : Nat × Option Nat → Option Nat) (l : List (Nat × Option Nat)) (a b : Nat) :
    Prop :=
  ∃ dept ∈ l, parent dept = some a ∧ pk dept = some b

/-- One step of the search: what is found, and what is found from there. -/
theorem found_of_edge {limit a c : Nat} {found : List Nat}
    (h : recurse_dept parent pk l (limit + 1) (some a) = some found) (hstep : Edge parent pk l a c) :
    c ∈ found ∧ ∃ rest, recurse_dept parent pk l limit (some c) = some rest ∧ rest ⊆ found := by
  obtain ⟨lists, hlists, rfl⟩ := Option.map_eq_some_iff.mp h
  obtain ⟨dept, hdept, ha, hc⟩ := hstep
  obtain ⟨part, hpart, hfound⟩ :=
    exists_result_of_mem hlists (List.mem_filter.mpr ⟨hdept, by simpa using ha⟩)
  simp only [hc] at hfound
  obtain ⟨rest, hrest, rfl⟩ := Option.map_eq_some_iff.mp hfound
  refine ⟨List.mem_flatten.mpr ⟨_, hpart, List.mem_cons_self⟩, rest, hrest, fun b hb => ?_⟩
  exact List.mem_flatten.mpr ⟨_, hpart, List.mem_cons_of_mem _ hb⟩

/-- **The search finds what is reached.** -/
theorem mem_recurse_iff {limit a b : Nat} {found : List Nat}
    (h : recurse_dept parent pk l limit (some a) = some found) :
    b ∈ found ↔ TransGen (Edge parent pk l) a b := by
  constructor
  · intro hb
    induction limit generalizing a found with
    | zero => cases h
    | succ limit ih =>
        obtain ⟨lists, hlists, rfl⟩ := Option.map_eq_some_iff.mp h
        obtain ⟨part, hpart, hb⟩ := List.mem_flatten.mp hb
        obtain ⟨dept, hdept, hfound⟩ := exists_of_mem_mapM hlists hpart
        obtain ⟨hdept, ha⟩ := List.mem_filter.mp hdept
        cases hc : pk dept with
        | none =>
            obtain rfl : [] = part := by simpa [hc] using hfound
            cases hb
        | some c =>
            have hstep : Edge parent pk l a c := ⟨dept, hdept, by simpa using ha, hc⟩
            simp only [hc] at hfound
            obtain ⟨rest, hrest, rfl⟩ := Option.map_eq_some_iff.mp hfound
            rcases List.mem_cons.mp hb with rfl | hb
            · exact .single hstep
            · exact .head hstep (ih hrest hb)
  · intro hreach
    induction limit generalizing a found with
    | zero => cases h
    | succ limit ih =>
        obtain ⟨c, hstep, hreach⟩ := TransGen.head'_iff.mp hreach
        obtain ⟨hc, rest, hrest, hsub⟩ := found_of_edge h hstep
        rcases (Relation.reflTransGen_iff_eq_or_transGen.mp hreach) with rfl | hreach
        · exact hc
        · exact hsub (ih hrest hreach)

/-- The search ends where there are no cycles. -/
theorem exists_recurse (h : Acyclic (Edge parent pk l)) {limit a : Nat}
    (hlimit : height (Edge parent pk l) (l.filterMap pk) a < limit) :
    ∃ found, recurse_dept parent pk l limit (some a) = some found := by
  induction limit generalizing a with
  | zero => omega
  | succ limit ih =>
      unfold recurse_dept
      refine (exists_mapM fun dept hdept => ?_).elim fun lists hlists =>
        ⟨lists.flatten, congrArg (Option.map List.flatten) hlists⟩
      obtain ⟨hdept, ha⟩ := List.mem_filter.mp hdept
      cases hc : pk dept with
      | none => simp
      | some c =>
          have hstep : Edge parent pk l a c := ⟨dept, hdept, by simpa using ha, hc⟩
          have hlt := height_lt h hstep (List.mem_filterMap.mpr ⟨dept, hdept, hc⟩)
          obtain ⟨rest, hrest⟩ := ih (hlt.trans_le (Nat.le_of_lt_succ hlimit))
          simp [hrest]

end

/-- The parent of a department. -/
def Up (l : List (Nat × Option Nat)) (dept parent : Nat) : Prop := (dept, some parent) ∈ l

section
variable {l : List (Nat × Option Nat)}

theorem edge_up : Edge (fun dept => some dept.1) Prod.snd l = Up l := by
  funext a b
  simp [Edge, Up]

theorem edge_down : Edge Prod.snd (fun dept => some dept.1) l = Function.swap (Up l) := by
  funext a b
  simp [Edge, Up, Function.swap]

theorem above_iff {a b : Nat} : Above l a b ↔ ReflTransGen (Up l) a b := by
  constructor
  · intro h
    induction h with
    | refl => exact .refl
    | step hstep _ ih => exact .head hstep ih
  · intro h
    induction h using ReflTransGen.head_induction_on with
    | refl => exact .refl _
    | head hstep _ ih => exact .step hstep ih

/-- The departments above one, with itself. -/
theorem mem_found_up {a b limit : Nat} {found : List Nat}
    (h : recurse_dept (fun dept => some dept.1) Prod.snd l limit (some a) = some found) :
    b ∈ a :: found ↔ Above l a b := by
  rw [List.mem_cons, mem_recurse_iff h, edge_up, above_iff, Relation.reflTransGen_iff_eq_or_transGen]

/-- The departments below one, with itself. -/
theorem mem_found_down {a b limit : Nat} {found : List Nat}
    (h : recurse_dept Prod.snd (fun dept => some dept.1) l limit (some a) = some found) :
    b ∈ a :: found ↔ Above l b a := by
  rw [List.mem_cons, mem_recurse_iff h, edge_down, Relation.transGen_swap, above_iff,
    Relation.reflTransGen_iff_eq_or_transGen]
  exact or_congr_left eq_comm

/-- The departments below one, as they are returned. -/
theorem mem_info_iff {a b : Nat} {dept_pks : List (Option Nat)}
    (h : recursion_dept_info l (some a) false = some dept_pks) :
    some b ∈ dept_pks ↔ Above l b a := by
  obtain ⟨found, hfound, rfl⟩ := Option.map_eq_some_iff.mp h
  rw [← mem_found_down hfound]
  simp only [List.mem_dedup, List.mem_cons, Option.some.injEq, List.mem_map, exists_eq_right]

theorem mem_above_iff {a b : Nat} {dept_pks : List (Option Nat)}
    (h : recursion_dept_info l (some a) true = some dept_pks) :
    some b ∈ dept_pks ↔ Above l a b := by
  obtain ⟨found, hfound, rfl⟩ := Option.map_eq_some_iff.mp h
  rw [← mem_found_up hfound]
  simp only [List.mem_dedup, List.mem_cons, Option.some.injEq, List.mem_map, exists_eq_right]

/-- **The recursion ends**, upwards and downwards, where there are no cycles. -/
theorem recursion_dept_info_ends (h : Acyclic (Up l)) (dept : Nat) (is_parent : Bool) :
    recursion_dept_info l (some dept) is_parent ≠ none := by
  have hends (parent pk : Nat × Option Nat → Option Nat) (hacyclic : Acyclic (Edge parent pk l)) :
      ∃ found, recurse_dept parent pk l (l.length + 1) (some dept) = some found := by
    refine exists_recurse hacyclic (Nat.lt_succ_of_le ?_)
    exact (height_le dept).trans (List.length_filterMap_le pk l)
  unfold recursion_dept_info
  cases is_parent with
  | true =>
      obtain ⟨found, hfound⟩ := hends (fun dept => some dept.1) Prod.snd (by rwa [edge_up])
      simp [hfound]
  | false =>
      obtain ⟨found, hfound⟩ := hends Prod.snd (fun dept => some dept.1)
        (by rwa [edge_down, acyclic_swap])
      simp [hfound]

end

theorem self_mem_info {l : List (Nat × Option Nat)} {dept_id : Option Nat} {is_parent : Bool}
    {dept_pks : List (Option Nat)} (h : recursion_dept_info l dept_id is_parent = some dept_pks) :
    dept_id ∈ dept_pks := by
  obtain ⟨dept_list, -, rfl⟩ := Option.map_eq_some_iff.mp h
  exact List.mem_dedup.mpr List.mem_cons_self

/-- A department, and one below it. -/
def two_depts : List (Nat × Option Nat) := [(1, none), (2, some 1)]

theorem two_depts_acyclic : Acyclic (Up two_depts) := by
  refine acyclic_of_lt id fun a b hup => ?_
  obtain ⟨rfl, rfl⟩ : a = 2 ∧ b = 1 := by simpa [Up, two_depts] using hup
  exact Nat.lt_add_one 1

end InfraHub.Permission
