import InfraHub.Permission.DeptTree
import Mathlib.Data.Nat.Digits.Defs

/-!
# Permission — DeptClosure

What `recursion_dept_info` returns: a department with those below it, or above it, as strings.

* `walk_depts`: the recursion, with the list that all calls append to.  `walk_depts_eq` says that each call
  appends what `recurse_dept` finds.
* `uuid_str`: a key as it stands in the result; different keys are different strings.
* `dept_closure_exact`: without cycles the recursion ends, and the result is the closure.
-/

namespace InfraHub.Permission
open InfraHub.Lib (Acyclic)
open Relation (TransGen ReflTransGen)

/-! ### Keys as strings -/

/-- The digits of `'%032x' % pk`. -/
def hex_digits (pk : Nat) : List Nat :=
  (Nat.digits 16 pk ++ List.replicate (32 - (Nat.digits 16 pk).length) 0).reverse

def hex_char (digit : Nat) : Char := "0123456789abcdef".toList.getD digit '0'

def hex_value (c : Char) : Nat := "0123456789abcdef".toList.idxOf c

/-- `str` of the `UUID` with this number. -/
def uuid_str (pk : Nat) : String :=
  let hex := (hex_digits pk).map hex_char
  .ofList (hex.take 8 ++ '-' :: ((hex.drop 8).take 4 ++ '-' :: ((hex.drop 12).take 4 ++
    '-' :: ((hex.drop 16).take 4 ++ '-' :: hex.drop 20))))

/-- The number that is read from a string. -/
def uuid_int (s : String) : Nat :=
  Nat.ofDigits 16 ((s.toList.filter (· ≠ '-')).map hex_value).reverse

theorem hex_digit_lt {pk digit : Nat} (h : digit ∈ hex_digits pk) : digit < 16 := by
  rcases List.mem_append.mp (List.mem_reverse.mp h) with h | h
  · exact Nat.digits_lt_base (by decide) h
  · rw [List.eq_of_mem_replicate h]
    decide

theorem hex_char_ne_dash {digit : Nat} (h : digit < 16) : hex_char digit ≠ '-' := by
  have hall : ∀ digit < 16, hex_char digit ≠ '-' := by decide
  exact hall digit h

/-- Without the dashes, the digits are left. -/
theorem filter_uuid_str (pk : Nat) :
    (uuid_str pk).toList.filter (· ≠ '-') = (hex_digits pk).map hex_char := by
  have hdigits : ∀ c ∈ (hex_digits pk).map hex_char, c ≠ '-' := by
    intro c hc
    obtain ⟨digit, hdigit, rfl⟩ := List.mem_map.mp hc
    exact hex_char_ne_dash (hex_digit_lt hdigit)
  generalize hhex : (hex_digits pk).map hex_char = hex at hdigits
  have hpart {part : List Char} (hsub : part ⊆ hex) : part.filter (· ≠ '-') = part :=
    List.filter_eq_self.mpr fun c hc => by simpa using hdigits c (hsub hc)
  have hslice (n m : Nat) : ((hex.drop n).take m).filter (· ≠ '-') = (hex.drop n).take m :=
    hpart fun c hc => List.mem_of_mem_drop (List.mem_of_mem_take hc)
  have hjoin (n m : Nat) : (hex.drop n).take m ++ hex.drop (n + m) = hex.drop n := by
    rw [← List.drop_drop, List.take_append_drop]
  simp only [uuid_str, hhex, String.toList_ofList, List.filter_append, List.filter_cons]
  rw [hpart (List.take_subset _ _), hslice, hslice, hslice, hpart (List.drop_subset _ _)]
  simp only [ne_eq, not_true_eq_false, decide_false, Bool.false_eq_true, if_false]
  rw [hjoin 16 4, hjoin 12 4, hjoin 8 4, List.take_append_drop]

theorem uuid_int_uuid_str (pk : Nat) : uuid_int (uuid_str pk) = pk := by
  have hvalue : ∀ digit < 16, hex_value (hex_char digit) = digit := by decide
  have hdigits : ((hex_digits pk).map hex_char).map hex_value = hex_digits pk := by
    rw [List.map_map]
    refine (List.map_congr_left fun digit hdigit => ?_).trans (List.map_id _)
    exact hvalue digit (hex_digit_lt hdigit)
  rw [uuid_int, filter_uuid_str, hdigits, hex_digits, List.reverse_reverse,
    Nat.ofDigits_append_replicate_zero, Nat.ofDigits_digits]

theorem uuid_str_injective : Function.Injective uuid_str :=
  Function.LeftInverse.injective uuid_int_uuid_str

/-! ### The list that is appended to -/

section
variable (parent pk : Nat × Option Nat → Option Nat) (dept_all_list : List (Nat × Option Nat))

/-- The loop of `recursion_dept_info`: `dept_list` after a call for `dept_id`.  `none` is a recursion that
does not end. -/
def walk_depts : Nat → Nat → List Nat → Option (List Nat)
  | 0, _, _ => none
  | limit + 1, dept_id, dept_list =>
    dept_all_list.foldlM (fun dept_list dept =>
      if parent dept = some dept_id then
        match pk dept with
        | some found => walk_depts limit found (dept_list ++ [found])
        | none => some dept_list
      else some dept_list) dept_list

end

/-- `json.loads(json.dumps(list(set(dept_list)), cls=encoders.JSONEncoder))` of what the loop comes to. -/
def DeptInfo.recursion_dept_info (dept_all_list : List (Nat × Option Nat)) (dept_id : Nat)
    (is_parent : Bool) : Option (List String) :=
  let limit := dept_all_list.length + 1
  let dept_list :=
    if is_parent then walk_depts (fun dept => some dept.1) Prod.snd dept_all_list limit dept_id [dept_id]
    else walk_depts Prod.snd (fun dept => some dept.1) dept_all_list limit dept_id [dept_id]
  dept_list.map fun dept_list => dept_list.dedup.map uuid_str

section
variable {parent pk : Nat × Option Nat → Option Nat} {l : List (Nat × Option Nat)}

/-- One round after the other: the loop appends what each row adds. -/
theorem loop_eq {a : Nat} {walk : Nat → List Nat → Option (List Nat)} {find : Nat → Option (List Nat)}
    (h : ∀ c dept_list, walk c dept_list = (find c).map fun found => dept_list ++ found)
    (dept_list : List Nat) :
    l.foldlM (fun dept_list dept =>
        if parent dept = some a then
          match pk dept with
          | some found => walk found (dept_list ++ [found])
          | none => some dept_list
        else some dept_list) dept_list =
      ((l.filter fun dept => parent dept = some a).mapM fun dept =>
        match pk dept with
        | some found => (find found).map fun below => found :: below
        | none => some []).map fun lists : List (List Nat) => dept_list ++ lists.flatten := by
  induction l generalizing dept_list with
  | nil => simp
  | cons dept rest ih =>
      rw [List.foldlM_cons]
      by_cases hdept : parent dept = some a
      · rw [if_pos hdept, List.filter_cons_of_pos (by simpa using hdept), List.mapM_cons]
        cases hfound : pk dept with
        | none =>
            simp only [Option.bind_eq_bind, Option.bind_some, Option.pure_def, Option.map_bind]
            rw [ih]
            simp [Option.map_eq_bind]
        | some found =>
            simp only [Option.bind_eq_bind]
            rw [h found]
            cases hbelow : find found with
            | none => rfl
            | some below =>
                simp only [Option.map_some, Option.bind_some, Option.pure_def, Option.map_bind]
                rw [ih]
                simp [Option.map_eq_bind]
      · rw [if_neg hdept, List.filter_cons_of_neg (by simpa using hdept)]
        exact ih dept_list

/-- **A call appends what is found from its department**, whatever is in the list. -/
theorem walk_depts_eq (limit a : Nat) (dept_list : List Nat) :
    walk_depts parent pk l limit a dept_list =
      (recurse_dept parent pk l limit (some a)).map fun found => dept_list ++ found := by
  induction limit generalizing a dept_list with
  | zero => rfl
  | succ limit ih =>
      rw [walk_depts, recurse_dept, Option.map_map]
      exact loop_eq ih dept_list

end

section
variable {l : List (Nat × Option Nat)}

/-- What was met is returned, as strings. -/
theorem recursion_dept_info_strs {d : Nat} {is_parent : Bool} {found : List Nat}
    (h : (if is_parent then recurse_dept (fun dept => some dept.1) Prod.snd l (l.length + 1) (some d)
      else recurse_dept Prod.snd (fun dept => some dept.1) l (l.length + 1) (some d)) = some found) :
    DeptInfo.recursion_dept_info l d is_parent = some ((d :: found).dedup.map uuid_str) := by
  rw [DeptInfo.recursion_dept_info]
  simp only [walk_depts_eq]
  cases is_parent with
  | true =>
      rw [if_pos rfl] at h
      rw [if_pos rfl, h]
      rfl
  | false =>
      rw [if_neg (by simp)] at h
      rw [if_neg (by simp), h]
      rfl

theorem nodup_strs (dept_list : List Nat) : (dept_list.dedup.map uuid_str).Nodup :=
  (List.nodup_dedup _).map uuid_str_injective

theorem mem_strs_iff {R : Nat → Prop} {dept_list : List Nat} (h : ∀ b, b ∈ dept_list ↔ R b) (s : String) :
    s ∈ dept_list.dedup.map uuid_str ↔ ∃ dept, R dept ∧ uuid_str dept = s := by
  simp only [List.mem_map, List.mem_dedup, h]

end

/-- **The result is the closure**: without cycles the recursion ends, and gives the department with all that
are below it, or above it, each once. -/
theorem dept_closure_exact {depts : DeptTable} (h : Acyclic (Up depts.rows)) (d : Nat) :
    (∃ pks, DeptInfo.recursion_dept_info depts.rows d false = some pks ∧ pks.Nodup ∧
      ∀ s, s ∈ pks ↔ ∃ dept, Above depts.rows dept d ∧ uuid_str dept = s) ∧
    ∃ pks, DeptInfo.recursion_dept_info depts.rows d true = some pks ∧ pks.Nodup ∧
      ∀ s, s ∈ pks ↔ ∃ dept, Above depts.rows d dept ∧ uuid_str dept = s := by
  constructor
  · obtain ⟨pks, hpks⟩ := Option.ne_none_iff_exists'.mp (recursion_dept_info_ends h d false)
    obtain ⟨found, hfound, -⟩ := Option.map_eq_some_iff.mp hpks
    refine ⟨(d :: found).dedup.map uuid_str, ?_, nodup_strs _, mem_strs_iff fun b => mem_found_down hfound⟩
    exact recursion_dept_info_strs hfound
  · obtain ⟨pks, hpks⟩ := Option.ne_none_iff_exists'.mp (recursion_dept_info_ends h d true)
    obtain ⟨found, hfound, -⟩ := Option.map_eq_some_iff.mp hpks
    refine ⟨(d :: found).dedup.map uuid_str, ?_, nodup_strs _, mem_strs_iff fun b => mem_found_up hfound⟩
    exact recursion_dept_info_strs hfound

/-- A department, and one below it. -/
def office : DeptTable := ⟨[(1, none), (2, some 1)], by decide⟩

theorem dept_closure_exact_office :
    Acyclic (Up office.rows) ∧
    ∃ pks, DeptInfo.recursion_dept_info office.rows 1 false = some pks ∧
      uuid_str 1 ∈ pks ∧ uuid_str 2 ∈ pks := by
  have hacyclic : Acyclic (Up office.rows) := two_depts_acyclic
  obtain ⟨⟨pks, hpks, -, hmem⟩, -⟩ := dept_closure_exact hacyclic 1
  refine ⟨hacyclic, pks, hpks, (hmem _).mpr ⟨1, .refl 1, rfl⟩, (hmem _).mpr ⟨2, ?_, rfl⟩⟩
  exact .step (by simp [office]) (.refl 1)

end InfraHub.Permission
