import Mathlib.Data.List.Dedup
import InfraHub.Lib.Gather
import InfraHub.Lib.Table
import InfraHub.Permission.Menu
import InfraHub.Permission.Rule

/-!
# Permission — Models

The rows that say who may do what: users, roles, departments, menus and data permissions, with
the links between them.  A many-to-many field is the list of the keys it links to.
-/

namespace InfraHub.Permission
open InfraHub.Lib (Table)

structure UserInfo where
  pk : Nat
  is_superuser : Bool
  roles : List Nat
  rules : List Nat
  dept : Option Nat
  mode_type : ModeChoices
  deriving DecidableEq, Repr

structure UserRole where
  pk : Nat
  is_active : Bool
  menu : List Nat
  deriving DecidableEq, Repr

structure DeptInfo where
  pk : Nat
  parent : Option Nat
  roles : List Nat
  rules : List Nat
  is_active : Bool
  mode_type : ModeChoices
  deriving DecidableEq, Repr

inductive FieldChoices
  | ROLE
  | DATA
  deriving DecidableEq, Repr

structure ModelLabelField where
  pk : Nat
  field_type : FieldChoices
  name : String
  deriving DecidableEq, Repr

structure Db where
  users : Table Nat UserInfo UserInfo.pk
  roles : Table Nat UserRole UserRole.pk
  depts : Table Nat DeptInfo DeptInfo.pk
  menus : Table Nat Menu Menu.pk
  data_permissions : Table Nat DataPermission DataPermission.pk
  model_label_fields : Table Nat ModelLabelField ModelLabelField.pk

/-- `user_obj.dept` -/
def Db.dept (db : Db) (user_obj : UserInfo) : Option DeptInfo := user_obj.dept.bind db.depts.get

/-- `DeptInfo.objects.values("pk", "parent")` -/
def Db.dept_values (db : Db) : List (Nat × Option Nat) :=
  db.depts.rows.map fun dept => (dept.pk, dept.parent)

/-- The recursion of `DeptInfo.recursion_dept_info`: the departments met from `dept_id` on, where
`parent` is the column that is compared and `pk` the one that is collected.  `none` is a
`RecursionError`. -/
def recurse_dept (parent pk : Nat × Option Nat → Option Nat)
    (dept_all_list : List (Nat × Option Nat)) : Nat → Option Nat → Option (List Nat)
  | 0, _ => none
  | limit + 1, dept_id =>
    let lists := (dept_all_list.filter fun dept => parent dept = dept_id).mapM fun dept =>
      match pk dept with
      | some found =>
        (recurse_dept parent pk dept_all_list limit (some found)).map fun dept_list =>
          found :: dept_list
      | none => some []
    lists.map List.flatten

/-- `DeptInfo.recursion_dept_info`: the department with those below it or, with `is_parent`, with
those above it. -/
def recursion_dept_info (dept_all_list : List (Nat × Option Nat)) (dept_id : Option Nat)
    (is_parent : Bool) : Option (List (Option Nat)) :=
  let limit := dept_all_list.length + 1
  let found :=
    if is_parent then recurse_dept (fun dept => some dept.1) Prod.snd dept_all_list limit dept_id
    else recurse_dept Prod.snd (fun dept => some dept.1) dept_all_list limit dept_id
  found.map fun dept_list => (dept_id :: dept_list.map some).dedup

/-- `dept` is `above`, or is below it. -/
inductive Above (dept_all_list : List (Nat × Option Nat)) : Nat → Nat → Prop
  | refl (dept : Nat) : Above dept_all_list dept dept
  | step {dept parent above : Nat} (h : (dept, some parent) ∈ dept_all_list)
      (r : Above dept_all_list parent above) : Above dept_all_list dept above

end InfraHub.Permission
