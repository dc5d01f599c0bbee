/-!
# Permission — Rule

The data rules as they are stored: JSON objects in the `rules` of a `DataPermission`.
-/

namespace InfraHub.Permission

/-- What stands in a rule.  A `datetime` is never stored: it is what a rule is resolved to. -/
inductive Value
  | null
  | bool (b : Bool)
  | num (n : Rat)
  | str (s : String)
  | datetime (t : Rat)
  | list (l : List Value)
  | dict (d : List (String × Value))

inductive KeyChoices
  | TEXT
  | JSON
  | ALL
  | DATETIME
  | DATETIME_RANGE
  | DATE
  | OWNER
  | OWNER_DEPARTMENT
  | OWNER_DEPARTMENTS
  | DEPARTMENTS
  | TABLE_USER
  | TABLE_MENU
  | TABLE_ROLE
  | TABLE_DEPT
  deriving DecidableEq, Repr

inductive ModeChoices
  | OR
  | AND
  deriving DecidableEq, Repr

/-- A key that the object does not have is `none`. -/
structure Rule where
  table : Option String
  type : Option KeyChoices
  field : Option String
  value : Option Value
  «match» : Option String
  exclude : Option Value

structure DataPermission where
  pk : Nat
  is_active : Bool
  mode_type : ModeChoices
  rules : List Rule
  menu : List Nat

end InfraHub.Permission
