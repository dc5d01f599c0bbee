import InfraHub.Permission.Filter

/-!
# Permission — Denotes

What a rule means: the rows it lists, or all others where it excludes.  A value that is missing,
empty or cannot be read lists no rows.

* `Rule.meant_value`, `Rule.meant_way`: the value that the type of a rule stands for, and how it is
  compared.
* `Lists`: the rows that a value lists; `Denotes`: those that the rule grants.
* `FailsClosed`: a queryset shows only rows that a rule of the user grants.

This is a statement of purpose, not a translation.
-/

namespace InfraHub.Permission
open InfraHub.Lib (Query)

/-! ### The value that is meant -/

/-- A value that stands for nothing. -/
def Value.isNothing : Value → Bool
  | null => true
  | str s => s = ""
  | list l => l.isEmpty
  | dict d => d.isEmpty
  | bool _ | num _ | datetime _ => false

open Classical in
/-- The departments that this key stands for, with those below. -/
noncomputable def Place.below (place : Place) : Value → List Value
  | .str s =>
    (place.dept_values.filter fun dept =>
        ∃ pk, toString pk = s ∧ Above place.dept_values dept.1 pk).map fun dept =>
      .str (toString dept.1)
  | _ => []

/-- The value that the type of the rule stands for. -/
noncomputable def Rule.meant_value (py : Outside) (place : Place) (rule : Rule) : Option Value :=
  match rule.type with
  | some .OWNER_DEPARTMENT => place.dept.map fun dept => .str (toString dept)
  | some .DEPARTMENTS =>
    match rule.loads py with
    | none | some .null | some (.list _) | some (.dict _) => none
    | some v => some (.list (v :: place.below v))
  | _ => (resolve py place rule).bind Rule.val

/-- How the value is compared. -/
def Rule.meant_way (rule : Rule) : Match :=
  match rule.type with
  | some .OWNER_DEPARTMENTS | some .DEPARTMENTS => .in_
  | some .ALL => .all
  | _ => rule.way

/-! ### The rows that are listed -/

/-- The entries of an `ip_in` rule that can be read. -/
def ip_entries (py : Outside) (val : Value) : List IpEntry :=
  ((ip_list val).getD []).filterMap fun ip =>
    match ip with
    | .str s => if s = "" then none else ip_entry py s
    | _ => none

section
variable {Row : Type} (M : Rows Row) (name : String)

/-- A network lists all its addresses. -/
def IpEntry.Lists : IpEntry → Row → Prop
  | network n, row => ∃ a, M.address name row = some a ∧ a ∈ n.addresses
  | range start_ip end_ip, row => M.between name start_ip end_ip row
  | exact ip, row => M.sat name "exact" (.str ip) row
  | startswith ip, row => M.sat name "startswith" (.str ip) row

/-- The rows that a value lists; `"*"` lists all. -/
def Lists (py : Outside) (val : Value) : Match → Row → Prop
  | .all, _ => True
  | .ip_in, row => ∃ entry ∈ ip_entries py val, entry.Lists M name row
  | .text lookup, row => M.sat name lookup val row
  | .regex, row => ∃ s, val = .str s ∧ py.re_compile s = true ∧ M.sat name "regex" val row
  | .m2m_all, row => ∀ v ∈ val.aslist, M.sat name "in" (.list [v]) row
  | .m2m, row => M.sat name "in" (.list val.aslist) row
  | .in_, row => val.aslist.any (Value.isStr "*") = true ∨ M.sat name "in" (.list val.aslist) row
  | .other lookup, row => val.isStr "*" = true ∨ M.sat name lookup val row

end

section
variable (py : Outside) (place : Place)

/-- A field, and a value for it that is not empty. -/
def Rule.Means (rule : Rule) (name : String) (val : Value) : Prop :=
  rule.field = some name ∧ rule.meant_value py place = some val ∧ val.isNothing = false

variable {Row : Type} (M : Rows Row)

/-- The rows that a rule lists. -/
def Rule.Listed (rule : Rule) (row : Row) : Prop :=
  rule.meant_way = .all ∨
    ∃ name val, rule.Means py place name val ∧ Lists M name py val rule.meant_way row

/-- The rows that a rule grants. -/
def Denotes (rule : Rule) (row : Row) : Prop :=
  if rule.excluded then ¬ rule.Listed py place M row else rule.Listed py place M row

end

/-! ### Failing closed -/

/-- The rule names the table, in an active permission of the user or of an active department that
is the user's or above it. -/
def Db.Applies (db : Db) (label : String) (user_obj : UserInfo) (rule : Rule) : Prop :=
  rule.names label = true ∧ ∃ obj ∈ db.data_permissions.rows, obj.is_active = true ∧ rule ∈ obj.rules ∧
    (obj.pk ∈ user_obj.rules ∨ ∃ dept ∈ db.depts.rows, dept.is_active = true ∧ obj.pk ∈ dept.rules ∧
      ∃ own, db.dept user_obj = some own ∧ Above db.dept_values own.pk dept.pk)

/-- A row that the user is shown is one that a rule of the user grants. -/
def FailsClosed (py : Outside) (db : Db) (label : String) (menu : Option Nat) (user_obj : UserInfo) :
    Prop :=
  ∀ queryset, get_filter_queryset py true db label menu user_obj = some queryset →
    ∀ {Row : Type} (M : Rows Row) (row : Row), queryset.shows M row →
      ∃ rule, db.Applies label user_obj rule ∧ Denotes py (db.place user_obj) M rule row

/-! ### Rules that say what they mean -/

section
variable (py : Outside)

/-- The condition of the rule shows no row, whatever the rows are. -/
def Mute (val : Value) : Match → Prop
  | .in_ | .m2m => ∀ v ∈ val.aslist, v = .null
  | .m2m_all => val.aslist ≠ [] ∧ ∀ v ∈ val.aslist, v = .null
  | .regex => ∃ s, val = .str s ∧ py.re_compile s = false
  | _ => False

/-- There is `["*"]` in the list of addresses. -/
def nested_star (val : Value) : Bool := ((ip_list val).getD []).any Value.isStar

/-- The condition of the rule shows no more than the value lists. -/
def Tight (val : Value) : Match → Prop
  | .ip_in => nested_star val = false ∧ ip_entries py val ≠ []
  | .m2m_all => ∀ v ∈ val.aslist, ∀ w ∈ val.aslist, v = w
  | _ => True

/-- The addresses of the listed networks are hosts of listed networks. -/
def HostsOnly (entries : List IpEntry) : Prop :=
  ∀ n, .network n ∈ entries → ∀ a ∈ n.addresses, ∃ n', .network n' ∈ entries ∧ a ∈ n'.hosts

/-- The negated condition of `val` shows no more than the rows that `meant` does not list. -/
def TightExcluded (meant val : Value) : Match → Prop
  | .all => False
  | .ip_in => ip_entries py val = [] ∨ nested_star val = false ∧ HostsOnly (ip_entries py val)
  | .m2m_all => .null ∈ val.aslist
  | .in_ =>
    val.aslist.any (Value.isStr "*") = false ∧ ∀ v ∈ meant.aslist, v ≠ .null → v ∈ val.aslist
  | .other _ => val.isStr "*" = false
  | .text _ | .regex | .m2m => True

variable (place : Place)

/-- What the rule is resolved to, with its value; `none` where there is none. -/
def Rule.resolved_value (rule : Rule) : Option Value := (resolve py place rule).bind Rule.val

/-- **A rule that is safe**: it makes the request fail; or it is compared, and its condition shows no
more than it means.  Where it excludes, it is enough that it means nothing. -/
def Safe (rule : Rule) : Prop :=
  (resolve py place rule).bind (attr_qs py) = none ∨
    if rule.excluded then
      rule.meant_way ≠ .all ∧ ∀ name meant val, rule.Means py place name meant →
        rule.resolved_value py place = some val → TightExcluded py meant val rule.meant_way
    else
      rule.meant_way = .all ∨ ∃ name val, rule.field = some name ∧
        rule.resolved_value py place = some val ∧
        (Mute py val rule.meant_way ∨
          (∃ meant, rule.Means py place name meant) ∧ Tight py val rule.meant_way)

end

end InfraHub.Permission
