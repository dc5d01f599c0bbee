import InfraHub.Lib.Query
import InfraHub.Permission.Models

/-!
# Permission — Filter

The condition that the data permissions of a user put on a queryset.

* `resolve`: the value that the type of a rule stands for.
* `attr_qs`: the conditions of one resolved rule.
* `get_filter_q_base`: the condition of some permissions; `get_filter_queryset`: that of a user.

`none` is a request that fails with an exception.  A set is walked in the order of its list.
-/

namespace InfraHub.Permission
open InfraHub.Lib (Query)

/-! ### What is called outside -/

/-- An `ip_network`: `hosts()` leaves out the network and the broadcast address, if it has them, and
is never empty. -/
structure Network where
  addresses : List String
  hosts : List String
  hosts_subset : hosts ⊆ addresses
  nonempty : hosts ≠ []

/-- Functions of Python and Django.  `none` is an exception; `parse_datetime` also returns `None`,
which is `some none`. -/
structure Outside where
  json_loads : String → Option Value
  re_compile : String → Bool
  parse_datetime : String → Option (Option Rat)
  ip_network : String → Option Network
  ip_address : String → Option String
  /-- `timezone.now()` and this many seconds -/
  seconds_from_now : Rat → Option Rat

/-! ### Conditions -/

/-- What stands in a `Q`: `name__lookup=value`, the hosts of a network, a range of addresses,
`id=0` and `pk__isnull=True`. -/
inductive Lookup
  | field (name lookup : String) (value : Value)
  | hosts (name : String) (network : Network)
  | range (name start_ip end_ip : String)
  | id_zero
  | pk_isnull

abbrev Q := Query Lookup

/-- What the lookups of Django say of the rows of a table.  `in` is `exact` for one of the values;
`None` is none of them. -/
structure Rows (Row : Type) where
  sat : String → String → Value → Row → Prop
  address : String → Row → Option String
  between : String → String → String → Row → Prop
  sat_in : ∀ name l row,
    sat name "in" (.list l) row ↔ ∃ v ∈ l, v ≠ .null ∧ sat name "exact" v row

/-- No row has the id 0, or no id. -/
def Rows.lookup {Row : Type} (M : Rows Row) : Lookup → Row → Prop
  | .field name lookup value, row => M.sat name lookup value row
  | .hosts name network, row => ∃ a, M.address name row = some a ∧ a ∈ network.hosts
  | .range name start_ip end_ip, row => M.between name start_ip end_ip row
  | .id_zero, _ => False
  | .pk_isnull, _ => False

/-! ### Values -/

def Value.truthy : Value → Bool
  | null => false
  | bool b => b
  | num n => n ≠ 0
  | str s => s ≠ ""
  | datetime _ => true
  | list l => !l.isEmpty
  | dict d => !d.isEmpty

def Value.isStr (text : String) : Value → Bool
  | str s => s = text
  | _ => false

/-- `["*"]` -/
def Value.isStar : Value → Bool
  | list [v] => v.isStr "*"
  | _ => false

/-- `if not isinstance(val, list): val = [val]` -/
def Value.aslist : Value → List Value
  | list l => l
  | v => [v]

/-- `attr.get("value")`: a missing value and a stored null are both `None`. -/
def Rule.val (rule : Rule) : Option Value :=
  match rule.value with
  | some .null => none
  | value => value

def Rule.excluded (rule : Rule) : Bool := rule.exclude.any Value.truthy

/-! ### Addresses -/

/-- What one entry of an `ip_in` rule lists. -/
inductive IpEntry
  | network (network : Network)
  | range (start_ip end_ip : String)
  | exact (ip : String)
  | startswith (ip : String)

/-- `none` is a `ValueError`. -/
def ip_entry (py : Outside) (ip : String) : Option IpEntry :=
  if ip.toList.contains '/' then (py.ip_network ip).map .network
  else if ip.toList.contains '-' then
    match ip.toList.splitOn '-' with
    | [start_ip, end_ip] =>
      (py.ip_address (.ofList start_ip)).bind fun start_ip =>
        (py.ip_address (.ofList end_ip)).map fun end_ip => .range start_ip end_ip
    | _ => none
  else if (ip.toList.splitOn '.').length = 4 then some (.exact ip)
  else some (.startswith ip)

def IpEntry.lookup (name : String) : IpEntry → Lookup
  | network n => .hosts name n
  | range start_ip end_ip => .range name start_ip end_ip
  | exact ip => .field name "exact" (.str ip)
  | startswith ip => .field name "startswith" (.str ip)

/-- `"/" in ip` of an entry that is no string: `ip_network` then raises `ValueError`. -/
def Value.slashed : Value → Bool
  | list l => l.any (isStr "/")
  | dict d => d.any fun p => p.1 = "/"
  | _ => false

/-- The loop of `get_ip_in_q`: falsy entries are passed over, and those that raise `ValueError`. -/
def readable (py : Outside) : List Value → Option (List IpEntry)
  | [] => some []
  | ip :: val =>
    if !ip.truthy then readable py val
    else match ip with
      | .str ip => (readable py val).map fun entries => (ip_entry py ip).toList ++ entries
      | ip => if ip.slashed then readable py val else none

/-- A string is a list of one, and only a list can be looked into for a list. -/
def ip_list : Value → Option (List Value)
  | .str s => some [.str s]
  | .list l => some l
  | _ => none

def get_ip_in_q (py : Outside) (name : String) (val : Value) : Option Q :=
  (ip_list val).bind fun val =>
    if val.any Value.isStar then some .empty
    else (readable py val).map fun entries =>
      Query.union (entries.map fun entry => .atom (entry.lookup name))

/-! ### The conditions of a rule -/

/-- The cases of `get_filter_attrs_qs`. -/
inductive Match
  | all
  | ip_in
  | text (lookup : String)
  | regex
  | m2m_all
  | m2m
  | in_
  | other (lookup : String)

def Match.of (m : String) : Match :=
  if m = "all" then all
  else if m = "ip_in" then ip_in
  else if m ∈ ["contains", "startswith", "endswith", "gte", "lte", "gt", "lt"] then text m
  else if m = "regex" then regex
  else if m.toList.take 3 = ['m', '2', 'm'] then if m = "m2m_all" then m2m_all else m2m
  else if m = "in" then in_
  else other m

def Rule.way (rule : Rule) : Match := .of (rule.match.getD "exact")

/-- The condition of the cases that `exclude` applies to; `none` is an exception, as for a `regex`
that is no string. -/
def match_q (py : Outside) (name : String) (val : Value) : Match → Option Q
  | .ip_in => get_ip_in_q py name val
  | .text lookup => some (.atom (.field name lookup val))
  | .regex =>
    match val with
    | .str s => some (.atom (if py.re_compile s then .field name "regex" val else .pk_isnull))
    | _ => none
  | .in_ =>
    some (if val.aslist.any (Value.isStr "*") then .empty
      else .atom (.field name "in" (.list val.aslist)))
  | .other lookup => some (if val.isStr "*" then .empty else .atom (.field name lookup val))
  | _ => some (.atom (.field name "in" (.list val.aslist)))  -- `m2m`

/-- One round of the loop of `get_filter_attrs_qs`: what it appends. -/
def attr_qs (py : Outside) (attr : Rule) : Option (List Q) :=
  match attr.field, attr.val with
  | some name, some val =>
    match attr.way with
    | .all => some [.empty]
    | .m2m_all => some (val.aslist.map fun v => .atom (.field name "in" (.list [v])))
    | way => (match_q py name val way).map fun q => [if attr.excluded then q.invert else q]
  | _, _ => some []

def get_filter_attrs_qs (py : Outside) (rules : List Rule) : Option (List Q) :=
  (rules.mapM (attr_qs py)).map List.flatten

/-! ### The value of a rule -/

/-- What the value of a rule depends on: the user, the user's department, and all departments. -/
structure Place where
  user : Nat
  dept : Option Nat
  dept_values : List (Nat × Option Nat)

/-- `json.loads(rule["value"])` -/
def Rule.loads (py : Outside) (rule : Rule) : Option Value :=
  match rule.value with
  | some (.str s) => py.json_loads s
  | _ => none

/-- `str(user_obj.dept_id)` -/
def dept_str : Option Nat → String
  | some dept => toString dept
  | none => "None"

/-- What `recursion_dept_info` returns went through JSON. -/
def dept_list (depts : List (Option Nat)) : Value :=
  .list (depts.map fun dept => match dept with
    | some dept => .str (toString dept)
    | none => .null)

/-- `recursion_dept_info` from what stands in a rule.  A string never equals the UUID of a row, so
nothing is found below it; `None` equals the parent of the topmost ones; a list cannot be put in a
set. -/
def departments (place : Place) : Value → Option Value
  | .null => (recursion_dept_info place.dept_values none false).map dept_list
  | .list _ => none
  | .dict _ => none
  | v => some (.list [v])

def Value.number : Value → Option Rat
  | num n => some n
  | bool b => some (if b then 1 else 0)
  | _ => none

/-- `from_current_timezone(parse_datetime(value))` -/
def Value.parse (py : Outside) : Value → Option Value
  | str s => (py.parse_datetime s).map fun t => (t.map .datetime).getD .null
  | _ => none

/-- What a loop over a value goes through. -/
def Value.iter : Value → Option (List Value)
  | list l => some l
  | str s => some (s.toList.map fun c => .str (.ofList [c]))
  | dict d => some (d.map fun p => .str p.1)
  | _ => none

/-- `item["pk"]` of an object that has it, else the item. -/
def Value.pk_of : Value → Value
  | dict d => ((d.find? fun p => p.1 = "pk").map Prod.snd).getD (.dict d)
  | v => v

/-- The rule with the value, and the match, that its type stands for. -/
def resolve (py : Outside) (place : Place) (rule : Rule) : Option Rule :=
  match rule.type with
  | some .OWNER => some { rule with value := some (.num place.user) }
  | some .OWNER_DEPARTMENT => some { rule with value := some (.str (dept_str place.dept)) }
  | some .OWNER_DEPARTMENTS =>
    (match place.dept with
      | some dept => (recursion_dept_info place.dept_values (some dept) false).map dept_list
      | none => some (.list [])).map fun v => { rule with «match» := some "in", value := some v }
  | some .DEPARTMENTS =>
    (match place.dept with
      | some _ => (rule.loads py).bind (departments place)
      | none => some (.list [])).map fun v => { rule with «match» := some "in", value := some v }
  | some .ALL => some { rule with «match» := some "all" }
  | some .DATE =>
    ((rule.loads py).bind Value.number).bind fun val =>
      (py.seconds_from_now val).map fun t => { rule with value := some (.datetime t) }
  | some .DATETIME_RANGE =>
    match rule.value with
    | some (.list [a, b]) =>
      (a.parse py).bind fun a => (b.parse py).map fun b =>
        { rule with value := some (.list [a, b]) }
    | some _ => some rule
    | none => none
  | some .DATETIME =>
    match rule.value with
    | some (.str s) => (Value.parse py (.str s)).map fun v => { rule with value := some v }
    | some _ => some rule
    | none => none
  | some .TABLE_USER | some .TABLE_MENU | some .TABLE_ROLE | some .TABLE_DEPT =>
    ((rule.loads py).bind Value.iter).map fun items =>
      { rule with value := some (.list (items.map Value.pk_of)) }
  | some .JSON => (rule.loads py).map fun v => { rule with value := some v }
  | some .TEXT | none => some rule

/-! ### The conditions of a list of permissions -/

/-- A loop that may return early. -/
inductive Outcome (α : Type)
  | returned (q : Q)
  | done (a : α)

structure Result where
  mode : ModeChoices
  rules : List Rule

/-- `rule.get("table") in [label, "*"]` -/
def Rule.names (label : String) (rule : Rule) : Bool :=
  rule.table = some label || rule.table = some "*"

/-- The rules of a permission that apply to a table. -/
def select (label : String) (mode : ModeChoices) (rules : List Rule) : List Rule → List Rule
  | [] => rules
  | rule :: rest =>
    if rule.names label then
      if rule.type = some .ALL then
        if mode = .AND then select label mode rules rest else [rule]
      else select label mode (rules ++ [rule]) rest
    else select label mode rules rest

def result (label : String) (obj : DataPermission) : Option Result :=
  let mode := if obj.rules.length = 1 then .OR else obj.mode_type
  let rules := select label mode [] obj.rules
  if rules.isEmpty then none else some ⟨mode, rules⟩

/-- Resolve the rules of a permission; one for all data ends the search, where it may. -/
def walk_rules (py : Outside) (place : Place) (dept_mode : Option ModeChoices)
    (mode : ModeChoices) : List Rule → Option (Outcome (List Rule))
  | [] => some (.done [])
  | rule :: rest =>
    if rule.type = some .ALL ∧ mode = .OR ∧ dept_mode ≠ some .AND then some (.returned .empty)
    else (resolve py place rule).bind fun rule =>
      (walk_rules py place dept_mode mode rest).map fun outcome => match outcome with
        | .returned q => .returned q
        | .done rules => .done (rule :: rules)

def result_q (mode : ModeChoices) (qs : List Q) : Q :=
  match mode with
  | .AND => Query.all qs
  | .OR => Query.any qs

def walk_results (py : Outside) (place : Place) (dept_mode : Option ModeChoices) :
    List Result → Option (Outcome (List Q))
  | [] => some (.done [])
  | result :: rest =>
    (walk_rules py place dept_mode result.mode result.rules).bind fun outcome => match outcome with
      | .returned q => some (.returned q)
      | .done rules =>
        (get_filter_attrs_qs py rules).bind fun qs =>
          (walk_results py place dept_mode rest).map fun outcome => match outcome with
            | .returned q => .returned q
            | .done or_qs => .done (result_q result.mode qs :: or_qs)

/-- The conditions of the permissions, joined in the mode of the department. -/
def join_qs (dept_mode : Option ModeChoices) (or_qs : List Q) : Q :=
  match dept_mode with
  | none => Query.union or_qs
  | some .AND =>
    let q1 := Query.all or_qs
    if q1.isEmpty then .atom .id_zero else q1
  | some .OR => Query.any or_qs

def get_filter_q_base (py : Outside) (label : String) (permission : List DataPermission)
    (place : Place) (dept_mode : Option ModeChoices) : Option Q :=
  let results := permission.filterMap (result label)
  if results.isEmpty then some (.atom .id_zero)
  else (walk_results py place dept_mode results).map fun outcome => match outcome with
    | .returned q => q
    | .done or_qs => join_qs dept_mode or_qs

/-! ### The queryset of a user -/

inductive Queryset
  | all
  | none
  | filter (q : Q)

def Queryset.shows {Row : Type} (M : Rows Row) : Queryset → Row → Prop
  | all, _ => True
  | none, _ => False
  | filter q, row => q.holds M.lookup row

/-- A foreign key is the key of its row. -/
def Db.place (db : Db) (user_obj : UserInfo) : Place where
  user := user_obj.pk
  dept := (db.dept user_obj).map DeptInfo.pk
  dept_values := db.dept_values

/-- The active ones of the attached permissions, for the menu of the request or for all menus. -/
def Db.permission (db : Db) (menu : Option Nat) (rules : List Nat) : List DataPermission :=
  db.data_permissions.rows.filter fun obj =>
    obj.is_active && rules.contains obj.pk &&
      (obj.menu.isEmpty || menu.any fun pk => obj.menu.contains pk)

/-- The condition of the departments, and whether there are active ones. -/
def dept_q (py : Outside) (db : Db) (label : String) (menu : Option Nat) (user_obj : UserInfo) :
    Option (Q × Bool) :=
  match db.dept user_obj with
  | none => some (.empty, false)
  | some dept_obj =>
    (recursion_dept_info db.dept_values (some dept_obj.pk) true).bind fun dept_pks =>
      let depts := db.depts.rows.filter fun dept =>
        dept_pks.contains (some dept.pk) && dept.is_active
      (depts.mapM fun p_dept_obj => get_filter_q_base py label (db.permission menu p_dept_obj.rules)
        (db.place user_obj) (some dept_obj.mode_type)).map fun qs =>
          let q := qs.foldl Query.both .empty
          if depts.isEmpty && q.isEmpty then (.atom .id_zero, false) else (q, !depts.isEmpty)

/-- `enabled` is `PERMISSION_DATA_ENABLED`, `menu` what `user_obj.menu` is set to, if it is. -/
def get_filter_queryset (py : Outside) (enabled : Bool) (db : Db) (label : String)
    (menu : Option Nat) (user_obj : UserInfo) : Option Queryset :=
  if !enabled || user_obj.is_superuser then some .all
  else (dept_q py db label menu user_obj).bind fun (q, has_dept) =>
    if has_dept && q.isEmpty then some .all
    else
      let permission := db.permission menu user_obj.rules
      if permission.isEmpty then some (if has_dept then .filter q else .none)
      else
        (get_filter_q_base py label permission (db.place user_obj)
          ((db.dept user_obj).map DeptInfo.mode_type)).map fun q1 =>
            .filter (if q1.isEmpty then q1 else q.either q1)

end InfraHub.Permission
