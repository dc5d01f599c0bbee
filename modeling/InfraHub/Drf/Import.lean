import InfraHub.Drf.Reference
import InfraHub.Lib.Dict
import InfraHub.Lib.Topo

/-!
# Drf — Import

The rows of an imported file, and the order in which `import_data` takes those of departments and menus,
which hang in trees: `BaseFileRenderer` chooses the columns of a template, `BaseFileParser` makes rows of the
file, `has_self_fields` finds the column of the parents, and `topological_sort` puts the parents first.

* `Refers`: the parent of a row is in the file.  It may be there and not be read (`names` without `reads`):
  a primary key stays the text of its cell, where the one in a reference may become a number.
* `Fits` is the condition under which the rows are ordered; `ordered_iff` is the result.
* `reads_reference_iff`: which references `name(id)` are read.

A method that raises is `none`.
-/

namespace InfraHub.Import
open InfraHub.Cells
open InfraHub.Lib (Str str Dict Acyclic mapM_of_forall forall₂_of_mapM exists_of_mem_mapM
  exists_result_of_mem)
open InfraHub.Lib.Json (Value strOfInt)
open InfraHub.Lib.Topo
open Relation (TransGen)

variable {F : Type}

/-! ### The columns of a template -/

inductive Template
  | import_
  | update
  | export_

/-- A field of a serializer. -/
structure Column where
  field_name : Str
  label : Str
  required : Bool
  read_only : Bool
  write_only : Bool
  field : Field

structure Serializer where
  fields : List Column
  fields_unimport : List Str
  fields_unexport : List Str

def Serializer.get (serializer : Serializer) (k : Str) : Option Column :=
  serializer.fields.find? fun v => v.field_name = k

def pk_names : List Str := [str "id", str "pk"]

def get_rendered_fields (template : Template) (serializer : Serializer) : List Column :=
  let pk_field := (serializer.get (str "pk")).toList
  let fields : List Column :=
    match template with
    | .import_ =>
      (serializer.fields.filter fun v => ¬ v.read_only ∧ v.field_name ∉ pk_names).filter fun v =>
        v.field_name ∉ serializer.fields_unimport
    | .update => pk_field ++ serializer.fields.filter fun v => ¬ v.read_only
    | .export_ => pk_field ++ serializer.fields.filter fun v => ¬ v.write_only ∧ v.field_name ∉ pk_names
  fields.filter fun v => v.field_name ∉ serializer.fields_unexport

def column_title (field : Column) : Str :=
  (if field.required then '*'.toNat :: field.label else field.label) ++
    '('.toNat :: field.field_name ++ [')'.toNat]

def get_column_titles (render_fields : List Column) : List Str := render_fields.map column_title

/-! ### The rows of a file -/

/-- A row, by the names of the fields. -/
abbrev Item (F : Type) := List (Str × Value F)

/-- `s.strip("*")`. -/
def strip_star (s : Str) : Str := (s.rdropWhile (· = '*'.toNat)).dropWhile (· = '*'.toNat)

/-- What `convert_to_field_names` makes of a title; one without parentheses is looked up. -/
def to_field_name (lowercase_fields_map : Str → Str) (column_title : Str) : Str :=
  if '('.toNat ∈ column_title ∧ column_title.getLast? = some ')'.toNat then
    last_part (strip_star column_title)
  else lowercase_fields_map (strip_star column_title)

def pop_help_text_if_need : List (List (Value F)) → Option (List (List (Value F)))
  | [] => some []
  | (.str s :: row) :: rows =>
    some (if (str "#Help").isPrefixOf s then rows else (.str s :: row) :: rows)
  | _ => none

section
variable (py : Python F) (serializer : Serializer)

/-- `load_row`, for a cell that may be no text. -/
def load_cell : Value F → Value F
  | .str s => load_col py s
  | v => v

def process_row_data (row_data : Item F) : Option (Item F) :=
  row_data.mapM fun (k, v) =>
    match serializer.get k with
    | some column => (parse_value py column.field v).map (k, ·)
    | none => some (k, v)

def generate_data (fields_name : List Str) (rows : List (List (Value F))) : Option (List (Item F)) :=
  (rows.filter fun row => row.any (truthy py)).mapM fun row =>
    process_row_data py serializer (Dict.ofList (fields_name.zip (row.map (load_cell py)))).items

/-- `parse`, of a file whose titles are those of a template. -/
def parse (lowercase_fields_map : Str → Str) (template : Template) (rows : List (List (Value F))) :
    Option (List (Item F)) := do
  let column_titles := get_column_titles (get_rendered_fields template serializer)
  generate_data py serializer (column_titles.map (to_field_name lowercase_fields_map))
    (← pop_help_text_if_need rows)

end

/-! ### Departments and menus -/

inductive Model
  | UserInfo
  | DeptInfo
  | Menu
  | MenuMeta
  deriving DecidableEq

/-- `model._meta.fields`: the names, and what they are related to. -/
abbrev Fields := List (String × Option Model)

def has_self_fields (model : Model) (fields : Fields) : Option Str :=
  (fields.find? fun field => field.2 = some model).map fun field => str field.1

/-- The fields of `DbAuditModel`, which come first. -/
def audit_fields : Fields :=
  [("created_time", none), ("updated_time", none), ("description", none), ("creator", some .UserInfo),
    ("modifier", some .UserInfo), ("dept_belong", some .DeptInfo)]

inductive SelfModel
  | DeptInfo
  | Menu

def SelfModel.model : SelfModel → Model
  | .DeptInfo => .DeptInfo
  | .Menu => .Menu

def SelfModel.fields : SelfModel → Fields
  | .DeptInfo => ("id", none) :: audit_fields ++
    [("mode_type", none), ("name", none), ("code", none), ("parent", some .DeptInfo), ("rank", none),
      ("auto_bind", none), ("is_active", none)]
  | .Menu => ("id", none) :: audit_fields ++
    [("parent", some .Menu), ("menu_type", none), ("name", none), ("rank", none), ("path", none),
      ("component", none), ("is_active", none), ("meta", some .MenuMeta), ("method", none)]

def column (field_name label : String) (required : Bool) (field : Field) : Column :=
  ⟨str field_name, str label, required, false, false, field⟩

/-- The primary key: an `AutoField` is only read. -/
def pk_column (auto : Bool) : Column :=
  { column "pk" "ID" false (.other false) with read_only := auto }

def SelfModel.serializer (auto : Bool) : SelfModel → Serializer
  | .DeptInfo =>
    { fields :=
        [pk_column auto,
          column "name" "Department name" true (.CharField false),
          column "code" "Department code" true (.CharField false),
          column "parent" "Superior department" false (.BasePrimaryKeyRelatedField false true),
          column "rank" "Rank" false (.other false),
          column "is_active" "Is active" false (.BooleanField false),
          column "roles" "Role permission" false
            (.ManyRelatedField (.BasePrimaryKeyRelatedField false false) false),
          { column "user_count" "User count" false (.other false) with read_only := true },
          column "rules" "Data permission" false
            (.ManyRelatedField (.BasePrimaryKeyRelatedField false false) false),
          column "mode_type" "Data permission mode" false (.LabeledChoiceField false),
          column "auto_bind" "Auto bind" false (.BooleanField false),
          column "description" "Description" false (.CharField true),
          { column "created_time" "Created time" false (.other false) with read_only := true }]
      fields_unimport := []
      fields_unexport := [] }
  | .Menu =>
    { fields :=
        [pk_column auto,
          column "name" "Component name or permission code" true (.CharField false),
          column "rank" "Rank" false (.other false),
          column "path" "Route path or api path" true (.CharField false),
          column "component" "Component path" false (.CharField true),
          column "meta" "Menu meta" true (.Serializer false),
          column "parent" "Parent menu" false (.BasePrimaryKeyRelatedField false true),
          column "menu_type" "Menu type" false (.LabeledChoiceField false),
          column "is_active" "Is active" false (.BooleanField false),
          column "model" "Model" false
            (.ManyRelatedField (.BasePrimaryKeyRelatedField false true) false),
          column "method" "Method" false (.LabeledChoiceField true)]
      fields_unimport := []
      fields_unexport := [] }

/-! ### The order -/

/-- In which order a set is walked. -/
structure SetOrder (κ : Type) where
  list : List κ → List κ
  nodup : ∀ l, (list l).Nodup
  mem : ∀ {l k}, k ∈ list l ↔ k ∈ l

/-- What a value is as a key: equal numbers are one key. -/
inductive Key (F : Type)
  | none
  | int (n : Int)
  | float (x : F)
  | str (s : Str)
  deriving DecidableEq

section
-- the integer that a float is equal to
variable (integral : F → Option Int)

/-- What is hashed; a list or a dict is not. -/
def to_key : Value F → Option (Key F)
  | .null => some .none
  | .bool b => some (.int (if b then 1 else 0))
  | .int n => some (.int n)
  | .float x => some ((integral x).elim (.float x) .int)
  | .str s => some (.str s)
  | .list _ | .dict _ => none

def node_id (item : Item F) : Option (Key F) := do to_key integral (← item.lookup (str "pk"))

def parent_id (parent : Str) (item : Item F) : Option (Option (Key F)) := do
  let parent_id :=
    match ← item.lookup parent with
    | .dict items => Cells.get items "pk" .null
    | v => v
  match parent_id with
  | .null => return none
  | v => return some (← to_key integral v)

variable [DecidableEq F]

def topological_sort (order : SetOrder (Key F)) (data : List (Item F)) (parent : Str) :
    Option (List (Item F)) := do
  let node_ids ← data.mapM (node_id integral)
  let parent_ids ← data.mapM (parent_id integral parent)
  let nodes := order.list node_ids
  let edges := (parent_ids.zip node_ids).filterMap fun (parent_id, node_id) => parent_id.map (·, node_id)
  let new_data := Dict.ofList (node_ids.zip data)
  let sorted_order := topo nodes edges
  if sorted_order.length ≠ nodes.length then none
  else return sorted_order.filterMap new_data.get

/-- The rows that `import_data` goes on with. -/
def sort_datas (order : SetOrder (Key F)) (model : SelfModel) (datas : List (Item F)) :
    Option (List (Item F)) :=
  match has_self_fields model.model model.fields with
  | some self_field => topological_sort integral order datas self_field
  | none => some datas

end

/-! ### What is asked of the order -/

/-- A value that is the text of a primary key. -/
def spelling : Value F → Option Str
  | .str s => some s
  | .int n => some (strOfInt n)
  | _ => none

/-- The text of a primary key, as it stands in the cell of a parent: alone, or as `name(id)`. -/
def spells (v : Value F) (k : Str) : Bool :=
  match v with
  | .str t => t = k ∨ '('.toNat :: k ++ [')'.toNat] <:+ t
  | .dict items => (items.lookup (str "pk")).bind spelling = some k
  | v => spelling v = some k

/-- The parent of `item` is written as the primary key of `p`. -/
def names (item p : Item F) : Bool :=
  match item.lookup (str "parent"), (p.lookup (str "pk")).bind spelling with
  | some v, some k => spells v k
  | _, _ => false

section
variable (integral : F → Option Int) [DecidableEq F]

/-- The parent of `item` is read as the primary key of `p`. -/
def reads (item p : Item F) : Bool :=
  match parent_id integral (str "parent") item, node_id integral p with
  | some (some a), some k => a = k
  | _, _ => false

def Reads (datas : List (Item F)) (item p : Item F) : Prop :=
  item ∈ datas ∧ p ∈ datas ∧ reads integral item p

/-- The parent of `item` is the row `p`: the one that is read, or else one that is written. -/
def Refers (datas : List (Item F)) (item p : Item F) : Prop :=
  Reads integral datas item p ∨
    item ∈ datas ∧ p ∈ datas ∧ names item p ∧ ∀ q, ¬ Reads integral datas item q

/-- The rows are kept, parents first; or there is an error, and the references form a cycle. -/
def Ordered (datas : List (Item F)) : Option (List (Item F)) → Prop
  | some l => l.Perm datas ∧
    ∀ before item after, l = before ++ item :: after → ∀ p, Refers integral datas item p → p ∈ before
  | none => ¬ Acyclic (Refers integral datas)

/-- The row has its primary key, and a parent that can be a key. -/
def complete (self_field : Str) (item : Item F) : Bool :=
  (node_id integral item).isSome ∧ (parent_id integral self_field item).isSome

/-- No error but that of a cycle. -/
def Sortable (model : SelfModel) (template : Template) (datas : List (Item F)) : Prop :=
  model = .Menu ∧ template ≠ .import_ ∧ ∀ item ∈ datas, complete integral (str "parent") item

/-- Different rows have different primary keys, and every reference to a row is read. -/
def AllRead (datas : List (Item F)) : Prop :=
  (datas.map (node_id integral)).Nodup ∧
    ∀ item ∈ datas, ∀ p ∈ datas, names item p → ∃ q, Reads integral datas item q

/-- **The condition**: the rows have what is sorted by, and either what is read of the references has a
cycle, or all is read; or the references have a cycle anyway; or there are no rows. -/
def Fits (model : SelfModel) (template : Template) (datas : List (Item F)) : Prop :=
  datas = [] ∨
    Sortable integral model template datas ∧ (¬ Acyclic (Reads integral datas) ∨ AllRead integral datas) ∨
    ¬ Sortable integral model template datas ∧ ¬ Acyclic (Refers integral datas)

end

/-! ### The names of the columns -/

section
variable {lowercase_fields_map : Str → Str}

/-- A title of a template is read as the name of its field. -/
theorem to_field_name_title {c : Column} (hopen : '('.toNat ∉ c.field_name)
    (hclose : c.field_name.getLast? ≠ some ')'.toNat) :
    to_field_name lowercase_fields_map (column_title c) = c.field_name := by
  let star : Nat → Bool := fun c => c = '*'.toNat
  have hstar : ¬ star ')'.toNat ∧ ¬ star '('.toNat := by decide
  have hstrip (name : Str) : ∃ name', strip_star (name ++ '('.toNat :: c.field_name ++ [')'.toNat]) =
      name' ++ '('.toNat :: c.field_name ++ [')'.toNat] := by
    rw [strip_star, List.rdropWhile_concat_neg star _ _ hstar.1, List.append_assoc, List.dropWhile_append]
    split
    · exact ⟨[], List.dropWhile_cons_of_neg hstar.2⟩
    · exact ⟨_, (List.append_assoc _ _ _).symm⟩
  have hparen : '('.toNat ∈ column_title c ∧ (column_title c).getLast? = some ')'.toNat := by
    refine ⟨by simp [column_title], ?_⟩
    rw [column_title]
    exact List.getLast?_concat
  rw [to_field_name, if_pos hparen, column_title]
  obtain ⟨name', heq⟩ := hstrip (if c.required then '*'.toNat :: c.label else c.label)
  rw [heq, last_part_paren]
  exact cut_eq_self_iff.mpr ⟨hopen, hclose⟩

theorem mem_fields_of_rendered {template : Template} {serializer : Serializer} {c : Column}
    (h : c ∈ get_rendered_fields template serializer) : c ∈ serializer.fields := by
  have hpk : ∀ c ∈ (serializer.get (str "pk")).toList, c ∈ serializer.fields := by
    intro c hc
    exact List.mem_of_find?_eq_some (Option.mem_toList.mp hc)
  have hall := (List.mem_filter.mp h).1
  cases template with
  | import_ => exact (List.mem_filter.mp (List.mem_filter.mp hall).1).1
  | update => exact (List.mem_append.mp hall).elim (hpk c) fun hc => (List.mem_filter.mp hc).1
  | export_ => exact (List.mem_append.mp hall).elim (hpk c) fun hc => (List.mem_filter.mp hc).1

/-- The names of the columns of a file. -/
theorem field_names (auto : Bool) (model : SelfModel) (template : Template) :
    (get_column_titles (get_rendered_fields template (model.serializer auto))).map
      (to_field_name lowercase_fields_map) =
    (get_rendered_fields template (model.serializer auto)).map Column.field_name := by
  have hplain : ∀ c ∈ (model.serializer auto).fields,
      '('.toNat ∉ c.field_name ∧ c.field_name.getLast? ≠ some ')'.toNat := by
    cases model <;> cases auto <;> decide +kernel
  rw [get_column_titles, List.map_map]
  refine List.map_congr_left fun c hc => ?_
  obtain ⟨hopen, hclose⟩ := hplain c (mem_fields_of_rendered hc)
  exact to_field_name_title hopen hclose

end

section
variable {py : Python F} {serializer : Serializer} {lowercase_fields_map : Str → Str} {item : Item F}
  {datas : List (Item F)} {rows : List (List (Value F))} {auto : Bool} {model : SelfModel}
  {template : Template}

theorem keys_of_process {row_data : Item F} (h : process_row_data py serializer row_data = some item) :
    item.map Prod.fst = row_data.map Prod.fst := by
  refine List.forall₂_eq_eq_eq ▸ ?_
  rw [List.forall₂_map_left_iff, List.forall₂_map_right_iff]
  refine (List.Forall₂.imp ?_ (forall₂_of_mapM h)).flip
  rintro ⟨k, v⟩ p hp
  dsimp only at hp
  split at hp
  · obtain ⟨w, -, rfl⟩ := Option.map_eq_some_iff.mp hp
    rfl
  · cases hp
    rfl

/-- A row has no other columns than the file. -/
theorem mem_names_of_generate {fields_name : List Str}
    (h : generate_data py serializer fields_name rows = some datas) (hitem : item ∈ datas) {k : Str}
    (hk : k ∈ item.map Prod.fst) : k ∈ fields_name := by
  obtain ⟨row, -, hprocess⟩ := exists_of_mem_mapM h hitem
  rw [keys_of_process hprocess, Dict.mem_keys_ofList] at hk
  obtain ⟨⟨j, v⟩, hmem, rfl⟩ := List.mem_map.mp hk
  exact (List.of_mem_zip hmem).1

theorem mem_names_of_parse
    (h : parse py (model.serializer auto) lowercase_fields_map template rows = some datas)
    (hitem : item ∈ datas) {k : Str} (hk : k ∈ item.map Prod.fst) :
    k ∈ (get_rendered_fields template (model.serializer auto)).map Column.field_name := by
  obtain ⟨rest, -, hgenerate⟩ := Option.bind_eq_some_iff.mp h
  rw [field_names] at hgenerate
  exact mem_names_of_generate hgenerate hitem hk

theorem lookup_eq_none {k : Str} (h : k ∉ item.map Prod.fst) : item.lookup k = none := by
  rw [List.lookup_eq_none_iff]
  intro p hp
  exact bne_iff_ne.mpr fun heq => h (heq ▸ List.mem_map_of_mem hp)

/-- **The template for an import has no primary keys**. -/
theorem pk_eq_none (h : parse py (model.serializer auto) lowercase_fields_map .import_ rows = some datas)
    (hitem : item ∈ datas) : item.lookup (str "pk") = none := by
  have hnone : str "pk" ∉ (get_rendered_fields .import_ (model.serializer auto)).map Column.field_name := by
    cases model <;> cases auto <;> decide +kernel
  exact lookup_eq_none fun hk => hnone (mem_names_of_parse h hitem hk)

/-- **No file of departments has the column that they are sorted by**. -/
theorem dept_belong_eq_none
    (h : parse py (SelfModel.DeptInfo.serializer auto) lowercase_fields_map template rows = some datas)
    (hitem : item ∈ datas) : item.lookup (str "dept_belong") = none := by
  have hnone : str "dept_belong" ∉
      (get_rendered_fields template (SelfModel.DeptInfo.serializer auto)).map Column.field_name := by
    cases template <;> cases auto <;> decide +kernel
  exact lookup_eq_none fun hk => hnone (mem_names_of_parse h hitem hk)

end

theorem has_self_fields_dept :
    has_self_fields SelfModel.DeptInfo.model SelfModel.DeptInfo.fields = some (str "dept_belong") := rfl

theorem has_self_fields_menu :
    has_self_fields SelfModel.Menu.model SelfModel.Menu.fields = some (str "parent") := rfl

/-! ### The sort -/

section
variable {integral : F → Option Int} {datas : List (Item F)} {self_field : Str} {item p : Item F}

/-- The key of a row. -/
def key (integral : F → Option Int) (item : Item F) : Key F := (node_id integral item).getD .none

/-- The key of its parent. -/
def parent_key (integral : F → Option Int) (self_field : Str) (item : Item F) : Option (Key F) :=
  (parent_id integral self_field item).getD none

theorem node_id_of_complete (h : complete integral self_field item) :
    node_id integral item = some (key integral item) := by
  obtain ⟨hk, -⟩ := of_decide_eq_true h
  obtain ⟨k, hk⟩ := Option.isSome_iff_exists.mp hk
  rw [key, hk, Option.getD_some]

theorem parent_id_of_complete (h : complete integral self_field item) :
    parent_id integral self_field item = some (parent_key integral self_field item) := by
  obtain ⟨-, ha⟩ := of_decide_eq_true h
  obtain ⟨a, ha⟩ := Option.isSome_iff_exists.mp ha
  rw [parent_key, ha, Option.getD_some]

theorem distinct_iff (h : ∀ item ∈ datas, complete integral (str "parent") item) :
    (datas.map (node_id integral)).Nodup ↔ (datas.map (key integral)).Nodup := by
  have hmap : datas.map (node_id integral) = (datas.map (key integral)).map some := by
    rw [List.map_map]
    exact List.map_congr_left fun item hitem => node_id_of_complete (h item hitem)
  rw [hmap, List.nodup_map_iff (Option.some_injective _)]

variable [DecidableEq F] {order : SetOrder (Key F)}

theorem sort_eq_none (hitem : item ∈ datas) (h : complete integral self_field item = false) :
    topological_sort integral order datas self_field = none := by
  rw [Option.eq_none_iff_forall_ne_some]
  intro l hl
  obtain ⟨node_ids, hnodes, hrest⟩ := Option.bind_eq_some_iff.mp hl
  obtain ⟨parent_ids, hparents, -⟩ := Option.bind_eq_some_iff.mp hrest
  obtain ⟨k, -, hk⟩ := exists_result_of_mem hnodes hitem
  obtain ⟨a, -, ha⟩ := exists_result_of_mem hparents hitem
  simp [complete, hk, ha] at h

/-- The rows by their keys. -/
def new_data (integral : F → Option Int) (datas : List (Item F)) : Dict (Key F) (Item F) :=
  Dict.ofList ((datas.map (key integral)).zip datas)

theorem new_data_get {k : Key F} (h : (new_data integral datas).get k = some item) :
    item ∈ datas ∧ key integral item = k :=
  Dict.of_get_zip h

theorem new_data_ne_none (h : item ∈ datas) : (new_data integral datas).get (key integral item) ≠ none :=
  Dict.get_zip_ne_none h

/-- The keys, in the order of the sort. -/
def sorted_order (integral : F → Option Int) (order : SetOrder (Key F)) (self_field : Str)
    (datas : List (Item F)) : List (Key F) :=
  topo (order.list (datas.map (key integral))) (links (key integral) (parent_key integral self_field) datas)

/-- **What the sort comes to**, of rows that have what is sorted by. -/
theorem sort_of_complete (h : ∀ item ∈ datas, complete integral self_field item) :
    topological_sort integral order datas self_field =
      sort_rows (order.list (datas.map (key integral)))
        (links (key integral) (parent_key integral self_field) datas) (new_data integral datas).get := by
  have hnodes : datas.mapM (node_id integral) = some (datas.map (key integral)) :=
    mapM_of_forall fun item hitem => node_id_of_complete (h item hitem)
  have hparents : datas.mapM (parent_id integral self_field) =
      some (datas.map (parent_key integral self_field)) :=
    mapM_of_forall fun item hitem => parent_id_of_complete (h item hitem)
  have hedges : ((datas.map (parent_key integral self_field)).zip (datas.map (key integral))).filterMap
      (fun e => e.1.map (·, e.2)) = links (key integral) (parent_key integral self_field) datas := by
    rw [List.zip_map', List.filterMap_map]
    rfl
  rw [topological_sort, hnodes, Option.bind_eq_bind, Option.bind_some, hparents, Option.bind_eq_bind,
    Option.bind_some]
  simp only [hedges]
  rfl

/-- What is read of the references is what is sorted by. -/
theorem reads_eq_parent (h : ∀ item ∈ datas, complete integral (str "parent") item) :
    Reads integral datas = Parent (key integral) (parent_key integral (str "parent")) datas := by
  funext item p
  refine propext (and_congr_right fun hitem => and_congr_right fun hp => ?_)
  rw [reads, parent_id_of_complete (h item hitem), node_id_of_complete (h p hp)]
  cases parent_key integral (str "parent") item with
  | none => simp
  | some a => simp

/-- An error means that what is read has a cycle. -/
theorem sort_eq_none_iff (h : ∀ item ∈ datas, complete integral (str "parent") item) :
    topological_sort integral order datas (str "parent") = none ↔ ¬ Acyclic (Reads integral datas) := by
  rw [sort_of_complete h, reads_eq_parent h]
  exact sort_rows_eq_none_iff (order.nodup _) fun _ => order.mem

/-- Otherwise the rows stand in the order of their keys. -/
theorem sort_of_acyclic (h : ∀ item ∈ datas, complete integral (str "parent") item)
    (hacyclic : Acyclic (Reads integral datas)) :
    topological_sort integral order datas (str "parent") =
      some ((sorted_order integral order (str "parent") datas).filterMap (new_data integral datas).get) := by
  rw [reads_eq_parent h] at hacyclic
  rw [sort_of_complete h]
  exact sort_rows_of_acyclic (order.nodup _) (fun _ => order.mem) hacyclic

/-- **Where everything is read, the parents come first.** -/
theorem ordered_of_read (h : ∀ item ∈ datas, complete integral (str "parent") item)
    (hacyclic : Acyclic (Reads integral datas)) (hread : AllRead integral datas) :
    Ordered integral datas (topological_sort integral order datas (str "parent")) := by
  have hparent := hacyclic
  rw [reads_eq_parent h] at hparent
  obtain ⟨l, hl, hperm, hbefore⟩ := sort_rows_spec (order.nodup (datas.map (key integral)))
    (fun _ => order.mem) (fun _ _ => new_data_get) (fun _ => new_data_ne_none)
    ((distinct_iff h).mp hread.1) hparent
  rw [sort_of_complete h, hl]
  refine ⟨hperm, fun before item after hsplit p hrefers => hbefore before item after hsplit p ?_⟩
  rw [← reads_eq_parent h]
  rcases hrefers with hreads | ⟨hitem, hp, hnames, hnone⟩
  · exact hreads
  · obtain ⟨q, hq⟩ := hread.2 item hitem p hp hnames
    exact absurd hq (hnone q)

/-- The key comes first. -/
def SetOrder.first {κ : Type} [DecidableEq κ] (k : κ) : SetOrder κ where
  list l := if k ∈ l then k :: l.dedup.erase k else l.dedup
  nodup l := by
    split
    · exact List.nodup_cons.mpr ⟨(List.nodup_dedup l).not_mem_erase, (List.nodup_dedup l).erase k⟩
    · exact List.nodup_dedup l
  mem := by
    intro l j
    split
    · next hk =>
      exact (List.perm_cons_erase (List.mem_dedup.mpr hk)).mem_iff.symm.trans List.mem_dedup
    · exact List.mem_dedup

/-- **A reference that is not read**: the child comes first, in some order of the set. -/
theorem not_ordered_of_unread (h : ∀ item ∈ datas, complete integral (str "parent") item)
    (hacyclic : Acyclic (Reads integral datas)) (hdistinct : (datas.map (node_id integral)).Nodup)
    (hitem : item ∈ datas) (hp : p ∈ datas) (hnames : names item p)
    (hnone : ∀ q, ¬ Reads integral datas item q) :
    ¬ Ordered integral datas
      (topological_sort integral (.first (key integral item)) datas (str "parent")) := by
  have hfirst : (SetOrder.first (key integral item)).list (datas.map (key integral)) =
      key integral item :: (datas.map (key integral)).dedup.erase (key integral item) :=
    if_pos (List.mem_map_of_mem hitem)
  have hparent := hnone
  rw [reads_eq_parent h] at hparent
  obtain ⟨l, hl⟩ : ∃ l, (sorted_order integral (.first (key integral item)) (str "parent") datas).filterMap
      (new_data integral datas).get = item :: l :=
    filterMap_topo_cons ((SetOrder.first (key integral item)).nodup _)
      (fun _ => (SetOrder.first (key integral item)).mem) (fun _ _ => new_data_get)
      (fun _ => new_data_ne_none) ((distinct_iff h).mp hdistinct) hitem hfirst hparent
  rw [sort_of_acyclic h hacyclic, hl]
  rintro ⟨-, hbefore⟩
  exact absurd (hbefore [] item l rfl p (.inr ⟨hitem, hp, hnames, hnone⟩)) List.not_mem_nil

theorem ordered_iff_of_complete (h : ∀ item ∈ datas, complete integral (str "parent") item) :
    (∀ order, Ordered integral datas (topological_sort integral order datas (str "parent"))) ↔
      ¬ Acyclic (Reads integral datas) ∨ AllRead integral datas := by
  by_cases hacyclic : Acyclic (Reads integral datas)
  · rw [or_iff_right (not_not.mpr hacyclic)]
    refine ⟨fun hall => ?_, fun hread _ => ordered_of_read h hacyclic hread⟩
    have hdistinct : (datas.map (node_id integral)).Nodup := by
      have hordered := hall (.first .none)
      rw [sort_of_acyclic h hacyclic] at hordered
      exact (distinct_iff h).mpr (nodup_of_filterMap_perm ((SetOrder.first Key.none).nodup _)
        (fun _ => (SetOrder.first Key.none).mem) (fun _ _ => new_data_get) (fun _ => new_data_ne_none)
        hordered.1)
    refine ⟨hdistinct, fun item hitem p hp hnames => ?_⟩
    by_contra hnone
    exact not_ordered_of_unread h hacyclic hdistinct hitem hp hnames (not_exists.mp hnone) (hall _)
  · refine iff_of_true (fun order => ?_) (.inl hacyclic)
    rw [(sort_eq_none_iff h).mpr hacyclic]
    -- what is read refers
    exact mt (fun hrefers item hcycle => hrefers item (hcycle.lift id fun _ _ => .inl)) hacyclic

theorem sort_nil : topological_sort integral order [] self_field = some ([] : List (Item F)) := by
  have hnodes : order.list [] = [] :=
    List.eq_nil_iff_forall_not_mem.mpr fun k hk => absurd (order.mem.mp hk) List.not_mem_nil
  simp [topological_sort, hnodes, topo, loop, start]

end

/-! ### References to a row -/

section
variable {py : Python F} {integral : F → Option Int} {item p : Item F} {datas : List (Item F)} {name : Str}
  {pk : Pk}

theorem isdigit_text_pk : isdigit (text py (pk.value : Value F)) ↔ ∃ n, pk = .int n ∧ 0 ≤ n := by
  cases pk with
  | int n =>
      cases n with
      | ofNat n => exact iff_of_true (isdigit_strOfNat n) ⟨_, rfl, Int.natCast_nonneg n⟩
      | negSucc n =>
          have hdash : isdigit (text py (Pk.value (.int (.negSucc n)))) = false :=
            not_isdigit_of_dash List.mem_cons_self
          refine iff_of_false (Bool.eq_false_iff.mp hdash) ?_
          rintro ⟨_, ⟨⟩, hn⟩
          exact absurd hn (by simp)
  | uuid u =>
      refine iff_of_false (Bool.eq_false_iff.mp (not_isdigit_of_dash u.dash_mem)) ?_
      rintro ⟨_, ⟨⟩, -⟩

theorem reference_ne (name k : Str) : name ++ '('.toNat :: k ++ [')'.toNat] ≠ k := by
  intro heq
  have hlength := congrArg List.length heq
  simp only [List.length_append, List.length_cons, List.length_nil] at hlength
  omega

/-- A reference is written as the primary key, however it is read. -/
theorem names_reference
    (hparent : item.lookup (str "parent") =
      some (id_name_to_obj (.str (name ++ '('.toNat :: text py (pk.value : Value F) ++ [')'.toNat]))))
    (hpk : p.lookup (str "pk") = some (.str (text py (pk.value : Value F)))) : names item p := by
  rw [names, hparent, hpk, id_name_to_obj, obj_pattern_reference name (text_pk_ne_nil pk) (text_pk_char pk)]
  by_cases hname : name ≠ [] ∧ 0xa ∉ name
  · rw [if_pos hname]
    by_cases hdigit : isdigit (text py (pk.value : Value F))
    · obtain ⟨n, rfl, hn⟩ := isdigit_text_pk.mp hdigit
      have hvalue := (id_eq_iff py (.int n)).mpr fun m hm => by
        cases hm
        exact hn
      dsimp only
      rw [hvalue]
      simp [spells, spelling, Pk.value, text]
    · simp [spells, spelling, hdigit]
  · rw [if_neg hname]
    refine decide_eq_true (.inr ⟨name, ?_⟩)
    exact (List.append_assoc _ _ _).symm

variable [DecidableEq F]

/-- **Which references are read**: the name is there, and in one line, and the primary key is no number. -/
theorem reads_reference_iff
    (hparent : item.lookup (str "parent") =
      some (id_name_to_obj (.str (name ++ '('.toNat :: text py (pk.value : Value F) ++ [')'.toNat]))))
    (hpk : p.lookup (str "pk") = some (.str (text py (pk.value : Value F)))) :
    reads integral item p ↔ name ≠ [] ∧ 0xa ∉ name ∧ ∀ n, pk = .int n → n < 0 := by
  have hnumber : (∀ n, pk = .int n → n < 0) ↔ ¬ isdigit (text py (pk.value : Value F)) := by
    rw [isdigit_text_pk]
    push Not
    rfl
  rw [hnumber, reads, node_id, parent_id, hparent, hpk, id_name_to_obj,
    obj_pattern_reference name (text_pk_ne_nil pk) (text_pk_char pk)]
  by_cases hname : name ≠ [] ∧ 0xa ∉ name
  · rw [if_pos hname]
    by_cases hdigit : isdigit (text py (pk.value : Value F))
    · simp [Cells.get, to_key, hdigit]
    · simp [Cells.get, to_key, hdigit, hname]
  · rw [if_neg hname]
    refine iff_of_false ?_ fun hall => hname ⟨hall.1, hall.2.1⟩
    simpa [to_key] using reference_ne name (text py (pk.value : Value F))

/-- A row without a parent refers to none. -/
theorem not_refers_of_orphan (h : parent_id integral (str "parent") item = some none) :
    ¬ Refers integral datas item p := by
  have hread : ∀ q, ¬ reads integral item q := by
    intro q
    rw [reads, h]
    exact Bool.false_ne_true
  have hnames : ¬ names item p := by
    rw [names]
    rw [parent_id] at h
    cases hparent : item.lookup (str "parent") with
    | none => simp
    | some v =>
        rw [hparent] at h
        cases hk : (p.lookup (str "pk")).bind spelling with
        | none => simp
        | some k =>
            cases v with
            | null => simp [spells, spelling]
            | dict items =>
                cases hpk : items.lookup (str "pk") with
                | none => simp [spells, hpk]
                | some w => cases w <;> simp_all [Cells.get, to_key, spells, spelling]
            | _ => simp [to_key] at h
  rintro (⟨-, -, hreads⟩ | ⟨-, -, hwritten, -⟩)
  · exact hread p hreads
  · exact hnames hwritten

theorem acyclic_of_orphans (h : ∀ item ∈ datas, parent_id integral (str "parent") item = some none) :
    Acyclic (Refers integral datas) := by
  intro item hcycle
  obtain ⟨p, hrefers, -⟩ := TransGen.head'_iff.mp hcycle
  have hitem : item ∈ datas := hrefers.elim And.left And.left
  exact not_refers_of_orphan (h item hitem) hrefers

end

/-! ### Which files are ordered -/

section
variable {py : Python F} {lowercase_fields_map : Str → Str} {integral : F → Option Int} [DecidableEq F]
  {order : SetOrder (Key F)} {datas : List (Item F)} {rows : List (List (Value F))} {auto : Bool}
  {model : SelfModel} {template : Template}

/-- **An error without a cycle**: there is a row, and what is sorted by is missing. -/
theorem sort_datas_eq_none
    (h : parse py (model.serializer auto) lowercase_fields_map template rows = some datas) (hne : datas ≠ [])
    (hnot : ¬ Sortable integral model template datas) : sort_datas integral order model datas = none := by
  cases model with
  | DeptInfo =>
      obtain ⟨item, rest, rfl⟩ := List.exists_cons_of_ne_nil hne
      have hnone := dept_belong_eq_none h List.mem_cons_self
      rw [sort_datas, has_self_fields_dept]
      exact sort_eq_none List.mem_cons_self (by simp [complete, parent_id, hnone])
  | Menu =>
      rw [sort_datas, has_self_fields_menu]
      by_cases htemplate : template = .import_
      · subst htemplate
        obtain ⟨item, rest, rfl⟩ := List.exists_cons_of_ne_nil hne
        have hnone := pk_eq_none h List.mem_cons_self
        exact sort_eq_none List.mem_cons_self (by simp [complete, node_id, hnone])
      · obtain ⟨item, hitem, hcomplete⟩ : ∃ item ∈ datas, ¬ complete integral (str "parent") item := by
          by_contra hall
          push Not at hall
          exact hnot ⟨rfl, htemplate, hall⟩
        exact sort_eq_none hitem (Bool.eq_false_iff.mpr hcomplete)

/-- **Which files are ordered parents first.** -/
theorem ordered_iff (py : Python F) (integral : F → Option Int) (lowercase_fields_map : Str → Str)
    (auto : Bool) (model : SelfModel) (template : Template) (rows : List (List (Value F)))
    (datas : List (Item F))
    (h : parse py (model.serializer auto) lowercase_fields_map template rows = some datas) :
    (∀ order, Ordered integral datas (sort_datas integral order model datas)) ↔
      Fits integral model template datas := by
  by_cases hne : datas = []
  · subst hne
    refine iff_of_true (fun order => ?_) (.inl rfl)
    have hsort : sort_datas integral order model [] = some ([] : List (Item F)) := by
      cases model
      · exact sort_nil
      · exact sort_nil
    rw [hsort]
    refine ⟨.nil, fun before item after hsplit => ?_⟩
    simp at hsplit
  rw [Fits, or_iff_right hne]
  by_cases hsortable : Sortable integral model template datas
  · have hmenu : ∀ order, sort_datas integral order model datas =
        topological_sort integral order datas (str "parent") := by
      intro order
      rw [hsortable.1]
      rfl
    simp only [hmenu, hsortable, true_and, not_true_eq_false, false_and, or_false]
    exact ordered_iff_of_complete hsortable.2.2
  · simp only [sort_datas_eq_none h hne hsortable, hsortable, false_and, not_false_eq_true, true_and,
      false_or]
    exact ⟨fun hall => hall (.first .none), fun hcycle _ => hcycle⟩

end

/-! ### Two menus -/

def cells (texts : List String) : List (Value Unit) := texts.map fun s => .str (str s)

def sampleDatas (auto : Bool) (model : SelfModel) (template : Template) (rows : List (List String)) :
    List (Item Unit) :=
  (parse samplePython (model.serializer auto) id template (rows.map cells)).getD []

theorem parse_sample {auto : Bool} {model : SelfModel} {template : Template} {rows : List (List String)}
    (h : (parse samplePython (model.serializer auto) id template (rows.map cells)).isSome) :
    parse samplePython (model.serializer auto) id template (rows.map cells) =
      some (sampleDatas auto model template rows) := by
  obtain ⟨datas, hdatas⟩ := Option.isSome_iff_exists.mp h
  rw [sampleDatas, hdatas, Option.getD_some]

/-- A child, and then its parent, with UUIDs. -/
def sampleMenus : List (List String) :=
  [["b0000000-0000-0000-0000-000000000000", "b0000000-0000-0000-0000-000000000000", "child", "1", "/c",
      "-", "{}", "root(a0000000-0000-0000-0000-000000000000)"],
    ["a0000000-0000-0000-0000-000000000000", "a0000000-0000-0000-0000-000000000000", "root", "1", "/r",
      "-", "{}", "-"]]

theorem ordered_iff_menus :
    (sampleDatas false .Menu .update sampleMenus).length = 2 ∧
    ∀ order, Ordered (fun _ => none) (sampleDatas false .Menu .update sampleMenus)
      (sort_datas (fun _ => none) order .Menu (sampleDatas false .Menu .update sampleMenus)) := by
  obtain ⟨hlength, hparse, hcomplete, hdistinct, hread⟩ :
      (sampleDatas false .Menu .update sampleMenus).length = 2 ∧
      (parse samplePython (SelfModel.Menu.serializer false) id .update (sampleMenus.map cells)).isSome ∧
      (∀ item ∈ sampleDatas false .Menu .update sampleMenus, complete (fun _ => none) (str "parent") item) ∧
      ((sampleDatas false .Menu .update sampleMenus).map (node_id fun _ => none)).Nodup ∧
      ∀ item ∈ sampleDatas false .Menu .update sampleMenus,
        ∀ p ∈ sampleDatas false .Menu .update sampleMenus, names item p →
          ∃ q ∈ sampleDatas false .Menu .update sampleMenus, reads (fun _ => none) item q := by
    decide +kernel
  have hall : AllRead (fun _ => none) (sampleDatas false .Menu .update sampleMenus) := by
    refine ⟨hdistinct, fun item hitem p hp hnames => ?_⟩
    obtain ⟨q, hq, hreads⟩ := hread item hitem p hp hnames
    exact ⟨q, hitem, hq, hreads⟩
  have hfits : Fits (fun _ => none) .Menu .update (sampleDatas false .Menu .update sampleMenus) :=
    .inr (.inl ⟨⟨rfl, nofun, hcomplete⟩, .inr hall⟩)
  exact ⟨hlength, (ordered_iff samplePython (fun _ => none) id false .Menu .update (sampleMenus.map cells)
    (sampleDatas false .Menu .update sampleMenus) (parse_sample hparse)).mpr hfits⟩

/-- The same with integers, which the parser makes texts of in one column and numbers in the other. -/
def sampleIntegers : List (List String) :=
  [["2", "child", "1", "/c", "-", "{}", "root(1)"], ["1", "root", "1", "/r", "-", "{}", "-"]]

/-- **A template without primary keys, departments, and integers**: an error without a cycle, twice, and a
child that may come before its parent. -/
theorem files_are_not_ordered :
    (∀ order, ¬ Ordered (fun _ => none) (sampleDatas false .Menu .import_ [["root", "1", "/r", "-", "{}", "-"]])
      (sort_datas (fun _ => none) order .Menu
        (sampleDatas false .Menu .import_ [["root", "1", "/r", "-", "{}", "-"]]))) ∧
    (∀ order, ¬ Ordered (fun _ => none) (sampleDatas true .DeptInfo .update [["1", "root", "root", "-"]])
      (sort_datas (fun _ => none) order .DeptInfo
        (sampleDatas true .DeptInfo .update [["1", "root", "root", "-"]]))) ∧
    ∃ order, ¬ Ordered (fun _ => none) (sampleDatas true .Menu .update sampleIntegers)
      (sort_datas (fun _ => none) order .Menu (sampleDatas true .Menu .update sampleIntegers)) := by
  have hlost {auto : Bool} {model : SelfModel} {template : Template} {rows : List (List String)}
      (hsortable : ¬ (model = .Menu ∧ template ≠ .import_))
      (h : (parse samplePython (model.serializer auto) id template (rows.map cells)).isSome ∧
        (sampleDatas auto model template rows).isEmpty = false ∧
        ∀ item ∈ sampleDatas auto model template rows,
          parent_id (fun _ => none) (str "parent") item = some none) (order : SetOrder (Key Unit)) :
      ¬ Ordered (fun _ => none) (sampleDatas auto model template rows)
        (sort_datas (fun _ => none) order model (sampleDatas auto model template rows)) := by
    obtain ⟨hparse, hne, horphans⟩ := h
    rw [sort_datas_eq_none (parse_sample hparse) (by simpa using hne) fun h => hsortable ⟨h.1, h.2.1⟩]
    exact not_not.mpr (acyclic_of_orphans horphans)
  refine ⟨hlost (fun h => h.2 rfl) (by decide +kernel), hlost (fun h => nomatch h.1) (by decide +kernel),
    ?_⟩
  obtain ⟨hcomplete, hdistinct, hnone, item, hitem, p, hp, hnames⟩ :
      (∀ item ∈ sampleDatas true .Menu .update sampleIntegers, complete (fun _ => none) (str "parent") item) ∧
      ((sampleDatas true .Menu .update sampleIntegers).map (node_id fun _ => none)).Nodup ∧
      (∀ item ∈ sampleDatas true .Menu .update sampleIntegers,
        ∀ p ∈ sampleDatas true .Menu .update sampleIntegers, ¬ reads (fun _ => none) item p) ∧
      ∃ item ∈ sampleDatas true .Menu .update sampleIntegers,
        ∃ p ∈ sampleDatas true .Menu .update sampleIntegers, names item p := by
    decide +kernel
  have hunread : ∀ item p, ¬ Reads (fun _ => none) (sampleDatas true .Menu .update sampleIntegers) item p :=
    fun item p ⟨hitem, hp, hreads⟩ => hnone item hitem p hp hreads
  have hacyclic : Acyclic (Reads (fun _ => none) (sampleDatas true .Menu .update sampleIntegers)) := by
    intro item hcycle
    obtain ⟨p, hreads, -⟩ := TransGen.head'_iff.mp hcycle
    exact hunread item p hreads
  exact ⟨_, not_ordered_of_unread hcomplete hacyclic hdistinct hitem hp hnames (hunread item)⟩

end InfraHub.Import
