import InfraHub.Lib.Json

/-!
# Drf — Cells

A cell of an exported file: `render_value` of `BaseFileRenderer` writes it, `load_row` and `parse_value` of
`BaseFileParser` read it.

* `Field` is a field of a serializer, as far as the two tell the classes apart.
* `obj_pattern` is the regular expression of a reference, `name(id)`.
* `to_internal_value` is the last step for a `LabeledChoiceField`.

A method that raises is `none`.
-/

namespace InfraHub.Cells
open InfraHub.Lib (Str str int)
open InfraHub.Lib.Json (Value Floats dumps loads nonfinite strOfInt dquote apostrophe)

variable {F : Type}

/-- What Python makes of values that are not told apart here. -/
structure Python (F : Type) where
  floats : Floats F
  nonzero : F → Bool
  /-- `str` of a float, a list or a dict -/
  repr : Value F → Str

/-! ### Values -/

section
variable (py : Python F)

/-- `bool(v)`. -/
def truthy : Value F → Bool
  | .null => false
  | .bool b => b
  | .int n => n ≠ 0
  | .float x => py.nonzero x
  | .str s => s ≠ []
  | .list items => ¬ items.isEmpty
  | .dict items => ¬ items.isEmpty

/-- `str(v)`. -/
def text : Value F → Str
  | .null => str "None"
  | .bool true => str "True"
  | .bool false => str "False"
  | .int n => strOfInt n
  | .str s => s
  | v => py.repr v

/-- `v or w`. -/
def either (v w : Value F) : Value F := if truthy py v then v else w

end

/-- `items.get(name, default)`. -/
def get (items : List (Str × Value F)) (name : String) (default_ : Value F) : Value F :=
  (items.lookup (str name)).getD default_

/-- `for v in value`. -/
def iterate : Value F → Option (List (Value F))
  | .list items => some items
  | .dict items => some (items.map fun item => .str item.1)
  | .str s => some (s.map fun c => .str [c])
  | _ => none

mutual

/-- No float in the value is infinite or NaN. -/
def finite (fl : Floats F) : Value F → Bool
  | .float x => fl.repr x ∉ nonfinite
  | .list items => finiteItems fl items
  | .dict items => finitePairs fl items
  | _ => true

def finiteItems (fl : Floats F) : List (Value F) → Bool
  | [] => true
  | v :: items => finite fl v && finiteItems fl items

def finitePairs (fl : Floats F) : List (Str × Value F) → Bool
  | [] => true
  | (_, v) :: items => finite fl v && finitePairs fl items

end

theorem finiteItems_eq (fl : Floats F) (items : List (Value F)) :
    finiteItems fl items = items.all (finite fl) := by
  induction items with
  | nil => rfl
  | cons v items ih => rw [finiteItems, ih, List.all_cons]

theorem finitePairs_eq (fl : Floats F) (items : List (Str × Value F)) :
    finitePairs fl items = items.all fun item => finite fl item.2 := by
  induction items with
  | nil => rfl
  | cons item items ih => rw [finitePairs, ih, List.all_cons]

/-- `json.dumps` of `rest_framework.utils`, which sets `allow_nan=False`. -/
def strict_dumps (fl : Floats F) (ascii : Bool) (v : Value F) : Option Str :=
  if finite fl v then some (dumps fl ascii v) else none

/-! ### Fields -/

inductive Field
  | BooleanField (allow_null : Bool)
  | CharField (allow_null : Bool)
  | JSONField (allow_null : Bool)
  | ChoiceField (allow_null : Bool)
  | LabeledChoiceField (allow_null : Bool)
  | BasePrimaryKeyRelatedField (many : Bool) (allow_null : Bool)
  | ManyRelatedField (child_relation : Field) (allow_null : Bool)
  | ListSerializer (child : Field) (allow_null : Bool)
  | Serializer (allow_null : Bool)
  | ListField (child : Field) (allow_null : Bool)
  | FileField (allow_null : Bool)
  /-- a field of another class -/
  | other (allow_null : Bool)

def Field.allow_null : Field → Bool
  | .BooleanField b | .CharField b | .JSONField b | .ChoiceField b | .LabeledChoiceField b
  | .BasePrimaryKeyRelatedField _ b | .ManyRelatedField _ b | .ListSerializer _ b | .Serializer b
  | .ListField _ b | .FileField b | .other b => b

/-! ### The renderer -/

section
variable (py : Python F)

/-- The primary key in a reference. -/
def pk_text (value : List (Str × Value F)) : Str :=
  text py (either py (get value "id" (.str [])) (get value "pk" (.str [])))

/-- The name in a reference. -/
def name_text (value : List (Str × Value F)) : Str :=
  text py (either py (either py (either py (get value "display_name" (.str []))
    (get value "name" (.str []))) (get value "username" (.str []))) (get value "nickname" (.str [])))

def to_id_name : Value F → Option Str
  | .null => some (str "-")
  | .dict value => some (name_text py value ++ '('.toNat :: pk_text py value ++ [')'.toNat])
  | _ => none

/-- The end of `render_value`: a text is left, anything else is dumped. -/
def to_text : Value F → Option Str
  | .str s => some s
  | v => strict_dumps py.floats false v

def to_texts (texts : List Str) : Option Str := to_text py (.list (texts.map .str))

def render_value : Field → Value F → Option Str
  | _, .null => some (str "-")
  | .BooleanField _, value => some (if truthy py value then str "Yes" else str "No")
  | .LabeledChoiceField _, value =>
    match if truthy py value then value else .dict [] with
    | .dict value =>
      some (text py (get value "label" .null) ++ '('.toNat :: text py (get value "value" .null) ++ [')'.toNat])
    | _ => none
  | .BasePrimaryKeyRelatedField many _, value =>
    if many then do to_texts py (← (← iterate value).mapM (to_id_name py))
    else to_id_name py value
  | .ListSerializer child _, value | .ManyRelatedField child _, value | .ListField child _, value => do
    to_texts py (← (← iterate value).mapM (render_value child))
  | .Serializer _, .dict value =>
    if truthy py (get value "id" .null) then to_id_name py (.dict value) else to_text py (.dict value)
  | .Serializer _, _ => none
  | .JSONField _, value => strict_dumps py.floats true value
  | _, value => to_text py value

end

/-! ### The parser -/

/-- The quotes that become a double quote: `“`, `”`, `‘`, `’` and the apostrophe. -/
def quotes : List Nat := [0x201c, 0x201d, 0x2018, 0x2019, apostrophe]

def replace_chinese_quote (s : Str) : Str := s.map fun c => if c ∈ quotes then dquote else c

/-- `[…]` or `{…}`. -/
def bracketed (col : Str) : Bool :=
  col.head? = some '['.toNat ∧ col.getLast? = some ']'.toNat ∨
    col.head? = some '{'.toNat ∧ col.getLast? = some '}'.toNat

/-- `[a-z0-9-]`. -/
def id_char (c : Nat) : Bool :=
  ('a'.toNat ≤ c ∧ c ≤ 'z'.toNat) ∨ ('0'.toNat ≤ c ∧ c ≤ '9'.toNat) ∨ c = '-'.toNat

/-- `(.+)\(([a-z0-9-]+)\)`, of a whole text, which is given from its end. -/
def obj_match : Str → Option (Str × Str)
  | [] => none
  | c :: rest =>
    match rest.dropWhile id_char with
    | [] => none
    | p :: name =>
      if c = ')'.toNat ∧ p = '('.toNat ∧ rest.takeWhile id_char ≠ [] ∧ name ≠ [] ∧ 0xa ∉ name then
        some (name.reverse, (rest.takeWhile id_char).reverse)
      else none

/-- `obj_pattern.match(v).groups()`; `$` also matches before a line break at the end. -/
def obj_pattern (v : Str) : Option (Str × Str) :=
  obj_match (if v.getLast? = some 0xa then v.dropLast else v).reverse

def isdigit (s : Str) : Bool := s ≠ [] ∧ ∀ c ∈ s, '0'.toNat ≤ c ∧ c ≤ '9'.toNat

def id_name_to_obj : Value F → Value F
  | .str v =>
    match obj_pattern v with
    | some (obj_name, obj_id) =>
      let pk : Value F := if isdigit obj_id then .int ((int obj_id).getD 0) else .str obj_id
      .dict [(str "pk", pk), (str "name", .str obj_name)]
    | none => .str v
  | v => v

/-- `s.lower()`, as far as it is compared: no other letter becomes one of those. -/
def lower (s : Str) : Str := s.map fun c => if 'A'.toNat ≤ c ∧ c ≤ 'Z'.toNat then c + 0x20 else c

section
variable (py : Python F)

/-- `load_row`, for one cell. -/
def load_col (col : Str) : Value F :=
  let col := replace_chinese_quote col
  if bracketed col then (loads py.floats col).getD (.str col) else .str col

def load_row (row : List Str) : List (Value F) := row.map (load_col py)

/-- `value == s`. -/
def is_text (s : Str) : Value F → Bool
  | .str t => t = s
  | _ => false

def parse_value (field : Field) (value : Value F) : Option (Value F) :=
  if is_text (str "-") value ∧ field.allow_null then some .null
  else
    match field, value with
    | .BooleanField _, .str s => some (.bool (lower s ∈ [str "true", str "1", str "yes"]))
    | .BooleanField _, _ => none
    -- a `LabeledChoiceField` is a `ChoiceField`, and its own branch is not reached
    | .ChoiceField _, value | .LabeledChoiceField _, value => some value
    | .BasePrimaryKeyRelatedField many _, value =>
      if many then (iterate value).map fun items => .list (items.map id_name_to_obj)
      else some (id_name_to_obj value)
    | .ListSerializer child _, value | .ManyRelatedField child _, value | .ListField child _, value => do
      return .list (← (← iterate value).mapM (parse_value child))
    | .Serializer _, value => some (id_name_to_obj value)
    | .JSONField _, .str s =>
      if lower s = str "yes" then some (.bool true)
      else if lower s = str "no" then some (.bool false)
      else some ((loads py.floats s).getD (.str s))
    | .CharField _, .str s => some (.str s)
    | .CharField _, value => some (.str (dumps py.floats true value))
    | .FileField _, _ => some .null
    | _, value => some value

/-- A value through the file, in a cell of its own. -/
def read_back (field : Field) (value : Value F) : Option (Value F) := do
  parse_value py field (← (load_row py [← render_value py field value]).head?)

/-! ### Choices -/

/-- `data.strip(")").split("(")[-1]`. -/
def last_part (data : Str) : Str :=
  ((data.rdropWhile (· = ')'.toNat)).dropWhile (· = ')'.toNat)).rtakeWhile (· ≠ '('.toNat)

/-- `to_internal_value` of `LabeledChoiceField`, with that of `ChoiceField`. -/
def to_internal_value (choices : List (Value F × Str)) (allow_blank : Bool) (data : Value F) :
    Option (Value F) :=
  if truthy py data then
    let data :=
      match data with
      | .dict items => get items "value" .null
      | data => data
    let data :=
      match data with
      | .str s => if '('.toNat ∈ s ∧ s.getLast? = some ')'.toNat then .str (last_part s) else .str s
      | data => data
    if is_text [] data ∧ allow_blank then some (.str [])
    else (choices.reverse.find? fun choice => text py choice.1 = text py data).map Prod.fst
  else some data

end

/-! ### References -/

/-- **What the pattern makes of a reference**: the name is there, and in one line. -/
theorem obj_pattern_reference (name : Str) {pk : Str} (hne : pk ≠ []) (hpk : ∀ c ∈ pk, id_char c) :
    obj_pattern (name ++ '('.toNat :: pk ++ [')'.toNat]) =
      if name ≠ [] ∧ 0xa ∉ name then some (name, pk) else none := by
  have hlast : (name ++ '('.toNat :: pk ++ [')'.toNat]).getLast? ≠ some 0xa := by
    rw [List.getLast?_concat]
    decide
  have hall : ∀ c ∈ pk.reverse, id_char c := fun c hc => hpk c (List.mem_reverse.mp hc)
  have hopen : ¬ id_char '('.toNat := by decide
  rw [obj_pattern, if_neg hlast]
  simp only [List.reverse_append, List.reverse_cons, List.append_assoc, List.reverse_nil, List.nil_append,
    List.cons_append, obj_match, List.takeWhile_append_of_pos hall, List.dropWhile_append_of_pos hall,
    List.takeWhile_cons_of_neg hopen, List.dropWhile_cons_of_neg hopen]
  simp [hne]

end InfraHub.Cells
