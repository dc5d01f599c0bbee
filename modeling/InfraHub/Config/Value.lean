import InfraHub.Lib.Json
import InfraHub.Lib.Memo
import InfraHub.Lib.Store

/-!
# Config — Value

How `SysConfig` and `UserConfig` come to the value of a key: from the row, from the default or the system
row that a user inherits, rendered as a template with the values of other keys, and cached.

* `Query` is what the code asks the database, `Call` a method that calls others, and `body` the code of the
  methods.  `context_dict` is asked by name: rendering looks up names and nothing else.
* `table`: the cache, which keeps what `get_data` comes to.
* `Engine` and `Python`: Django's templates, and functions of Python of which nothing is assumed.
-/

namespace InfraHub.Config
open InfraHub.Lib (Str str strOfNat Ask Memo Store)
open InfraHub.Lib.Json (Value Floats dumps loads)

variable {F : Type}

/-! ### Rows -/

/-- Which config: `SysConfig`, or `UserConfig` of a user, and the key. -/
inductive Entry
  | system (key : Str)
  | user (owner : Nat) (key : Str)
  deriving DecidableEq

def Entry.key : Entry → Str
  | .system key | .user _ key => key

/-- `self.model`. -/
inductive Model
  | SystemConfig
  | UserPersonalConfig
  deriving DecidableEq, Repr

def Entry.model : Entry → Model
  | .system _ => .SystemConfig
  | .user .. => .UserPersonalConfig

/-- A row of `SystemConfig` (the entry is of the system) or of `UserPersonalConfig`, which has no
`inherit`. -/
structure Row (F : Type) where
  id : Nat
  entry : Entry
  value : Value F
  is_active : Bool
  access : Bool
  inherit : Bool

/-- What the serializer makes of a row, as far as it is read. -/
structure Data (F : Type) where
  key : Str
  value : Value F
  access : Bool
  inherit : Bool

/-- `serializer(row).data`; without a row, the initial values of the fields. -/
def serialized : Option (Row F) → Data F
  | some r => ⟨r.entry.key, r.value, r.access, r.inherit⟩
  | none => ⟨[], .null, false, false⟩

/-! ### What is not modelled -/

/-- What happens to the text of a template. -/
inductive Exc
  /-- with the texts that "Could not parse the remainder: …" tells -/
  | TemplateSyntaxError (res_list : List Str)
  | other
  deriving DecidableEq

/-- A value of the context: a text, or a value of `SysConfig`. -/
inductive Var (F : Type)
  | text (s : Str)
  | value (v : Value F)

/-- Django's templates. -/
structure Engine (F : Type) where
  Template : Type
  parse : Str → Except Exc Template
  /-- the texts of the variable nodes in it, not below other nodes -/
  nodelist : Template → List Str
  /-- the names that rendering looks up -/
  names : Template → List Str
  render : Template → (Str → Option (Var F)) → Except Exc Str

structure Python (F : Type) where
  floats : Floats F
  isupper : Str → Bool
  /-- `f"{v}"` -/
  format : Value F → Str
  /-- whether `re.findall("{{.*%s.*}}" % key, text)` finds anything; none where the key is no pattern -/
  refers : (key text : Str) → Option Bool

/-- The defaults of the properties of `SysConfig`. -/
structure Settings (F : Type) where
  FILE_UPLOAD_SIZE : Value F
  PICTURE_UPLOAD_SIZE : Value F

structure Env (F : Type) where
  engine : Engine F
  python : Python F
  settings : Settings F
  /-- how the cache server matches a pattern -/
  glob : (pattern key : Str) → Bool

/-- The properties of `ConfigCache`, with the defaults that they pass. -/
def Settings.property (settings : Settings F) (name : Str) : Option (Value F) :=
  if name = str "FILE_UPLOAD_SIZE" then some settings.FILE_UPLOAD_SIZE
  else if name = str "PICTURE_UPLOAD_SIZE" then some settings.PICTURE_UPLOAD_SIZE
  else if name = str "PUSH_MESSAGE_NOTICE" ∨ name = str "PUSH_CHAT_MESSAGE" then some (.bool true)
  else none

/-- `text.replace(old, new)`, where `skip` characters of `old` are still to be passed over. -/
def replace (old new : Str) : Nat → Str → Str
  | _, [] => []
  | skip + 1, _ :: text => replace old new skip text
  | 0, c :: text =>
    if old.isPrefixOf (c :: text) then new ++ replace old new (old.length - 1) text
    else c :: replace old new 0 text

/-! ### Queries and calls -/

inductive Query (F : Type)
  /-- `self.model.objects.filter(is_active=True, key=key, **self.filter_kwargs).first()` -/
  | row (entry : Entry)
  /-- whether the loop that fills `context_dict` comes to its end -/
  | context_dict (model : Model)
  /-- `context_dict.get(name)` -/
  | context (model : Model) (name : Str)
  /-- the default for a key is used -/
  | default (key : Str) (default_data : Value F)

def Answer : Query F → Type
  | .row _ => Option (Row F)
  | .context_dict _ => Bool
  | .context .. => Option Str
  | .default .. => Unit

inductive Call (F : Type)
  /-- `None` is the null of JSON -/
  | get_data (entry : Entry) (default_data : Value F) (ignore_access : Bool)
  | get_render_value (model : Model) (value : Str)

/-- What is returned or raised. -/
def Result : Call F → Type
  | .get_data .. => Except Exc (Data F)
  | .get_render_value .. => Except Exc (Value F)

abbrev Prog (F : Type) := Ask (κ := Call F) Result (Q := Query F) Answer

/-- A program that may raise. -/
abbrev Method (F : Type) := ExceptT Exc (Prog F)

def ask_row (entry : Entry) : Prog F (Option (Row F)) := .ask (.row entry) .ret

def ask_context_dict (model : Model) : Prog F Bool := .ask (.context_dict model) .ret

def ask_context (model : Model) (name : Str) : Prog F (Option Str) := .ask (.context model name) .ret

def use_default (key : Str) (default_data : Value F) : Prog F Unit := .ask (.default key default_data) .ret

def get_data (entry : Entry) (default_data : Value F) : Method F (Data F) :=
  ExceptT.mk (.call (.get_data entry default_data true) .ret)

def get_render_value (model : Model) (value : Str) : Method F (Value F) :=
  ExceptT.mk (.call (.get_render_value model value) .ret)

/-! ### The methods -/

section
variable (env : Env F)

/-- `getattr(SysConfig, name)`: where there is no such attribute, or a property raises, the value of the
key. -/
def getattr (name : Str) : Method F (Value F) :=
  if name = str "shape" then pure (.str [])
  else
    match env.settings.property name with
    | some default_data =>
      tryCatch (return (← get_data (.system name) default_data).value)
        fun _ => return (← get_data (.system name) .null).value
    | none => return (← get_data (.system name) .null).value

/-- `context[name]`: a value of `SysConfig` goes before one of `context_dict`. -/
def context_value (model : Model) (values : List (Str × Value F)) (name : Str) :
    Method F (Str × Option (Var F)) := do
  match values.reverse.lookup name with
  | some value => return (name, some (.value value))
  | none =>
    let text ← ask_context (F := F) model name
    return (name, text.map .text)

def get_render_context (model : Model) (tmp : Str) : Method F Str := do
  let template ← liftExcept (env.engine.parse tmp)
  let keys := (env.engine.nodelist template).filter env.python.isupper
  let values ← keys.mapM fun v_key => return (v_key, ← getattr env v_key)
  let context ← (env.engine.names template).mapM (context_value model values)
  liftExcept (env.engine.render template fun name => (context.lookup name).join)
where
  liftExcept {α : Type} (x : Except Exc α) : Method F α := ExceptT.mk (pure x)

/-- The loop over `res_list`: the text that it leaves, and whether it was left by an exception. -/
def replace_remainders (model : Model) : List Str → Str → Prog F (Str × Bool)
  | [], value => return (value, false)
  | res :: res_list, value => do
    let part := str "\x7b\x7b" ++ res ++ str "\x7d\x7d"
    match ← (get_render_value model part).run with
    | .error _ => return (value, true)
    | .ok r_value =>
      replace_remainders model res_list (replace part (env.python.format r_value) 0 value)

/-- The value after the `try` statements of `get_render_value`. -/
def rendered (model : Model) (value : Str) : Prog F (Value F) := do
  if value = [] then return .str value
  if ← ask_context_dict (F := F) model then
    match ← (get_render_context env model value).run with
    | .ok text => return .str text
    | .error .other => return .str value
    | .error (.TemplateSyntaxError res_list) =>
      let (value, raised) ← replace_remainders env model res_list value
      if raised then return .str value
      match ← (get_render_value model value).run with
      | .ok value => return value
      | .error _ => return .str value
  else return .str value

def get_render_value_body (model : Model) (value : Str) : Method F (Value F) := do
  match ← rendered env model value with
  | .str text =>
    let text := replace (str ")\"") [] 0 (replace (str "\"(") [] 0 text)
    return (loads env.python.floats text).getD (.str text)
  -- only a string has `replace`
  | _ => throw .other

def get_value_from_db (entry : Entry) : Method F (Data F) := do
  let data := serialized (← ask_row (F := F) entry)
  match env.python.refers data.key (dumps env.python.floats true data.value) with
  | none => throw .other
  | some true => return { data with key := [] }
  | some false => return data

/-- `bool(default_data is None)`: an empty dict instead. -/
def or_empty : Value F → Value F
  | .null => .dict []
  | v => v

/-- `get_default_data` of `ConfigCacheBase` and of `UserPersonalConfigCache`. -/
def get_default_data (entry : Entry) (default_data : Value F) : Method F (Value F) :=
  match entry with
  | .system key => do
    use_default key (or_empty default_data)
    return or_empty default_data
  | .user _ key => do
    let data ← get_data (.system key) default_data
    return if data.inherit then data.value else .dict []

/-- The data with the default filled in, if there is one. -/
def Data.filled (db_data : Data F) (key : Str) : Value F → Data F
  | .null => db_data
  | data => { db_data with value := data, key := key, access := true }

/-- `if d_key != key:` of `get_data`. -/
def with_default (entry : Entry) (default_data : Value F) (db_data : Data F) : Method F (Data F) := do
  if db_data.key = entry.key then return db_data
  else return db_data.filled entry.key (← get_default_data entry default_data)

/-- `get_data` where the cache does not help. -/
def get_data_body (entry : Entry) (default_data : Value F) : Method F (Data F) := do
  let db_data ← get_value_from_db env entry
  let db_data ← with_default entry default_data db_data
  let value ← get_render_value entry.model (dumps env.python.floats true db_data.value)
  return { db_data with value := value }

def body : (c : Call F) → Prog F (Result c)
  | .get_data entry default_data _ => (get_data_body env entry default_data).run
  | .get_render_value model value => (get_render_value_body env model value).run

end

/-! ### The cache -/

def cache_key : Entry → Str
  | .system key => str "config_system_" ++ key
  | .user owner key => str "config_user_" ++ strOfNat owner ++ '_'.toNat :: key

abbrev Cache (F : Type) := Store Str (Data F)

/-- `get_storage_cache`, with the test of what it found, and `set_storage_cache`. -/
def table : Memo (κ := Call F) Result (Cache F) where
  lookup cache
    | .get_data entry _ ignore_access =>
      match cache.get (cache_key entry) with
      | some cache_data =>
        if cache_data.key = entry.key ∧ (ignore_access ∨ cache_data.access) then some (.ok cache_data)
        else none
      | none => none
    | .get_render_value .. => none
  store cache
    | .get_data entry .., .ok db_data => cache.set (cache_key entry) db_data
    | .get_data .., .error _ => cache
    | .get_render_value .., _ => cache

/-! ### The database -/

abbrev Db (F : Type) := List (Row F)

def Db.row (db : Db F) (entry : Entry) : Option (Row F) :=
  db.find? fun r => r.is_active ∧ r.entry = entry

/-- `context_dict`, newest first: the rows of a model, of all users, with the texts of their values.  A
value that refers to its own key is left out. -/
def Db.context_dict (env : Env F) (db : Db F) (model : Model) : Option (List (Str × Str)) :=
  (db.filter fun r => r.is_active ∧ r.entry.model = model).foldlM (fun context_dict r =>
    let str_value := dumps env.python.floats true r.value
    (env.python.refers r.entry.key str_value).map fun same =>
      if same then context_dict else (r.entry.key, str_value) :: context_dict) []

def answer (env : Env F) (db : Db F) : (q : Query F) → Answer q
  | .row entry => db.row entry
  | .context_dict model => (db.context_dict env model).isSome
  | .context model name => (db.context_dict env model).bind fun context_dict => context_dict.lookup name
  | .default .. => ()

end InfraHub.Config
