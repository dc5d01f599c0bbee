import InfraHub.Settings.Setting

/-!
# Common — ApiLogging

`ApiLoggingMiddleware`: what a request was and what it came to is written to the operation log.

* `get_request_data` reads the request once, into a dict.
* `handle_response` replaces the value of `password` by stars, as many as `len` says, and then
  collects what is stored.

**The log** (`logging_safe_iff`): when neither of two requests that differ in passwords only makes
it raise, and their bodies are stored alike.
-/

namespace InfraHub.Common.ApiLogging
open InfraHub.Lib (Dict Str str)
open InfraHub.Lib.Json
open InfraHub.Settings (Compare)

variable {F : Type}

/-! ### Requests -/

/-- Values that were read from a text. -/
def Clean (d : Dict Str (Value F)) : Prop :=
  ∀ item ∈ d.items, Proper item.1 ∧ item.2.Of Proper fun _ => True

/-- `dict()` of a `QueryDict`. -/
structure Params (F : Type) where
  dict : Dict Str (Value F)
  clean : Clean dict
  texts : ∀ item ∈ dict.items, ∃ s, item.2 = .str s

/-- A JSON value that was read. -/
structure Body (F : Type) where
  value : Value F
  proper : value.Of Proper fun _ => True

structure Request (F : Type) where
  path : String
  method : String
  /-- what is not there is empty -/
  content_type : String
  user_agent : Option String
  GET : Params F
  POST : Params F
  /-- what `json.loads` reads; nothing if the body is empty or no JSON -/
  body : Option (Body F)
  request_ip : String
  /-- what `get_request_user` finds -/
  user : Option Nat
  dept_id : Option Nat
  request_uuid : Option String
  request_module : String
  operation_log_id : Option Nat

/-- What `get_request_data` returns. -/
inductive Data (F : Type)
  | multipart
  | dict (d : Dict Str (Value F))

/-- `{**GET, **POST}`. -/
def union (d d' : Dict Str (Value F)) : Dict Str (Value F) :=
  d'.items.foldl (fun d item => d.set item.1 item.2) d

/-- The body, if there are no parameters. -/
def body_data : Option (Body F) → Dict Str (Value F)
  | none => Dict.empty
  | some ⟨.dict items, _⟩ => Dict.ofList items
  | some ⟨v, _⟩ => Dict.empty.set (str "data") v

def get_request_data (request : Request F) : Data F :=
  if request.content_type.startsWith "multipart/" then .multipart
  else
    let data := union request.GET.dict request.POST.dict
    if data.items = [] then .dict (body_data request.body) else .dict data

/-! ### Responses -/

structure Response (F : Type) where
  /-- the attribute, if it is a dict; a value that the encoder refuses is nothing -/
  data : Option (Dict Str (Option (Value F)))
  /-- the decoded content; nothing if there is none to read -/
  content : Option Str
  status_code : Nat
  /-- the view of `renderer_context`: its handlers with their docs -/
  view : Option (List (String × Option String))

structure Env where
  enable : Bool
  /-- nothing if they are `ALL` -/
  methods : Option (List String)
  /-- `doc.format(cls=module)`; nothing if it raises -/
  format : String → String → Option String
  /-- the system and the browser of a user agent -/
  parse : String → String × String
  exec_time : Nat
  /-- whether the database takes the row -/
  saved : Bool

inductive Fault
  | TypeError
  | AttributeError
  | KeyError
  deriving DecidableEq

/-- The columns of `OperationLog`. -/
structure Info (F : Type) where
  module : String
  creator : Option Nat
  dept_belong_id : Option Nat
  ipaddress : String
  method : String
  path : String
  body : Str
  response_code : Nat
  system : String
  browser : String
  status_code : Option (Value F)
  request_uuid : Option String
  exec_time : Nat
  response_result : Str

def health : String := "/api/common/api/health"

def need {α : Type} (e : Fault) : Option α → Except Fault α
  | some a => .ok a
  | none => .error e

section
variable {fl : Floats F} (cmp : Compare fl)

def truthy : Value F → Bool
  | .null => false
  | .bool b => b
  | .int n => n ≠ 0
  | .float x => !cmp.eq_int x 0
  | .str s => s ≠ []
  | .list items => items ≠ []
  | .dict items => items ≠ []

def len : Value F → Option Nat
  | .str s => some s.length
  | .list items => some items.length
  | .dict items => some items.length
  | _ => none

def stars (n : Nat) : Value F := .str (List.replicate n '*'.toNat)

/-- Nothing if `len` raises. -/
def mask (d : Dict Str (Value F)) : Option (Dict Str (Value F)) :=
  match d.get (str "password") with
  | none => some d
  | some v => if truthy cmp v then (len v).map fun n => d.set (str "password") (stars n) else some d

def mask_data : Data F → Option (Data F)
  | .multipart => some .multipart
  | .dict d => (mask cmp d).map .dict

/-- What is written for a body. -/
def body_text (fl : Floats F) : Data F → Str
  | .multipart => str "multipart/form-data"
  | .dict d => dumps fl true (.dict d.items)

/-- `response.data`, which is read from the content where there is none. -/
def read_data (fl : Floats F) (response : Response F) : Option (Dict Str (Option (Value F))) :=
  let data := response.data.getD Dict.empty
  if data.items ≠ [] then some data
  else
    match response.content with
    | none => none
    | some [] => some data
    | some text =>
      (loads fl (text.filter (· ≠ backslash))).map fun content =>
        match content with
        | .dict items => Dict.ofList (items.map fun item => (item.1, some item.2))
        | _ => Dict.empty

def action_doc (env : Env) (request : Request F) (response : Response F) : Option String :=
  match response.view with
  | none => some request.request_module
  | some handlers =>
    (handlers.lookup request.method.toLower).map fun doc =>
      match doc with
      | none => request.request_module
      | some doc =>
        if doc = "" then request.request_module
        else (env.format doc request.request_module).getD request.request_module

/-- `data.get(key)`; `None` is written where there is nothing. -/
def datum (data : Dict Str (Option (Value F))) (key : String) : Option (Value F) :=
  (data.get (str key)).getD (some .null)

def response_result (fl : Floats F) (data : Dict Str (Option (Value F))) : Option Str := do
  let code ← datum data "code"
  let result ← datum data "data"
  let detail ← datum data "detail"
  return dumps fl true (.dict [(str "code", code), (str "data", result), (str "detail", detail)])

/-- What is stored, if anything is. -/
def handle_response (env : Env) (request : Request F) (response : Response F) :
    Except Fault (Option (Info F)) :=
  if request.operation_log_id = none then .ok none
  else do
    let body ← need .TypeError (mask_data cmp (get_request_data request))
    match read_data fl response with
    | none => return none
    | some data =>
      let module ← need .AttributeError (action_doc env request response)
      let user_agent ← need .KeyError request.user_agent
      let response_result ← need .TypeError (response_result fl data)
      return some
        { module, creator := request.user, dept_belong_id := request.dept_id,
          ipaddress := request.request_ip, method := request.method, path := request.path,
          body := body_text fl body, response_code := response.status_code,
          system := (env.parse user_agent).1, browser := (env.parse user_agent).2,
          status_code := datum data "code", request_uuid := request.request_uuid,
          exec_time := env.exec_time, response_result }

def process_response (env : Env) (request : Request F) (response : Response F) :
    Except Fault (Option (Info F)) :=
  if request.path = health then .ok none
  else if env.enable ∧ env.methods.all (request.method ∈ ·) then
    handle_response cmp env request response
  else .ok none

/-- The column `body` of the row, which is empty at first. -/
def stored (env : Env) (request : Request F) (response : Response F) : Option Str :=
  match process_response cmp env request response with
  | .ok (some info) => if env.saved then some info.body else none
  | _ => none

end

/-! ### Requests that differ in passwords -/

/-- The fields of a password that the serializers accept. -/
def password_fields : List Str := [str "password", str "old_password", str "sure_password"]

/-- The same keys, and the same values of all but the passwords. -/
def SameMembers (items items' : List (Str × Value F)) : Prop :=
  List.Forall₂ (fun p q => p.1 = q.1 ∧ (p.1 ∉ password_fields → p.2 = q.2)) items items'

/-- An element of a list. -/
inductive SameElement : Value F → Value F → Prop
  | same (v : Value F) : SameElement v v
  | dict {items items' : List (Str × Value F)} (h : SameMembers items items') :
      SameElement (.dict items) (.dict items')

inductive SameValue : Value F → Value F → Prop
  | element {v v' : Value F} (h : SameElement v v') : SameValue v v'
  | list {items items' : List (Value F)} (h : List.Forall₂ SameElement items items') :
      SameValue (.list items) (.list items')

inductive SameBody : Option (Body F) → Option (Body F) → Prop
  | none : SameBody none none
  | some {b b' : Body F} (h : SameValue b.value b'.value) : SameBody (some b) (some b')

structure SameApart (r r' : Request F) : Prop where
  rest : { r with GET := r'.GET, POST := r'.POST, body := r'.body } = r'
  GET : SameMembers r.GET.dict.items r'.GET.dict.items
  POST : SameMembers r.POST.dict.items r'.POST.dict.items
  body : SameBody r.body r'.body

section
variable {fl : Floats F} (cmp : Compare fl) (env : Env)

/-- Neither request breaks its response, and what is stored of them is the same. -/
structure Safe (r r' : Request F) (response : Response F) : Prop where
  returns : ∃ info, process_response cmp env r response = .ok info
  returns' : ∃ info, process_response cmp env r' response = .ok info
  same : stored cmp env r response = stored cmp env r' response

/-! ### The condition -/

structure Logged (r : Request F) : Prop where
  path : r.path ≠ health
  enable : env.enable
  method : env.methods.all (r.method ∈ ·)
  id : r.operation_log_id ≠ none

/-- It has data, or a content that is empty or JSON. -/
def HasData (fl : Floats F) (response : Response F) : Prop :=
  (∃ data, response.data = some data ∧ data.items ≠ []) ∨ response.content = some [] ∨
    ∃ text v, response.content = some text ∧ loads fl (text.filter (· ≠ backslash)) = some v

/-- A password that is not empty has a length. -/
def Sized : Data F → Prop
  | .multipart => True
  | .dict d => ∀ v, d.get (str "password") = some v → truthy cmp v → (len v).isSome

/-- The view has a handler for the method, the request names its user agent, and what is stored of
the data can be encoded. -/
structure Served (r : Request F) (response : Response F) : Prop where
  handler : ∀ handlers, response.view = some handlers → (handlers.lookup r.method.toLower).isSome
  user_agent : r.user_agent.isSome
  encoded : ∀ data, response.data = some data →
    ∀ key ∈ ["code", "data", "detail"], data.get (str key) ≠ some none

structure Quiet (r : Request F) (response : Response F) : Prop where
  sized : Logged env r → Sized cmp (get_request_data r)
  served : Logged env r → HasData fl response → Served r response

/-- What is there is the same, or has the same length, but is not empty. -/
def SameStars (v v' : Option (Value F)) : Prop :=
  v = v' ∨ ∃ w w' n, v = some w ∧ v' = some w' ∧ 0 < n ∧ len w = some n ∧ len w' = some n

def Indistinct : Data F → Data F → Prop
  | .dict d, .dict d' => (∀ k ≠ str "password", d.get k = d'.get k) ∧
      SameStars (d.get (str "password")) (d'.get (str "password"))
  | _, _ => True

/-- **The condition**: nothing is raised, and where a body is stored it has no password that
differs, but for a `password` of the same length. -/
def Discreet (r r' : Request F) (response : Response F) : Prop :=
  Quiet cmp env r response ∧ Quiet cmp env r' response ∧
    (Logged env r → HasData fl response → env.saved →
      Indistinct (get_request_data r) (get_request_data r'))

end

/-! ### What is stored -/

section
variable {fl : Floats F} {cmp : Compare fl} {env : Env} {r r' : Request F} {response : Response F}

theorem read_data_isSome : (read_data fl response).isSome ↔ HasData fl response := by
  rw [read_data, HasData]
  cases hdata : response.data with
  | none =>
      cases hcontent : response.content with
      | none => simp [Dict.empty]
      | some text =>
          cases text with
          | nil => simp [Dict.empty]
          | cons c text => simp [Dict.empty, Option.isSome_iff_exists]
  | some data =>
      by_cases hitems : data.items = []
      · cases hcontent : response.content with
        | none => simp [hitems]
        | some text =>
            cases text with
            | nil => simp [hitems]
            | cons c text => simp [hitems, Option.isSome_iff_exists]
      · simp [hitems]

/-- What is read from the content can be encoded. -/
theorem get_read_data {data : Dict Str (Option (Value F))} (h : read_data fl response = some data)
    (k : Str) : data.get k = some none ↔ ∃ d, response.data = some d ∧ d.get k = some none := by
  have hempty : ∀ d : Dict Str (Option (Value F)), d.items = [] → d.get k ≠ some none := by
    intro d hd hk
    have hmem := Dict.mem_of_get hk
    rw [hd] at hmem
    cases hmem
  rw [read_data] at h
  by_cases hitems : (response.data.getD Dict.empty).items = []
  · have hright : ¬ ∃ d, response.data = some d ∧ d.get k = some none := by
      rintro ⟨d, hd, hk⟩
      rw [hd] at hitems
      exact hempty d hitems hk
    refine iff_of_false (fun hk => ?_) hright
    simp only [hitems, ne_eq, not_true_eq_false, if_false] at h
    cases hcontent : response.content with
    | none => simp [hcontent] at h
    | some text =>
        cases text with
        | nil =>
            simp only [hcontent, Option.some.injEq] at h
            exact hempty data (h ▸ hitems) hk
        | cons c text =>
            simp only [hcontent] at h
            obtain ⟨v, -, rfl⟩ := Option.map_eq_some_iff.mp h
            cases v with
            | dict items =>
                obtain ⟨item, -, heq⟩ := List.mem_map.mp (Dict.mem_of_mem_ofList (Dict.mem_of_get hk))
                cases heq
            | _ => exact hempty _ rfl hk
  · simp only [hitems, ne_eq, not_false_eq_true, if_true, Option.some.injEq] at h
    cases hdata : response.data with
    | none => simp [hdata, Dict.empty] at hitems
    | some d =>
        rw [hdata, Option.getD_some] at h
        simp [h]

theorem mask_data_isSome (d : Data F) : (mask_data cmp d).isSome ↔ Sized cmp d := by
  cases d with
  | multipart => simp [mask_data, Sized]
  | dict d =>
      rw [mask_data, Option.isSome_map, mask, Sized]
      cases hv : d.get (str "password") with
      | none => simp
      | some v => by_cases ht : truthy cmp v <;> simp [ht]

theorem action_doc_isSome : (action_doc env r response).isSome ↔
    ∀ handlers, response.view = some handlers → (handlers.lookup r.method.toLower).isSome := by
  rw [action_doc]
  cases response.view with
  | none => simp
  | some handlers => simp

theorem response_result_isSome {data : Dict Str (Option (Value F))} :
    (response_result fl data).isSome ↔
      ∀ key ∈ ["code", "data", "detail"], data.get (str key) ≠ some none := by
  have hdatum (key : String) : datum data key = none ↔ data.get (str key) = some none := by
    rw [datum]
    cases data.get (str key) with
    | none => simp
    | some v => simp
  simp only [List.forall_mem_cons, List.not_mem_nil, false_imp_iff, implies_true, and_true, ne_eq,
    ← hdatum]
  rw [response_result]
  cases datum data "code" with
  | none => simp
  | some code =>
      cases datum data "data" with
      | none => simp
      | some result => cases datum data "detail" <;> simp

theorem process_response_of_not_logged (h : ¬ Logged env r) :
    process_response cmp env r response = .ok none := by
  unfold process_response handle_response
  split_ifs with hpath hmethod hid
  · rfl
  · rfl
  · exact absurd ⟨hpath, hmethod.1, hmethod.2, hid⟩ h
  · rfl

theorem process_response_of_logged (h : Logged env r) :
    process_response cmp env r response = handle_response cmp env r response := by
  rw [process_response, if_neg h.path, if_pos ⟨h.enable, h.method⟩]

/-- Where it is logged: the outcome of each part. -/
theorem handle_response_ok_iff (h : Logged env r) {info : Option (Info F)} :
    handle_response cmp env r response = .ok info ↔
      ∃ d, mask_data cmp (get_request_data r) = some d ∧
        ((read_data fl response = none ∧ info = none) ∨
          ∃ data module user_agent result, read_data fl response = some data ∧
            action_doc env r response = some module ∧ r.user_agent = some user_agent ∧
            response_result fl data = some result ∧ info = some
              { module, creator := r.user, dept_belong_id := r.dept_id, ipaddress := r.request_ip,
                method := r.method, path := r.path, body := body_text fl d,
                response_code := response.status_code, system := (env.parse user_agent).1,
                browser := (env.parse user_agent).2, status_code := datum data "code",
                request_uuid := r.request_uuid, exec_time := env.exec_time,
                response_result := result }) := by
  rw [handle_response, if_neg h.id]
  cases mask_data cmp (get_request_data r) with
  | none => simp [need, bind, Except.bind]
  | some d =>
      cases read_data fl response with
      | none => simp [need, bind, Except.bind, pure, Except.pure, eq_comm]
      | some data =>
          cases hm : action_doc env r response with
          | none => simp [need, bind, Except.bind]
          | some module =>
              cases hu : r.user_agent with
              | none => simp [need, bind, Except.bind]
              | some user_agent =>
                  cases hr : response_result fl data with
                  | none => simp [need, bind, Except.bind, hr]
                  | some result =>
                      simp [need, bind, Except.bind, pure, Except.pure, hr, eq_comm]

theorem returns_iff : (∃ info, process_response cmp env r response = .ok info) ↔
    Quiet cmp env r response := by
  by_cases hl : Logged env r
  · simp only [process_response_of_logged hl, handle_response_ok_iff hl]
    constructor
    · rintro ⟨info, d, hd, hrest⟩
      have hsized : Sized cmp (get_request_data r) := (mask_data_isSome _).mp (by rw [hd]; rfl)
      refine ⟨fun _ => hsized, fun _ hdata => ?_⟩
      obtain ⟨data, hread⟩ := Option.isSome_iff_exists.mp (read_data_isSome.mpr hdata)
      rcases hrest with ⟨hnone, -⟩ | ⟨data', module, ua, result, hread', hm, hu, hr, -⟩
      · rw [hread] at hnone
        cases hnone
      · refine ⟨action_doc_isSome.mp (by rw [hm]; rfl), by rw [hu]; rfl, ?_⟩
        intro d hd key hkey hget
        have hencoded := response_result_isSome.mp (by rw [hr]; rfl) key hkey
        exact hencoded ((get_read_data hread' _).mpr ⟨d, hd, hget⟩)
    · intro hq
      obtain ⟨d, hd⟩ := Option.isSome_iff_exists.mp ((mask_data_isSome _).mpr (hq.sized hl))
      by_cases hdata : HasData fl response
      · have hserved := hq.served hl hdata
        obtain ⟨data, hread⟩ := Option.isSome_iff_exists.mp (read_data_isSome.mpr hdata)
        have hdoc : (action_doc env r response).isSome := action_doc_isSome.mpr hserved.handler
        obtain ⟨module, hm⟩ := Option.isSome_iff_exists.mp hdoc
        obtain ⟨ua, hu⟩ := Option.isSome_iff_exists.mp hserved.user_agent
        have hencoded : (response_result fl data).isSome := by
          refine response_result_isSome.mpr fun key hkey hget => ?_
          obtain ⟨d, hd, hnone⟩ := (get_read_data hread _).mp hget
          exact hserved.encoded d hd key hkey hnone
        obtain ⟨result, hr⟩ := Option.isSome_iff_exists.mp hencoded
        exact ⟨_, d, hd, .inr ⟨data, module, ua, result, hread, hm, hu, hr, rfl⟩⟩
      · have hread : read_data fl response = none := by
          rw [← Option.not_isSome_iff_eq_none, read_data_isSome]
          exact hdata
        exact ⟨none, d, hd, .inl ⟨hread, rfl⟩⟩
  · refine iff_of_true ⟨none, process_response_of_not_logged hl⟩
      ⟨fun h => absurd h hl, fun h => absurd h hl⟩

/-- What a request leaves in the row, if nothing is raised. -/
theorem stored_of_quiet (hq : Quiet cmp env r response) :
    (Logged env r ∧ HasData fl response ∧ env.saved ∧ ∃ d,
      mask_data cmp (get_request_data r) = some d ∧
        stored cmp env r response = some (body_text fl d)) ∨
    ¬ (Logged env r ∧ HasData fl response ∧ env.saved) ∧ stored cmp env r response = none := by
  obtain ⟨info, hinfo⟩ := returns_iff.mpr hq
  by_cases hl : Logged env r
  · have hinfo' := hinfo
    rw [process_response_of_logged hl, handle_response_ok_iff hl] at hinfo'
    obtain ⟨d, hd, ⟨hnone, rfl⟩ | ⟨data, module, ua, result, hread, -, -, -, rfl⟩⟩ := hinfo'
    · have hdata : ¬ HasData fl response := by
        rw [← read_data_isSome, hnone]
        exact Bool.false_ne_true
      exact .inr ⟨fun h => hdata h.2.1, by rw [stored, hinfo]⟩
    · have hdata : HasData fl response := read_data_isSome.mp (by rw [hread]; rfl)
      by_cases hsaved : env.saved
      · exact .inl ⟨hl, hdata, hsaved, d, hd, by rw [stored, hinfo]; simp [hsaved]⟩
      · exact .inr ⟨fun h => hsaved h.2.2, by rw [stored, hinfo]; simp [hsaved]⟩
  · exact .inr ⟨fun h => hl h.1, by rw [stored, process_response_of_not_logged hl]⟩

/-! ### Stars -/

/-- What takes the place of a password. -/
def hide (cmp : Compare fl) (v : Value F) : Value F :=
  if truthy cmp v then stars ((len v).getD 0) else v

/-- The password has a length, if it is not empty. -/
def Sizable (cmp : Compare fl) (v : Value F) : Prop := truthy cmp v → (len v).isSome

theorem truthy_of_len {v : Value F} {n : Nat} (h : len v = some n) : truthy cmp v ↔ 0 < n := by
  cases v <;> simp only [len, Option.some.injEq, reduceCtorEq] at h
  all_goals simp [truthy, ← h, List.length_pos_iff]

theorem truthy_stars {n : Nat} : truthy cmp (stars n : Value F) ↔ 0 < n :=
  truthy_of_len (by simp [stars, len])

theorem len_stars (n : Nat) : len (stars n : Value F) = some n := by simp [stars, len]

theorem len_of_truthy {v : Value F} (h : Sizable cmp v) (ht : truthy cmp v) :
    ∃ n, len v = some n ∧ 0 < n ∧ hide cmp v = stars n := by
  obtain ⟨n, hn⟩ := Option.isSome_iff_exists.mp (h ht)
  exact ⟨n, hn, (truthy_of_len hn).mp ht, by rw [hide, if_pos ht, hn, Option.getD_some]⟩

theorem hide_ne {v w : Value F} (hv : Sizable cmp v) (htv : truthy cmp v) (htw : ¬ truthy cmp w) :
    hide cmp v ≠ hide cmp w := by
  obtain ⟨n, -, hpos, hev⟩ := len_of_truthy hv htv
  rw [hev, hide, if_neg htw]
  rintro rfl
  exact htw (truthy_stars.mpr hpos)

/-- Two passwords are hidden alike. -/
theorem hide_eq_iff {v w : Value F} (hv : Sizable cmp v) (hw : Sizable cmp w) :
    hide cmp v = hide cmp w ↔ v = w ∨ ∃ n, 0 < n ∧ len v = some n ∧ len w = some n := by
  have hlen {u : Value F} (hu : ¬ truthy cmp u) {n : Nat} (hn : 0 < n) : len u ≠ some n :=
    fun h => hu ((truthy_of_len h).mpr hn)
  by_cases htv : truthy cmp v <;> by_cases htw : truthy cmp w
  · obtain ⟨n, hn, hpos, hev⟩ := len_of_truthy hv htv
    obtain ⟨m, hm, -, hew⟩ := len_of_truthy hw htw
    rw [hev, hew]
    constructor
    · intro h
      have hnm : some n = some m := by rw [← len_stars (F := F) n, h, len_stars]
      cases hnm
      exact .inr ⟨n, hpos, hn, hm⟩
    · rintro (rfl | ⟨k, -, hk, hk'⟩)
      · rw [hn] at hm
        cases hm
        rfl
      · rw [hn] at hk
        rw [hm] at hk'
        cases hk
        cases hk'
        rfl
  · refine iff_of_false (hide_ne hv htv htw) ?_
    rintro (rfl | ⟨k, hk, -, hlw⟩)
    · exact htw htv
    · exact hlen htw hk hlw
  · refine iff_of_false (hide_ne hw htw htv).symm ?_
    rintro (rfl | ⟨k, hk, hlv, -⟩)
    · exact htv htw
    · exact hlen htv hk hlv
  · rw [hide, hide, if_neg htv, if_neg htw]
    refine (or_iff_left ?_).symm
    rintro ⟨k, hk, hlv, -⟩
    exact hlen htv hk hlv

theorem sameStars_iff {p p' : Option (Value F)} (hp : ∀ v, p = some v → Sizable cmp v)
    (hp' : ∀ v, p' = some v → Sizable cmp v) :
    p.map (hide cmp) = p'.map (hide cmp) ↔ SameStars p p' := by
  cases p with
  | none => cases p' <;> simp [SameStars]
  | some v =>
      cases p' with
      | none => simp [SameStars]
      | some w =>
          rw [Option.map_some, Option.map_some, Option.some.injEq,
            hide_eq_iff (hp v rfl) (hp' w rfl)]
          simp [SameStars]

/-! ### What is masked -/

variable {d d' e e' : Dict Str (Value F)}

theorem keys_mask (h : mask cmp d = some e) : e.items.map Prod.fst = d.items.map Prod.fst := by
  rw [mask] at h
  cases hv : d.get (str "password") with
  | none =>
      rw [hv] at h
      cases h
      rfl
  | some v =>
      simp only [hv] at h
      split_ifs at h with ht
      · obtain ⟨n, -, rfl⟩ := Option.map_eq_some_iff.mp h
        have hmem : str "password" ∈ d.items.map Prod.fst := Dict.get_isSome.mp (by rw [hv]; rfl)
        rw [Dict.keys_set, if_pos hmem]
      · cases h
        rfl

theorem get_mask (h : mask cmp d = some e) (k : Str) :
    e.get k = if k = str "password" then (d.get k).map (hide cmp) else d.get k := by
  rw [mask] at h
  cases hv : d.get (str "password") with
  | none =>
      rw [hv] at h
      cases h
      by_cases hk : k = str "password"
      · rw [if_pos hk, hk, hv, Option.map_none]
      · rw [if_neg hk]
  | some v =>
      simp only [hv] at h
      split_ifs at h with ht
      · obtain ⟨n, hn, rfl⟩ := Option.map_eq_some_iff.mp h
        rw [Dict.get_set]
        by_cases hk : k = str "password"
        · rw [if_pos hk, if_pos hk, hk, hv, Option.map_some, hide, if_pos ht, hn, Option.getD_some]
        · rw [if_neg hk, if_neg hk]
      · cases h
        by_cases hk : k = str "password"
        · rw [if_pos hk, hk, hv, Option.map_some, hide, if_neg ht]
        · rw [if_neg hk]

theorem clean_mask (h : mask cmp d = some e) (hd : Clean d) : Clean e := by
  rw [mask] at h
  cases hv : d.get (str "password") with
  | none =>
      rw [hv] at h
      cases h
      exact hd
  | some v =>
      simp only [hv] at h
      split_ifs at h with ht
      · obtain ⟨n, -, rfl⟩ := Option.map_eq_some_iff.mp h
        intro item hitem
        rcases Dict.mem_set hitem with hitem | rfl
        · exact hd item hitem
        · refine ⟨(hd _ (Dict.mem_of_get hv)).1, .str (proper_of_ascii fun c hc => ?_)⟩
          rw [List.eq_of_mem_replicate hc]
          decide
      · cases h
        exact hd

/-- What was written tells what it was. -/
theorem body_text_inj (he : Clean e) (he' : Clean e')
    (h : body_text fl (.dict e) = body_text fl (.dict e')) : e = e' := by
  have hread {e : Dict Str (Value F)} (he : Clean e) :
      loads fl (body_text fl (.dict e)) = some (.dict e.items) := by
    refine loads_dumps (P := fun _ => True) (.dict e.keys (fun item hitem => ?_) fun item hitem => ?_)
    · exact readable_of_proper fun _ => (he item hitem).1
    · exact (he item hitem).2.imp (fun _ hs => readable_of_proper fun _ => hs) fun _ hx => hx
  have hitems : some (Value.dict e.items) = some (.dict e'.items) := by
    rw [← hread he, h, hread he']
  cases e
  cases e'
  cases hitems
  rfl

theorem body_text_mask_eq_iff (hd : Clean d) (hd' : Clean d')
    (hkeys : d.items.map Prod.fst = d'.items.map Prod.fst)
    (he : mask cmp d = some e) (he' : mask cmp d' = some e') :
    body_text fl (.dict e) = body_text fl (.dict e') ↔ Indistinct (.dict d) (.dict d') := by
  have hsizable {d : Dict Str (Value F)} {e : Dict Str (Value F)} (he : mask cmp d = some e) :
      ∀ v, d.get (str "password") = some v → Sizable cmp v := by
    have hsized : Sized cmp (.dict d) := (mask_data_isSome _).mp (by rw [mask_data, he]; rfl)
    exact hsized
  have hstars := sameStars_iff (hsizable he) (hsizable he')
  constructor
  · intro h
    obtain rfl := body_text_inj (clean_mask he hd) (clean_mask he' hd') h
    refine ⟨fun k hk => ?_, hstars.mp ?_⟩
    · have hget := get_mask he k
      rw [get_mask he' k, if_neg hk, if_neg hk] at hget
      exact hget.symm
    · have hget := get_mask he (str "password")
      rw [get_mask he' (str "password"), if_pos rfl, if_pos rfl] at hget
      exact hget.symm
  · rintro ⟨hrest, hpassword⟩
    have hsame : e = e' := by
      refine Dict.eq_of_get (by rw [keys_mask he, keys_mask he', hkeys]) fun k => ?_
      rw [get_mask he, get_mask he']
      by_cases hk : k = str "password"
      · rw [if_pos hk, if_pos hk, hk]
        exact hstars.mpr hpassword
      · rw [if_neg hk, if_neg hk]
        exact hrest k hk
    rw [hsame]

/-! ### What is read -/

theorem SameMembers.keys {items items' : List (Str × Value F)} (h : SameMembers items items') :
    items.map Prod.fst = items'.map Prod.fst := by
  induction h with
  | nil => rfl
  | cons hp _ ih => rw [List.map_cons, List.map_cons, hp.1, ih]

/-- The keys that come of it depend on the keys only. -/
theorem keys_foldl_set {l l' : List (Str × Value F)} (hl : l.map Prod.fst = l'.map Prod.fst)
    (hd : d.items.map Prod.fst = d'.items.map Prod.fst) :
    (l.foldl (fun d item => d.set item.1 item.2) d).items.map Prod.fst =
      (l'.foldl (fun d item => d.set item.1 item.2) d').items.map Prod.fst := by
  induction l generalizing l' d d' with
  | nil =>
      obtain rfl := List.map_eq_nil_iff.mp hl.symm
      exact hd
  | cons p l ih =>
      cases l' with
      | nil => cases hl
      | cons q l' =>
          obtain ⟨hpq, hl⟩ := List.cons.inj hl
          have hset : (d.set p.1 p.2).items.map Prod.fst = (d'.set q.1 q.2).items.map Prod.fst := by
            rw [Dict.keys_set, Dict.keys_set, hd, hpq]
          rw [List.foldl_cons, List.foldl_cons]
          exact ih hl hset

theorem clean_foldl_set {l : List (Str × Value F)} (hd : Clean d)
    (hl : ∀ item ∈ l, Proper item.1 ∧ item.2.Of Proper fun _ => True) :
    Clean (l.foldl (fun d item => d.set item.1 item.2) d) := fun item hitem =>
  (Dict.mem_foldl_set hitem).elim (hd item) (hl item)

theorem clean_empty : Clean (Dict.empty : Dict Str (Value F)) := nofun

theorem proper_data : Proper (str "data") := proper_of_ascii (by decide +kernel)

theorem clean_body_data (b : Option (Body F)) : Clean (body_data b) := by
  cases b with
  | none => exact clean_empty
  | some b =>
      obtain ⟨v, hv⟩ := b
      have hdata : Clean ((Dict.empty : Dict Str (Value F)).set (str "data") v) := by
        intro item hitem
        rcases Dict.mem_set hitem with hitem | rfl
        · cases hitem
        · exact ⟨proper_data, hv⟩
      cases hv with
      | dict hkeys hnames h =>
          exact clean_foldl_set clean_empty fun item hitem => ⟨hnames item hitem, h item hitem⟩
      | _ => exact hdata

theorem keys_body_data {b b' : Option (Body F)} (h : SameBody b b') :
    (body_data b).items.map Prod.fst = (body_data b').items.map Prod.fst := by
  cases h with
  | none => rfl
  | @some b b' h =>
      obtain ⟨v, hv⟩ := b
      obtain ⟨v', hv'⟩ := b'
      cases h with
      | element h =>
          cases h with
          | same => rfl
          | dict h => exact keys_foldl_set h.keys rfl
      | list h => rfl

/-- The data of a request, and that of one that differs in passwords: both are form data, or they
have the same keys. -/
theorem data_cases (h : SameApart r r') :
    (get_request_data r = .multipart ∧ get_request_data r' = .multipart) ∨
    ∃ d d', get_request_data r = .dict d ∧ get_request_data r' = .dict d' ∧ Clean d ∧ Clean d' ∧
      d.items.map Prod.fst = d'.items.map Prod.fst := by
  have htype : r.content_type = r'.content_type := (congrArg Request.content_type h.rest :)
  have hkeys : (union r.GET.dict r.POST.dict).items.map Prod.fst =
      (union r'.GET.dict r'.POST.dict).items.map Prod.fst := keys_foldl_set h.POST.keys h.GET.keys
  have hnil : (union r.GET.dict r.POST.dict).items = [] ↔
      (union r'.GET.dict r'.POST.dict).items = [] := by
    rw [← List.map_eq_nil_iff (f := Prod.fst), hkeys, List.map_eq_nil_iff]
  rw [get_request_data, get_request_data, ← htype]
  by_cases hmultipart : r.content_type.startsWith "multipart/"
  · exact .inl ⟨if_pos hmultipart, if_pos hmultipart⟩
  · right
    rw [if_neg hmultipart, if_neg hmultipart]
    by_cases hitems : (union r.GET.dict r.POST.dict).items = []
    · exact ⟨_, _, if_pos hitems, if_pos (hnil.mp hitems), clean_body_data _, clean_body_data _,
        keys_body_data h.body⟩
    · exact ⟨_, _, if_neg hitems, if_neg fun hn => hitems (hnil.mpr hn),
        clean_foldl_set r.GET.clean r.POST.clean, clean_foldl_set r'.GET.clean r'.POST.clean, hkeys⟩

theorem logged_iff (h : SameApart r r') : Logged env r ↔ Logged env r' := by
  have hpath : r.path = r'.path := (congrArg Request.path h.rest :)
  have hmethod : r.method = r'.method := (congrArg Request.method h.rest :)
  have hid : r.operation_log_id = r'.operation_log_id := (congrArg Request.operation_log_id h.rest :)
  constructor
  · rintro ⟨h₁, h₂, h₃, h₄⟩
    exact ⟨hpath ▸ h₁, h₂, hmethod ▸ h₃, hid ▸ h₄⟩
  · rintro ⟨h₁, h₂, h₃, h₄⟩
    exact ⟨hpath ▸ h₁, h₂, hmethod ▸ h₃, hid ▸ h₄⟩

/-- Of two requests that raise nothing. -/
theorem stored_eq_iff (h : SameApart r r') (hq : Quiet cmp env r response)
    (hq' : Quiet cmp env r' response) : stored cmp env r response = stored cmp env r' response ↔
      (Logged env r → HasData fl response → env.saved →
        Indistinct (get_request_data r) (get_request_data r')) := by
  rcases stored_of_quiet hq with ⟨hl, hdata, hsaved, e, he, hstored⟩ | ⟨hnot, hstored⟩
  · rcases stored_of_quiet hq' with ⟨-, -, -, e', he', hstored'⟩ | ⟨hnot', -⟩
    · rw [hstored, hstored', Option.some.injEq]
      rcases data_cases h with ⟨hd, hd'⟩ | ⟨d, d', hd, hd', hclean, hclean', hkeys⟩
      · rw [hd] at he ⊢
        rw [hd'] at he' ⊢
        cases he
        cases he'
        exact iff_of_true rfl fun _ _ _ => trivial
      · rw [hd] at he ⊢
        rw [hd'] at he' ⊢
        obtain ⟨e, hmask, rfl⟩ := Option.map_eq_some_iff.mp he
        obtain ⟨e', hmask', rfl⟩ := Option.map_eq_some_iff.mp he'
        rw [body_text_mask_eq_iff hclean hclean' hkeys hmask hmask']
        exact ⟨fun h _ _ _ => h, fun h => h hl hdata hsaved⟩
    · exact absurd ⟨(logged_iff h).mp hl, hdata, hsaved⟩ hnot'
  · rcases stored_of_quiet hq' with ⟨hl', hdata, hsaved, -⟩ | ⟨-, hstored'⟩
    · exact absurd ⟨(logged_iff h).mpr hl', hdata, hsaved⟩ hnot
    · rw [hstored, hstored']
      exact iff_of_true rfl fun hl hdata hsaved => absurd ⟨hl, hdata, hsaved⟩ hnot

end

/-- The log is safe exactly if nothing is raised and no password is told apart. -/
theorem logging_safe_iff {fl : Floats F} (cmp : Compare fl) (env : Env) {r r' : Request F}
    (response : Response F) (h : SameApart r r') :
    Safe cmp env r r' response ↔ Discreet cmp env r r' response := by
  constructor
  · rintro ⟨hr, hr', hsame⟩
    have hq := returns_iff.mp hr
    have hq' := returns_iff.mp hr'
    exact ⟨hq, hq', (stored_eq_iff h hq hq').mp hsame⟩
  · rintro ⟨hq, hq', hsame⟩
    exact ⟨returns_iff.mpr hq, returns_iff.mpr hq', (stored_eq_iff h hq hq').mpr hsame⟩

/-! ### Changing a password -/

/-- The text of a float is always the same. -/
def noFloats : Floats Unit where
  float _ := ()
  repr _ := str "NaN"
  float_repr _ := rfl
  shape := shape_nan

def noCompare : Compare noFloats := ⟨fun _ _ => true, fun _ _ => false, fun _ _ => rfl⟩

def noParams : Params Unit := ⟨Dict.empty, clean_empty, nofun⟩

/-- A database that takes the row. -/
def logEnv : Env := ⟨true, some ["POST", "DELETE", "PUT", "PATCH"], fun doc _ => some doc,
  fun _ => ("Other", "Other"), 0, true⟩

/-- A request with the body, by JSON. -/
def posted (user_agent : Option String) (body : Body Unit) : Request Unit :=
  ⟨"/api/system/userinfo/reset-password", "POST", "application/json", user_agent, noParams,
    noParams, some body, "127.0.0.1", some 1, none, none, "User", some 1⟩

def one (key text : Str) (hk : Proper key) (ht : Proper text) : Body Unit :=
  ⟨.dict [(key, .str text)], .dict (by simp) (by simpa using hk) (by simpa using .str ht)⟩

def ok : Response Unit :=
  ⟨some ⟨[(str "code", some (.int 1000))], by simp⟩, none, 200, some [("post", none)]⟩

theorem proper_key (key : String) (h : key ∈ ["password", "old_password"]) : Proper (str key) := by
  refine proper_of_ascii ?_
  revert key
  decide +kernel

/-- A request with one field of five letters. -/
def secret (key : String) (h : key ∈ ["password", "old_password"]) (c : Char)
    (hc : c.toNat < 0x80) : Request Unit :=
  posted (some "curl") (one (str key) (List.replicate 5 c.toNat) (proper_key key h)
    (proper_of_ascii fun _ hd => List.eq_of_mem_replicate hd ▸ hc))

theorem sameApart_secret (key : String) (h : key ∈ ["password", "old_password"]) (a b : Char)
    (ha : a.toNat < 0x80) (hb : b.toNat < 0x80) :
    SameApart (secret key h a ha) (secret key h b hb) := by
  have hkey : str key ∈ password_fields := by
    revert key
    decide +kernel
  refine ⟨rfl, .nil, .nil, .some (.element (.dict (.cons ⟨rfl, fun hk => ?_⟩ .nil)))⟩
  exact absurd hkey hk

theorem logging_safe_secret : SameApart (secret "password" (by decide) 'a' (by decide))
      (secret "password" (by decide) 'b' (by decide)) ∧
    (Safe noCompare logEnv (secret "password" (by decide) 'a' (by decide))
        (secret "password" (by decide) 'b' (by decide)) ok ↔
      Discreet noCompare logEnv (secret "password" (by decide) 'a' (by decide))
        (secret "password" (by decide) 'b' (by decide)) ok) :=
  ⟨sameApart_secret .., logging_safe_iff _ _ _ (sameApart_secret ..)⟩

def not_allowed : Response Unit :=
  ⟨some ⟨[(str "detail", some .null)], by simp⟩, none, 405, some [("get", none)]⟩

def failure {α : Type} : Except Fault α → Option Fault
  | .ok _ => none
  | .error e => some e

/-- The old password is stored; a password that is a number raises, and so do a request without a
user agent and one with a method that is not allowed. -/
theorem old_password_stored :
    SameApart (secret "old_password" (by decide) 'a' (by decide))
      (secret "old_password" (by decide) 'b' (by decide)) ∧
    ¬ Safe noCompare logEnv (secret "old_password" (by decide) 'a' (by decide))
      (secret "old_password" (by decide) 'b' (by decide)) ok ∧
    failure (process_response noCompare logEnv (posted (some "curl") ⟨.dict [(str "password", .int 1)],
      .dict (by simp) (by simpa using proper_key "password" (by decide)) (by simpa using .int 1)⟩)
      ok) = some .TypeError ∧
    failure (process_response noCompare logEnv (posted none ⟨.null, .null⟩) ok) = some .KeyError ∧
    failure (process_response noCompare logEnv (posted (some "curl") ⟨.null, .null⟩) not_allowed) =
      some .AttributeError := by
  refine ⟨sameApart_secret .., fun h => ?_, by decide +kernel, by decide +kernel, by decide +kernel⟩
  have hsame := h.same
  revert hsame
  decide +kernel

end InfraHub.Common.ApiLogging
