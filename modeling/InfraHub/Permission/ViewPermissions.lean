import InfraHub.Lib.Dict
import InfraHub.Lib.Gather
import InfraHub.Lib.Text

/-!
# Permission — the permissions of a view

`get_view_permissions`: the entries that can be granted for a view, from the names of its routes.

* `recursion_urls_eq`: the dict of all urls has what the settings show, by name.
* `get_long_str_append`: the longest common beginning, from which the basename is guessed.
* `permissions_exact`: when the guess is right, each route that is shown has its entries; it is right
  when the route of the list or of the detail is shown (`guess_of_mem`).
-/

namespace InfraHub.Permission.ViewPermissions
open InfraHub.Lib (Str str Dict)

/-! ### Routes of the framework -/

inductive Method
  | get
  | post
  | put
  | patch
  | delete
  | head
  | options
  | trace
  deriving DecidableEq

def Method.upper : Method → Str
  | .get => str "GET"
  | .post => str "POST"
  | .put => str "PUT"
  | .patch => str "PATCH"
  | .delete => str "DELETE"
  | .head => str "HEAD"
  | .options => str "OPTIONS"
  | .trace => str "TRACE"

def Method.lower : Method → Str
  | .get => str "get"
  | .post => str "post"
  | .put => str "put"
  | .patch => str "patch"
  | .delete => str "delete"
  | .head => str "head"
  | .options => str "options"
  | .trace => str "trace"

/-- The function of each method. -/
abbrev Mapping := List (Method × Str)

/-- An extra action. -/
structure Action where
  url_name : Str
  url_path : Str
  detail : Bool
  mapping : Mapping

/-- A `NoDetailModelSet` is a `GenericViewSet`; other views are no `GenericViewSet`, or no class. -/
inductive Kind
  | generic
  | no_detail
  | other
  | no_class
  deriving DecidableEq

structure View where
  kind : Kind
  name : Str
  doc : Option Str
  /-- the doc of an attribute, if it has the attribute -/
  getattr : Str → Option (Option Str)
  extra_actions : List Action
  lookup : Str
  allowed_methods : List Method
  /-- what `get_related_models` finds -/
  models : List Str

/-- A route, its path under the prefix. -/
structure Route where
  url_name : Str
  path : Str
  mapping : Mapping

def no_detail_mapping : Mapping :=
  [(.post, str "create"), (.get, str "retrieve"), (.put, str "update"),
    (.patch, str "partial_update"), (.delete, str "destroy")]

namespace View
variable (v : View)

/-- `SimpleRouter.get_routes` -/
def simple_routes : List Route :=
  [⟨str "list", [], [(.get, str "list"), (.post, str "create")]⟩] ++
    (v.extra_actions.filter fun a => !a.detail).map
      (fun a => ⟨a.url_name, str "/" ++ a.url_path, a.mapping⟩) ++
    [⟨str "detail", str "/" ++ v.lookup, [(.get, str "retrieve"), (.put, str "update"),
      (.patch, str "partial_update"), (.delete, str "destroy")]⟩] ++
    (v.extra_actions.filter fun a => a.detail).map
      fun a => ⟨a.url_name, str "/" ++ v.lookup ++ str "/" ++ a.url_path, a.mapping⟩

/-- `NoDetailRouter.get_routes` -/
def no_detail_routes : List Route :=
  [⟨str "detail", [], no_detail_mapping⟩] ++
    (v.extra_actions.filter fun a => !a.detail).map
      fun a => ⟨a.url_name, str "/" ++ a.url_path, a.mapping⟩

/-- The routes by the router of its kind. -/
def get_routes : List Route :=
  if v.kind = .no_detail then v.no_detail_routes else v.simple_routes

/-- The methods that the view has a function for. -/
def method_map (mapping : Mapping) : Mapping := mapping.filter fun m => (v.getattr m.2).isSome

/-- The routes that the router dispatches: those with a method. -/
def get_urls : List Route :=
  (v.get_routes.map fun r => { r with mapping := v.method_map r.mapping }).filter
    fun r => !r.mapping.isEmpty

end View

/-! ### The urls -/

/-- The url patterns: what follows a pattern or a resolver comes last. -/
inductive Urlconf
  | nil
  | pattern (name : Option Str) (regex lookup_str : Str) (rest : Urlconf)
  | resolver (namespace_ : Option Str) (regex : Str) (url_patterns rest : Urlconf)

structure Url where
  name : Str
  url : Str
  view : Str
  label : Option Str

structure Settings where
  PERMISSION_SHOW_PREFIX : List Str
  ROUTE_IGNORE_URL : List Str
  ROOT_URLCONF : Urlconf

/-- What is called: the `re` module, the import of a view, and methods of strings. -/
structure Env where
  re_match : (pattern url : Str) → Bool
  import_string : Str → Option View
  format : (doc : Str) → (cls : Option Str) → Option Str
  title : Str → Str
  lower : Str → Str

section
variable (env : Env) (settings : Settings)

def check_show_url (url : Str) : Bool := settings.PERMISSION_SHOW_PREFIX.any (env.re_match · url)

def ignore_white_url (url : Str) : Bool :=
  settings.ROUTE_IGNORE_URL.any (env.re_match · (str "/" ++ url.filter (· ≠ '$'.toNat)))

/-- `url.lstrip("^")` -/
def lstrip (url : Str) : Str := url.dropWhile (· = '^'.toNat)

/-- A name that is not empty. -/
def given (name : Option Str) : Option Str := name.filter (· ≠ [])

def full_name (pre_namespace : Option Str) (name : Str) : Str :=
  match given pre_namespace with
  | some pre => pre ++ str ":" ++ name
  | none => name

/-- A resolver without a namespace drops those above it. -/
def full_namespace (pre_namespace namespace_ : Option Str) : Option Str :=
  (given namespace_).map (full_name pre_namespace)

def recursion_urls (pre_namespace : Option Str) (pre_url : Str) (urlpatterns : Urlconf)
    (url_ordered_dict : Dict Str Url) : Dict Str Url :=
  match urlpatterns with
  | .nil => url_ordered_dict
  | .pattern name regex lookup_str rest =>
    let url := pre_url ++ lstrip regex
    recursion_urls pre_namespace pre_url rest <|
      match given name with
      | some name =>
        let name := full_name pre_namespace name
        if check_show_url env settings url && !ignore_white_url env settings url then
          url_ordered_dict.set name
            ⟨name, url, lookup_str, (env.import_string lookup_str).bind View.doc⟩
        else url_ordered_dict
      | none => url_ordered_dict
  | .resolver namespace_ regex url_patterns rest =>
    let new_pre_url := pre_url ++ lstrip regex
    recursion_urls pre_namespace pre_url rest <|
      if check_show_url env settings new_pre_url then
        recursion_urls (full_namespace pre_namespace namespace_) new_pre_url url_patterns
          url_ordered_dict
      else url_ordered_dict

/-- The urls with a name; it is called again only where nothing has changed. -/
def get_all_url_dict (pre_url : Str) : List Url :=
  let sharp := str "#"
  (recursion_urls env settings none pre_url settings.ROOT_URLCONF
    (Dict.ofList [(sharp, ⟨sharp, sharp, sharp, some sharp⟩)])).items.map Prod.snd

/-! ### The permissions -/

/-- From the first text: a character goes on if all the others have it too. -/
def common : Str → List Str → Str
  | [], _ => []
  | c :: s, others =>
    if others.all (·.head? = some c) then c :: common s (others.map List.tail) else []

def get_long_str : List Str → Str
  | [] => []
  | s :: others => common s others

/-- `if name.endswith(s): name = name[:-len(s)]` -/
def cut (s name : Str) : Str := if s <:+ name then name.take (name.length - s.length) else name

/-- The name without `-list` and without `-detail`. -/
def stem (name : Str) : Str := cut (str "-detail") (cut (str "-list") name)

/-- `text.rstrip("-")` -/
def rstrip (text : Str) : Str := text.rdropWhile (· = '-'.toNat)

/-- What can be granted. -/
structure Entry where
  method : Str
  url : Str
  code : Str
  description : Str
  models : List Str

/-- The name of the function, without what joins its words. -/
def words (func_name : Str) : Str :=
  ((env.title func_name).filter (· ≠ '_'.toNat)).filter (· ≠ '-'.toNat)

def is_view_set (v : View) : Bool := v.kind ≠ .other

/-- There is no code without a first character. -/
def permission (v : View) (code_suffix : Str) (url : Url) (method : Method)
    (func_name : Str) (doc : Option Str) : Option Entry :=
  match words env func_name with
  | [] => none
  | c :: code =>
    let action_doc := (doc.bind (env.format · v.doc)).or v.doc
    some {
      method := method.upper
      url := url.url
      code := env.lower [c] ++ code ++ str ":" ++ code_suffix
      description := (given action_doc).getD v.name
      models :=
        if is_view_set v ∧ func_name ∈ [str "list", str "create", str "retrieve", str "update",
          str "partial_update"] then v.models else [] }

/-- The functions of the routes by their names; nothing if that is an error. -/
def route_info (v : View) (basename : Str) (url_paths : List Url) : Option (Dict Str Mapping) :=
  match v.kind with
  | .no_class => none
  | .other =>
    ((v.allowed_methods.filter (· ≠ .options)).mapM fun method =>
      (no_detail_mapping.lookup method).map fun func_name => (method, func_name)).map fun mapping =>
        Dict.ofList ((url_paths.head?.map fun url => (url.name, mapping)).toList)
  | _ =>
    some (Dict.ofList (v.get_routes.map fun r => (basename ++ str "-" ++ r.url_name, r.mapping)))

/-- What a method of a url adds; a function that the view has not is passed over. -/
def added (v : View) (code_suffix : Str) (m : Url × Method × Str) : Option (Option Entry) :=
  match v.getattr (if is_view_set v then m.2.2 else m.2.1.lower) with
  | none => some none
  | some doc => (permission env v code_suffix m.1 m.2.1 m.2.2 doc).map some

/-- The loop over the methods of the urls. -/
def collect (v : View) (code_suffix : Str) (methods : List (Url × Method × Str)) :
    Option (List Entry) :=
  ((methods.filter fun m => !(is_view_set v && m.2.1 = .put)).mapM (added env v code_suffix)).map
    (List.filterMap id)

/-- The basename is what the names have in common. -/
def guess_basename (url_paths : List Url) : Str :=
  rstrip (get_long_str (url_paths.map fun url => stem url.name))

/-- A view that cannot be imported, and a code without a first character, are errors. -/
def get_view_permissions (view_string code_suffix : Str) : Option (List Entry) :=
  let url_paths := (get_all_url_dict env settings []).filter fun url => url.view = view_string
  if url_paths = [] then some []
  else
    (env.import_string view_string).bind fun v =>
      match route_info v (guess_basename url_paths) url_paths with
      | none => some []
      | some info =>
        collect env v code_suffix <|
          url_paths.flatMap fun url => ((info.get url.name).getD []).map fun m => (url, m)

/-! ### The patterns, with what is shown of them -/

/-- A pattern with a name; `opened` if the resolvers above it are shown. -/
structure Pattern where
  name : Str
  url : Str
  view : Str
  opened : Bool
  deriving DecidableEq

def all_patterns (pre_namespace : Option Str) (pre_url : Str) (opened : Bool) :
    Urlconf → List Pattern
  | .nil => []
  | .pattern name regex lookup_str rest =>
    ((given name).map fun name => Pattern.mk (full_name pre_namespace name)
      (pre_url ++ lstrip regex) lookup_str opened).toList ++
      all_patterns pre_namespace pre_url opened rest
  | .resolver namespace_ regex url_patterns rest =>
    let new_pre_url := pre_url ++ lstrip regex
    all_patterns (full_namespace pre_namespace namespace_) new_pre_url
      (opened && check_show_url env settings new_pre_url) url_patterns ++
      all_patterns pre_namespace pre_url opened rest

/-- All the settings show it. -/
def Pattern.shown (p : Pattern) : Bool :=
  p.opened && (check_show_url env settings p.url && !ignore_white_url env settings p.url)

def Pattern.entry (p : Pattern) : Str × Url :=
  (p.name, ⟨p.name, p.url, p.view, (env.import_string p.view).bind View.doc⟩)

theorem opened_of_mem {t : Urlconf} {pre_namespace : Option Str} {pre_url : Str} {opened : Bool}
    {p : Pattern} (hp : p ∈ all_patterns env settings pre_namespace pre_url opened t)
    (h : p.opened) : opened := by
  induction t generalizing pre_namespace pre_url opened with
  | nil => exact absurd hp List.not_mem_nil
  | pattern name regex lookup_str rest ih =>
      rcases List.mem_append.mp hp with hp | hp
      · obtain ⟨name, -, rfl⟩ := Option.map_eq_some_iff.mp (Option.mem_toList.mp hp)
        exact h
      · exact ih hp
  | resolver namespace_ regex url_patterns rest ih ihrest =>
      rcases List.mem_append.mp hp with hp | hp
      · exact ((Bool.and_eq_true _ _).mp (ih hp)).1
      · exact ihrest hp

/-- The dict of the urls is that of the patterns that are shown. -/
theorem recursion_urls_eq (t : Urlconf) (pre_namespace : Option Str) (pre_url : Str)
    (d : Dict Str Url) :
    recursion_urls env settings pre_namespace pre_url t d =
      (((all_patterns env settings pre_namespace pre_url true t).filter
        (Pattern.shown env settings)).map (Pattern.entry env)).foldl (fun d q => d.set q.1 q.2) d := by
  induction t generalizing pre_namespace pre_url d with
  | nil => rfl
  | pattern name regex lookup_str rest ih =>
      rw [recursion_urls, ih, all_patterns, List.filter_append, List.map_append, List.foldl_append]
      congr 1
      cases hname : given name with
      | none => rfl
      | some name =>
          rw [Option.map_some, Option.toList_some, List.filter_singleton]
          cases hshow : check_show_url env settings (pre_url ++ lstrip regex) &&
            !ignore_white_url env settings (pre_url ++ lstrip regex) with
          | false => simp [Pattern.shown, hshow]
          | true => simp [Pattern.shown, hshow, Pattern.entry]
  | resolver namespace_ regex url_patterns rest ih ihrest =>
      rw [recursion_urls, ihrest, all_patterns, List.filter_append, List.map_append,
        List.foldl_append]
      congr 1
      cases hshow : check_show_url env settings (pre_url ++ lstrip regex) with
      | true =>
          rw [if_pos rfl, ih]
          rfl
      | false =>
          -- nothing below the resolver is shown
          have hnone : (all_patterns env settings (full_namespace pre_namespace namespace_)
              (pre_url ++ lstrip regex) false url_patterns).filter
                (Pattern.shown env settings) = [] := by
            rw [List.filter_eq_nil_iff]
            intro p hp hshown
            have hopened : p.opened = true := ((Bool.and_eq_true _ _).mp hshown).1
            exact Bool.false_ne_true (opened_of_mem env settings hp hopened)
          rw [if_neg Bool.false_ne_true, Bool.and_false, hnone]
          rfl

end

/-! ### The basename -/

theorem get_long_str_append (text : Str) {texts : List Str} (h : texts ≠ []) :
    get_long_str (texts.map (text ++ ·)) = text ++ get_long_str texts := by
  obtain ⟨s, others, rfl⟩ := List.exists_cons_of_ne_nil h
  rw [List.map_cons, get_long_str, get_long_str]
  clear h
  induction text with
  | nil => simp
  | cons c text ih =>
      have hhead : (others.map (c :: text ++ ·)).all (·.head? = some c) = true := by
        simp
      have htail : (others.map (c :: text ++ ·)).map List.tail = others.map (text ++ ·) := by
        rw [List.map_map]
        rfl
      rw [List.cons_append, common, if_pos hhead, htail, ih, List.cons_append]

/-- With an empty text there is no common beginning. -/
theorem get_long_str_of_nil_mem {texts : List Str} (h : [] ∈ texts) : get_long_str texts = [] := by
  cases texts with
  | nil => rfl
  | cons s others =>
      rcases List.mem_cons.mp h with rfl | hmem
      · rfl
      · cases s with
        | nil => rfl
        | cons c s =>
            have hnot : ¬others.all (·.head? = some c) = true := by
              intro hall
              simpa using List.all_eq_true.mp hall [] hmem
            rw [get_long_str, common, if_neg hnot]

/-- A suffix that starts with the only dash in it is not longer than what follows the last dash. -/
theorem suffix_append_iff {word text name : Str} (h : '-'.toNat ∉ word) :
    '-'.toNat :: word <:+ text ++ '-'.toNat :: name ↔ '-'.toNat :: word <:+ '-'.toNat :: name := by
  refine ⟨fun hsuf => ?_, fun hsuf => hsuf.trans (List.suffix_append ..)⟩
  rcases List.suffix_or_suffix_of_suffix hsuf (List.suffix_append text _) with hle | ⟨front, hge⟩
  · exact hle
  · cases front with
    | nil => exact hge ▸ List.suffix_rfl
    | cons c front =>
        -- then there is a second dash
        have hword : front ++ '-'.toNat :: name = word := (List.cons.inj hge).2
        exact absurd (hword ▸ List.mem_append_right front List.mem_cons_self) h

theorem cut_append {word : Str} (h : '-'.toNat ∉ word) (text name : Str) :
    cut ('-'.toNat :: word) (text ++ '-'.toNat :: name) =
      text ++ cut ('-'.toNat :: word) ('-'.toNat :: name) := by
  unfold cut
  simp only [suffix_append_iff h]
  by_cases hsuf : '-'.toNat :: word <:+ '-'.toNat :: name
  · have hle := hsuf.length_le
    rw [if_pos hsuf, if_pos hsuf, List.length_append, Nat.add_sub_assoc hle,
      List.take_length_add_append]
  · rw [if_neg hsuf, if_neg hsuf]

/-- What is left is empty or starts with the dash. -/
theorem cut_cons (s name : Str) : cut s ('-'.toNat :: name) = [] ∨
    ∃ rest, cut s ('-'.toNat :: name) = '-'.toNat :: rest := by
  unfold cut
  by_cases hsuf : s <:+ '-'.toNat :: name
  · rw [if_pos hsuf]
    cases ('-'.toNat :: name).length - s.length with
    | zero => exact .inl rfl
    | succ n => exact .inr ⟨_, rfl⟩
  · rw [if_neg hsuf]
    exact .inr ⟨name, rfl⟩

theorem stem_append {basename : Str} (h : ¬str "-detail" <:+ basename) (name : Str) :
    stem (basename ++ str "-" ++ name) = basename ++ stem (str "-" ++ name) := by
  have hlist : str "-list" = '-'.toNat :: str "list" := rfl
  have hdetail : str "-detail" = '-'.toNat :: str "detail" := rfl
  have hdash : str "-" ++ name = '-'.toNat :: name := rfl
  rw [List.append_assoc, hdash, stem, stem, hlist, cut_append (by decide)]
  rcases cut_cons ('-'.toNat :: str "list") name with hcut | ⟨rest, hcut⟩
  · have hnil : cut (str "-detail") [] = [] := by simp [cut]
    rw [hcut, List.append_nil, hnil, List.append_nil, cut, if_neg h]
  · rw [hcut, hdetail, cut_append (by decide)]

/-- Dashes after the basename go, if there are none at its end. -/
theorem rstrip_append {basename dashes : Str} (h : rstrip basename = basename)
    (hdashes : ∀ c ∈ dashes, c = '-'.toNat) : rstrip (basename ++ dashes) = basename := by
  induction dashes using List.reverseRecOn with
  | nil => rwa [List.append_nil]
  | append_singleton dashes c ih =>
      have hc : c = '-'.toNat := hdashes c (List.mem_append_right dashes (List.mem_singleton_self c))
      rw [← List.append_assoc, rstrip, List.rdropWhile_concat_pos _ _ _ (by simpa using hc)]
      exact ih fun c hc => hdashes c (List.mem_append_left _ hc)

/-! ### What is registered -/

/-- The pattern of a route of a view under `base`. -/
def Route.pattern (basename base view_string : Str) (opened : Bool) (r : Route) : Pattern where
  name := basename ++ str "-" ++ r.url_name
  url := base ++ r.path ++ str "$"
  view := view_string
  opened := opened

/-- The methods and the urls of the routes, but for PUT. -/
def pairs (base : Str) (routes : List Route) : List (Str × Str) :=
  routes.flatMap fun r =>
    (r.mapping.filter fun m => m.1 ≠ .put).map fun m => (m.1.upper, base ++ r.path ++ str "$")

section
variable (env : Env) (settings : Settings)

/-- A view set in the router of its kind; its names are no other names. -/
structure Registered (view_string : Str) (v : View) (basename base : Str) (opened : Bool) :
    Prop where
  imported : env.import_string view_string = some v
  kind : v.kind = .generic ∨ v.kind = .no_detail
  not_sharp : view_string ≠ str "#"
  patterns : (all_patterns env settings none [] true settings.ROOT_URLCONF).filter
      (fun p => p.view = view_string) =
    v.get_urls.map (Route.pattern basename base view_string opened)
  names : (all_patterns env settings none [] true settings.ROOT_URLCONF).Pairwise fun p q =>
    p.name = q.name → p.view ≠ view_string ∧ q.view ≠ view_string
  url_names : (v.get_routes.map Route.url_name).Nodup
  no_dash : rstrip basename = basename
  no_detail : ¬str "-detail" <:+ basename
  functions : ∀ r ∈ v.get_routes, ∀ m ∈ r.mapping, words env m.2 ≠ []

/-- What the dict of the urls has for a route. -/
def Route.listed (basename base view_string : Str) (opened : Bool) (r : Route) : Url :=
  ((r.pattern basename base view_string opened).entry env).2

/-- The routes that the settings show. -/
def shown_routes (view_string : Str) (v : View) (basename base : Str) (opened : Bool) : List Route :=
  v.get_urls.filter fun r => (r.pattern basename base view_string opened).shown env settings

end

section
variable {env : Env} {settings : Settings} {view_string basename base : Str} {v : View}
  {opened : Bool}

variable (h : Registered env settings view_string v basename base opened)
include h

/-- The patterns of the view that are shown are those of its routes that are. -/
theorem Registered.patterns_shown :
    ((all_patterns env settings none [] true settings.ROOT_URLCONF).filter
      (Pattern.shown env settings)).filter (fun p => p.view = view_string) =
    (shown_routes env settings view_string v basename base opened).map
      (Route.pattern basename base view_string opened) := by
  rw [List.filter_filter]
  calc (all_patterns env settings none [] true settings.ROOT_URLCONF).filter
          (fun p => decide (p.view = view_string) && p.shown env settings)
      = ((all_patterns env settings none [] true settings.ROOT_URLCONF).filter
          fun p => p.view = view_string).filter (Pattern.shown env settings) := by
        rw [List.filter_filter]
        exact List.filter_congr fun p _ => Bool.and_comm ..
    _ = _ := by
        rw [h.patterns, List.filter_map]
        rfl

/-- Its own names have a dash. -/
theorem Registered.name_ne {p : Pattern}
    (hp : p ∈ all_patterns env settings none [] true settings.ROOT_URLCONF)
    (hname : p.name = str "#") : p.view ≠ view_string := by
  intro hview
  have hmem : p ∈ v.get_urls.map (Route.pattern basename base view_string opened) := by
    rw [← h.patterns]
    exact List.mem_filter.mpr ⟨hp, decide_eq_true hview⟩
  obtain ⟨r, -, rfl⟩ := List.mem_map.mp hmem
  have hdash : '-'.toNat ∈ str "#" :=
    hname ▸ List.mem_append_left r.url_name (List.mem_append_right basename List.mem_cons_self)
  exact absurd hdash (by decide)

theorem Registered.url_paths_eq :
    (get_all_url_dict env settings []).filter (fun url => url.view = view_string) =
      (shown_routes env settings view_string v basename base opened).map
        (Route.listed env basename base view_string opened) := by
  let mine (url : Url) : Bool := url.view = view_string
  let shown := (all_patterns env settings none [] true settings.ROOT_URLCONF).filter
    (Pattern.shown env settings)
  let sharp : Url := ⟨str "#", str "#", str "#", some (str "#")⟩
  let d : Dict Str Url := Dict.ofList [(str "#", sharp)]
  have hd : d.items = [(str "#", sharp)] := Dict.items_ofList (List.nodup_singleton _)
  have hsharp : mine sharp = false := decide_eq_false (Ne.symm h.not_sharp)
  have hnames : (d.items ++ shown.map (Pattern.entry env)).Pairwise fun a b =>
      a.1 = b.1 → mine a.2 = false ∧ mine b.2 = false := by
    rw [hd, List.singleton_append]
    refine List.Pairwise.cons (fun b hb heq => ⟨hsharp, ?_⟩) (List.pairwise_map.mpr ?_)
    · obtain ⟨p, hp, rfl⟩ := List.mem_map.mp hb
      exact decide_eq_false (h.name_ne (List.mem_of_mem_filter hp) heq.symm)
    · exact (h.names.filter _).imp fun hpq heq =>
        ⟨decide_eq_false (hpq heq).1, decide_eq_false (hpq heq).2⟩
  have hfilter : (shown.map (Pattern.entry env)).filter (fun q => mine q.2) =
      (shown.filter fun p => p.view = view_string).map (Pattern.entry env) := List.filter_map
  calc (get_all_url_dict env settings []).filter mine
      = (((recursion_urls env settings none [] settings.ROOT_URLCONF d).items).filter
          fun q => mine q.2).map Prod.snd := List.filter_map
    _ = ((shown.filter fun p => p.view = view_string).map (Pattern.entry env)).map Prod.snd := by
        rw [recursion_urls_eq, Dict.filter_foldl_set mine hnames, hd, hfilter,
          List.filter_cons_of_neg (by rw [hsharp]; exact Bool.false_ne_true), List.filter_nil,
          List.nil_append]
    _ = (shown_routes env settings view_string v basename base opened).map
          (Route.listed env basename base view_string opened) := by
        rw [h.patterns_shown, List.map_map, List.map_map]
        rfl

theorem Registered.basename_eq
    (hne : shown_routes env settings view_string v basename base opened ≠ [])
    (hguess : ∀ c ∈ get_long_str ((shown_routes env settings view_string v basename base opened).map
      fun r => stem (str "-" ++ r.url_name)), c = '-'.toNat) :
    guess_basename ((shown_routes env settings view_string v basename base opened).map
      (Route.listed env basename base view_string opened)) = basename := by
  have hstems : ((shown_routes env settings view_string v basename base opened).map
      (Route.listed env basename base view_string opened)).map (fun url => stem url.name) =
      ((shown_routes env settings view_string v basename base opened).map
        fun r => stem (str "-" ++ r.url_name)).map (basename ++ ·) := by
    rw [List.map_map, List.map_map]
    exact List.map_congr_left fun r _ => stem_append h.no_detail r.url_name
  have hsome : (shown_routes env settings view_string v basename base opened).map
      (fun r => stem (str "-" ++ r.url_name)) ≠ [] := fun hnil => hne (List.map_eq_nil_iff.mp hnil)
  rw [guess_basename, hstems, get_long_str_append basename hsome]
  exact rstrip_append h.no_dash hguess

theorem Registered.route_info_eq (url_paths : List Url) :
    ∃ info, route_info v basename url_paths = some info ∧
      ∀ r ∈ v.get_urls, ∃ mapping, info.get (basename ++ str "-" ++ r.url_name) = some mapping ∧
        r.mapping = v.method_map mapping ∧ ∀ m ∈ mapping, words env m.2 ≠ [] := by
  let routes := v.get_routes.map fun r => (basename ++ str "-" ++ r.url_name, r.mapping)
  have hkeys : (routes.map Prod.fst).Nodup := by
    have hmap : routes.map Prod.fst =
        (v.get_routes.map Route.url_name).map (basename ++ str "-" ++ ·) := by
      rw [List.map_map, List.map_map]
      rfl
    rw [hmap]
    exact h.url_names.map (List.append_right_injective _)
  refine ⟨Dict.ofList routes, ?_, fun r hr => ?_⟩
  · rcases h.kind with hkind | hkind
    · rw [route_info, hkind]
    · rw [route_info, hkind]
  · obtain ⟨route, hroute, rfl⟩ := List.mem_map.mp (List.mem_of_mem_filter hr)
    have hmem : (basename ++ str "-" ++ route.url_name, route.mapping) ∈
        (Dict.ofList routes).items := by
      rw [Dict.items_ofList hkeys]
      exact List.mem_map_of_mem hroute
    exact ⟨route.mapping, Dict.get_of_mem hmem, rfl, h.functions route hroute⟩

theorem Registered.is_view_set_eq : is_view_set v = true := by
  rcases h.kind with hkind | hkind <;> simp [is_view_set, hkind]

omit h

theorem exists_permission (code_suffix : Str) (url : Url) (method : Method) {func_name : Str}
    (doc : Option Str) (hwords : words env func_name ≠ []) :
    ∃ e, permission env v code_suffix url method func_name doc = some e ∧
      e.method = method.upper ∧ e.url = url.url := by
  obtain ⟨c, code, hcode⟩ := List.exists_cons_of_ne_nil hwords
  rw [permission, hcode]
  exact ⟨_, rfl, rfl, rfl⟩

theorem collect_eq (hset : is_view_set v = true) (code_suffix : Str)
    {methods : List (Url × Method × Str)} (hwords : ∀ m ∈ methods, words env m.2.2 ≠ []) :
    ∃ permissions, collect env v code_suffix methods = some permissions ∧
      permissions.map (fun p => (p.method, p.url)) =
        (methods.filter fun m => (v.getattr m.2.2).isSome && m.2.1 ≠ .put).map
          fun m => (m.2.1.upper, m.1.url) := by
  induction methods with
  | nil => exact ⟨[], rfl, rfl⟩
  | cons m methods ih =>
      obtain ⟨hm, hwords⟩ := List.forall_mem_cons.mp hwords
      obtain ⟨rest, hrest, hpairs⟩ := ih hwords
      by_cases hput : m.2.1 = .put
      · refine ⟨rest, ?_, ?_⟩
        · rw [collect, List.filter_cons_of_neg (by simp [hset, hput])]
          exact hrest
        · rw [hpairs, List.filter_cons_of_neg (by simp [hput])]
      · obtain ⟨kept, hkept, rfl⟩ := Option.map_eq_some_iff.mp hrest
        have hcons {o : Option Entry} (ho : added env v code_suffix m = some o) :
            collect env v code_suffix (m :: methods) = some ((o :: kept).filterMap id) := by
          rw [collect, List.filter_cons_of_pos (by simp [hput]), List.mapM_cons, ho, hkept]
          rfl
        cases hattr : v.getattr m.2.2 with
        | none =>
            have hadded : added env v code_suffix m = some none := by
              rw [added, if_pos hset, hattr]
            refine ⟨_, hcons hadded, ?_⟩
            rw [List.filter_cons_of_neg (by simp [hattr])]
            exact hpairs
        | some doc =>
            obtain ⟨e, he, hmethod, hurl⟩ := exists_permission (v := v) code_suffix m.1 m.2.1 doc hm
            have hadded : added env v code_suffix m = some (some e) := by
              rw [added, if_pos hset, hattr]
              exact congrArg (Option.map some) he
            refine ⟨_, hcons hadded, ?_⟩
            rw [List.filter_cons_of_pos (by simp [hattr, hput]), List.map_cons, ← hpairs, ← hmethod,
              ← hurl]
            rfl

/-- **The permissions of a view set, when its basename is guessed right.** -/
theorem permissions_exact (h : Registered env settings view_string v basename base opened)
    (hguess : ∀ c ∈ get_long_str ((shown_routes env settings view_string v basename base opened).map
      fun r => stem (str "-" ++ r.url_name)), c = '-'.toNat) (code_suffix : Str) :
    ∃ permissions, get_view_permissions env settings view_string code_suffix = some permissions ∧
      permissions.map (fun p => (p.method, p.url)) =
        pairs base (shown_routes env settings view_string v basename base opened) := by
  by_cases hnil : shown_routes env settings view_string v basename base opened = []
  · refine ⟨[], ?_, by rw [hnil]; rfl⟩
    rw [get_view_permissions, h.url_paths_eq, hnil]
    rfl
  · let url := Route.listed env basename base view_string opened
    have hpaths : (shown_routes env settings view_string v basename base opened).map url ≠ [] :=
      fun hmap => hnil (List.map_eq_nil_iff.mp hmap)
    obtain ⟨info, hinfo, hroutes⟩ := h.route_info_eq
      ((shown_routes env settings view_string v basename base opened).map url)
    let methods (r : Route) : List (Url × Method × Str) :=
      ((info.get (url r).name).getD []).map fun m => (url r, m)
    have hmethods : ((shown_routes env settings view_string v basename base opened).map url).flatMap
        (fun url => ((info.get url.name).getD []).map fun m => (url, m)) =
        (shown_routes env settings view_string v basename base opened).flatMap methods := by
      rw [List.flatMap_map]
    have hwords : ∀ m ∈
        (shown_routes env settings view_string v basename base opened).flatMap methods,
        words env m.2.2 ≠ [] := by
      intro m hm
      obtain ⟨r, hr, hm⟩ := List.mem_flatMap.mp hm
      obtain ⟨mapping, hget, -, hmapping⟩ := hroutes r (List.mem_of_mem_filter hr)
      have hget : info.get (url r).name = some mapping := hget
      obtain ⟨n, hn, rfl⟩ := List.mem_map.mp hm
      rw [hget] at hn
      exact hmapping n hn
    obtain ⟨permissions, hperm, hpairs⟩ := collect_eq h.is_view_set_eq code_suffix hwords
    refine ⟨permissions, ?_, ?_⟩
    · rw [get_view_permissions, h.url_paths_eq, if_neg hpaths, h.imported, Option.bind_some,
        h.basename_eq hnil hguess, hinfo]
      exact (congrArg (collect env v code_suffix) hmethods).trans hperm
    · rw [hpairs, pairs, List.filter_flatMap, List.map_flatMap]
      refine List.flatMap_congr fun r hr => ?_
      obtain ⟨mapping, hget, hmapping, -⟩ := hroutes r (List.mem_of_mem_filter hr)
      have hget : info.get (url r).name = some mapping := hget
      have hmine : methods r = mapping.map fun m => (url r, m) := by
        simp only [methods, hget, Option.getD_some]
      rw [hmine, hmapping, View.method_map, List.filter_map, List.map_map, List.filter_filter]
      exact congrArg _ (List.filter_congr fun m _ => Bool.and_comm ..)

/-- A route of the list or of the detail has the basename. -/
theorem guess_of_mem {routes : List Route}
    (h : ∃ r ∈ routes, r.url_name = str "list" ∨ r.url_name = str "detail") :
    ∀ c ∈ get_long_str (routes.map fun r => stem (str "-" ++ r.url_name)), c = '-'.toNat := by
  obtain ⟨r, hr, hname⟩ := h
  have hstem : stem (str "-" ++ r.url_name) = [] := by
    rcases hname with hname | hname
    · rw [hname]
      decide
    · rw [hname]
      decide
  rw [get_long_str_of_nil_mem (hstem ▸ List.mem_map_of_mem hr)]
  exact fun c hc => absurd hc List.not_mem_nil

end

/-! ### A view set with an extra action -/

def ascii_title (start : Bool) : Str → Str
  | [] => []
  | c :: s =>
    if 'a'.toNat ≤ c ∧ c ≤ 'z'.toNat then
      (if start then c - 0x20 else c) :: ascii_title false s
    else c :: ascii_title true s

def sample : View where
  kind := .generic
  name := str "UserViewSet"
  doc := some (str "users")
  getattr func_name :=
    if func_name = str "list" then some (some (str "list of users"))
    else if func_name = str "choices" then some none
    else none
  extra_actions := [⟨str "choices", str "choices", false, [(.get, str "choices")]⟩]
  lookup := str "(?P<pk>[^/.]+)"
  allowed_methods := []
  models := [str "system.userinfo"]

def sample_string : Str := str "apps.system.views.admin.user.UserViewSet"

def choices_pattern : Str := str "^/api/system/.*choices$"

def sample_env : Env where
  re_match pattern url :=
    if pattern = choices_pattern then str "/api/system/" <+: url ∧ str "choices" <:+ url
    else pattern <+: url
  import_string s := if s = sample_string then some sample else none
  format doc _ := some doc
  title := ascii_title true
  lower s := s.map fun c => if 'A'.toNat ≤ c ∧ c ≤ 'Z'.toNat then c + 0x20 else c

def sample_settings : Settings where
  PERMISSION_SHOW_PREFIX := [str "api/system"]
  ROUTE_IGNORE_URL := [choices_pattern]
  ROOT_URLCONF :=
    .resolver (some (str "system")) (str "^api/system/")
      (.pattern (some (str "user-list")) (str "^user$") sample_string <|
        .pattern (some (str "user-choices")) (str "^user/choices$") sample_string .nil)
      .nil

theorem registered_sample : Registered sample_env sample_settings sample_string sample
    (str "system:user") (str "api/system/user") true where
  imported := by simp [sample_env]
  kind := .inl rfl
  not_sharp := by decide
  patterns := by decide +kernel
  names := by decide +kernel
  url_names := by decide
  no_dash := by decide
  no_detail := by decide
  functions := by decide +kernel

theorem shown_sample : ∃ r ∈ shown_routes sample_env sample_settings sample_string sample
    (str "system:user") (str "api/system/user") true,
    r.url_name = str "list" ∨ r.url_name = str "detail" := by
  decide +kernel

theorem permissions_sample :
    Registered sample_env sample_settings sample_string sample
      (str "system:user") (str "api/system/user") true ∧
    ∃ permissions, get_view_permissions sample_env sample_settings sample_string [] =
        some permissions ∧
      permissions.map (fun p => (p.method, p.url)) =
        pairs (str "api/system/user") (shown_routes sample_env sample_settings sample_string sample
          (str "system:user") (str "api/system/user") true) :=
  ⟨registered_sample, permissions_exact registered_sample (guess_of_mem shown_sample) []⟩

/-- **No entry for a url that the settings ignore.** -/
theorem choices_ignored :
    Registered sample_env sample_settings sample_string sample
      (str "system:user") (str "api/system/user") true ∧
    ∃ pair ∈ pairs (str "api/system/user") sample.get_urls,
      ∀ permissions, get_view_permissions sample_env sample_settings sample_string [] =
        some permissions → pair ∉ permissions.map fun p => (p.method, p.url) := by
  have hperm : (get_view_permissions sample_env sample_settings sample_string []).map
      (fun permissions => permissions.map fun p => (p.method, p.url)) =
        some [(str "GET", str "api/system/user$")] := by
    decide +kernel
  refine ⟨registered_sample, (str "GET", str "api/system/user/choices$"), by decide +kernel, ?_⟩
  intro permissions hget
  rw [hget, Option.map_some, Option.some.injEq] at hperm
  rw [hperm]
  decide

end InfraHub.Permission.ViewPermissions
