import InfraHub.Permission.Menu
import InfraHub.Lib.Regex

/-!
# Permission — Route

Which route a granted permission opens.

A request is dispatched to the first route whose pattern matches the whole path; whether the user may
make it is looked up in the permission map of the method, by the path as a pattern and else by the
first pattern of the map that matches (`get_menu_pk`).  The order of the map is not the order of the
routes, and the pattern of a detail route matches the paths of list-level actions.
`opens_only_own_iff` is the exact condition under which the lookup only ever finds the menu of the
route the request goes to, whatever the order.

What is proved holds for any behaviour of the `re` module; `pythonRe` is the part of it that reads the
patterns routers write.
-/

namespace InfraHub.Permission
open InfraHub.Lib

inductive ReError
  | error (pattern : String)
  deriving DecidableEq, Repr

/-- The functions of the `re` module the code and the resolver call. -/
structure Re where
  re_match : (pattern url : String) → Except ReError Bool
  fullmatch : (pattern url : String) → Bool

/-- `url[1:]`. -/
def tail (url : String) : String := String.ofList (url.toList.drop 1)

/-! ### Dispatch -/

structure Route where
  path : String
  view : String
  deriving DecidableEq, Repr

def dispatch (re : Re) (routes : List Route) (url : String) : Option Route :=
  routes.find? fun r => re.fullmatch r.path (tail url)

/-! ### The lookup -/

/-- The loop of `get_menu_pk`. -/
def scan (re : Re) (url : String) : List (String × Item) → Except ReError (Option Item)
  | [] => .ok none
  | (p_path, permission_item) :: l =>
      match re.re_match ("/" ++ p_path) url with
      | .error e => .error e
      | .ok true => .ok (some permission_item)
      | .ok false => scan re url l

def get_menu_pk (re : Re) (permission_data : Dict String Item) (url : String) :
    Except ReError (Option Item) :=
  match permission_data.get (tail url ++ "$") with
  | some p_data => .ok (some p_data)
  | none => scan re url permission_data.items

/-! ### `IsAuthenticated` -/

structure Requester where
  is_authenticated : Bool
  is_superuser : Bool
  deriving DecidableEq, Repr

inductive Denied
  | NotAuthenticated
  | PermissionDenied
  | re (e : ReError)
  deriving DecidableEq, Repr

/-- What a granted request carries on. -/
inductive Access
  /-- `request.ignore_field_permission` -/
  | ignore_field_permission
  /-- `request.user.menu` -/
  | menu (pk : Nat)
  deriving DecidableEq, Repr

/-- `re.match("(?P<url>.*)<suffix>$", url)` and its group; `.` is no newline. -/
def before (suffix url : List Char) : Option (List Char) :=
  let stem (suffix : List Char) : Option (List Char) :=
    if suffix <:+ url ∧ '\n' ∉ url.take (url.length - suffix.length) then
      some (url.take (url.length - suffix.length))
    else none
  (stem suffix).or (stem (suffix ++ ['\n']))

/-- The whitelist has the url, for the method. -/
def white (re : Re) (url method : String) : List (String × List String) → Except ReError Bool
  | [] => .ok false
  | (w_url, methods) :: l =>
      match re.re_match w_url url with
      | .error e => .error e
      | .ok hit =>
          if hit && ("*" ∈ methods || method ∈ methods) then .ok true else white re url method l

/-- The menu of an export or import that has no model of its own: that of the list or of the create
route. -/
def import_export (re : Re) (permission_data : Dict String Item) (url : String) (p_data : Item) :
    Except ReError Item :=
  match (before "/export-data".toList url.toList).or (before "/import-data".toList url.toList) with
  | none => .ok p_data
  | some stem =>
      if p_data.model = none then
        (get_menu_pk re permission_data (String.ofList stem)).map (·.getD p_data)
      else .ok p_data

def has_permission (re : Re) (whitelist : List (String × List String))
    (permission_data : Dict String Item) (user : Requester) (method url : String) :
    Except Denied Access :=
  if user.is_authenticated = false then .error .NotAuthenticated
  else if user.is_superuser then .ok .ignore_field_permission
  else
    match white re url method whitelist with
    | .error e => .error (.re e)
    | .ok true => .ok .ignore_field_permission
    | .ok false =>
        let url := ((before "/search-columns".toList url.toList).map String.ofList).getD url
        match get_menu_pk re permission_data url with
        | .error e => .error (.re e)
        | .ok none => .error .PermissionDenied
        | .ok (some p_data) =>
            match import_export re permission_data url p_data with
            | .error e => .error (.re e)
            | .ok p_data_new => .ok (.menu p_data_new.pk)

/-! ### What a lookup finds -/

section Lookup

variable {re : Re} {url method : String}

theorem scan_ok {l : List (String × Item)} {item : Item} (h : scan re url l = .ok (some item)) :
    ∃ p, (p, item) ∈ l ∧ re.re_match ("/" ++ p) url = .ok true := by
  induction l with
  | nil => cases h
  | cons e l ih =>
      rw [scan] at h
      split at h
      · cases h
      · next hmatch =>
        cases h
        exact ⟨e.1, List.mem_cons_self .., hmatch⟩
      · obtain ⟨p, hp, hmatch⟩ := ih h
        exact ⟨p, List.mem_cons_of_mem e hp, hmatch⟩

theorem scan_cons {p : String} {item : Item} (l : List (String × Item))
    (h : re.re_match ("/" ++ p) url = .ok true) : scan re url ((p, item) :: l) = .ok (some item) := by
  simp [scan, h]

/-- What is found is in the map: under the url as a pattern, or under a pattern that matches it where
the url is no key. -/
theorem get_menu_pk_ok {d : Dict String Item} {item : Item}
    (h : get_menu_pk re d url = .ok (some item)) :
    ∃ p, (p, item) ∈ d.items ∧ (p = tail url ++ "$" ∨
      tail url ++ "$" ∉ d.items.map Prod.fst ∧ re.re_match ("/" ++ p) url = .ok true) := by
  unfold get_menu_pk at h
  split at h
  · next p_data hget =>
    cases h
    exact ⟨_, Dict.mem_of_get hget, .inl rfl⟩
  · next hget =>
    obtain ⟨p, hp, hmatch⟩ := scan_ok h
    refine ⟨p, hp, .inr ⟨fun hmem => ?_, hmatch⟩⟩
    have := Dict.get_isSome.mpr hmem
    rw [hget] at this
    cases this

theorem get_menu_pk_of_key (re : Re) {d : Dict String Item} (h : tail url ++ "$" ∈ d.items.map Prod.fst) :
    ∃ item, (tail url ++ "$", item) ∈ d.items ∧ get_menu_pk re d url = .ok (some item) := by
  obtain ⟨item, hget⟩ := Option.isSome_iff_exists.mp (Dict.get_isSome.mpr h)
  exact ⟨item, Dict.mem_of_get hget, by simp [get_menu_pk, hget]⟩

theorem get_menu_pk_of_first {d : Dict String Item} {p : String} {item : Item}
    {l : List (String × Item)} (h : tail url ++ "$" ∉ d.items.map Prod.fst)
    (hd : d.items = (p, item) :: l) (hmatch : re.re_match ("/" ++ p) url = .ok true) :
    get_menu_pk re d url = .ok (some item) := by
  have hget : d.get (tail url ++ "$") = none := by
    rw [← Option.not_isSome_iff_eq_none, Dict.get_isSome]
    exact h
  simp [get_menu_pk, hget, hd, scan_cons l hmatch]

end Lookup

/-! ### What a grant opens -/

/-- The menus granted to a user, by primary key. -/
structure Grants where
  menus : List Menu
  pks : (menus.map Menu.pk).Nodup

/-- A grant of a path, for requests of the method. -/
def Grants.Has (G : Grants) (method path : String) : Prop :=
  ∃ m ∈ G.menus, m.permits method = true ∧ m.path = path

/-- Whatever the order of the permission map, the lookup finds the menu of the route the request is
dispatched to, or none. -/
def OpensOnlyOwn (re : Re) (G : Grants) (routes : List Route) (method url : String) : Prop :=
  ∀ r, dispatch re routes url = some r →
    ∀ rows, rows.Perm (permission_rows G.menus method) → ∀ item,
      get_menu_pk re (Dict.ofList rows) url = .ok (some item) →
        ∃ m ∈ G.menus, m.permits method = true ∧ m.path = r.path ∧ m.pk = item.pk

/-- If the url as a pattern is granted it is the pattern of its route; if not, every granted pattern
that matches the url is. -/
def MatchesOnlyOwn (re : Re) (G : Grants) (routes : List Route) (method url : String) : Prop :=
  ∀ r, dispatch re routes url = some r →
    (G.Has method (tail url ++ "$") → r.path = tail url ++ "$") ∧
      (¬ G.Has method (tail url ++ "$") → ∀ path, G.Has method path →
        re.re_match ("/" ++ path) url = .ok true → path = r.path)

section Grants

variable {re : Re} {G : Grants} {routes : List Route} {method url : String}
  {rows : List (String × Item)}

/-- A row of the map, as a granted menu. -/
theorem of_mem_ofList (hrows : rows.Perm (permission_rows G.menus method)) {p : String} {item : Item}
    (h : (p, item) ∈ (Dict.ofList rows).items) :
    ∃ m ∈ G.menus, m.permits method = true ∧ m.path = p ∧ m.pk = item.pk := by
  obtain ⟨m, hm, hp, hpath, hpk⟩ :=
    of_mem_permission_rows (hrows.mem_iff.mp (Dict.mem_of_mem_ofList h))
  exact ⟨m, hm, hp, hpath.symm, hpk.symm⟩

theorem mem_keys_iff (hrows : rows.Perm (permission_rows G.menus method)) {p : String} :
    p ∈ (Dict.ofList rows).items.map Prod.fst ↔ G.Has method p := by
  rw [Dict.mem_keys_ofList]
  constructor
  · intro h
    obtain ⟨r, hr, rfl⟩ := List.mem_map.mp h
    obtain ⟨m, hm, hp, hpath, -⟩ := of_mem_permission_rows (hrows.mem_iff.mp hr)
    exact ⟨m, hm, hp, hpath.symm⟩
  · rintro ⟨m, hm, hp, rfl⟩
    obtain ⟨item, hr⟩ := exists_mem_permission_rows hm hp
    exact List.mem_map.mpr ⟨_, hrows.mem_iff.mpr hr, rfl⟩

/-- The pattern of a row the lookup finds is that of the route. -/
theorem path_of_opens (h : OpensOnlyOwn re G routes method url) {r : Route}
    (hr : dispatch re routes url = some r) (hrows : rows.Perm (permission_rows G.menus method))
    {p : String} {item : Item} (hmem : (p, item) ∈ (Dict.ofList rows).items)
    (hget : get_menu_pk re (Dict.ofList rows) url = .ok (some item)) : p = r.path := by
  obtain ⟨m, hm, -, hpath, hpk⟩ := of_mem_ofList hrows hmem
  obtain ⟨m', hm', -, hpath', hpk'⟩ := h r hr rows hrows item hget
  have : m = m' := List.inj_on_of_nodup_map G.pks hm hm' (hpk.trans hpk'.symm)
  rw [← hpath, this, hpath']

theorem matches_of_opens (h : OpensOnlyOwn re G routes method url) :
    MatchesOnlyOwn re G routes method url := by
  intro r hr
  constructor
  · intro hkey
    obtain ⟨item, hmem, hget⟩ := get_menu_pk_of_key re ((mem_keys_iff (.refl _)).mpr hkey)
    exact (path_of_opens h hr (.refl _) hmem hget).symm
  · rintro hkey path ⟨m, hm, hp, rfl⟩ hmatch
    -- the map may begin with this menu
    obtain ⟨item, hrow⟩ := exists_mem_permission_rows hm hp
    have hrows := (List.perm_cons_erase hrow).symm
    obtain ⟨v, l, hd⟩ := Dict.exists_items_ofList_cons (m.path, item)
      ((permission_rows G.menus method).erase (m.path, item))
    have hget := get_menu_pk_of_first (fun hk => hkey ((mem_keys_iff hrows).mp hk)) hd hmatch
    exact path_of_opens h hr hrows (hd ▸ List.mem_cons_self ..) hget

theorem opens_of_matches (h : MatchesOnlyOwn re G routes method url) :
    OpensOnlyOwn re G routes method url := by
  intro r hr rows hrows item hget
  obtain ⟨p, hmem, hp⟩ := get_menu_pk_ok hget
  obtain ⟨m, hm, hperm, rfl, hpk⟩ := of_mem_ofList hrows hmem
  obtain ⟨hexact, hscan⟩ := h r hr
  refine ⟨m, hm, hperm, ?_, hpk⟩
  rcases hp with hp | ⟨hkey, hmatch⟩
  · rw [hp, hexact ⟨m, hm, hperm, hp⟩]
  · exact hscan (fun hk => hkey ((mem_keys_iff hrows).mpr hk)) _ ⟨m, hm, hperm, rfl⟩ hmatch

end Grants

/-- **When a grant opens only its own route.** -/
theorem opens_only_own_iff (re : Re) (G : Grants) (routes : List Route) (method url : String) :
    OpensOnlyOwn re G routes method url ↔ MatchesOnlyOwn re G routes method url :=
  ⟨matches_of_opens, opens_of_matches⟩

/-! ### The request -/

/-- Where the lookup opens only the own route, so does `IsAuthenticated`, for the users the permissions
are for: not a superuser, and a url that is not on the whitelist. -/
theorem has_permission_opens_only_own {re : Re} {G : Grants} {routes : List Route}
    {method url : String} {rows : List (String × Item)} {whitelist : List (String × List String)}
    {user : Requester} {pk : Nat} {r : Route} (h : MatchesOnlyOwn re G routes method url)
    (hr : dispatch re routes url = some r) (hrows : rows.Perm (permission_rows G.menus method))
    (hurl : before "/search-columns".toList url.toList = none)
    (hok : has_permission re whitelist (Dict.ofList rows) user method url = .ok (.menu pk)) :
    G.Has method r.path := by
  unfold has_permission at hok
  rw [hurl] at hok
  split at hok
  · cases hok
  split at hok
  · cases hok
  split at hok
  · cases hok
  · cases hok
  · simp only [Option.map_none, Option.getD_none] at hok
    split at hok
    · cases hok
    · cases hok
    · next p_data hget =>
      obtain ⟨m, hm, hp, hpath, -⟩ := opens_of_matches h r hr rows hrows p_data hget
      exact ⟨m, hm, hp, hpath⟩

/-! ### The patterns of a viewset -/

/-- The `re` module, for the patterns `Regex.parse` reads; it raises for the others. -/
def pythonRe : Re where
  re_match pattern url :=
    match Regex.parse pattern.toList with
    | none => .error (.error pattern)
    | some r => .ok (r.match_start url.toList)
  fullmatch pattern url := (Regex.parse pattern.toList).any fun r => r.fullmatch url.toList

def userRoutes : List Route :=
  [⟨"api/system/user/export-data$", "UserViewSet.export_data"⟩, ⟨"api/system/user$", "UserViewSet.list"⟩,
    ⟨"api/system/user/(?P<pk>[^/.]+)$", "UserViewSet.retrieve"⟩]

/-- The permission to read one user. -/
def retrieveMenu : Menu where
  pk := 7
  menu_type := .PERMISSION
  name := "retrieve:SystemUser"
  path := "api/system/user/(?P<pk>[^/.]+)$"
  method := some .GET
  model := []
  parent := none
  is_active := true

def retrieveGrants : Grants := ⟨[retrieveMenu], by decide⟩

/-- The permission to read one user opens the export of all. -/
theorem retrieve_opens_export :
    ¬ OpensOnlyOwn pythonRe retrieveGrants userRoutes "GET" "/api/system/user/export-data" := by
  intro h
  have hr : dispatch pythonRe userRoutes "/api/system/user/export-data" =
      some ⟨"api/system/user/export-data$", "UserViewSet.export_data"⟩ := by decide
  have hget : get_menu_pk pythonRe (Dict.ofList (permission_rows retrieveGrants.menus "GET"))
      "/api/system/user/export-data" = .ok (some ⟨7, none⟩) := by decide
  obtain ⟨m, hm, -, hpath, -⟩ := h _ hr _ (.refl _) _ hget
  rw [List.mem_singleton.mp hm] at hpath
  exact absurd hpath (by decide)

end InfraHub.Permission
