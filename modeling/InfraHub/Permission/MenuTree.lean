import InfraHub.Lib.Forest
import InfraHub.Lib.Run
import InfraHub.Permission.Menu

/-!
# Permission — MenuTree

The tree of the menus, and the creates and updates of `MenuSerializer` that change it.

`menu_list_to_tree` hangs every menu under its parent, or puts it into the container
(`menu_list_to_tree_spec`).  Nothing is lost as long as no menu is above itself (`menu_forest_of_acyclic`).
A create keeps it so; an update is not asked (`menu_forest_iff`).
-/

namespace InfraHub.Permission
open InfraHub.Lib (Run exec guarded Throughout throughout_of_guarded Acyclic acyclic_of_lt acyclic_rehang rehang
  Under Listing hung exists_listing_rows)
open Relation (TransGen ReflTransGen)

/-! ### The tree -/

/-- What the list has as the parent of a menu. -/
inductive Parent
  | null
  | pk (pk : Nat)
  /-- a dict, and what it has under "pk" -/
  | dict (pk : Option Nat)
  deriving DecidableEq, Repr

/-- The key that is looked up. -/
def Parent.key : Parent → Option Nat
  | .null => none
  | .pk key => some key
  | .dict key => key

/-- One dict of the list. -/
structure MenuData where
  pk : Nat
  parent : Parent
  deriving DecidableEq, Repr

/-- The dicts are known by their keys, and refer to their children. -/
structure MenuTree where
  container : List Nat
  children : Nat → List Nat

/-- The parent that is in the list. -/
def MenuData.mapped (data : List MenuData) (d : MenuData) : Option Nat :=
  d.parent.key.filter fun parent => (data.map MenuData.pk).contains parent

/-- One round of the loop. -/
def hang (data : List MenuData) (tree : MenuTree) (d : MenuData) : MenuTree :=
  match d.mapped data with
  | none => { tree with container := tree.container ++ [d.pk] }
  | some parent =>
    { tree with
      children := Function.update tree.children parent (tree.children parent ++ [d.pk]) }

def menu_list_to_tree (data : List MenuData) : MenuTree :=
  data.foldl (hang data) ⟨[], fun _ => []⟩

/-- **Where each menu goes.** -/
theorem menu_list_to_tree_spec (data : List MenuData) :
    (menu_list_to_tree data).container =
        (data.filter fun d => d.mapped data = none).map MenuData.pk ∧
      ∀ parent, (menu_list_to_tree data).children parent =
        (data.filter fun d => d.mapped data = some parent).map MenuData.pk := by
  have hfold (rest : List MenuData) (tree : MenuTree) :
      (rest.foldl (hang data) tree).container =
          tree.container ++ (rest.filter fun d => d.mapped data = none).map MenuData.pk ∧
        ∀ parent, (rest.foldl (hang data) tree).children parent = tree.children parent ++
          (rest.filter fun d => d.mapped data = some parent).map MenuData.pk := by
    induction rest generalizing tree with
    | nil => simp
    | cons d rest ih =>
        obtain ⟨hcontainer, hchildren⟩ := ih (hang data tree d)
        rw [List.foldl_cons, hcontainer]
        simp only [hchildren]
        cases hparent : d.mapped data with
        | none => simp [hang, hparent]
        | some parent =>
            refine ⟨by simp [hang, hparent], fun other => ?_⟩
            by_cases hother : other = parent
            · subst hother
              simp [hang, hparent]
            · simp [hang, hparent, hother, Ne.symm hother]
  simpa [menu_list_to_tree] using hfold data ⟨[], fun _ => []⟩

/-! ### The requests -/

/-- What is sent to `MenuSerializer`; `none` is a field that is not sent.  For `meta`: whether it is
valid. -/
structure MenuRequest where
  pk : Option Nat
  name : Option String
  path : Option String
  «meta» : Option Bool
  parent : Option (Option Nat)
  menu_type : Option MenuChoices
  is_active : Option Bool
  model : Option (List Nat)
  method : Option (Option MethodChoices)
  deriving DecidableEq, Repr

namespace MenuRequest

variable (request : MenuRequest)

/-- `is_valid()`: the key and the name are not those of another menu, and the parent exists. -/
def is_valid (menus : List Menu) («instance» : Option Nat) : Bool :=
  (menus.all fun menu => menu.pk ∈ «instance» ||
    request.pk ≠ some menu.pk && request.name ≠ some menu.name) &&
  request.parent.join.all fun parent => menus.any fun menu => menu.pk = parent

/-- The columns that are sent are set. -/
def set (menu : Menu) : Menu where
  pk := menu.pk
  name := request.name.getD menu.name
  path := request.path.getD menu.path
  parent := request.parent.getD menu.parent
  menu_type := request.menu_type.getD menu.menu_type
  is_active := request.is_active.getD menu.is_active
  model := request.model.getD menu.model
  method := request.method.getD menu.method

/-- The row of a create, which needs a name and a path. -/
def row (uuid4 : Nat) : Option Menu :=
  match request.name, request.path with
  | some name, some path => some
    { pk := request.pk.getD uuid4
      name
      path
      parent := request.parent.join
      menu_type := request.menu_type.getD .DIRECTORY
      is_active := request.is_active.getD true
      model := request.model.getD []
      method := request.method.join }
  | _, _ => none

end MenuRequest

namespace MenuSerializer

/-- `validated_data.pop("meta")` raises without one. -/
def create (menus : List Menu) (uuid4 : Nat) (request : MenuRequest) : Option (List Menu) :=
  match request.row uuid4 with
  | none => none
  | some row =>
    if request.is_valid menus none ∧ request.meta = some true ∧ row.pk ∉ menus.map Menu.pk then
      some (row :: menus)
    else none

/-- A row of another key would have the same `meta`, which is one to one. -/
def update (menus : List Menu) («instance» : Nat) (request : MenuRequest) : Option (List Menu) :=
  if «instance» ∈ menus.map Menu.pk ∧ request.is_valid menus «instance» ∧ request.meta = some true ∧
      request.pk.all fun pk => pk = «instance» then
    some (menus.map fun menu => if menu.pk = «instance» then request.set menu else menu)
  else none

end MenuSerializer

/-- A request, or one that other checks refuse. -/
inductive MenuEvent
  | create (uuid4 : Nat) (request : MenuRequest)
  | update («instance» : Nat) (request : MenuRequest)
  | refuse
  deriving DecidableEq, Repr

/-- The menus that the request leaves, if it is not refused. -/
def MenuEvent.menus (menus : List Menu) : MenuEvent → Option (List Menu)
  | .create uuid4 request => MenuSerializer.create menus uuid4 request
  | .update pk request => MenuSerializer.update menus pk request
  | .refuse => none

/-- The parent of a menu. -/
def MenuUp (menus : List Menu) (pk parent : Nat) : Prop :=
  ∃ menu ∈ menus, menu.pk = pk ∧ menu.parent = some parent

section
variable {menus menus' : List Menu} {request : MenuRequest} {uuid4 pk : Nat}

theorem mem_of_valid («instance» : Option Nat) (h : request.is_valid menus «instance») {parent : Nat}
    (hparent : request.parent = some (some parent)) : parent ∈ menus.map Menu.pk := by
  have hall := (Bool.and_eq_true_iff.mp h).2
  simpa [hparent] using hall

theorem row_parent {row : Menu} (h : request.row uuid4 = some row) :
    row.parent = request.parent.join := by
  unfold MenuRequest.row at h
  split at h
  · cases h
    rfl
  · cases h

theorem create_cases (h : MenuSerializer.create menus uuid4 request = some menus') :
    ∃ row, menus' = row :: menus ∧ row.pk ∉ menus.map Menu.pk ∧
      ∀ parent ∈ row.parent, parent ∈ menus.map Menu.pk := by
  unfold MenuSerializer.create at h
  split at h
  · cases h
  · next row hrow =>
    obtain ⟨⟨hvalid, -, hnew⟩, h⟩ := Option.ite_none_right_eq_some.mp h
    refine ⟨row, (Option.some.inj h).symm, hnew, fun parent hparent => ?_⟩
    rw [row_parent hrow] at hparent
    exact mem_of_valid none hvalid (Option.join_eq_some_iff.mp hparent)

theorem update_cases (h : MenuSerializer.update menus pk request = some menus') :
    pk ∈ menus.map Menu.pk ∧
      menus' = (menus.map fun menu => if menu.pk = pk then request.set menu else menu) ∧
      ∀ parent, request.parent = some (some parent) → parent ∈ menus.map Menu.pk := by
  obtain ⟨⟨hmem, hvalid, -⟩, h⟩ := Option.ite_none_right_eq_some.mp h
  exact ⟨hmem, (Option.some.inj h).symm, fun _ => mem_of_valid _ hvalid⟩

theorem keys_of_update (h : MenuSerializer.update menus pk request = some menus') :
    menus'.map Menu.pk = menus.map Menu.pk := by
  obtain ⟨-, rfl, -⟩ := update_cases h
  rw [List.map_map]
  refine List.map_congr_left fun menu _ => ?_
  simp only [Function.comp_apply]
  split
  · rfl
  · rfl

/-- **A create hangs a new menu** under its parent. -/
theorem up_create {row : Menu} (hnew : row.pk ∉ menus.map Menu.pk) :
    MenuUp (row :: menus) = rehang (MenuUp menus) row.pk row.parent := by
  funext a b
  simp only [MenuUp, rehang, List.mem_cons, exists_eq_or_imp, eq_iff_iff]
  refine or_congr (and_congr_left' eq_comm) ?_
  refine ⟨?_, And.right⟩
  rintro ⟨menu, hmenu, rfl, hparent⟩
  exact ⟨fun heq => hnew (heq ▸ List.mem_map_of_mem hmenu), menu, hmenu, rfl, hparent⟩

/-- **An update hangs the menu** under the parent that is sent. -/
theorem up_update (h : MenuSerializer.update menus pk request = some menus') :
    MenuUp menus' = match request.parent with
      | none => MenuUp menus
      | some parent => rehang (MenuUp menus) pk parent := by
  obtain ⟨hmem, rfl, -⟩ := update_cases h
  have hcases (a b : Nat) :
      MenuUp (menus.map fun menu => if menu.pk = pk then request.set menu else menu) a b ↔
        a = pk ∧ (∃ menu ∈ menus, menu.pk = pk ∧ (request.set menu).parent = some b) ∨
          a ≠ pk ∧ MenuUp menus a b := by
    constructor
    · rintro ⟨_, hmenu, rfl, hparent⟩
      obtain ⟨menu, hmem', rfl⟩ := List.mem_map.mp hmenu
      split at hparent
      · next hkey => exact .inl ⟨by simp [hkey, MenuRequest.set], menu, hmem', hkey, hparent⟩
      · next hkey => exact .inr ⟨by simp [hkey], menu, hmem', by simp [hkey], hparent⟩
    · rintro (⟨rfl, menu, hmenu, hkey, hparent⟩ | ⟨hne, menu, hmenu, rfl, hparent⟩)
      · exact ⟨request.set menu, List.mem_map.mpr ⟨menu, hmenu, if_pos hkey⟩, hkey, hparent⟩
      · exact ⟨menu, List.mem_map.mpr ⟨menu, hmenu, if_neg hne⟩, rfl, hparent⟩
  funext a b
  rw [eq_iff_iff, hcases]
  cases hparent : request.parent with
  | none =>
      simp only [MenuRequest.set, hparent, Option.getD_none]
      by_cases hkey : a = pk
      · subst hkey
        simp [MenuUp]
      · simp [hkey]
  | some parent =>
      obtain ⟨menu, hmenu, hkey⟩ := List.mem_map.mp hmem
      simp only [MenuRequest.set, hparent, Option.getD_some, rehang]
      refine or_congr_left (and_congr_right fun _ => ?_)
      exact ⟨fun ⟨_, _, _, hb⟩ => hb, fun hb => ⟨menu, hmenu, hkey, hb⟩⟩

end

/-! ### The table -/

/-- The menus as the database keeps them: the keys differ, and a parent exists. -/
structure Menus where
  rows : List Menu
  keys : (rows.map Menu.pk).Nodup
  parents : ∀ pk parent, MenuUp rows pk parent → parent ∈ rows.map Menu.pk

theorem Menus.keys_after (s : Menus) (e : MenuEvent) {menus : List Menu}
    (h : e.menus s.rows = some menus) : (menus.map Menu.pk).Nodup := by
  cases e with
  | create uuid4 request =>
      obtain ⟨row, rfl, hnew, -⟩ := create_cases h
      exact List.nodup_cons.mpr ⟨hnew, s.keys⟩
  | update pk request => exact (keys_of_update h).symm ▸ s.keys
  | refuse => cases h

theorem Menus.parents_after (s : Menus) (e : MenuEvent) {menus : List Menu}
    (h : e.menus s.rows = some menus) (pk parent : Nat) (hup : MenuUp menus pk parent) :
    parent ∈ menus.map Menu.pk := by
  cases e with
  | create uuid4 request =>
      obtain ⟨row, rfl, hnew, hparent⟩ := create_cases h
      rw [up_create hnew] at hup
      rcases hup with ⟨-, heq⟩ | ⟨-, hup⟩
      · exact List.mem_cons_of_mem _ (hparent parent heq)
      · exact List.mem_cons_of_mem _ (s.parents _ _ hup)
  | update pk request =>
      rw [keys_of_update h]
      rw [up_update h] at hup
      obtain ⟨-, -, hexists⟩ := update_cases h
      cases hparent : request.parent with
      | none =>
          simp only [hparent] at hup
          exact s.parents _ _ hup
      | some sent =>
          simp only [hparent] at hup
          rcases hup with ⟨-, rfl⟩ | ⟨-, hup⟩
          · exact hexists parent hparent
          · exact s.parents _ _ hup
  | refuse => cases h

def Menus.next (s : Menus) (e : MenuEvent) : Menus :=
  match h : e.menus s.rows with
  | none => s
  | some menus => ⟨menus, s.keys_after e h, s.parents_after e h⟩

def MenuStep (s : Menus) (e : MenuEvent) (t : Menus) : Prop := s.next e = t

theorem menuStep_next (s : Menus) (e : MenuEvent) : MenuStep s e (s.next e) := rfl

/-! ### The forest -/

/-- The full list of the menus, in any order. -/
def FullList (menus : List Menu) (data : List MenuData) : Prop :=
  (data.map fun d => (d.pk, d.parent.key)).Perm (menus.map fun menu => (menu.pk, menu.parent))

/-- No menu is above itself, and `menu_list_to_tree` has every menu once. -/
def MenuForest (menus : List Menu) : Prop :=
  Acyclic (MenuUp menus) ∧ ∀ data, FullList menus data →
    ∃ l, Listing (menu_list_to_tree data).children (menu_list_to_tree data).container l ∧
      l.Perm (menus.map Menu.pk)

/-- An update that is accepted does not hang a menu under itself, or under a menu below it. -/
def MenuEvent.Safe (menus : List Menu) (e : MenuEvent) : Prop :=
  ∀ pk request, e = .update pk request → e.menus menus ≠ none →
    ∀ parent, request.parent = some (some parent) → ¬ ReflTransGen (MenuUp menus) parent pk

section
variable {s t : Menus} {e : MenuEvent} {data : List MenuData}

theorem keys_of_full (h : FullList s.rows data) :
    (data.map MenuData.pk).Perm (s.rows.map Menu.pk) := by
  simpa [Function.comp_def] using h.map Prod.fst

theorem mapped_eq_some {d : MenuData} {parent : Nat} :
    d.mapped data = some parent ↔ d.parent.key = some parent ∧ parent ∈ data.map MenuData.pk := by
  simp [MenuData.mapped, Option.filter_eq_some_iff]

theorem mem_children {a b : Nat} :
    a ∈ (menu_list_to_tree data).children b ↔ ∃ d ∈ data, d.mapped data = some b ∧ d.pk = a := by
  simp [(menu_list_to_tree_spec data).2, and_assoc]

/-- The tree hangs a menu under its parent. -/
theorem under_iff (h : FullList s.rows data) {a b : Nat} :
    Under (menu_list_to_tree data).children a b ↔ MenuUp s.rows a b := by
  have hpair : (∃ d ∈ data, d.pk = a ∧ d.parent.key = some b) ↔ MenuUp s.rows a b := by
    have hmem := h.mem_iff (a := (a, some b))
    simpa [MenuUp] using hmem
  unfold Under
  rw [mem_children, ← hpair]
  constructor
  · rintro ⟨d, hd, hmapped, hkey⟩
    exact ⟨d, hd, hkey, (mapped_eq_some.mp hmapped).1⟩
  · rintro ⟨d, hd, hkey, hparent⟩
    refine ⟨d, hd, mapped_eq_some.mpr ⟨hparent, ?_⟩, hkey⟩
    exact (keys_of_full h).mem_iff.mpr (s.parents a b (hpair.mp ⟨d, hd, hkey, hparent⟩))

/-- **Where nothing is lost.** -/
theorem menu_forest_of_acyclic (h : Acyclic (MenuUp s.rows)) : MenuForest s.rows := by
  refine ⟨h, fun data hdata => ?_⟩
  have hkeys := keys_of_full hdata
  have hcontainer : (menu_list_to_tree data).container = hung MenuData.pk (MenuData.mapped data) data none :=
    (menu_list_to_tree_spec data).1
  have hchildren : (menu_list_to_tree data).children =
      fun p => hung MenuData.pk (MenuData.mapped data) data (some p) :=
    funext (menu_list_to_tree_spec data).2
  have hunder : Under (menu_list_to_tree data).children = MenuUp s.rows := by
    funext a b
    exact propext (under_iff hdata)
  rw [hcontainer, hchildren]
  rw [hchildren] at hunder
  obtain ⟨l, hl, hperm⟩ := exists_listing_rows (hkeys.nodup_iff.mpr s.keys)
    (fun d _ p hp => (mapped_eq_some.mp hp).2) (hunder ▸ h)
  exact ⟨l, hl, hperm.trans hkeys⟩

theorem menuForest_iff : MenuForest s.rows ↔ Acyclic (MenuUp s.rows) :=
  ⟨And.left, menu_forest_of_acyclic⟩

/-- **What a request does to the parents**: an update may hang a menu anywhere. -/
theorem acyclic_menus (h : Acyclic (MenuUp s.rows)) {menus : List Menu}
    (hmenus : e.menus s.rows = some menus) : Acyclic (MenuUp menus) ↔ e.Safe s.rows := by
  cases e with
  | create uuid4 request =>
      obtain ⟨row, rfl, hnew, hparent⟩ := create_cases hmenus
      refine iff_of_true ?_ fun _ _ he => by cases he
      rw [up_create hnew, acyclic_rehang h]
      intro parent hrow hbelow
      -- what has something below it exists
      rcases ReflTransGen.cases_tail hbelow with heq | ⟨menu, -, hup⟩
      · exact hnew (heq ▸ hparent parent hrow)
      · exact hnew (s.parents _ _ hup)
  | update pk request =>
      rw [up_update hmenus]
      constructor
      · rintro hacyclic _ _ ⟨⟩ - parent hparent
        simp only [hparent] at hacyclic
        exact (acyclic_rehang h).mp hacyclic parent rfl
      · intro hsafe
        cases hparent : request.parent with
        | none => exact h
        | some parent =>
            refine (acyclic_rehang h).mpr fun b hb => ?_
            exact hsafe pk request rfl (by simp [hmenus]) b (hparent.trans (congrArg some hb))
  | refuse => cases hmenus

theorem acyclic_next_menus (h : Acyclic (MenuUp s.rows)) :
    Acyclic (MenuUp (s.next e).rows) ↔ e.Safe s.rows := by
  unfold Menus.next
  split
  · next hnone => exact iff_of_true h fun _ _ _ hsome => absurd hnone hsome
  · next hmenus => exact acyclic_menus h hmenus

/-- **When no menu disappears**, whatever is created and updated. -/
theorem menu_forest_iff {l : List MenuEvent} (h : Acyclic (MenuUp s.rows)) (r : Run MenuStep s l t) :
    Throughout MenuStep (fun _ s => MenuForest s.rows) s l ↔
      Run (guarded MenuStep fun s e => e.Safe s.rows) s l t := by
  constructor
  · intro hall
    refine hall.guarded (fun _ _ s e _ hs h h' => ?_) r
    cases hs
    exact (acyclic_next_menus h.1).mp h'.1
  · intro r'
    refine throughout_of_guarded (I := fun _ s => Acyclic (MenuUp s.rows))
      (fun _ _ _ _ hs hs' => hs.symm.trans hs')
      (fun _ _ _ _ hu hs => ?_) (fun _ _ hu => menu_forest_of_acyclic hu) r' h
    obtain ⟨hs, hsafe⟩ := hs
    cases hs
    exact (acyclic_next_menus hu).mpr hsafe

end

/-- A directory at the top. -/
def directory (pk : Nat) (name : String) : Menu where
  pk := pk
  menu_type := .DIRECTORY
  name := name
  path := "/" ++ name
  method := none
  model := []
  parent := none
  is_active := true

/-- An update that sends a parent. -/
def reparent (parent : Nat) : MenuRequest where
  pk := none
  name := none
  path := none
  «meta» := some true
  parent := some (some parent)
  menu_type := none
  is_active := none
  model := none
  method := none

def two_menus : Menus where
  rows := [directory 1 "system", directory 2 "virt"]
  keys := by decide
  parents := by simp [MenuUp, directory]

theorem two_menus_acyclic : Acyclic (MenuUp two_menus.rows) := by
  refine acyclic_of_lt id fun a b hup => ?_
  simp [MenuUp, two_menus, directory] at hup

/-- The second menu goes under the first. -/
theorem menu_forest_iff_submenu :
    Throughout MenuStep (fun _ s => MenuForest s.rows) two_menus [.update 2 (reparent 1)] := by
  refine (menu_forest_iff two_menus_acyclic (.one (menuStep_next _ _))).mpr
    (.one ⟨menuStep_next _ _, ?_⟩)
  rintro _ _ ⟨⟩ - _ ⟨⟩ hbelow
  rcases ReflTransGen.cases_head hbelow with heq | ⟨b, hup, -⟩
  · cases heq
  · simp [MenuUp, two_menus, directory] at hup

/-- **A menu disappears**: it is set under itself. -/
theorem own_parent_disappears :
    ¬ ∀ (s t : Menus) (l : List MenuEvent), Acyclic (MenuUp s.rows) → Run MenuStep s l t →
      MenuForest t.rows := by
  intro hall
  obtain ⟨-, hforest⟩ := hall two_menus _ [.update 1 (reparent 1)] two_menus_acyclic
    (.one (menuStep_next _ _))
  obtain ⟨l, hl, hperm⟩ := hforest [⟨1, .pk 1⟩, ⟨2, .null⟩] (.refl _)
  -- the tree has only the second menu
  have htree : Listing (menu_list_to_tree [⟨1, .pk 1⟩, ⟨2, .null⟩]).children [2] l := hl
  obtain _ | ⟨hbelow, hrest⟩ := htree
  cases hbelow
  cases hrest
  exact absurd hperm (by decide)

end InfraHub.Permission
