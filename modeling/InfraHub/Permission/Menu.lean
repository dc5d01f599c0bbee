import InfraHub.Lib.Dict

/-!
# Permission — Menu

The menus, and the permission map of a set of them: the map from path patterns to menus that the
requests of one method are looked up in.
-/

namespace InfraHub.Permission
open InfraHub.Lib (Dict)

inductive MenuChoices
  | DIRECTORY
  | MENU
  | PERMISSION
  deriving DecidableEq, Repr

inductive MethodChoices
  | GET
  | POST
  | PUT
  | DELETE
  | PATCH
  deriving DecidableEq, Repr

def MethodChoices.value : MethodChoices → String
  | GET => "GET"
  | POST => "POST"
  | PUT => "PUT"
  | DELETE => "DELETE"
  | PATCH => "PATCH"

structure Menu where
  pk : Nat
  menu_type : MenuChoices
  name : String
  path : String
  method : Option MethodChoices
  /-- `ModelLabelField`s -/
  model : List Nat
  parent : Option Nat
  is_active : Bool
  deriving DecidableEq, Repr

/-- `filter(menu_type=Menu.MenuChoices.PERMISSION, method=method)`. -/
def Menu.permits (method : String) (m : Menu) : Bool :=
  m.menu_type = .PERMISSION && m.method.map MethodChoices.value = some method

/-- The value of a path: the menu and one of its models. -/
structure Item where
  pk : Nat
  model : Option Nat
  deriving DecidableEq, Repr

/-- `values_list("path", "pk", "model")`: a row for every model of the menu, or one with none. -/
def Menu.rows (m : Menu) : List (String × Item) :=
  match m.model with
  | [] => [(m.path, ⟨m.pk, none⟩)]
  | models => models.map fun model => (m.path, ⟨m.pk, some model⟩)

/-- The rows of the menus of one method. -/
def permission_rows (menus : List Menu) (method : String) : List (String × Item) :=
  (menus.filter (Menu.permits method)).flatMap Menu.rows

theorem path_of_mem_rows {m : Menu} {r : String × Item} (h : r ∈ m.rows) :
    r.1 = m.path ∧ r.2.pk = m.pk := by
  unfold Menu.rows at h
  split at h
  · rw [List.mem_singleton.mp h]
    exact ⟨rfl, rfl⟩
  · obtain ⟨_, _, rfl⟩ := List.mem_map.mp h
    exact ⟨rfl, rfl⟩

theorem exists_mem_rows (m : Menu) : ∃ item, (m.path, item) ∈ m.rows := by
  unfold Menu.rows
  split
  · exact ⟨_, .head _⟩
  · next hne =>
    obtain ⟨model, hmem⟩ := List.exists_mem_of_ne_nil _ hne
    exact ⟨_, List.mem_map_of_mem hmem⟩

/-- A row is a row of one of the menus. -/
theorem of_mem_permission_rows {menus : List Menu} {method : String} {r : String × Item}
    (h : r ∈ permission_rows menus method) :
    ∃ m ∈ menus, m.permits method = true ∧ r.1 = m.path ∧ r.2.pk = m.pk := by
  obtain ⟨m, hm, hr⟩ := List.mem_flatMap.mp h
  obtain ⟨hm, hp⟩ := List.mem_filter.mp hm
  exact ⟨m, hm, hp, path_of_mem_rows hr⟩

theorem exists_mem_permission_rows {menus : List Menu} {method : String} {m : Menu}
    (hm : m ∈ menus) (hp : m.permits method = true) :
    ∃ item, (m.path, item) ∈ permission_rows menus method := by
  obtain ⟨item, hr⟩ := exists_mem_rows m
  exact ⟨item, List.mem_flatMap.mpr ⟨m, List.mem_filter.mpr ⟨hm, hp⟩, hr⟩⟩

end InfraHub.Permission
