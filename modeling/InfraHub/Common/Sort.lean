import InfraHub.Drf.Import

/-!
# Common — Sort

`topological_sort`, of items with any keys: `κ` has what can be hashed, besides `None`.

An item is looked up by names; its parent is a key, or a dict that has the key under the name of the
primary key.  `sort_items` is the function of the readers of the two keys, of which the sort of the
imported rows is another case (`import_sort_eq`).  `topological_sort_spec` is the result.
-/

namespace InfraHub.Common
open InfraHub.Import (SetOrder)
open InfraHub.Lib (Acyclic Dict)
open InfraHub.Lib.Topo
open Relation (TransGen)

variable {κ α : Type}

/-! ### Items -/

/-- What an item has under a name. -/
inductive Attr (κ : Type)
  | none
  | key (k : κ)
  | dict (items : List (String × Attr κ))
  /-- what has no hash, such as a list -/
  | unhashable

abbrev Item (κ : Type) := List (String × Attr κ)

inductive Error
  | KeyError
  | TypeError
  | ValueError
  deriving DecidableEq

/-- `item[name]`. -/
def getitem (item : Item κ) (name : String) : Except Error (Attr κ) :=
  match item.lookup name with
  | some v => .ok v
  | none => .error .KeyError

/-- What is hashed. -/
def to_key : Attr κ → Except Error (Option κ)
  | .none => .ok none
  | .key k => .ok (some k)
  | .dict _ | .unhashable => .error .TypeError

def node_id (pk : String) (item : Item κ) : Except Error (Option κ) := getitem item pk >>= to_key

def parent_id (pk parent : String) (item : Item κ) : Except Error (Option κ) := do
  match ← getitem item parent with
  | .dict items => to_key ((items.lookup pk).getD .none)
  | v => to_key v

/-! ### The sort -/

section
variable [DecidableEq κ]

/-- The sort, by the readers of the keys. -/
def sort_items (order : SetOrder κ) (node_id : α → Except Error κ)
    (parent_id : α → Except Error (Option κ)) (data : List α) : Except Error (List α) := do
  let node_ids ← data.mapM node_id
  let parent_ids ← data.mapM parent_id
  let nodes := order.list node_ids
  let edges := (parent_ids.zip node_ids).filterMap fun (parent_id, node_id) =>
    parent_id.map (·, node_id)
  let new_data := Dict.ofList (node_ids.zip data)
  let sorted_order := topo nodes edges
  if sorted_order.length ≠ nodes.length then throw .ValueError
  else return sorted_order.filterMap new_data.get

/-- An item may have the key `None`, but is not found by it. -/
def topological_sort (order : SetOrder (Option κ)) (data : List (Item κ)) (pk parent : String) :
    Except Error (List (Item κ)) :=
  sort_items order (node_id pk) (fun item => (parent_id pk parent item).map (Option.map some)) data

end

/-- The parent of `item` is `p`. -/
def Refers (pk parent : String) (data : List (Item κ)) (item p : Item κ) : Prop :=
  item ∈ data ∧ p ∈ data ∧ ∃ k, parent_id pk parent item = .ok (some k) ∧
  node_id pk p = .ok (some k)

/-- The items have primary keys, which differ, and parents that are `None`, a key, or a dict with
one. -/
structure Keyed (pk parent : String) (data : List (Item κ)) : Prop where
  node : ∀ item ∈ data, ∃ k, node_id pk item = .ok k
  parent : ∀ item ∈ data, ∃ a, parent_id pk parent item = .ok a
  distinct : (data.map (node_id pk)).Nodup

/-! ### What it comes to -/

theorem mapM_ok {β : Type} {f : α → Except Error β} {g : α → β} {l : List α}
    (h : ∀ a ∈ l, f a = .ok (g a)) :
    l.mapM f = .ok (l.map g) := by
  induction l with
  | nil => rfl
  | cons a l ih =>
      obtain ⟨ha, hl⟩ := List.forall_mem_cons.mp h
      rw [List.mapM_cons, ha, ih hl]
      rfl

section
variable [DecidableEq κ] {order : SetOrder κ} {node_id : α → Except Error κ}
  {parent_id : α → Except Error (Option κ)} {data : List α} {key : α → κ}
  {parent_key : α → Option κ}

/-- **What the sort comes to**, of items that have their keys. -/
theorem sort_items_eq (hnode : ∀ a ∈ data, node_id a = .ok (key a))
    (hparent : ∀ a ∈ data, parent_id a = .ok (parent_key a)) :
    sort_items order node_id parent_id data =
      (sort_rows (order.list (data.map key)) (links key parent_key data)
        (Dict.ofList ((data.map key).zip data)).get).elim (.error .ValueError) .ok := by
  have hedges : ((data.map parent_key).zip (data.map key)).filterMap (fun e => e.1.map (·, e.2)) =
      links key parent_key data := by
    rw [List.zip_map', List.filterMap_map]
    rfl
  have hsort : sort_items order node_id parent_id data =
      if (topo (order.list (data.map key)) (links key parent_key data)).length ≠
          (order.list (data.map key)).length then .error .ValueError
      else .ok ((topo (order.list (data.map key)) (links key parent_key data)).filterMap
        (Dict.ofList ((data.map key).zip data)).get) := by
    rw [sort_items, mapM_ok hnode, mapM_ok hparent, ← hedges]
    rfl
  rw [hsort, sort_rows]
  split
  · rfl
  · rfl

end

/-- A reader that says nothing of its error. -/
def or_error (e : Error) : Option α → Except Error α
  | none => .error e
  | some a => .ok a

theorem mapM_or_error {β : Type} (e : Error) (f : α → Option β) (l : List α) :
    (l.mapM fun a => or_error e (f a)) = or_error e (l.mapM f) := by
  induction l with
  | nil => rfl
  | cons a l ih =>
      rw [List.mapM_cons, List.mapM_cons, ih]
      cases f a with
      | none => rfl
      | some b =>
          cases l.mapM f with
          | none => rfl
          | some r => rfl

/-- **The rows of a file are sorted so too**, where every error is the same. -/
theorem import_sort_eq {F : Type} [DecidableEq F] (e : Error) (integral : F → Option Int)
    (order : SetOrder (Import.Key F)) (data : List (Import.Item F)) (parent : Lib.Str) :
    Import.topological_sort integral order data parent =
      (sort_items order (fun item => or_error e (Import.node_id integral item))
        (fun item => or_error e (Import.parent_id integral parent item)) data).toOption := by
  rw [Import.topological_sort, sort_items, mapM_or_error, mapM_or_error]
  cases data.mapM (Import.node_id integral) with
  | none => rfl
  | some node_ids =>
      cases data.mapM (Import.parent_id integral parent) with
      | none => rfl
      | some parent_ids =>
          change (if _ then none else some _) =
            Except.toOption (if _ then Except.error _ else Except.ok _)
          split
          · rfl
          · rfl

/-! ### The result -/

section
variable {pk parent : String} {data : List (Item κ)}

def key_of (pk : String) (item : Item κ) : Option κ := (node_id pk item).toOption.join

def parent_of (pk parent : String) (item : Item κ) : Option κ :=
  (parent_id pk parent item).toOption.join

theorem Keyed.node_id_eq (h : Keyed pk parent data) {item : Item κ} (hitem : item ∈ data) :
    node_id pk item = .ok (key_of pk item) := by
  obtain ⟨k, hk⟩ := h.node item hitem
  rw [key_of, hk]
  rfl

theorem Keyed.parent_id_eq (h : Keyed pk parent data) {item : Item κ} (hitem : item ∈ data) :
    parent_id pk parent item = .ok (parent_of pk parent item) := by
  obtain ⟨a, ha⟩ := h.parent item hitem
  rw [parent_of, ha]
  rfl

theorem Keyed.nodup_keys (h : Keyed pk parent data) : (data.map (key_of pk)).Nodup := by
  have hmap : data.map (node_id pk) = (data.map (key_of pk)).map Except.ok := by
    rw [List.map_map]
    exact List.map_congr_left fun item hitem => h.node_id_eq hitem
  have hnodup := h.distinct
  rw [hmap] at hnodup
  exact hnodup.of_map _

theorem Keyed.refers_eq (h : Keyed pk parent data) :
    Refers pk parent data =
      Parent (key_of pk) (fun item => (parent_of pk parent item).map some) data := by
  funext item p
  refine propext (and_congr_right fun hitem => and_congr_right fun hp => ?_)
  rw [h.parent_id_eq hitem, h.node_id_eq hp, Option.map_eq_some_iff]
  refine exists_congr fun k => ?_
  rw [Except.ok.injEq, Except.ok.injEq, eq_comm (a := key_of pk p)]

variable [DecidableEq κ] {order : SetOrder (Option κ)}

theorem Keyed.sort_eq (h : Keyed pk parent data) :
    topological_sort order data pk parent =
      (sort_rows (order.list (data.map (key_of pk)))
        (links (key_of pk) (fun item => (parent_of pk parent item).map some) data)
        (Dict.ofList ((data.map (key_of pk)).zip data)).get).elim (.error .ValueError) .ok := by
  refine sort_items_eq (fun item => h.node_id_eq) fun item hitem => ?_
  rw [h.parent_id_eq hitem]
  rfl

/-- **The sort fails if and only if there is a cycle**, and otherwise has the items, parents
first. -/
theorem topological_sort_spec (h : Keyed pk parent data) :
    (topological_sort order data pk parent = .error .ValueError ↔
        ¬ Acyclic (Refers pk parent data)) ∧
      (Acyclic (Refers pk parent data) → ∃ l, topological_sort order data pk parent = .ok l ∧
        l.Perm data ∧
        ∀ before item after, l = before ++ item :: after → ∀ p, Refers pk parent data item p →
        p ∈ before) := by
  have honce := order.nodup (data.map (key_of pk))
  have hnodes (k : Option κ) : k ∈ order.list (data.map (key_of pk)) ↔ k ∈ data.map (key_of pk) :=
    order.mem
  rw [h.sort_eq, h.refers_eq]
  constructor
  · rw [← sort_rows_eq_none_iff honce hnodes]
    cases sort_rows (order.list (data.map (key_of pk)))
      (links (key_of pk) (fun item => (parent_of pk parent item).map some) data)
      (Dict.ofList ((data.map (key_of pk)).zip data)).get with
    | none => exact iff_of_true rfl rfl
    | some l => exact iff_of_false (by simp) (Option.some_ne_none l)
  · intro hacyclic
    obtain ⟨l, hl, hsorted⟩ := sort_rows_spec honce hnodes (fun _ _ => Dict.of_get_zip)
      (fun _ => Dict.get_zip_ne_none) h.nodup_keys hacyclic
    exact ⟨l, by rw [hl, Option.elim_some], hsorted⟩

end

/-! ### Two items -/

/-- The second item is the parent of the first. -/
def two_items : List (Item Nat) :=
  [[("pk", .key 2), ("parent", .dict [("pk", .key 1)])], [("pk", .key 1), ("parent", .none)]]

theorem two_items_keyed : Keyed "pk" "parent" two_items where
  node := List.forall_mem_cons.mpr ⟨⟨some 2, rfl⟩, List.forall_mem_singleton.mpr ⟨some 1, rfl⟩⟩
  parent := List.forall_mem_cons.mpr ⟨⟨some 1, rfl⟩, List.forall_mem_singleton.mpr ⟨none, rfl⟩⟩
  distinct := by
    have hkeys : two_items.map (node_id "pk") = [.ok (some 2), .ok (some 1)] := rfl
    simp [hkeys]

/-- The parent has no parent. -/
theorem two_items_acyclic : Acyclic (Refers "pk" "parent" two_items) := by
  have hroot {item p q : Item Nat} (h : Refers "pk" "parent" two_items item p) :
      ¬ Refers "pk" "parent" two_items p q := by
    rintro ⟨-, -, j, hj, -⟩
    obtain ⟨hitem, hp, k, hk, hkey⟩ := h
    rcases List.mem_pair.mp hp with rfl | rfl
    · rcases List.mem_pair.mp hitem with rfl | rfl
      · cases hk
        cases hkey
      · cases hk
    · cases hj
  intro item hcycle
  obtain ⟨p, hfirst, -⟩ := TransGen.head'_iff.mp hcycle
  obtain ⟨q, -, hlast⟩ := TransGen.tail'_iff.mp hcycle
  exact hroot hlast hfirst

theorem topological_sort_two :
    ∃ l, topological_sort (.first none) two_items "pk" "parent" = .ok l ∧ l.Perm two_items ∧
      ∀ before item after, l = before ++ item :: after →
      ∀ p, Refers "pk" "parent" two_items item p →
        p ∈ before :=
  (topological_sort_spec two_items_keyed).2 two_items_acyclic

end InfraHub.Common
