import InfraHub.Lib.Dict
import InfraHub.Lib.Text
import InfraHub.Permission.MenuTree

/-!
# Common — MenuTree

`menu_list_to_tree`, of dicts with any primary keys: `κ` has the keys, and `text` is what `str`
makes of one.

The dicts are known by their place in the list; a child is a dict of the list, or an object that
stood among the children before.  The mapping and the lookups go by the texts of the keys
(`parent_by_text`), and `None` has the text `"None"`.

* `tree_spec`: what the loop leaves, in any list.
* `tree_of_texts`: where the texts of the keys differ, and none is that of `None`, no item is lost
  or repeated.
* `tree_of_menus`: the tree that `Permission` has of the menus is this one.
* `tree_mixes_types`: a key and its text are taken for one another.

No two dicts share the list of their children.
-/

namespace InfraHub.Common.MenuTree
open InfraHub.Lib (Dict Acyclic Under Listing acyclic_of_lt acyclic_swap hung mem_hung
    hung_cons_of_eq hung_cons_of_ne
  exists_listing_rows isDigit_of_mem_toString toString_injective)

variable {κ ω : Type}

/-! ### The dicts -/

/-- What stands under the root field. -/
inductive Parent (κ : Type)
  | null
  | key (k : κ)
  /-- a dict with `"pk"`, which may be `None` -/
  | dict (pk : Option κ)
  /-- any other object, by its text -/
  | other (text : String)

/-- A dict of the list, or another object. -/
inductive Child (ω : Type)
  | item (index : Nat)
  | object (o : ω)

/-- A dict of the list; without `"children"` it has none. -/
structure Item (κ ω : Type) where
  pk : κ
  parent : Parent κ
  children : List (Child ω)
  count : Option Nat

/-- What a dict has in the end. -/
structure Entry (ω : Type) where
  children : List (Child ω)
  count : Option Nat

structure Tree (ω : Type) where
  container : List Nat
  dicts : Nat → Entry ω

section
variable (text : κ → String)

/-- The text of the parent, if there is one. -/
def Parent.text? : Parent κ → Option String
  | .null | .dict none => none
  | .key k | .dict (some k) => some (text k)
  | .other s => some s

/-- `str(parent)`. -/
def Parent.str (parent : Parent κ) : String := (parent.text? text).getD "None"

/-- `dict(zip([str(i["pk"]) for i in data], data))`. -/
def mapping (data : List (Item κ ω)) : Dict String Nat :=
  .ofList ((data.map fun d => text d.pk).zip (List.range data.length))

/-- `parent.update({"children": children, "count": len(children)})`, with one more child. -/
def Tree.attach (tree : Tree ω) (parent i : Nat) : Tree ω :=
  let children := (tree.dicts parent).children ++ [.item i]
  { tree with dicts := Function.update tree.dicts parent ⟨children, some children.length⟩ }

theorem Tree.attach_self (tree : Tree ω) (parent i : Nat) :
    (tree.attach parent i).dicts parent = ⟨(tree.dicts parent).children ++ [.item i],
      some ((tree.dicts parent).children ++ [Child.item i]).length⟩ :=
  Function.update_self ..

theorem Tree.attach_ne (tree : Tree ω) {parent p : Nat} (h : p ≠ parent) (i : Nat) :
    (tree.attach parent i).dicts p = tree.dicts p :=
  Function.update_of_ne h ..

/-- One round of the loop. -/
def hang (mapping : Dict String Nat) (tree : Tree ω) (d : Item κ ω × Nat) : Tree ω :=
  match mapping.get (d.1.parent.str text) with
  | none => { tree with container := tree.container ++ [d.2] }
  | some parent => tree.attach parent d.2

/-- The dicts as they are given. -/
def given (data : List (Item κ ω)) (i : Nat) : Entry ω :=
  match data[i]? with
  | some d => ⟨d.children, d.count⟩
  | none => ⟨[], none⟩

def menu_list_to_tree (data : List (Item κ ω)) : Tree ω :=
  data.zipIdx.foldl (hang text (mapping text data)) ⟨[], given data⟩

end

/-! ### What is asked of it -/

def Child.item? : Child ω → Option Nat
  | .item i => some i
  | .object _ => none

/-- The children of a dict that are dicts of the list. -/
def Tree.items (tree : Tree ω) (p : Nat) : List Nat := (tree.dicts p).children.filterMap Child.item?

/-- **The tree has every item once**, under its parent or at the top, in the order of the list; and
the parents have the number of their children. -/
structure IsForest (data : List (Item κ ω)) (parent : Item κ ω → Option Nat) (tree : Tree ω) :
    Prop where
  once : ∃ l, Listing tree.items tree.container l ∧ l.Perm (List.range data.length)
  top : tree.container = hung Prod.snd (fun d => parent d.1) data.zipIdx none
  below : ∀ p, (tree.dicts p).children =
    (given data p).children ++ (hung Prod.snd (fun d => parent d.1) data.zipIdx (some p)).map
    Child.item
  count : ∀ p, hung Prod.snd (fun d => parent d.1) data.zipIdx (some p) ≠ [] →
    (tree.dicts p).count = some (tree.dicts p).children.length

/-- One item is the parent of another. -/
def Above (data : List (Item κ ω)) (parent : Item κ ω → Option Nat) : Nat → Nat → Prop :=
  Under fun p => hung Prod.snd (fun d => parent d.1) data.zipIdx (some p)

section
variable [DecidableEq κ] (text : κ → String) (data : List (Item κ ω))

/-- The item whose key is the parent. -/
def parent_by_key (d : Item κ ω) : Option Nat :=
  match d.parent with
  | .key k | .dict (some k) => (data.map Item.pk).idxOf? k
  | _ => none

/-- The item whose key has the text of the parent. -/
def parent_by_text (d : Item κ ω) : Option Nat :=
  (d.parent.text? text).bind fun s => (data.map fun i => text i.pk).idxOf? s

end

/-! ### The loop -/

section
variable {text : κ → String} {data : List (Item κ ω)}

/-- What the loop adds. -/
theorem foldl_hang (text : κ → String) (mapping : Dict String Nat) (rest : List (Item κ ω × Nat))
    (tree : Tree ω) :
    let parent := fun d : Item κ ω × Nat => mapping.get (d.1.parent.str text)
    let tree' := rest.foldl (hang text mapping) tree
    tree'.container = tree.container ++ hung Prod.snd parent rest none ∧
      ∀ p, (tree'.dicts p).children =
          (tree.dicts p).children ++ (hung Prod.snd parent rest (some p)).map Child.item ∧
        (tree'.dicts p).count = if hung Prod.snd parent rest (some p) = [] then (tree.dicts p).count
          else some (tree'.dicts p).children.length := by
  intro parent tree'
  induction rest generalizing tree with
  | nil => simp [tree', hung]
  | cons d rest ih =>
      obtain ⟨hcontainer, hdicts⟩ := ih (hang text mapping tree d)
      simp only [tree', List.foldl_cons]
      cases hparent : mapping.get (d.1.parent.str text) with
      | none =>
          have hhang :
              hang text mapping tree d = { tree with container := tree.container ++ [d.2] } := by
            rw [hang, hparent]
          rw [hhang] at hcontainer hdicts ⊢
          rw [hung_cons_of_eq (show parent d = none from hparent)]
          refine ⟨by rw [hcontainer, List.append_assoc, List.singleton_append], fun p => ?_⟩
          rw [hung_cons_of_ne (show parent d ≠ some p by simp [parent, hparent])]
          exact hdicts p
      | some q =>
          have hhang : hang text mapping tree d = tree.attach q d.2 := by rw [hang, hparent]
          rw [hhang] at hcontainer hdicts ⊢
          rw [hung_cons_of_ne (show parent d ≠ none by simp [parent, hparent])]
          refine ⟨hcontainer, fun p => ?_⟩
          obtain ⟨hchildren, hcount⟩ := hdicts p
          by_cases hp : p = q
          · subst hp
            rw [hung_cons_of_eq (show parent d = some p from hparent)]
            rw [Tree.attach_self] at hchildren hcount
            refine ⟨by rw [hchildren, List.append_assoc, List.map_cons, List.singleton_append], ?_⟩
            rw [if_neg (List.cons_ne_nil _ _), hcount]
            split
            · next hnone => rw [hchildren, hnone, List.map_nil, List.append_nil]
            · rfl
          · rw [hung_cons_of_ne (show parent d ≠ some p by simp [parent, hparent, Ne.symm hp])]
            rw [Tree.attach_ne tree hp] at hchildren hcount
            exact ⟨hchildren, hcount⟩

/-- **What the loop leaves.** -/
theorem tree_spec (text : κ → String) (data : List (Item κ ω)) :
    let parent := fun d : Item κ ω × Nat => (MenuTree.mapping text data).get (d.1.parent.str text)
    let tree := menu_list_to_tree text data
    tree.container = hung Prod.snd parent data.zipIdx none ∧
      ∀ p, (tree.dicts p).children =
          (given data p).children ++ (hung Prod.snd parent data.zipIdx (some p)).map Child.item ∧
        (hung Prod.snd parent data.zipIdx (some p) ≠ [] →
          (tree.dicts p).count = some (tree.dicts p).children.length) := by
  intro parent tree
  obtain ⟨hcontainer, hdicts⟩ :=
    foldl_hang text (MenuTree.mapping text data) data.zipIdx ⟨[], given data⟩
  refine ⟨hcontainer, fun p => ⟨(hdicts p).1, fun hne => ?_⟩⟩
  exact (hdicts p).2.trans (if_neg hne)

/-! ### Where nothing is lost -/

theorem zipIdx_keys (data : List (Item κ ω)) :
    data.zipIdx.map Prod.snd = List.range data.length := by
  rw [List.zipIdx_map_snd, List.range_eq_range']

/-- What is found in a mapping of the places is the place. -/
theorem find?_zip_range (ks : List String) (n : Nat) (s : String) :
    ((ks.zip (List.range' n ks.length)).find? fun p => p.1 = s).map Prod.snd =
    (ks.idxOf? s).map (· + n) := by
  induction ks generalizing n with
  | nil => rfl
  | cons k ks ih =>
      rw [List.length_cons, List.range'_succ, List.zip_cons_cons, List.idxOf?_cons]
      by_cases hk : k = s
      · subst hk
        simp
      · rw [List.find?_cons_of_neg (by simpa using hk), ih, if_neg (by simpa using hk),
          Option.map_map]
        congr 1
        funext i
        exact (Nat.succ_add_eq_add_succ i n).symm

/-- The mapping finds the item whose key has the text. -/
theorem mapping_get (htexts : (data.map fun d => text d.pk).Nodup) (s : String) :
    (MenuTree.mapping text data).get s = (data.map fun d => text d.pk).idxOf? s := by
  have hlength : (data.map fun d => text d.pk).length = data.length := List.length_map ..
  have hkeys : (((data.map fun d => text d.pk).zip (List.range data.length)).map
      Prod.fst).Nodup := by
    rwa [List.map_fst_zip (by rw [List.length_range, hlength])]
  rw [MenuTree.mapping, Dict.get, Dict.items_ofList hkeys, List.range_eq_range', ← hlength,
    find?_zip_range]
  simp

/-- `None` is no item. -/
theorem parent_eq_by_text (htexts : (data.map fun d => text d.pk).Nodup)
    (hnone : ∀ d ∈ data, text d.pk ≠ "None")
    (d : Item κ ω) : (MenuTree.mapping text data).get (d.parent.str text) =
    parent_by_text text data d := by
  rw [mapping_get htexts, Parent.str, parent_by_text]
  cases d.parent.text? text with
  | none =>
      rw [Option.getD_none, Option.bind_none, List.idxOf?_eq_none_iff]
      intro hmem
      obtain ⟨d, hd, heq⟩ := List.mem_map.mp hmem
      exact hnone d hd heq
  | some s => rfl

theorem parent_by_text_lt {d : Item κ ω} {p : Nat} (h : parent_by_text text data d = some p) :
    p < data.length := by
  obtain ⟨s, -, hs⟩ := Option.bind_eq_some_iff.mp h
  obtain ⟨hp, -⟩ := List.idxOf?_eq_some_iff.mp hs
  rwa [List.length_map] at hp

/-- What stood among the children before is no item. -/
theorem items_append (hobjects : ∀ d ∈ data, ∀ child ∈ d.children, child.item? = none)
    {tree : Tree ω} {p : Nat}
    {l : List Nat} (h : (tree.dicts p).children = (given data p).children ++ l.map Child.item) :
    tree.items p = l := by
  have hgiven : (given data p).children.filterMap Child.item? = [] := by
    rw [List.filterMap_eq_nil_iff]
    intro child hchild
    unfold given at hchild
    split at hchild
    · next d hd => exact hobjects d (List.mem_of_getElem? hd) child hchild
    · cases hchild
  rw [Tree.items, h, List.filterMap_append, hgiven, List.nil_append, List.filterMap_map]
  exact List.filterMap_some

/-- **Where the texts of the keys differ**, and none is that of `None`, nothing is lost or
repeated. -/
theorem tree_of_texts (htexts : (data.map fun d => text d.pk).Nodup)
    (hnone : ∀ d ∈ data, text d.pk ≠ "None")
    (hobjects : ∀ d ∈ data, ∀ child ∈ d.children, child.item? = none)
    (hacyclic : Acyclic (Above data (parent_by_text text data))) :
    IsForest data (parent_by_text text data) (menu_list_to_tree text data) := by
  obtain ⟨htop, hdicts⟩ := tree_spec text data
  simp only [parent_eq_by_text htexts hnone] at htop hdicts
  refine ⟨?_, htop, fun p => (hdicts p).1, fun p => (hdicts p).2⟩
  have hitems : (menu_list_to_tree text data).items =
      fun p => hung Prod.snd (fun d => parent_by_text text data d.1) data.zipIdx (some p) := by
    funext p
    exact items_append hobjects (hdicts p).1
  have hparent : ∀ d ∈ data.zipIdx, ∀ p, parent_by_text text data d.1 = some p →
      p ∈ data.zipIdx.map Prod.snd := by
    intro d _ p hp
    rw [zipIdx_keys, List.mem_range]
    exact parent_by_text_lt hp
  have honce : (data.zipIdx.map Prod.snd).Nodup := by
    rw [zipIdx_keys]
    exact List.nodup_range
  obtain ⟨l, hl, hperm⟩ := exists_listing_rows honce hparent hacyclic
  rw [zipIdx_keys] at hperm
  rw [hitems, htop]
  exact ⟨l, hl, hperm⟩

end

/-! ### The tree of the menus -/

/-- A dict of `MenuSerializer`. -/
def of_menu (d : Permission.MenuData) : Item Nat Unit where
  pk := d.pk
  parent :=
    match d.parent with
    | .null => .null
    | .pk k => .key k
    | .dict k => .dict k
  children := []
  count := none

section
variable {menus : List Permission.MenuData}

theorem text?_of_menu (d : Permission.MenuData) :
    (of_menu d).parent.text? toString = d.parent.key.map toString := by
  rcases d with ⟨pk, _ | k | _ | k⟩ <;> rfl

theorem texts_of_menus (menus : List Permission.MenuData) :
    ((menus.map of_menu).map fun d => toString d.pk) =
    (menus.map Permission.MenuData.pk).map toString := by
  rw [List.map_map, List.map_map]
  rfl

/-- The place of the parent is the place of its key. -/
theorem parent_of_menu (d : Permission.MenuData) :
    parent_by_text toString (menus.map of_menu) (of_menu d) =
      d.parent.key.bind fun k => (menus.map Permission.MenuData.pk).idxOf? k := by
  rw [parent_by_text, text?_of_menu, texts_of_menus, Option.bind_map]
  congr 1
  funext k
  simp only [Function.comp_apply, List.idxOf?, List.findIdx?_map]
  congr 1
  funext j
  rw [Function.comp_apply, Function.comp_apply, Function.comp_apply, Bool.eq_iff_iff, beq_iff_eq,
    beq_iff_eq,
    toString_injective.eq_iff]

theorem idxOf?_eq_some_iff_of_nodup {l : List Nat} (h : l.Nodup) {k p : Nat} :
    l.idxOf? k = some p ↔ l[p]? = some k := by
  rw [List.idxOf?_eq_some_iff, List.getElem?_eq_some_iff]
  refine exists_congr fun hlt => and_iff_left_of_imp ?_
  rintro rfl j hj heq
  exact hj.ne ((h.getElem_inj_iff).mp heq)

theorem parent_of_menu_iff (hpks : (menus.map Permission.MenuData.pk).Nodup)
    {d : Permission.MenuData} {p k : Nat}
    (hp : (menus.map Permission.MenuData.pk)[p]? = some k) :
    parent_by_text toString (menus.map of_menu) (of_menu d) = some p ↔ d.mapped menus = some k := by
  rw [parent_of_menu, Permission.MenuData.mapped, Option.bind_eq_some_iff,
    Option.filter_eq_some_iff]
  simp only [idxOf?_eq_some_iff_of_nodup hpks, hp, Option.some.injEq]
  constructor
  · rintro ⟨_, hkey, rfl⟩
    exact ⟨hkey, List.contains_iff_mem.mpr (List.mem_of_getElem? hp)⟩
  · rintro ⟨hkey, -⟩
    exact ⟨k, hkey, rfl⟩

theorem parent_of_menu_eq_none (d : Permission.MenuData) :
    parent_by_text toString (menus.map of_menu) (of_menu d) = none ↔ d.mapped menus = none := by
  rw [parent_of_menu, Permission.MenuData.mapped, Option.bind_eq_none_iff,
    Option.filter_eq_none_iff]
  simp only [List.idxOf?_eq_none_iff, List.contains_iff_mem]

/-- The keys of the rows whose places are kept. -/
theorem pks_of_hung {parent : Item Nat Unit → Option Nat} {q : Option Nat}
    {keep : Permission.MenuData → Bool}
    (h : ∀ d, parent (of_menu d) = q ↔ keep d) :
    (hung Prod.snd (fun d => parent d.1) (menus.map of_menu).zipIdx q).filterMap
        ((menus.map Permission.MenuData.pk)[·]?) =
        (menus.filter keep).map Permission.MenuData.pk := by
  have hkeys : ∀ d ∈ menus.zipIdx.filter fun d => keep d.1,
      (menus.map Permission.MenuData.pk)[d.2]? = some d.1.pk := by
    intro d hd
    rw [List.getElem?_map, List.mem_zipIdx_iff_getElem?.mp (List.mem_of_mem_filter hd),
      Option.map_some]
  calc
    _ = (menus.zipIdx.filter fun d => keep d.1).filterMap fun d =>
    (menus.map Permission.MenuData.pk)[d.2]? := by
        rw [hung, List.zipIdx_map, List.filter_map, List.map_map, List.filterMap_map]
        simp only [Function.comp_def, Prod.map_fst, Prod.map_snd, id_eq, h, Bool.decide_eq_true]
    _ = (menus.zipIdx.filter fun d => keep d.1).map fun d => d.1.pk := by
        rw [List.filterMap_congr hkeys]
        exact congrFun List.filterMap_eq_map _
    _ = ((menus.zipIdx.map Prod.fst).filter keep).map Permission.MenuData.pk := by
        rw [List.filter_map, List.map_map]
        rfl
    _ = (menus.filter keep).map Permission.MenuData.pk := by rw [List.zipIdx_map_fst]

/-- **The tree of the menus** is the tree of their dicts. -/
theorem tree_of_menus (hpks : (menus.map Permission.MenuData.pk).Nodup) :
    let tree := menu_list_to_tree toString (menus.map of_menu)
    let pk := fun i => (menus.map Permission.MenuData.pk)[i]?
    tree.container.filterMap pk = (Permission.menu_list_to_tree menus).container ∧
      ∀ p k, pk p = some k →
        (tree.items p).filterMap pk = (Permission.menu_list_to_tree menus).children k := by
  intro tree pk
  have htexts : ((menus.map of_menu).map fun d => toString d.pk).Nodup := by
    rw [texts_of_menus]
    exact hpks.map toString_injective
  have hnone : ∀ d ∈ menus.map of_menu, toString d.pk ≠ "None" := by
    intro d _ h
    have hdigit : 'N'.isDigit := isDigit_of_mem_toString (n := d.pk) (by rw [h]; decide)
    cases hdigit
  obtain ⟨htop, hdicts⟩ := tree_spec toString (menus.map of_menu)
  simp only [parent_eq_by_text htexts hnone] at htop hdicts
  obtain ⟨hcontainer, hchildren⟩ := Permission.menu_list_to_tree_spec menus
  refine ⟨?_, fun p k hp => ?_⟩
  · rw [htop, hcontainer]
    exact pks_of_hung fun d => (parent_of_menu_eq_none d).trans decide_eq_true_iff.symm
  · have hobjects : ∀ d ∈ menus.map of_menu, ∀ child ∈ d.children, child.item? = none := by
      simp [of_menu]
    rw [items_append hobjects (hdicts p).1, hchildren]
    exact pks_of_hung fun d => (parent_of_menu_iff hpks hp).trans decide_eq_true_iff.symm

end

/-! ### Keys of two types -/

/-- A key as Python has it. -/
inductive PyKey
  | int (n : Nat)
  | text (s : String)
  deriving DecidableEq

def PyKey.str : PyKey → String
  | .int n => toString n
  | .text s => s

def PyKey.alone (pk : PyKey) (parent : Parent PyKey) : Item PyKey Unit := ⟨pk, parent, [], none⟩

/-- The second item is the parent of the first. -/
def child_first : List (Item PyKey Unit) :=
  [PyKey.alone (.int 2) (.dict (some (.int 1))), PyKey.alone (.int 1) .null]

theorem tree_of_texts_child_first :
    IsForest child_first (parent_by_text PyKey.str child_first)
    (menu_list_to_tree PyKey.str child_first) := by
  have habove : ∀ a b, Above child_first (parent_by_text PyKey.str child_first) a b → a < b := by
    intro a b hab
    obtain ⟨d, hd, hp, rfl⟩ := mem_hung.mp hab
    rcases List.mem_pair.mp hd with rfl | rfl
    · obtain rfl : 1 = b := Option.some.inj hp
      exact Nat.lt_add_one 0
    · cases hp
  refine tree_of_texts ?_ ?_ ?_ ?_
  · decide
  · decide
  · simp [child_first, PyKey.alone]
  · exact acyclic_swap.mp (acyclic_of_lt id fun a b hab => habove b a hab)

/-- A number, and an item under the text of the number. -/
def number_and_text : List (Item PyKey Unit) :=
  [PyKey.alone (.int 1) .null, PyKey.alone (.int 2) (.key (.text "1"))]

/-- **A key and its text are one**: an item hangs under another whose key is not its parent. -/
theorem tree_mixes_types :
    ¬ ∀ data : List (Item PyKey Unit), (data.map Item.pk).Nodup → (∀ d ∈ data, d.children = []) →
      Acyclic (Above data (parent_by_key data)) →
        IsForest data (parent_by_key data) (menu_list_to_tree PyKey.str data) := by
  intro hall
  have hnone : ∀ d ∈ number_and_text.zipIdx, parent_by_key number_and_text d.1 = none := by decide
  have hacyclic : Acyclic (Above number_and_text (parent_by_key number_and_text)) := by
    refine acyclic_of_lt id fun a b hab => ?_
    obtain ⟨d, hd, hp, -⟩ := mem_hung.mp hab
    rw [hnone d hd] at hp
    cases hp
  have htop := (hall number_and_text (by decide)
      (by simp [number_and_text, PyKey.alone]) hacyclic).top
  revert htop
  decide

end InfraHub.Common.MenuTree
