import InfraHub.Lib.Gather
import InfraHub.Lib.Text
import Mathlib.Data.List.Nodup

/-!
# Drf — FormData

Nested data as the flat keys of a form, and back.

axios sends a string for each leaf, under the path to it (`flatten`).  `format_data` puts one flat key
after another into a tree.  The call for a part of a path has a tree of its own, and the part that it
returns replaces what was there: below the second level the last leaf is left (`format_data_flatten`).
`format_data_iff` says which records survive.
-/

namespace InfraHub.Drf
open InfraHub.Lib (Str str decimal strOfNat int int_strOfNat strOfNat_injective strOfNat_ne_nil
  mem_strOfNat digit_of_mem_strOfNat decimal_of_ascii forall₂_of_mapM exists_of_mem_mapM
  exists_result_of_mem mapM_of_forall)

/-- A string, a dict or a list. -/
inductive Value where
  | leaf (value : Str)
  | dict (items : List (Str × Value))
  | list (items : List Value)

/-- The pairs of a dict, in the order of their insertion. -/
abbrev Items := List (Str × Value)

/-- `d.get(key)`. -/
def get (d : Items) (key : Str) : Option Value := (d.find? fun p => p.1 = key).map Prod.snd

/-- `d[key] = value`. -/
def set (d : Items) (key : Str) (value : Value) : Items :=
  if key ∈ d.map Prod.fst then d.map fun p => if p.1 = key then (key, value) else p
  else d ++ [(key, value)]

/-- `bool(value)`. -/
def Value.truthy : Value → Bool
  | .leaf value => value ≠ []
  | .dict items => !items.isEmpty
  | .list items => !items.isEmpty

/-- An element of what `dict.update` takes: a key and a value. -/
def Value.pair : Value → Option (Str × Value)
  | .leaf [key, value] => some ([key], .leaf [value])
  | .dict [(key, _), (value, _)] => some (key, .leaf value)
  | .list [.leaf key, value] => some (key, value)
  | _ => none

/-- `d.update(value)`.  The characters of a string are no pairs. -/
def update (d : Items) : Value → Option Items
  | .dict items => some (items.foldl (fun d p => set d p.1 p.2) d)
  | .leaf value => if value = [] then some d else none
  | .list items => items.foldlM (fun d item => item.pair.map fun p => set d p.1 p.2) d

/-- `re.match(r"\d+", key)`. -/
def matches_digit (key : Str) : Bool := key.head?.any fun c => (decimal c).isSome

/-- The branch for lists: what is put under the key.  `info` is what was there. -/
def put_list (info : Option Value) (result : Items) : Option Value :=
  match result with
  | [] => none
  | (lk, item) :: _ => (int lk).bind fun position =>
    match info.filter Value.truthy with
    | none => if position = 0 then some (.list [item]) else none
    | some (.list items) =>
      let items := if position + 1 > items.length then items ++ [.dict []] else items
      match items[position]? with
      | some (.dict d) => (update d item).map fun d => .list (items.set position (.dict d))
      | _ => none
    -- a dict and a string have no such element, and no `append`
    | some _ => none

/-- The branch for dicts. -/
def put_dict (info : Option Value) (result : Items) : Option Value :=
  match info.filter Value.truthy with
  | none => some (.dict result)
  | some (.dict d) => (update d (.dict result)).map .dict
  | some _ => none

/-- One round of the loop, for a key that is split into `key_split`.  The call for the rest of the key
joins the parts again, and splits them.  `pks` is what `getlist("pks")` gives, if the data has it. -/
def put (pks : Option (List Str)) (new_data : Items) : List Str → Str → Option Items
  | [], _ => none
  | [key], value =>
    match pks with
    | some values =>
      if key = str "pks" then some (set new_data key (.list (values.map .leaf)))
      else some (set new_data key (.leaf value))
    | none => some (set new_data key (.leaf value))
  | key :: index :: rest, value =>
    (put none [] (index :: rest) value).bind fun result =>
      let info := get new_data key
      (if matches_digit index then put_list info result else put_dict info result).map (set new_data key)

/-- A dict, or a `QueryDict` with a list of values for each key. -/
inductive FormData
  | dict (items : List (Str × Str))
  | query (lists : List (Str × List Str))

/-- `data.items()`: the last value of each key. -/
def FormData.items : FormData → List (Str × Str)
  | .dict items => items
  | .query lists => lists.filterMap fun p => p.2.getLast?.map fun value => (p.1, value)

/-- `data.getlist("pks")`, which a dict does not have. -/
def FormData.pks : FormData → Option (List Str)
  | .dict _ => none
  | .query lists => some (((lists.find? fun p => p.1 = str "pks").map Prod.snd).getD [])

def format_data (data : FormData) : Option Items :=
  data.items.foldlM (fun new_data p => put data.pks new_data (p.1.splitOn '.'.toNat) p.2) []

/-! ### Flat keys -/

mutual

/-- The leaves, with the paths to them. -/
def Value.leaves : Value → List (List Str × Str)
  | .leaf value => [([], value)]
  | .dict items => dictLeaves items
  | .list items => listLeaves 0 items

def dictLeaves : Items → List (List Str × Str)
  | [] => []
  | (key, value) :: items =>
    (value.leaves.map fun leaf => (key :: leaf.1, leaf.2)) ++ dictLeaves items

def listLeaves (i : Nat) : List Value → List (List Str × Str)
  | [] => []
  | value :: items =>
    (value.leaves.map fun leaf => (strOfNat i :: leaf.1, leaf.2)) ++ listLeaves (i + 1) items

end

/-- The key of a path: `path.to.leaf`. -/
def joined (path : List Str) : Str := [('.'.toNat)].intercalate path

/-- The call for the rest of a key is `format_data` of a dict with one pair. -/
theorem format_data_joined {rest : List Str} (hne : rest ≠ []) (h : ∀ part ∈ rest, '.'.toNat ∉ part)
    (value : Str) : format_data (.dict [(joined rest, value)]) = put none [] rest value := by
  have hsplit : (joined rest).splitOn '.'.toNat = rest := List.splitOn_intercalate _ h hne
  simp only [format_data, FormData.items, FormData.pks, List.foldlM_cons, List.foldlM_nil, hsplit]
  cases put none [] rest value with
  | none => rfl
  | some d => rfl

/-- One key for each leaf. -/
def flatten (items : Items) : List (Str × Str) :=
  (dictLeaves items).map fun leaf => (joined leaf.1, leaf.2)

/-- The two forms in which the flat keys come. -/
def FormData.of (query : Bool) (items : List (Str × Str)) : FormData :=
  if query then .query (items.map fun p => (p.1, [p.2])) else .dict items

/-! ### Records -/

/-- A key without a point that does not start with a digit. -/
def KeyOk (key : Str) : Prop := '.'.toNat ∉ key ∧ ¬ matches_digit key

instance : DecidablePred KeyOk := fun _ => inferInstanceAs (Decidable (_ ∧ _))

/-- Strings, dicts that are not empty, and lists of dicts that are not empty. -/
inductive Value.Ok : Value → Prop
  | leaf (value : Str) : Value.Ok (.leaf value)
  | dict {items : Items} (hne : items ≠ []) (hkeys : (items.map Prod.fst).Nodup)
      (hnames : ∀ item ∈ items, KeyOk item.1) (hitems : ∀ item ∈ items, Value.Ok item.2) :
      Value.Ok (.dict items)
  | list {items : List Value} (hne : items ≠ []) (hdicts : ∀ item ∈ items, ∃ d, item = .dict d)
      (hitems : ∀ item ∈ items, Value.Ok item) : Value.Ok (.list items)

/-- A record: distinct keys, and values of these kinds. -/
structure Record where
  items : Items
  keys : (items.map Prod.fst).Nodup
  names : ∀ item ∈ items, KeyOk item.1
  ok : ∀ item ∈ items, item.2.Ok

mutual

/-- `==` of Python.  The order of the keys does not count. -/
def Value.eq : Value → Value → Bool
  | .leaf value, .leaf value' => value = value'
  | .dict items, .dict items' => items.length = items'.length && eqItems items items'
  | .list items, .list items' => eqLists items items'
  | _, _ => false

def eqItems : Items → Items → Bool
  | [], _ => true
  | (key, value) :: items, items' =>
    (match get items' key with
      | some value' => value.eq value'
      | none => false) && eqItems items items'

def eqLists : List Value → List Value → Bool
  | [], [] => true
  | value :: items, value' :: items' => value.eq value' && eqLists items items'
  | _, _ => false

end

/-- Each of the values has one leaf. -/
def Single (items : Items) : Prop := ∀ item ∈ items, item.2.leaves.length = 1

/-- What survives at the top: a string, which is not the list `pks` of a `QueryDict`; a dict, or a list
of dicts, each of whose values has one leaf. -/
def Shallow (query : Bool) (item : Str × Value) : Prop :=
  match item.2 with
  | .leaf _ => ¬ (query ∧ item.1 = str "pks")
  | .dict d => Single d
  | .list items => ∀ d, .dict d ∈ items → Single d

/-! ### One leaf -/

/-- A value put into a list or a dict of its own. -/
def wrap (key : Str) (value : Value) : Option Value :=
  if matches_digit key then
    (int key).bind fun position => if position = 0 then some (.list [value]) else none
  else some (.dict [(key, value)])

/-- The tree that one leaf makes. -/
def chain : List Str → Str → Option Value
  | [], value => some (.leaf value)
  | key :: path, value => (chain path value).bind (wrap key)

section
variable {key : Str} {path : List Str} {value : Str} {v w : Value} {d items : Items}

/-- A list under a number, which is zero, and a dict under another key. -/
theorem wrap_cases (h : wrap key w = some v) :
    matches_digit key = true ∧ v = .list [w] ∨ matches_digit key = false ∧ v = .dict [(key, w)] := by
  rw [wrap] at h
  cases hdigit : matches_digit key with
  | true =>
      rw [if_pos hdigit] at h
      obtain ⟨position, -, h⟩ := Option.bind_eq_some_iff.mp h
      obtain ⟨-, h⟩ := Option.ite_none_right_eq_some.mp h
      exact .inl ⟨rfl, (Option.some.inj h).symm⟩
  | false =>
      rw [if_neg (Bool.eq_false_iff.mp hdigit)] at h
      exact .inr ⟨rfl, (Option.some.inj h).symm⟩

@[simp] theorem get_nil : get [] key = none := rfl

@[simp] theorem set_nil {x : Value} : set [] key x = [(key, x)] := rfl

theorem put_single : put none [] (key :: path) value = (chain path value).map fun v => [(key, v)] := by
  induction path generalizing key with
  | nil => rfl
  | cons index path ih =>
      unfold put chain
      rw [ih]
      cases hrest : chain path value with
      | none => rfl
      | some v =>
          cases hdigit : matches_digit index with
          | false => simp [put_dict, wrap, hdigit]
          | true =>
              cases hint : int index with
              | none => simp [put_list, wrap, hdigit, hint]
              | some position =>
                  by_cases hposition : position = 0
                  · simp [put_list, wrap, hdigit, hint, hposition]
                  · simp [put_list, wrap, hdigit, hint, hposition]

theorem matches_strOfNat (n : Nat) : matches_digit (strOfNat n) := by
  obtain ⟨c, rest, hn⟩ := List.exists_cons_of_ne_nil (strOfNat_ne_nil n)
  obtain ⟨a, ha, rfl⟩ := mem_strOfNat (hn ▸ List.mem_cons_self)
  simp [matches_digit, hn, decimal_of_ascii ha]

theorem leaves_ne_nil (h : v.Ok) : v.leaves ≠ [] := by
  induction h with
  | leaf value => simp [Value.leaves]
  | @dict items hne _ _ _ ih =>
      obtain ⟨item, items, rfl⟩ := List.exists_cons_of_ne_nil hne
      simp [Value.leaves, dictLeaves, ih item List.mem_cons_self]
  | @list items hne _ _ ih =>
      obtain ⟨item, items, rfl⟩ := List.exists_cons_of_ne_nil hne
      simp [Value.leaves, listLeaves, ih item List.mem_cons_self]

/-- A list as a dict with the positions as keys. -/
def numbered (i : Nat) (items : List Value) : Items :=
  (items.zipIdx i).map fun item => (strOfNat item.2, item.1)

theorem listLeaves_eq {i : Nat} {items : List Value} :
    listLeaves i items = dictLeaves (numbered i items) := by
  induction items generalizing i with
  | nil => rfl
  | cons item items ih => simp [listLeaves, numbered, dictLeaves, ih]

/-- The only leaf is in the only value. -/
theorem dictLeaves_eq_singleton {leaf : List Str × Str} (hne : ∀ item ∈ items, item.2.leaves ≠ [])
    (h : dictLeaves items = [leaf]) :
    ∃ key v path, items = [(key, v)] ∧ v.leaves = [(path, leaf.2)] ∧ leaf.1 = key :: path := by
  cases items with
  | nil => cases h
  | cons item items =>
      obtain ⟨hitem, hitems⟩ := List.forall_mem_cons.mp hne
      rcases List.append_eq_singleton_iff.mp h with ⟨hnone, -⟩ | ⟨hone, hrest⟩
      · exact absurd (List.map_eq_nil_iff.mp hnone) hitem
      · obtain ⟨⟨path, value⟩, hleaves, rfl⟩ := List.map_eq_singleton_iff.mp hone
        refine ⟨item.1, item.2, path, ?_, hleaves, rfl⟩
        cases items with
        | nil => rfl
        | cons item' items =>
            have hitem' := hitems item' List.mem_cons_self
            simp [dictLeaves, hitem'] at hrest

/-- **A value with one leaf is the tree that its leaf makes.** -/
theorem chain_of_single (h : v.Ok) (hleaves : v.leaves = [(path, value)]) :
    chain path value = some v := by
  induction h generalizing path value with
  | leaf value' =>
      obtain ⟨rfl, rfl⟩ : [] = path ∧ value' = value := by simpa [Value.leaves] using hleaves
      rfl
  | @dict items hne _ hnames hitems ih =>
      obtain ⟨key, w, path', rfl, hw, rfl⟩ :=
        dictLeaves_eq_singleton (fun item hitem => leaves_ne_nil (hitems item hitem)) hleaves
      have hkey := (hnames _ List.mem_cons_self).2
      simp [chain, ih _ List.mem_cons_self hw, wrap, hkey]
  | @list items hne _ hitems ih =>
      have hleaves' : dictLeaves (numbered 0 items) = [(path, value)] := listLeaves_eq ▸ hleaves
      obtain ⟨key, w, path', hnumbered, hw, rfl⟩ := dictLeaves_eq_singleton (fun item hitem => by
        obtain ⟨p, hp, rfl⟩ := List.mem_map.mp hitem
        exact leaves_ne_nil (hitems _ (List.fst_mem_of_mem_zipIdx hp))) hleaves'
      obtain ⟨⟨w', j⟩, hzip, hpair⟩ := List.map_eq_singleton_iff.mp hnumbered
      obtain ⟨rfl, rfl⟩ : strOfNat j = key ∧ w' = w := by simpa using hpair
      cases items with
      | nil => cases hzip
      | cons item items =>
          obtain ⟨⟨rfl, rfl⟩, hnil⟩ : (item = w' ∧ 0 = j) ∧ items = [] := by simpa using hzip
          subst hnil
          simp [chain, ih _ List.mem_cons_self hw, wrap, matches_strOfNat, int_strOfNat]

/-- The tree that a leaf makes has one leaf. -/
theorem single_of_chain (h : chain path value = some v) : v.leaves.length = 1 := by
  induction path generalizing v with
  | nil =>
      cases h
      rfl
  | cons key path ih =>
      obtain ⟨w, hw, hwrap⟩ := Option.bind_eq_some_iff.mp h
      have hone := ih hw
      rcases wrap_cases hwrap with ⟨-, rfl⟩ | ⟨-, rfl⟩
      · simp [Value.leaves, listLeaves, hone]
      · simp [Value.leaves, dictLeaves, hone]

/-- Only itself is equal to the tree that a leaf makes. -/
theorem eq_chain (h : chain path value = some w) (heq : w.eq v) : w = v := by
  induction path generalizing w v with
  | nil =>
      cases h
      cases v with
      | leaf value' => simpa [Value.eq] using heq
      | dict _ => cases heq
      | list _ => cases heq
  | cons key path ih =>
      obtain ⟨x, hx, hwrap⟩ := Option.bind_eq_some_iff.mp h
      rcases wrap_cases hwrap with ⟨-, rfl⟩ | ⟨-, rfl⟩
      · cases v with
        | leaf _ => cases heq
        | dict _ => cases heq
        | list items =>
            cases items with
            | nil => cases heq
            | cons item items =>
                cases items with
                | nil =>
                    have hitem : x.eq item := by simpa [Value.eq, eqLists] using heq
                    rw [ih hx hitem]
                | cons _ _ => simp [Value.eq, eqLists] at heq
      · cases v with
        | leaf _ => cases heq
        | list _ => cases heq
        | dict items =>
            simp only [Value.eq, eqItems, Bool.and_true, Bool.and_eq_true, decide_eq_true_eq,
              List.length_singleton] at heq
            obtain ⟨hlength, heq⟩ := heq
            obtain ⟨⟨key', x'⟩, rfl⟩ := List.length_eq_one_iff.mp hlength.symm
            by_cases hkey : key' = key
            · subst hkey
              have hitem : x.eq x' := by simpa [get] using heq
              rw [ih hx hitem]
            · simp [get, hkey] at heq

end

/-! ### The leaves of a dict -/

section
variable {key : Str} {d : Items}

theorem set_of_notMem {v : Value} (h : key ∉ d.map Prod.fst) : set d key v = d ++ [(key, v)] :=
  if_neg h

theorem get_of_notMem (h : key ∉ d.map Prod.fst) : get d key = none := by
  have hnone : d.find? (fun p => p.1 = key) = none := by
    refine List.find?_eq_none.mpr fun p hp hkey => ?_
    exact h (of_decide_eq_true hkey ▸ List.mem_map_of_mem hp)
  rw [get, hnone, Option.map_none]

theorem get_last (h : key ∉ d.map Prod.fst) (v : Value) : get (d ++ [(key, v)]) key = some v := by
  have hnone := get_of_notMem h
  rw [get, Option.map_eq_none_iff] at hnone
  simp [get, List.find?_append, hnone]

theorem set_last (h : key ∉ d.map Prod.fst) (v w : Value) :
    set (d ++ [(key, v)]) key w = d ++ [(key, w)] := by
  have hsame : d.map (fun p => if p.1 = key then (key, w) else p) = d := by
    refine (List.map_congr_left fun p hp => if_neg ?_).trans (List.map_id _)
    rintro rfl
    exact h (List.mem_map_of_mem hp)
  simp [set, hsame]

/-- The tree of a leaf, at its key in the dict. -/
def dictStep (d : Items) (leaf : List Str × Str) : Option Items :=
  match leaf.1 with
  | [] => none
  | key :: path => (chain path leaf.2).map (set d key)

/-- What is left of the leaves of one value: the tree of the last one, if all of them make a tree. -/
def lastChain (leaves : List (List Str × Str)) : Option Value :=
  (leaves.mapM fun leaf => chain leaf.1 leaf.2).bind List.getLast?

/-- What is left of a dict. -/
def decodeDict (items : Items) : Option Items :=
  items.mapM fun item => (lastChain item.2.leaves).map fun v => (item.1, v)

/-- The leaves of one value, one after another. -/
theorem foldlM_dictStep {leaves : List (List Str × Str)} (hkey : key ∉ d.map Prod.fst)
    (hne : leaves ≠ []) :
    (leaves.map fun leaf => (key :: leaf.1, leaf.2)).foldlM dictStep d =
      (lastChain leaves).map fun v => d ++ [(key, v)] := by
  -- from the second on, a leaf replaces what is there
  have hrest (leaves : List (List Str × Str)) (v : Value) :
      (leaves.map fun leaf => (key :: leaf.1, leaf.2)).foldlM dictStep (d ++ [(key, v)]) =
        (leaves.mapM fun leaf => chain leaf.1 leaf.2).map fun vs =>
          d ++ [(key, (v :: vs).getLast (List.cons_ne_nil v vs))] := by
    induction leaves generalizing v with
    | nil => simp
    | cons leaf leaves ih =>
        cases hleaf : chain leaf.1 leaf.2 with
        | none => simp [dictStep, hleaf]
        | some w =>
            simp only [List.map_cons, List.foldlM_cons, dictStep, hleaf, Option.map_some,
              set_last hkey, Option.bind_eq_bind, Option.bind_some, ih, List.mapM_cons,
              Option.pure_def]
            cases leaves.mapM fun leaf => chain leaf.1 leaf.2 with
            | none => rfl
            | some vs => simp
  obtain ⟨leaf, leaves, rfl⟩ := List.exists_cons_of_ne_nil hne
  cases hleaf : chain leaf.1 leaf.2 with
  | none => simp [dictStep, lastChain, hleaf]
  | some w =>
      simp only [List.map_cons, List.foldlM_cons, dictStep, hleaf, Option.map_some,
        set_of_notMem hkey, Option.bind_eq_bind, Option.bind_some, hrest, lastChain, List.mapM_cons,
        Option.pure_def]
      cases leaves.mapM fun leaf => chain leaf.1 leaf.2 with
      | none => rfl
      | some vs => simp [List.getLast?_eq_some_getLast]

/-- **The leaves of the values one after another**: what is left of each value. -/
theorem foldlM_blocks {step : Items → List Str × Str → Option Items} {left : Str × Value → Option Value}
    {items : Items}
    (hstep : ∀ item ∈ items, ∀ d : Items, item.1 ∉ d.map Prod.fst →
      (item.2.leaves.map fun leaf => (item.1 :: leaf.1, leaf.2)).foldlM step d =
        (left item).map fun v => d ++ [(item.1, v)])
    (hkeys : (items.map Prod.fst).Nodup) (hnew : ∀ item ∈ items, item.1 ∉ d.map Prod.fst) :
    (dictLeaves items).foldlM step d =
      (items.mapM fun item => (left item).map fun v => (item.1, v)).map fun rest => d ++ rest := by
  induction items generalizing d with
  | nil => simp [dictLeaves]
  | cons item items ih =>
      obtain ⟨hitem, hitems⟩ := List.forall_mem_cons.mp hstep
      obtain ⟨hfresh, hkeys⟩ := List.nodup_cons.mp hkeys
      obtain ⟨hnew₁, hnew⟩ := List.forall_mem_cons.mp hnew
      simp only [dictLeaves, List.foldlM_append, hitem d hnew₁, List.mapM_cons]
      cases left item with
      | none => rfl
      | some v =>
          have hnew' : ∀ item' ∈ items, item'.1 ∉ (d ++ [(item.1, v)]).map Prod.fst := by
            intro item' hitem'
            have hne' : item'.1 ≠ item.1 := fun heq => hfresh (heq ▸ List.mem_map_of_mem hitem')
            simpa [hne'] using hnew item' hitem'
          simp only [Option.map_some, Option.bind_eq_bind, Option.bind_some, ih hitems hkeys hnew',
            Option.pure_def]
          cases items.mapM fun item => (left item).map fun v => (item.1, v) with
          | none => rfl
          | some rest => simp

end

/-! ### The leaves under one key -/

/-- What is put under a key of the top for one leaf. -/
def fill (info : Option Value) (leaf : List Str × Str) : Option Value :=
  match leaf.1 with
  | [] => none
  | index :: rest =>
    (put none [] (index :: rest) leaf.2).bind fun result =>
      if matches_digit index then put_list info result else put_dict info result

def fillAll (info : Option Value) (leaves : List (List Str × Str)) : Option (Option Value) :=
  leaves.foldlM (fun info leaf => (fill info leaf).map some) info

/-- What is left of an element of a list. -/
def decodeItem : Value → Option Value
  | .dict d => (decodeDict d).map .dict
  | _ => none

/-- What is left of a value at the top. -/
def decode : Value → Option Value
  | .leaf value => some (.leaf value)
  | .dict d => (decodeDict d).map .dict
  | .list items => (items.mapM decodeItem).map .list

section
variable {pks : Option (List Str)} {d : Items} {key : Str} {leaves : List (List Str × Str)}

theorem put_nested {leaf : List Str × Str} (h : leaf.1 ≠ []) :
    put pks d (key :: leaf.1) leaf.2 = (fill (get d key) leaf).map (set d key) := by
  obtain ⟨path, value⟩ := leaf
  obtain ⟨index, rest, rfl⟩ := List.exists_cons_of_ne_nil h
  simp only [put, fill]
  cases put none [] (index :: rest) value with
  | none => rfl
  | some result => rfl

/-- **The leaves under a key of the top** are put there one after another. -/
theorem foldlM_put (hpaths : ∀ leaf ∈ leaves, leaf.1 ≠ []) (hne : leaves ≠ [])
    (hkey : key ∉ d.map Prod.fst) :
    (leaves.map fun leaf => (key :: leaf.1, leaf.2)).foldlM (fun d leaf => put pks d leaf.1 leaf.2) d =
      (fillAll none leaves).join.map fun v => d ++ [(key, v)] := by
  have hrest (leaves : List (List Str × Str)) (hpaths : ∀ leaf ∈ leaves, leaf.1 ≠ []) (v : Value) :
      (leaves.map fun leaf => (key :: leaf.1, leaf.2)).foldlM (fun d leaf => put pks d leaf.1 leaf.2)
          (d ++ [(key, v)]) =
        (fillAll (some v) leaves).join.map fun v => d ++ [(key, v)] := by
    induction leaves generalizing v with
    | nil => rfl
    | cons leaf leaves ih =>
        obtain ⟨hleaf, hpaths⟩ := List.forall_mem_cons.mp hpaths
        simp only [List.map_cons, List.foldlM_cons, put_nested hleaf, get_last hkey, fillAll]
        cases fill (some v) leaf with
        | none => rfl
        | some w =>
            simp only [Option.map_some, Option.bind_eq_bind, Option.bind_some, set_last hkey]
            exact ih hpaths w
  obtain ⟨leaf, leaves, rfl⟩ := List.exists_cons_of_ne_nil hne
  obtain ⟨hleaf, hpaths⟩ := List.forall_mem_cons.mp hpaths
  simp only [List.map_cons, List.foldlM_cons, put_nested hleaf, get_of_notMem hkey, fillAll]
  cases fill none leaf with
  | none => rfl
  | some w =>
      simp only [Option.map_some, Option.bind_eq_bind, Option.bind_some, set_of_notMem hkey]
      exact hrest leaves hpaths w

/-- Leaves that are put into a dict, wherever this dict is (`F`) and however they lead there (`m`). -/
theorem fillAll_of_step {F : Items → Value} {m : List Str × Str → List Str × Str} {info : Option Value}
    (hinfo : ∀ leaf ∈ leaves, fill info (m leaf) = (dictStep d leaf).map F)
    (hstep : ∀ d, ∀ leaf ∈ leaves, fill (some (F d)) (m leaf) = (dictStep d leaf).map F)
    (hne : leaves ≠ []) :
    fillAll info (leaves.map m) = (leaves.foldlM dictStep d).map fun d => some (F d) := by
  have hrest (leaves : List (List Str × Str))
      (hstep : ∀ d, ∀ leaf ∈ leaves, fill (some (F d)) (m leaf) = (dictStep d leaf).map F)
      (d : Items) :
      fillAll (some (F d)) (leaves.map m) = (leaves.foldlM dictStep d).map fun d => some (F d) := by
    induction leaves generalizing d with
    | nil => rfl
    | cons leaf leaves ih =>
        simp only [fillAll, List.map_cons, List.foldlM_cons, hstep d leaf List.mem_cons_self]
        cases dictStep d leaf with
        | none => rfl
        | some d' => exact ih (fun d leaf hleaf => hstep d leaf (List.mem_cons_of_mem _ hleaf)) d'
  obtain ⟨leaf, leaves, rfl⟩ := List.exists_cons_of_ne_nil hne
  simp only [fillAll, List.map_cons, List.foldlM_cons, hinfo leaf List.mem_cons_self]
  cases dictStep d leaf with
  | none => rfl
  | some d' => exact hrest leaves (fun d leaf hleaf => hstep d leaf (List.mem_cons_of_mem _ hleaf)) d'

/-- A leaf of a dict. -/
theorem fill_dict {path : List Str} {value : Str} (hdigit : ¬ matches_digit key) :
    fill none (key :: path, value) = (dictStep [] (key :: path, value)).map .dict ∧
      ∀ d, fill (some (.dict d)) (key :: path, value) =
        (dictStep d (key :: path, value)).map .dict := by
  simp only [fill, put_single, dictStep, hdigit]
  cases chain path value with
  | none => exact ⟨rfl, fun _ => rfl⟩
  | some v =>
      refine ⟨rfl, fun d => ?_⟩
      cases d with
      | nil => rfl
      | cons _ _ => rfl

/-- A new element of a list. -/
theorem put_list_new (ys : List Value) (v : Value) :
    put_list (if ys = [] then none else some (.list ys)) [(strOfNat ys.length, .dict [(key, v)])] =
      some (.list (ys ++ [.dict [(key, v)]])) := by
  cases ys with
  | nil => simp [put_list, int_strOfNat]
  | cons y ys =>
      have hinfo : (some (Value.list (y :: ys))).filter Value.truthy = some (.list (y :: ys)) := by
        simp [Value.truthy]
      simp [put_list, int_strOfNat, hinfo, update]

/-- The last element of a list. -/
theorem put_list_last (ys : List Value) (d : Items) (v : Value) :
    put_list (some (.list (ys ++ [.dict d]))) [(strOfNat ys.length, .dict [(key, v)])] =
      some (.list (ys ++ [.dict (set d key v)])) := by
  have hinfo : (some (Value.list (ys ++ [.dict d]))).filter Value.truthy =
      some (.list (ys ++ [.dict d])) := by
    simp [Value.truthy]
  simp [put_list, int_strOfNat, hinfo, update]

/-- A leaf of an element of a list: of a new one, and of the last one. -/
theorem fill_list {path : List Str} {value : Str} (hdigit : ¬ matches_digit key) (ys : List Value) :
    fill (if ys = [] then none else some (.list ys)) (strOfNat ys.length :: key :: path, value) =
        (dictStep [] (key :: path, value)).map (fun d => .list (ys ++ [.dict d])) ∧
      ∀ d, fill (some (.list (ys ++ [.dict d]))) (strOfNat ys.length :: key :: path, value) =
        (dictStep d (key :: path, value)).map fun d => .list (ys ++ [.dict d]) := by
  have hput : put none [] (strOfNat ys.length :: key :: path) value =
      (chain path value).map fun v => [(strOfNat ys.length, .dict [(key, v)])] := by
    rw [put_single, chain]
    cases chain path value with
    | none => rfl
    | some v => simp [wrap, hdigit]
  simp only [fill, hput, dictStep, matches_strOfNat, if_true]
  cases chain path value with
  | none => exact ⟨rfl, fun _ => rfl⟩
  | some v => exact ⟨put_list_new ys v, fun d => put_list_last ys d v⟩

/-- The paths of a dict start with its keys. -/
theorem mem_dictLeaves {items : Items} {leaf : List Str × Str} (h : leaf ∈ dictLeaves items) :
    ∃ item ∈ items, ∃ leaf' ∈ item.2.leaves, leaf = (item.1 :: leaf'.1, leaf'.2) := by
  induction items with
  | nil => cases h
  | cons item items ih =>
      rcases List.mem_append.mp h with h | h
      · obtain ⟨leaf', hleaf', rfl⟩ := List.mem_map.mp h
        exact ⟨item, List.mem_cons_self, leaf', hleaf', rfl⟩
      · obtain ⟨item', hitem', hleaf⟩ := ih h
        exact ⟨item', List.mem_cons_of_mem _ hitem', hleaf⟩

theorem dictLeaves_ne_nil {items : Items} (hne : items ≠ []) (hok : ∀ item ∈ items, item.2.Ok) :
    dictLeaves items ≠ [] := by
  obtain ⟨item, items, rfl⟩ := List.exists_cons_of_ne_nil hne
  simp [dictLeaves, leaves_ne_nil (hok item List.mem_cons_self)]

/-- **The leaves of one dict**, wherever it is. -/
theorem fillAll_items {items : Items} (h : (Value.dict items).Ok) {F : Items → Value}
    {m : List Str × Str → List Str × Str} {info : Option Value}
    (hfill : ∀ key path value, ¬ matches_digit key →
      fill info (m (key :: path, value)) = (dictStep [] (key :: path, value)).map F ∧
        ∀ d, fill (some (F d)) (m (key :: path, value)) = (dictStep d (key :: path, value)).map F) :
    fillAll info ((dictLeaves items).map m) = (decodeDict items).map fun d => some (F d) := by
  cases h with
  | dict hne hkeys hnames hok =>
      have hleaf (leaf : List Str × Str) (hleaf : leaf ∈ dictLeaves items) :
          fill info (m leaf) = (dictStep [] leaf).map F ∧
            ∀ d, fill (some (F d)) (m leaf) = (dictStep d leaf).map F := by
        obtain ⟨item, hitem, leaf', -, rfl⟩ := mem_dictLeaves hleaf
        exact hfill item.1 leaf'.1 leaf'.2 (hnames item hitem).2
      have hleaves := foldlM_blocks (d := []) (fun item hitem d hfresh =>
        foldlM_dictStep (d := d) hfresh (leaves_ne_nil (hok item hitem))) hkeys (by simp)
      rw [fillAll_of_step (fun leaf h => (hleaf leaf h).1) (fun d leaf h => (hleaf leaf h).2 d)
        (dictLeaves_ne_nil hne hok), hleaves, decodeDict]
      cases items.mapM fun item => (lastChain item.2.leaves).map fun v => (item.1, v) with
      | none => rfl
      | some d => rfl

/-- **The leaves of a list of dicts.** -/
theorem fillAll_list {items : List Value} (hdicts : ∀ item ∈ items, ∃ d, item = .dict d)
    (hok : ∀ item ∈ items, item.Ok) (ys : List Value) :
    fillAll (if ys = [] then none else some (.list ys)) (listLeaves ys.length items) =
      (items.mapM decodeItem).map fun left =>
        if ys ++ left = [] then none else some (.list (ys ++ left)) := by
  induction items generalizing ys with
  | nil => simp [listLeaves, fillAll]
  | cons item items ih =>
      obtain ⟨⟨d, rfl⟩, hrest⟩ := List.forall_mem_cons.mp hdicts
      obtain ⟨hitem, hok⟩ := List.forall_mem_cons.mp hok
      have hfirst := fillAll_items hitem (F := fun d => .list (ys ++ [.dict d]))
        (m := fun leaf => (strOfNat ys.length :: leaf.1, leaf.2)) fun key path value hdigit =>
          fill_list hdigit ys
      have hsplit : fillAll (if ys = [] then none else some (.list ys))
          (listLeaves ys.length (.dict d :: items)) =
            ((decodeDict d).map fun d => some (Value.list (ys ++ [.dict d]))).bind fun info =>
              fillAll info (listLeaves (ys.length + 1) items) := by
        rw [← hfirst]
        simp [fillAll, listLeaves, Value.leaves]
      rw [hsplit, List.mapM_cons, decodeItem]
      cases decodeDict d with
      | none => rfl
      | some d' =>
          have hlast := ih hrest hok (ys ++ [.dict d'])
          simp only [List.append_eq_nil_iff, List.cons_ne_nil, and_false, if_false, List.length_append,
            List.length_singleton] at hlast
          simp only [Option.map_some, Option.bind_some, hlast, Option.bind_eq_bind, Option.pure_def]
          cases items.mapM decodeItem with
          | none => rfl
          | some left => simp

/-- What is left of a pair of the record. -/
def decodeTop (pks : Option (List Str)) (item : Str × Value) : Option Value :=
  match item.2, pks with
  | .leaf value, some values =>
    if item.1 = str "pks" then some (.list (values.map .leaf)) else some (.leaf value)
  | v, _ => decode v

/-- **What is left of a value at the top.** -/
theorem foldlM_top {v : Value} (h : v.Ok) (hkey : key ∉ d.map Prod.fst) :
    (v.leaves.map fun leaf => (key :: leaf.1, leaf.2)).foldlM (fun d leaf => put pks d leaf.1 leaf.2) d =
      (decodeTop pks (key, v)).map fun v => d ++ [(key, v)] := by
  have hne := leaves_ne_nil h
  cases h with
  | leaf value =>
      cases pks with
      | none => simp [Value.leaves, put, decodeTop, decode, set_of_notMem hkey]
      | some values =>
          by_cases hpks : key = str "pks"
          · simp [Value.leaves, put, decodeTop, hpks, set_of_notMem (hpks ▸ hkey)]
          · simp [Value.leaves, put, decodeTop, hpks, set_of_notMem hkey]
  | @dict items hitems hkeys hnames hok =>
      have hpaths (leaf : List Str × Str) (hleaf : leaf ∈ dictLeaves items) : leaf.1 ≠ [] := by
        obtain ⟨item, -, leaf', -, rfl⟩ := mem_dictLeaves hleaf
        exact List.cons_ne_nil _ _
      have hall : fillAll none ((dictLeaves items).map id) =
          (decodeDict items).map fun d => some (.dict d) :=
        fillAll_items (.dict hitems hkeys hnames hok) fun key path value hdigit => fill_dict hdigit
      rw [List.map_id] at hall
      simp only [Value.leaves] at hne ⊢
      rw [foldlM_put hpaths hne hkey, hall]
      simp only [decodeTop, decode]
      cases decodeDict items with
      | none => rfl
      | some d => rfl
  | @list items hitems hdicts hok =>
      have hpaths (leaf : List Str × Str) (hleaf : leaf ∈ listLeaves 0 items) : leaf.1 ≠ [] := by
        rw [listLeaves_eq] at hleaf
        obtain ⟨item, -, leaf', -, rfl⟩ := mem_dictLeaves hleaf
        exact List.cons_ne_nil _ _
      have hall := fillAll_list hdicts hok []
      simp only [Value.leaves] at hne ⊢
      rw [foldlM_put hpaths hne hkey]
      simp only [if_true, List.length_nil, List.nil_append] at hall
      rw [hall]
      simp only [decodeTop, decode]
      cases hleft : items.mapM decodeItem with
      | none => rfl
      | some left =>
          have hlength : left ≠ [] := by
            rintro rfl
            exact hitems (List.forall₂_nil_right_iff.mp (forall₂_of_mapM hleft))
          simp [hlength]

/-- The parts of a path have no point. -/
theorem no_point {v : Value} (h : v.Ok) {leaf : List Str × Str} (hleaf : leaf ∈ v.leaves) :
    ∀ part ∈ leaf.1, '.'.toNat ∉ part := by
  induction h generalizing leaf with
  | leaf value =>
      obtain rfl : leaf = ([], value) := by simpa [Value.leaves] using hleaf
      exact nofun
  | dict _ _ hnames _ ih =>
      obtain ⟨item, hitem, leaf', hleaf', rfl⟩ := mem_dictLeaves hleaf
      exact List.forall_mem_cons.mpr ⟨(hnames item hitem).1, ih item hitem hleaf'⟩
  | list _ _ _ ih =>
      rw [Value.leaves, listLeaves_eq] at hleaf
      obtain ⟨item, hitem, leaf', hleaf', rfl⟩ := mem_dictLeaves hleaf
      obtain ⟨p, hp, rfl⟩ := List.mem_map.mp hitem
      refine List.forall_mem_cons.mpr ⟨fun hpoint => ?_, ih _ (List.fst_mem_of_mem_zipIdx hp) hleaf'⟩
      have hdigit : 0x30 ≤ 0x2e ∧ 0x2e ≤ 0x39 := digit_of_mem_strOfNat hpoint
      omega

/-- A flat key is split into its path. -/
theorem splitOn_joined {items : Items} (hnames : ∀ item ∈ items, KeyOk item.1)
    (hok : ∀ item ∈ items, item.2.Ok) {leaf : List Str × Str} (hleaf : leaf ∈ dictLeaves items) :
    (joined leaf.1).splitOn '.'.toNat = leaf.1 := by
  obtain ⟨item, hitem, leaf', hleaf', rfl⟩ := mem_dictLeaves hleaf
  refine List.splitOn_intercalate _ (fun part hpart => ?_) (List.cons_ne_nil _ _)
  rcases List.mem_cons.mp hpart with rfl | hpart
  · exact (hnames item hitem).1
  · exact no_point (hok item hitem) hleaf' part hpart

end

/-- Distinct keys lead to distinct paths. -/
theorem nodup_dictLeaves {items : Items} (hkeys : (items.map Prod.fst).Nodup)
    (h : ∀ item ∈ items, (item.2.leaves.map Prod.fst).Nodup) :
    ((dictLeaves items).map Prod.fst).Nodup := by
  induction items with
  | nil => exact List.nodup_nil
  | cons item items ih =>
      obtain ⟨hnot, hkeys⟩ := List.nodup_cons.mp hkeys
      obtain ⟨hitem, h⟩ := List.forall_mem_cons.mp h
      rw [dictLeaves, List.map_append, List.nodup_append']
      refine ⟨?_, ih hkeys h, ?_⟩
      · have hpaths := hitem.map (List.cons_injective (a := item.1))
        simpa [Function.comp_def] using hpaths
      · intro path hfirst hrest
        obtain ⟨leaf, hleaf, rfl⟩ := List.mem_map.mp hfirst
        obtain ⟨leaf', -, rfl⟩ := List.mem_map.mp hleaf
        obtain ⟨other, hother, heq⟩ := List.mem_map.mp hrest
        obtain ⟨item', hitem', leaf'', -, rfl⟩ := mem_dictLeaves hother
        exact hnot (List.head_eq_of_cons_eq heq ▸ List.mem_map_of_mem hitem')

theorem nodup_numbered (i : Nat) (items : List Value) : ((numbered i items).map Prod.fst).Nodup := by
  have hkeys : (numbered i items).map Prod.fst = (List.range' i items.length).map strOfNat := by
    rw [← List.zipIdx_map_snd i items, numbered, List.map_map, List.map_map]
    rfl
  rw [hkeys]
  exact List.Nodup.map strOfNat_injective List.nodup_range'

/-- **Each leaf has a flat key of its own**, so that a dict has room for it. -/
theorem nodup_flatten (r : Record) : ((flatten r.items).map Prod.fst).Nodup := by
  have hleaves {v : Value} (h : v.Ok) : (v.leaves.map Prod.fst).Nodup := by
    induction h with
    | leaf value => simp [Value.leaves]
    | dict _ hkeys _ _ ih => exact nodup_dictLeaves hkeys ih
    | list _ _ _ ih =>
        rw [Value.leaves, listLeaves_eq]
        refine nodup_dictLeaves (nodup_numbered _ _) fun item hitem => ?_
        obtain ⟨p, hp, rfl⟩ := List.mem_map.mp hitem
        exact ih _ (List.fst_mem_of_mem_zipIdx hp)
  have hpaths := nodup_dictLeaves r.keys fun item hitem => hleaves (r.ok item hitem)
  have hjoined : (flatten r.items).map Prod.fst = ((dictLeaves r.items).map Prod.fst).map joined := by
    simp [flatten, Function.comp_def]
  rw [hjoined]
  refine List.Nodup.map_on (fun path hpath path' hpath' heq => ?_) hpaths
  obtain ⟨leaf, hleaf, rfl⟩ := List.mem_map.mp hpath
  obtain ⟨leaf', hleaf', rfl⟩ := List.mem_map.mp hpath'
  rw [← splitOn_joined r.names r.ok hleaf, heq, splitOn_joined r.names r.ok hleaf']

theorem items_of (query : Bool) (items : List (Str × Str)) : (FormData.of query items).items = items := by
  cases query with
  | false => rfl
  | true =>
      simp only [FormData.of, if_true, FormData.items, List.filterMap_map]
      exact (List.filterMap_congr fun p _ => rfl).trans List.filterMap_some

theorem pks_of (query : Bool) (items : List (Str × Str)) :
    (FormData.of query items).pks.isSome = query := by
  cases query with
  | false => rfl
  | true => rfl

/-- **What `format_data` makes of the flat keys of a record.** -/
theorem format_data_flatten (r : Record) (query : Bool) :
    format_data (.of query (flatten r.items)) = r.items.mapM fun item =>
      (decodeTop (FormData.of query (flatten r.items)).pks item).map fun v => (item.1, v) := by
  generalize hpks : (FormData.of query (flatten r.items)).pks = pks
  have hfold (leaves : List (List Str × Str)) (hleaves : ∀ leaf ∈ leaves, leaf ∈ dictLeaves r.items)
      (d : Items) :
      (leaves.map fun leaf => (joined leaf.1, leaf.2)).foldlM
          (fun d p => put pks d (p.1.splitOn '.'.toNat) p.2) d =
        leaves.foldlM (fun d leaf => put pks d leaf.1 leaf.2) d := by
    induction leaves generalizing d with
    | nil => rfl
    | cons leaf leaves ih =>
        obtain ⟨hleaf, hleaves⟩ := List.forall_mem_cons.mp hleaves
        simp only [List.map_cons, List.foldlM_cons, splitOn_joined r.names r.ok hleaf]
        cases put pks d leaf.1 leaf.2 with
        | none => rfl
        | some d' => exact ih hleaves d'
  have htop : (dictLeaves r.items).foldlM (fun d leaf => put pks d leaf.1 leaf.2) [] =
      (r.items.mapM fun item => (decodeTop pks item).map fun v => (item.1, v)).map fun rest =>
        [] ++ rest :=
    foldlM_blocks (fun item hitem d hfresh => foldlM_top (r.ok item hitem) hfresh) r.keys (by simp)
  unfold format_data
  rw [items_of, hpks, flatten, hfold _ (fun _ => id), htop]
  simp

/-! ### What survives -/

section
variable {d d' items : Items} {v w : Value} {query : Bool} {pks : Option (List Str)}

theorem get_of_mem (hkeys : (d.map Prod.fst).Nodup) {item : Str × Value} (hitem : item ∈ d) :
    get d item.1 = some item.2 := by
  induction d with
  | nil => cases hitem
  | cons p d ih =>
      obtain ⟨hnot, hkeys⟩ := List.nodup_cons.mp hkeys
      rcases List.mem_cons.mp hitem with rfl | hitem
      · simp [get]
      · have hne : p.1 ≠ item.1 := fun heq => hnot (heq ▸ List.mem_map_of_mem hitem)
        simpa [get, hne] using ih hkeys hitem

theorem eqItems_iff :
    eqItems d' d ↔ ∀ item ∈ d', ∃ v, get d item.1 = some v ∧ item.2.eq v := by
  induction d' with
  | nil => simp [eqItems]
  | cons item d' ih =>
      simp only [eqItems, Bool.and_eq_true, ih, List.forall_mem_cons]
      refine and_congr_left fun _ => ?_
      cases get d item.1 with
      | none => simp
      | some v => simp

theorem eq_refl (h : v.Ok) : v.eq v := by
  induction h with
  | leaf value => simp [Value.eq]
  | @dict items _ hkeys _ _ ih =>
      simp only [Value.eq, decide_true, Bool.true_and]
      exact eqItems_iff.mpr fun item hitem => ⟨item.2, get_of_mem hkeys hitem, ih item hitem⟩
  | @list items hne _ _ ih =>
      have hall (l : List Value) (hl : ∀ item ∈ l, item.eq item) : eqLists l l := by
        induction l with
        | nil => rfl
        | cons item l ihl =>
            obtain ⟨hitem, hl⟩ := List.forall_mem_cons.mp hl
            simp [eqLists, hitem, ihl hl]
      exact hall items ih

/-- A dict whose values have one leaf each survives. -/
theorem decodeDict_of_single (h : (Value.dict d).Ok) (hsingle : Single d) : decodeDict d = some d := by
  cases h with
  | dict _ _ _ hok =>
      have hall : ∀ item ∈ d,
          ((lastChain item.2.leaves).map fun v => (item.1, v)) = some (id item) := by
        intro item hitem
        obtain ⟨leaf, hleaf⟩ := List.length_eq_one_iff.mp (hsingle item hitem)
        have hchain := chain_of_single (hok item hitem) hleaf
        simp [lastChain, hleaf, hchain]
      rw [decodeDict, mapM_of_forall hall, List.map_id]

/-- In what is left of a dict, a value is the tree of one leaf. -/
theorem single_of_decodeDict (h : (Value.dict d).Ok) (hleft : decodeDict d = some d')
    (heq : eqItems d' d) : Single d := by
  cases h with
  | dict _ hkeys _ _ =>
      intro item hitem
      obtain ⟨left, hmem, hitem'⟩ := exists_result_of_mem hleft hitem
      obtain ⟨w, hlast, rfl⟩ := Option.map_eq_some_iff.mp hitem'
      obtain ⟨ws, hws, hw⟩ := Option.bind_eq_some_iff.mp hlast
      obtain ⟨leaf, -, hchain⟩ := exists_of_mem_mapM hws (List.mem_of_getLast? hw)
      obtain ⟨v, hv, heq⟩ := eqItems_iff.mp heq _ hmem
      obtain rfl : item.2 = v := Option.some.inj ((get_of_mem hkeys hitem).symm.trans hv)
      rw [← eq_chain hchain heq]
      exact single_of_chain hchain

/-- What is shallow survives. -/
theorem decodeTop_of_shallow {item : Str × Value} (h : item.2.Ok) (hpks : pks.isSome = query)
    (hshallow : Shallow query item) : decodeTop pks item = some item.2 := by
  obtain ⟨key, v⟩ := item
  cases v with
  | leaf value =>
      cases pks with
      | none => rfl
      | some values =>
          have hkey : key ≠ str "pks" := fun hkey => hshallow ⟨hpks.symm, hkey⟩
          simp [decodeTop, hkey]
  | dict d => simp [decodeTop, decode, decodeDict_of_single h hshallow]
  | list items =>
      cases h with
      | list _ hdicts hok =>
          have hall : ∀ item ∈ items, decodeItem item = some (id item) := by
            intro item hitem
            obtain ⟨d, rfl⟩ := hdicts item hitem
            simp [decodeItem, decodeDict_of_single (hok _ hitem) (hshallow d hitem)]
          simp [decodeTop, decode, mapM_of_forall hall]

/-- What survives is shallow. -/
theorem shallow_of_eq {item : Str × Value} (h : item.2.Ok) (hpks : pks.isSome = query)
    (hleft : decodeTop pks item = some w) (heq : w.eq item.2) : Shallow query item := by
  obtain ⟨key, v⟩ := item
  cases v with
  | leaf value =>
      rintro ⟨rfl, rfl⟩
      obtain ⟨values, rfl⟩ := Option.isSome_iff_exists.mp hpks
      simp only [decodeTop, if_true, Option.some.injEq] at hleft
      subst hleft
      cases heq
  | dict d =>
      obtain ⟨d', hd', rfl⟩ := Option.map_eq_some_iff.mp hleft
      simp only [Value.eq, Bool.and_eq_true] at heq
      exact single_of_decodeDict h hd' heq.2
  | list items =>
      obtain ⟨left, hall, rfl⟩ := Option.map_eq_some_iff.mp hleft
      cases h with
      | list hne hdicts hok =>
          replace hall := forall₂_of_mapM hall
          replace heq : eqLists left items := by simpa [Value.eq] using heq
          clear hne hdicts hleft
          intro d hd
          induction hall with
          | nil => cases hd
          | @cons item y items left hitem _ ih =>
              obtain ⟨hy, heq⟩ : y.eq item ∧ eqLists left items := by simpa [eqLists] using heq
              obtain ⟨hitemok, hok⟩ := List.forall_mem_cons.mp hok
              rcases List.mem_cons.mp hd with rfl | hd
              · obtain ⟨d', hd', rfl⟩ := Option.map_eq_some_iff.mp hitem
                simp only [Value.eq, Bool.and_eq_true] at hy
                exact single_of_decodeDict hitemok hd' hy.2
              · exact ih hok heq hd

end

/-- **Which records are decoded losslessly.** -/
theorem format_data_iff (r : Record) (query : Bool) :
    (∃ items, format_data (.of query (flatten r.items)) = some items ∧
        (Value.dict items).eq (.dict r.items)) ↔
      ∀ item ∈ r.items, Shallow query item := by
  rw [format_data_flatten]
  have hpks := pks_of query (flatten r.items)
  constructor
  · rintro ⟨items, hitems, heq⟩ item hitem
    simp only [Value.eq, Bool.and_eq_true] at heq
    obtain ⟨left, hmem, hleft⟩ := exists_result_of_mem hitems hitem
    obtain ⟨w, hw, rfl⟩ := Option.map_eq_some_iff.mp hleft
    obtain ⟨v, hv, heq⟩ := eqItems_iff.mp heq.2 _ hmem
    obtain rfl : item.2 = v := Option.some.inj ((get_of_mem r.keys hitem).symm.trans hv)
    exact shallow_of_eq (r.ok item hitem) hpks hw heq
  · intro hall
    have hitems : ∀ item ∈ r.items, ((decodeTop (FormData.of query (flatten r.items)).pks item).map
        fun v => (item.1, v)) = some (id item) := by
      intro item hitem
      rw [decodeTop_of_shallow (r.ok item hitem) hpks (hall item hitem)]
      rfl
    rw [mapM_of_forall hitems, List.map_id]
    refine ⟨r.items, rfl, ?_⟩
    simp only [Value.eq, decide_true, Bool.true_and]
    exact eqItems_iff.mpr fun item hitem =>
      ⟨item.2, get_of_mem r.keys hitem, eq_refl (r.ok item hitem)⟩

/-- A record with two strings on the third level. -/
def third_level : Record where
  items := [(str "a", .dict [(str "b", .dict [(str "x", .leaf (str "1")), (str "y", .leaf (str "2"))])])]
  keys := by decide
  names := by decide
  ok := by
    have hleaves : (Value.dict [(str "x", .leaf (str "1")), (str "y", .leaf (str "2"))]).Ok := by
      refine .dict (by simp) (by decide) (by decide) ?_
      rintro item hitem
      rcases List.mem_pair.mp hitem with rfl | rfl
      · exact .leaf _
      · exact .leaf _
    simp only [List.mem_singleton, forall_eq]
    exact .dict (by simp) (by decide) (by decide) (by simpa using hleaves)

/-- **A string is lost** on the third level. -/
theorem third_level_is_lost :
    ¬ ∀ (r : Record) (query : Bool), ∃ items, format_data (.of query (flatten r.items)) = some items ∧
      (Value.dict items).eq (.dict r.items) := by
  intro hall
  obtain ⟨items, hitems, heq⟩ := hall third_level true
  have hlost : ((format_data (.of true (flatten third_level.items))).any fun items =>
      (Value.dict items).eq (.dict third_level.items)) = false := by decide
  simp [hitems, heq] at hlost

end InfraHub.Drf
