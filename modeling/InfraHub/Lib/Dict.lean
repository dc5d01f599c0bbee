import Mathlib.Algebra.GroupWithZero.Nat
import Mathlib.Data.List.Nodup

/-!
# Library — Dict

Dictionaries that keep the order of insertion: a list of pairs with distinct keys.

* `set` replaces the value of a key in place, or adds the pair at the end (`keys_set`, `get_set`).
* `eq_of_get`: a dictionary is its keys, in order, and what `get` finds under them.
* `ofList` sets the pairs of a list in order, so the last value of a key counts.
* `mem_of_mem_ofList`, `mem_keys_ofList` and `exists_items_ofList_cons` say what a dictionary made of
  a list has to do with the list: its pairs, its keys, and the key that comes first.
* `filter_foldl_set`: pairs whose key is no other pair's stay when the others are set.
* `sum_ofList_le`: a sum over the pairs of the dictionary is not more than over the list.
* `of_get_zip` and `get_zip_ne_none` are about the rows of a list by their keys.
-/

namespace InfraHub.Lib

/-- The pairs, in the order in which their keys came. -/
structure Dict (κ α : Type) where
  items : List (κ × α)
  keys : (items.map Prod.fst).Nodup

namespace Dict

variable {κ α : Type} [DecidableEq κ]

def get (d : Dict κ α) (k : κ) : Option α := (d.items.find? fun p => p.1 = k).map Prod.snd

def empty : Dict κ α := ⟨[], List.nodup_nil⟩

/-- `d[k] = v`. -/
def set (d : Dict κ α) (k : κ) (v : α) : Dict κ α :=
  if h : k ∈ d.items.map Prod.fst then
    { items := d.items.map fun p => if p.1 = k then (k, v) else p
      keys := by
        have hkeys : Prod.fst ∘ (fun p : κ × α => if p.1 = k then (k, v) else p) = Prod.fst := by
          funext p
          by_cases hp : p.1 = k <;> simp [hp]
        rw [List.map_map, hkeys]
        exact d.keys }
  else
    { items := d.items ++ [(k, v)]
      keys := by
        rw [List.map_append, List.map_singleton, ← List.concat_eq_append]
        exact d.keys.concat h }

def ofList (l : List (κ × α)) : Dict κ α := l.foldl (fun d p => d.set p.1 p.2) empty

theorem mem_of_get {d : Dict κ α} {k : κ} {v : α} (h : d.get k = some v) : (k, v) ∈ d.items := by
  obtain ⟨p, hp, rfl⟩ := Option.map_eq_some_iff.mp h
  have hk : p.1 = k := by simpa using List.find?_some hp
  exact hk ▸ List.mem_of_find?_eq_some hp

theorem get_isSome {d : Dict κ α} {k : κ} : (d.get k).isSome ↔ k ∈ d.items.map Prod.fst := by
  simp [get, List.find?_isSome]

theorem items_set (d : Dict κ α) (k : κ) (v : α) :
    (d.set k v).items =
      if k ∈ d.items.map Prod.fst then d.items.map fun p => if p.1 = k then (k, v) else p
      else d.items ++ [(k, v)] := by
  unfold set
  split <;> rfl

theorem mem_set {d : Dict κ α} {k : κ} {v : α} {p : κ × α} (h : p ∈ (d.set k v).items) :
    p ∈ d.items ∨ p = (k, v) := by
  rw [items_set] at h
  split at h
  · obtain ⟨q, hq, rfl⟩ := List.mem_map.mp h
    by_cases hk : q.1 = k
    · exact .inr (if_pos hk)
    · exact .inl (by rwa [if_neg hk])
  · rcases List.mem_append.mp h with h | h
    · exact .inl h
    · exact .inr (List.mem_singleton.mp h)

theorem keys_set (d : Dict κ α) (k : κ) (v : α) :
    (d.set k v).items.map Prod.fst =
      if k ∈ d.items.map Prod.fst then d.items.map Prod.fst else d.items.map Prod.fst ++ [k] := by
  rw [items_set]
  split
  · have hkeys : Prod.fst ∘ (fun p : κ × α => if p.1 = k then (k, v) else p) = Prod.fst := by
      funext p
      by_cases hp : p.1 = k <;> simp [hp]
    rw [List.map_map, hkeys]
  · rw [List.map_append, List.map_singleton]

theorem mem_keys_set {d : Dict κ α} {k j : κ} {v : α} :
    j ∈ (d.set k v).items.map Prod.fst ↔ j ∈ d.items.map Prod.fst ∨ j = k := by
  rw [keys_set]
  split
  · next h =>
    constructor
    · exact .inl
    · rintro (hj | rfl)
      · exact hj
      · exact h
  · simp

theorem get_of_mem {d : Dict κ α} {p : κ × α} (h : p ∈ d.items) : d.get p.1 = some p.2 := by
  have hsome : (d.get p.1).isSome := get_isSome.mpr (List.mem_map_of_mem h)
  obtain ⟨v, hv⟩ := Option.isSome_iff_exists.mp hsome
  have hsame : (p.1, v) = p := List.inj_on_of_nodup_map d.keys (mem_of_get hv) h rfl
  rw [hv, ← hsame]

theorem get_set (d : Dict κ α) (k j : κ) (v : α) :
    (d.set k v).get j = if j = k then some v else d.get j := by
  rw [get, items_set]
  by_cases hk : k ∈ d.items.map Prod.fst
  · have hkeys (p : κ × α) : (if p.1 = k then (k, v) else p).1 = p.1 := by
      by_cases hp : p.1 = k <;> simp [hp]
    rw [if_pos hk, List.find?_map, Function.comp_def]
    simp only [hkeys]
    by_cases hj : j = k
    · obtain ⟨w, hw⟩ := Option.isSome_iff_exists.mp (get_isSome.mpr (hj ▸ hk))
      obtain ⟨p, hp, -⟩ := Option.map_eq_some_iff.mp hw
      have hpj : p.1 = j := by simpa using List.find?_some hp
      rw [hp, if_pos hj]
      simp [hpj, hj]
    · rw [if_neg hj, get]
      cases hp : d.items.find? (fun p => p.1 = j) with
      | none => rfl
      | some p =>
          have hpj : p.1 = j := by simpa using List.find?_some hp
          simp [hpj, hj]
  · rw [if_neg hk, List.find?_append]
    by_cases hj : j = k
    · have hnone : d.items.find? (fun p => p.1 = j) = none := by
        rw [List.find?_eq_none]
        intro p hp hpj
        exact hk (by simpa [← hj, ← of_decide_eq_true hpj] using List.mem_map_of_mem (f := Prod.fst) hp)
      rw [hnone, if_pos hj]
      simp [hj]
    · rw [if_neg hj, get]
      simp [Ne.symm hj]

/-- The keys, in order, and what is found under them. -/
theorem eq_of_get {d d' : Dict κ α} (hkeys : d.items.map Prod.fst = d'.items.map Prod.fst)
    (h : ∀ k, d.get k = d'.get k) : d = d' := by
  have hitems (d : Dict κ α) : d.items.map (fun p => (p.1, some p.2)) =
      (d.items.map Prod.fst).map fun k => (k, d.get k) := by
    rw [List.map_map]
    exact List.map_congr_left fun p hp => by rw [Function.comp_apply, get_of_mem hp]
  have hmap : d.items.map (fun p => (p.1, some p.2)) = d'.items.map fun p => (p.1, some p.2) := by
    rw [hitems, hitems, hkeys]
    simp only [h]
  have hinj : Function.Injective fun p : κ × α => (p.1, some p.2) := by
    rintro ⟨k, v⟩ ⟨j, w⟩ heq
    cases heq
    rfl
  cases d
  cases d'
  cases List.map_injective_iff.mpr hinj hmap
  rfl

/-- The sum over a dictionary with one more pair. -/
theorem sum_set_le (f : κ × α → Nat) (d : Dict κ α) (k : κ) (v : α) :
    ((d.set k v).items.map f).sum ≤ (d.items.map f).sum + f (k, v) := by
  have hreplace (l : List (κ × α)) (h : (l.map Prod.fst).Nodup) :
      ((l.map fun p => if p.1 = k then (k, v) else p).map f).sum ≤ (l.map f).sum + f (k, v) := by
    induction l with
    | nil => simp
    | cons p l ih =>
        obtain ⟨hp, hl⟩ := List.nodup_cons.mp h
        simp only [List.map_cons, List.sum_cons]
        by_cases hk : p.1 = k
        · -- no other pair has the key
          have hsame : (l.map fun p => if p.1 = k then (k, v) else p) = l := by
            refine (List.map_congr_left fun q hq => if_neg fun heq => hp ?_).trans (List.map_id l)
            rw [hk, ← heq]
            exact List.mem_map_of_mem hq
          rw [hsame, if_pos hk]
          omega
        · have hrest := ih hl
          rw [if_neg hk]
          omega
  rw [items_set]
  split_ifs
  · exact hreplace d.items d.keys
  · simp

/-- The first key stays the first key. -/
theorem head_set {d : Dict κ α} {k j : κ} {v w : α} {l : List (κ × α)}
    (h : d.items = (j, w) :: l) : ∃ w' l', (d.set k v).items = (j, w') :: l' := by
  rw [items_set, h]
  split
  · by_cases hj : j = k
    · exact ⟨v, _, by rw [List.map_cons, if_pos hj, hj]⟩
    · exact ⟨w, _, by rw [List.map_cons, if_neg hj]⟩
  · exact ⟨w, l ++ [(k, v)], rfl⟩

/-! ### Dictionaries made of a list -/

theorem mem_foldl_set {l : List (κ × α)} {d : Dict κ α} {p : κ × α}
    (h : p ∈ (l.foldl (fun d p => d.set p.1 p.2) d).items) : p ∈ d.items ∨ p ∈ l := by
  induction l generalizing d with
  | nil => exact .inl h
  | cons q l ih =>
      rcases ih h with h | h
      · rcases mem_set h with h | rfl
        · exact .inl h
        · exact .inr (List.mem_cons_self ..)
      · exact .inr (List.mem_cons_of_mem q h)

theorem mem_keys_foldl_set {l : List (κ × α)} {d : Dict κ α} {k : κ} :
    k ∈ (l.foldl (fun d p => d.set p.1 p.2) d).items.map Prod.fst ↔
      k ∈ d.items.map Prod.fst ∨ k ∈ l.map Prod.fst := by
  induction l generalizing d with
  | nil => simp
  | cons q l ih => rw [List.foldl_cons, ih, mem_keys_set, List.map_cons, List.mem_cons, or_assoc]

theorem head_foldl_set {l : List (κ × α)} {d : Dict κ α} {k : κ} {v : α} {r : List (κ × α)}
    (h : d.items = (k, v) :: r) :
    ∃ w r', (l.foldl (fun d p => d.set p.1 p.2) d).items = (k, w) :: r' := by
  induction l generalizing d v r with
  | nil => exact ⟨v, r, h⟩
  | cons q l ih =>
      obtain ⟨w, r', h'⟩ := head_set (k := q.1) (v := q.2) h
      exact ih h'

/-- Pairs whose key is no other pair's stay in their order. -/
theorem filter_set (p : α → Bool) {d : Dict κ α} {k : κ} {v : α}
    (h : ∀ a ∈ d.items, a.1 = k → p a.2 = false ∧ p v = false) :
    (d.set k v).items.filter (fun q => p q.2) =
      d.items.filter (fun q => p q.2) ++ [(k, v)].filter fun q => p q.2 := by
  rw [items_set]
  split
  · next hmem =>
    obtain ⟨a, ha, hkey⟩ := List.mem_map.mp hmem
    have hv : p v = false := (h a ha hkey).2
    have hsame (a : κ × α) (ha : a ∈ d.items) :
        p (if a.1 = k then (k, v) else a).2 = p a.2 := by
      by_cases heq : a.1 = k
      · rw [if_pos heq, (h a ha heq).1, hv]
      · rw [if_neg heq]
    have hkept : d.items.filter ((fun q => p q.2) ∘ fun a => if a.1 = k then (k, v) else a) =
        d.items.filter fun q => p q.2 := List.filter_congr hsame
    have hid (a : κ × α) (ha : a ∈ d.items.filter fun q => p q.2) :
        (if a.1 = k then (k, v) else a) = id a := by
      obtain ⟨ha, hp⟩ := List.mem_filter.mp ha
      exact if_neg fun heq => Bool.false_ne_true ((h a ha heq).1.symm.trans hp)
    rw [List.filter_map, hkept, List.map_congr_left hid, List.map_id,
      List.filter_cons_of_neg (by simp [hv]), List.filter_nil, List.append_nil]
  · rw [List.filter_append]

theorem filter_foldl_set (p : α → Bool) {l : List (κ × α)} {d : Dict κ α}
    (h : (d.items ++ l).Pairwise fun a b => a.1 = b.1 → p a.2 = false ∧ p b.2 = false) :
    (l.foldl (fun d q => d.set q.1 q.2) d).items.filter (fun q => p q.2) =
      d.items.filter (fun q => p q.2) ++ l.filter fun q => p q.2 := by
  induction l generalizing d with
  | nil => exact (List.append_nil _).symm
  | cons q l ih =>
      obtain ⟨hd, hl, hdl⟩ := List.pairwise_append.mp h
      obtain ⟨hq, hl⟩ := List.pairwise_cons.mp hl
      have hnew (a : κ × α) (ha : a ∈ d.items) : a.1 = q.1 → p a.2 = false ∧ p q.2 = false :=
        hdl a ha q List.mem_cons_self
      -- each pair of the new dictionary is one of the old pairs or the pair that is set
      have hset : ((d.set q.1 q.2).items ++ l).Pairwise fun a b =>
          a.1 = b.1 → p a.2 = false ∧ p b.2 = false := by
        refine List.pairwise_append.mpr ⟨?_, hl, fun a ha b hb => ?_⟩
        · refine (List.pairwise_map.mp (d.set q.1 q.2).keys).imp fun hne heq => absurd heq hne
        · rcases mem_set ha with ha | rfl
          · exact hdl a ha b (List.mem_cons_of_mem q hb)
          · exact hq b hb
      rw [List.foldl_cons, ih hset, filter_set p hnew, List.append_assoc, ← List.filter_append,
        List.singleton_append]

theorem sum_ofList_le (f : κ × α → Nat) (l : List (κ × α)) : ((ofList l).items.map f).sum ≤ (l.map f).sum := by
  have hfold (d : Dict κ α) : ((l.foldl (fun d p => d.set p.1 p.2) d).items.map f).sum ≤
      (d.items.map f).sum + (l.map f).sum := by
    induction l generalizing d with
    | nil => simp
    | cons p l ih =>
        have hset : ((d.set p.1 p.2).items.map f).sum ≤ (d.items.map f).sum + f p := sum_set_le f d p.1 p.2
        have hrest := ih (d.set p.1 p.2)
        simp only [List.foldl_cons, List.map_cons, List.sum_cons]
        omega
  simpa [ofList, empty] using hfold empty

theorem mem_of_mem_ofList {l : List (κ × α)} {p : κ × α} (h : p ∈ (ofList l).items) : p ∈ l :=
  (mem_foldl_set h).resolve_left List.not_mem_nil

theorem mem_keys_ofList {l : List (κ × α)} {k : κ} :
    k ∈ (ofList l).items.map Prod.fst ↔ k ∈ l.map Prod.fst :=
  mem_keys_foldl_set.trans (or_iff_right List.not_mem_nil)

theorem exists_items_ofList_cons (p : κ × α) (l : List (κ × α)) :
    ∃ v r, (ofList (p :: l)).items = (p.1, v) :: r :=
  head_foldl_set (d := (empty : Dict κ α).set p.1 p.2) (v := p.2) (r := []) (by simp [items_set, empty])

/-- A list with distinct keys is its own dictionary. -/
theorem items_ofList {l : List (κ × α)} (h : (l.map Prod.fst).Nodup) : (ofList l).items = l := by
  have hfold (d : Dict κ α) (l : List (κ × α)) (h : ((d.items ++ l).map Prod.fst).Nodup) :
      (l.foldl (fun d p => d.set p.1 p.2) d).items = d.items ++ l := by
    induction l generalizing d with
    | nil => exact (List.append_nil _).symm
    | cons p l ih =>
        have hnew : p.1 ∉ d.items.map Prod.fst := by
          intro hmem
          rw [List.map_append] at h
          exact (List.disjoint_of_nodup_append h) hmem List.mem_cons_self
        have hset : (d.set p.1 p.2).items = d.items ++ [p] := by rw [items_set, if_neg hnew]
        rw [List.foldl_cons, ih (d.set p.1 p.2) (by simpa [hset] using h), hset, List.append_assoc,
          List.singleton_append]
  exact hfold empty l h

/-! ### Dictionaries of rows by their keys -/

section
variable {f : α → κ} {l : List α}

omit [DecidableEq κ] in
theorem zip_keys (f : α → κ) (l : List α) : (l.map f).zip l = l.map fun a => (f a, a) := by
  rw [← List.zip_map', List.map_id']

theorem of_get_zip {k : κ} {a : α} (h : (ofList ((l.map f).zip l)).get k = some a) : a ∈ l ∧ f a = k := by
  have hmem := mem_of_mem_ofList (mem_of_get h)
  rw [zip_keys] at hmem
  obtain ⟨b, hb, heq⟩ := List.mem_map.mp hmem
  cases heq
  exact ⟨hb, rfl⟩

theorem get_zip_ne_none {a : α} (h : a ∈ l) : (ofList ((l.map f).zip l)).get (f a) ≠ none := by
  rw [← Option.isSome_iff_ne_none, get_isSome, mem_keys_ofList, zip_keys, List.map_map]
  exact List.mem_map_of_mem h

end

end Dict

end InfraHub.Lib
