import Mathlib.Data.List.Nodup
import Mathlib.Order.Lattice

/-!
# Library — Table

Rows with distinct keys, newest first.

* `get` finds a row by its key; `insert`, `modify` and `delete` touch one key, `map` every row.
* `without k` is what a table holds beside `k`.  `insert`, `modify` and `delete` leave it as it is,
  and a test that no row of key `k` passes sees nothing else (`filter_eq_without`,
  `any_eq_without`).
* `fresh` is a primary key that is not in use.
-/

namespace InfraHub.Lib

/-- The rows, and that no two share a key. -/
structure Table (κ ρ : Type) (key : ρ → κ) where
  rows : List ρ
  keys : (rows.map key).Nodup

namespace Table

variable {κ ρ : Type} {key : ρ → κ}

def empty : Table κ ρ key := ⟨[], List.nodup_nil⟩

/-- Replace every row; the keys stay. -/
def map (t : Table κ ρ key) (f : ρ → ρ) (hf : ∀ r, key (f r) = key r) : Table κ ρ key where
  rows := t.rows.map f
  keys := by
    have hkeys : key ∘ f = key := funext hf
    rw [List.map_map, hkeys]
    exact t.keys

/-- Keep the rows that pass. -/
def filter (t : Table κ ρ key) (p : ρ → Bool) : Table κ ρ key where
  rows := t.rows.filter p
  keys := t.keys.sublist (List.filter_sublist.map key)

theorem mem_filter {t : Table κ ρ key} {p : ρ → Bool} {r : ρ} :
    r ∈ (t.filter p).rows ↔ r ∈ t.rows ∧ p r = true := List.mem_filter

variable [DecidableEq κ]

def get (t : Table κ ρ key) (k : κ) : Option ρ := t.rows.find? fun r => key r = k

/-- Replace the row of `k`. -/
def modify (t : Table κ ρ key) (k : κ) (f : ρ → ρ) (hf : ∀ r, key (f r) = key r) :
    Table κ ρ key :=
  t.map (fun r => if key r = k then f r else r) fun r => by
    split
    · exact hf r
    · rfl

def delete (t : Table κ ρ key) (k : κ) : Table κ ρ key where
  rows := t.rows.filter fun r => key r ≠ k
  keys := t.keys.sublist (List.filter_sublist.map key)

/-- Add a row in front, unless its key is taken. -/
def insert (t : Table κ ρ key) (r : ρ) : Table κ ρ key :=
  if h : key r ∈ t.rows.map key then t
  else ⟨r :: t.rows, List.nodup_cons.mpr ⟨h, t.keys⟩⟩

theorem rows_insert {t : Table κ ρ key} {r : ρ} (h : key r ∉ t.rows.map key) :
    (t.insert r).rows = r :: t.rows := by
  rw [insert, dif_neg h]

/-- The rows of the other keys. -/
def without (t : Table κ ρ key) (k : κ) : List ρ := t.rows.filter fun r => key r ≠ k

theorem mem_of_get {t : Table κ ρ key} {k : κ} {r : ρ} (h : t.get k = some r) : r ∈ t.rows :=
  List.mem_of_find?_eq_some h

theorem key_of_get {t : Table κ ρ key} {k : κ} {r : ρ} (h : t.get k = some r) : key r = k := by
  simpa using List.find?_some h

omit [DecidableEq κ] in
theorem eq_of_key {t : Table κ ρ key} {q r : ρ} (hq : q ∈ t.rows) (hr : r ∈ t.rows)
    (h : key q = key r) : q = r :=
  List.inj_on_of_nodup_map t.keys hq hr h

theorem get_of_mem {t : Table κ ρ key} {r : ρ} (h : r ∈ t.rows) : t.get (key r) = some r := by
  have hfound : (t.get (key r)).isSome := List.find?_isSome.mpr ⟨r, h, by simp⟩
  obtain ⟨q, hq⟩ := Option.isSome_iff_exists.mp hfound
  rw [hq, eq_of_key (mem_of_get hq) h (key_of_get hq)]

/-! ### What a change of one key leaves -/

theorem without_modify (t : Table κ ρ key) (k : κ) (f : ρ → ρ) (hf : ∀ r, key (f r) = key r) :
    (t.modify k f hf).without k = t.without k := by
  suffices h : ∀ l : List ρ, (l.map fun r => if key r = k then f r else r).filter (fun r => key r ≠ k)
      = l.filter fun r => key r ≠ k from h t.rows
  intro l
  induction l with
  | nil => rfl
  | cons r l ih =>
      rw [List.map_cons]
      by_cases h : key r = k
      · rw [if_pos h, List.filter_cons_of_neg (by simp [hf, h]),
          List.filter_cons_of_neg (by simp [h]), ih]
      · rw [if_neg h, List.filter_cons_of_pos (by simp [h]),
          List.filter_cons_of_pos (by simp [h]), ih]

theorem without_map (t : Table κ ρ key) (f : ρ → ρ) (hf : ∀ r, key (f r) = key r) (k : κ) :
    (t.map f hf).without k = (t.without k).map f := by
  unfold without map
  rw [List.filter_map]
  congr 2
  funext r
  simp [hf]

theorem without_delete (t : Table κ ρ key) (k : κ) : (t.delete k).without k = t.without k := by
  simp [delete, without]

theorem without_insert (t : Table κ ρ key) (r : ρ) :
    (t.insert r).without (key r) = t.without (key r) := by
  unfold insert
  split
  · rfl
  · simp [without]

/-- A test that no row of key `k` passes sees the other rows only. -/
theorem filter_eq_without {t : Table κ ρ key} {k : κ} {p : ρ → Bool}
    (h : ∀ r, key r = k → p r = false) : t.rows.filter p = (t.without k).filter p := by
  rw [without, List.filter_filter]
  refine List.filter_congr fun r _ => ?_
  by_cases hk : key r = k
  · simp [h r hk]
  · simp [hk]

theorem any_eq_without {t : Table κ ρ key} {k : κ} {p : ρ → Bool}
    (h : ∀ r, key r = k → p r = false) : t.rows.any p = (t.without k).any p := by
  rw [without, List.any_filter]
  congr 1
  funext r
  by_cases hk : key r = k
  · simp [h r hk]
  · simp [hk]

/-! ### Finding a row after a change -/

theorem get_map (t : Table κ ρ key) (f : ρ → ρ) (hf : ∀ r, key (f r) = key r) (k : κ) :
    (t.map f hf).get k = (t.get k).map f := by
  unfold get map
  simp only [List.find?_map]
  congr 2
  funext r
  simp [hf]

theorem get_modify (t : Table κ ρ key) (k : κ) (f : ρ → ρ) (hf : ∀ r, key (f r) = key r) (j : κ) :
    (t.modify k f hf).get j = (t.get j).map fun r => if key r = k then f r else r :=
  get_map ..

theorem get_modify_self {t : Table κ ρ key} {k : κ} {r : ρ} (h : t.get k = some r) (f : ρ → ρ)
    (hf : ∀ r, key (f r) = key r) : (t.modify k f hf).get k = some (f r) := by
  rw [get_modify, h, Option.map_some, if_pos (key_of_get h)]

theorem get_modify_ne (t : Table κ ρ key) {k j : κ} (f : ρ → ρ) (hf : ∀ r, key (f r) = key r)
    (h : j ≠ k) : (t.modify k f hf).get j = t.get j := by
  rw [get_modify]
  cases hj : t.get j with
  | none => rfl
  | some r =>
      have hr : key r ≠ k := fun e => h (key_of_get hj ▸ e)
      simp [hr]

theorem get_delete_self (t : Table κ ρ key) (k : κ) : (t.delete k).get k = none := by
  simp [get, delete]

theorem get_delete_ne (t : Table κ ρ key) {k j : κ} (h : j ≠ k) :
    (t.delete k).get j = t.get j := by
  unfold get delete
  rw [List.find?_filter]
  congr 1
  funext r
  by_cases hr : key r = j
  · simp [hr, h]
  · simp [hr]

theorem get_insert_ne (t : Table κ ρ key) {r : ρ} {j : κ} (h : j ≠ key r) :
    (t.insert r).get j = t.get j := by
  unfold insert
  split
  · rfl
  · simp [get, Ne.symm h]

theorem get_insert_self {t : Table κ ρ key} {r : ρ} (h : t.get (key r) = none) :
    (t.insert r).get (key r) = some r := by
  have hnew : key r ∉ t.rows.map key := by
    intro hmem
    obtain ⟨q, hq, hkey⟩ := List.mem_map.mp hmem
    have hget := get_of_mem hq
    rw [hkey, h] at hget
    cases hget
  rw [insert, dif_neg hnew]
  simp [get]

theorem get_insert_isSome (t : Table κ ρ key) (r : ρ) : ((t.insert r).get (key r)).isSome := by
  unfold insert
  split
  · next h =>
    obtain ⟨q, hq, hkey⟩ := List.mem_map.mp h
    exact List.find?_isSome.mpr ⟨q, hq, by simp [hkey]⟩
  · exact List.find?_isSome.mpr ⟨r, List.mem_cons_self, by simp⟩

/-! ### The rows after a change -/

theorem mem_modify {t : Table κ ρ key} {k : κ} {f : ρ → ρ} {hf : ∀ r, key (f r) = key r} {r : ρ}
    (h : r ∈ (t.modify k f hf).rows) : (key r ≠ k ∧ r ∈ t.rows) ∨ key r = k := by
  obtain ⟨q, hq, rfl⟩ := List.mem_map.mp h
  by_cases hk : key q = k
  · exact .inr (by rw [if_pos hk, hf, hk])
  · rw [if_neg hk]
    exact .inl ⟨hk, hq⟩

theorem mem_delete {t : Table κ ρ key} {k : κ} {r : ρ} (h : r ∈ (t.delete k).rows) :
    r ∈ t.rows := (List.mem_filter.mp h).1

theorem mem_insert {t : Table κ ρ key} {q r : ρ} (h : r ∈ (t.insert q).rows) :
    r ∈ t.rows ∨ r = q := by
  unfold insert at h
  split at h
  · exact .inl h
  · exact (List.mem_cons.mp h).symm

end Table

/-! ### Primary keys -/

/-- A primary key that is not in use. -/
def fresh (ids : List Nat) : Nat := ids.foldr max 0 + 1

theorem le_foldr_max {l : List Nat} {n : Nat} (h : n ∈ l) : n ≤ l.foldr max 0 := by
  induction l with
  | nil => cases h
  | cons m l ih =>
      rw [List.foldr_cons]
      rcases List.mem_cons.mp h with rfl | h
      · exact le_max_left _ _
      · exact (ih h).trans (le_max_right _ _)

theorem fresh_notMem (ids : List Nat) : fresh ids ∉ ids := by
  intro h
  have := le_foldr_max h
  unfold fresh at this
  omega

end InfraHub.Lib
