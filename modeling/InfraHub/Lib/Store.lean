import Mathlib.Logic.Function.Basic

/-!
# Library — Store

A key–value store whose entries may time out.  `Shrinks P c c'` says that on the keys of `P` the
store `c'` holds what `c` holds, or nothing: the relation of a step that writes outside `P` and
may delete anywhere.  A property of the entries on `P` survives every such step.
-/

namespace InfraHub.Lib

/-- A store: what each key holds, if anything. -/
def Store (κ ν : Type) := κ → Option ν

namespace Store

variable {κ ν : Type} [DecidableEq κ]

/-- The store with nothing in it. -/
def empty : Store κ ν := fun _ => none

def get (c : Store κ ν) (k : κ) : Option ν := c k

def set (c : Store κ ν) (k : κ) (v : ν) : Store κ ν := fun k' => if k' = k then some v else c k'

def delete (c : Store κ ν) (k : κ) : Store κ ν := fun k' => if k' = k then none else c k'

def deleteMany (c : Store κ ν) (ks : List κ) : Store κ ν :=
  fun k' => if k' ∈ ks then none else c k'

@[simp] theorem get_set_self (c : Store κ ν) (k : κ) (v : ν) : (c.set k v).get k = some v := by
  simp [get, set]

theorem get_set_ne (c : Store κ ν) {k k' : κ} (v : ν) (h : k' ≠ k) :
    (c.set k v).get k' = c.get k' := by
  simp [get, set, h]

theorem get_set (c : Store κ ν) (k k' : κ) (v : ν) :
    (c.set k v).get k' = if k' = k then some v else c.get k' := rfl

@[simp] theorem get_delete_self (c : Store κ ν) (k : κ) : (c.delete k).get k = none := by
  simp [get, delete]

theorem get_delete_ne (c : Store κ ν) {k k' : κ} (h : k' ≠ k) :
    (c.delete k).get k' = c.get k' := by
  simp [get, delete, h]

theorem get_delete (c : Store κ ν) (k k' : κ) :
    (c.delete k).get k' = if k' = k then none else c.get k' := rfl

/-- A write done again. -/
theorem set_set (c : Store κ ν) (k : κ) (v : ν) : (c.set k v).set k v = c.set k v := by
  funext k'
  by_cases h : k' = k <;> simp [set, h]

theorem delete_delete (c : Store κ ν) (k : κ) : (c.delete k).delete k = c.delete k := by
  funext k'
  by_cases h : k' = k <;> simp [delete, h]

theorem get_deleteMany (c : Store κ ν) (ks : List κ) (k : κ) :
    (c.deleteMany ks).get k = if k ∈ ks then none else c.get k := rfl

/-- On the keys of `P`, `c'` holds what `c` holds or nothing. -/
def Shrinks (P : κ → Prop) (c c' : Store κ ν) : Prop :=
  ∀ k, P k → c'.get k = c.get k ∨ c'.get k = none

namespace Shrinks

variable {P : κ → Prop} {c c' c'' : Store κ ν}

omit [DecidableEq κ] in
theorem refl (c : Store κ ν) : Shrinks P c c := fun _ _ => .inl rfl

omit [DecidableEq κ] in
theorem trans (h : Shrinks P c c') (h' : Shrinks P c' c'') : Shrinks P c c'' := fun k hk => by
  rcases h' k hk with e | e
  · rw [e]; exact h k hk
  · exact .inr e

/-- A write outside `P`. -/
theorem set {k : κ} (v : ν) (hk : ¬ P k) : Shrinks P c (c.set k v) := fun _ hk' =>
  .inl (get_set_ne c v fun e => hk (e ▸ hk'))

/-- A deletion anywhere. -/
theorem delete (k : κ) : Shrinks P c (c.delete k) := fun k' _ => by
  by_cases e : k' = k
  · exact .inr (e ▸ get_delete_self c k)
  · exact .inl (get_delete_ne c e)

omit [DecidableEq κ] in
/-- An entry on `P` after the step was there before it. -/
theorem get_some (h : Shrinks P c c') {k : κ} (hk : P k) {v : ν} (hv : c'.get k = some v) :
    c.get k = some v := by
  rcases h k hk with e | e
  · rw [← e, hv]
  · rw [e] at hv; cases hv

end Shrinks

end Store

end InfraHub.Lib
