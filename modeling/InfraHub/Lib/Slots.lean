import Mathlib.Data.List.Basic

/-!
# Library — Slots

The states of numbered processes, as a list of which one place is replaced at a time.

* `getElem?_set_cases`: a process afterwards is the one that moved, or as it was.
* `countP_set_add`: how a count of processes changes.
-/

namespace InfraHub.Lib

variable {α : Type*} {l : List α} {i j : Nat} {a b old : α}

theorem getElem?_set_cases (h : (l.set i a)[j]? = some b) :
    (j = i ∧ b = a) ∨ (j ≠ i ∧ l[j]? = some b) := by
  rw [List.getElem?_set] at h
  split at h
  · next hij =>
    obtain ⟨-, h⟩ := Option.ite_none_right_eq_some.mp h
    exact .inl ⟨hij.symm, (Option.some.inj h).symm⟩
  · next hij => exact .inr ⟨Ne.symm hij, h⟩

theorem getElem?_set_other (h : j ≠ i) : (l.set i a)[j]? = l[j]? :=
  List.getElem?_set_ne (Ne.symm h)

theorem getElem?_set_same (h : l[i]? = some old) : (l.set i a)[i]? = some a := by
  obtain ⟨hi, -⟩ := List.getElem?_eq_some_iff.mp h
  simp [hi]

theorem mem_set_same (h : l[i]? = some old) : a ∈ l.set i a :=
  List.mem_of_getElem? (getElem?_set_same h)

/-- Another process is still there. -/
theorem mem_set_of_ne (h : l[i]? = some old) (hb : b ∈ l) (hne : b ≠ old) : b ∈ l.set i a := by
  obtain ⟨j, hj⟩ := List.mem_iff_getElem?.mp hb
  have hij : j ≠ i := by
    rintro rfl
    exact hne (Option.some.inj (hj.symm.trans h))
  exact List.mem_of_getElem? ((getElem?_set_other hij).trans hj)

theorem getElem?_snoc_cases (h : (l ++ [a])[i]? = some b) : l[i]? = some b ∨ b = a := by
  rw [List.getElem?_append] at h
  split at h
  · exact .inl h
  · exact .inr (List.mem_singleton.mp (List.mem_of_getElem? h))

theorem countP_set_add (p : α → Bool) (h : l[i]? = some old) :
    (l.set i a).countP p + (if p old then 1 else 0) = l.countP p + (if p a then 1 else 0) := by
  obtain ⟨hi, rfl⟩ := List.getElem?_eq_some_iff.mp h
  have hpos : p l[i] = true → 0 < l.countP p := fun h =>
    List.countP_pos_iff.mpr ⟨_, List.getElem_mem hi, h⟩
  rw [List.countP_set hi]
  split
  · next hb =>
    have := hpos hb
    omega
  · omega

end InfraHub.Lib
