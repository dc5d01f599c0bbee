import Mathlib.Data.List.Forall2

/-!
# Library — Gather

A loop that collects a result for every element, or fails as a whole: `List.mapM` in `Option`.
`Paired R l r` says of two lists that each element of either has a partner in the other, in whatever
order they stand.
-/

namespace InfraHub.Lib

variable {α β : Type} {f : α → Option β} {l : List α} {r : List β}

/-- The results stand in the order of the elements. -/
theorem forall₂_of_mapM (h : l.mapM f = some r) : List.Forall₂ (fun a b => f a = some b) l r := by
  induction l generalizing r with
  | nil =>
      obtain rfl : [] = r := by simpa using h
      exact .nil
  | cons a l ih =>
      rw [List.mapM_cons] at h
      obtain ⟨b, hb, h⟩ := Option.bind_eq_some_iff.mp h
      obtain ⟨r', hr, h⟩ := Option.bind_eq_some_iff.mp h
      obtain rfl : b :: r' = r := by simpa using h
      exact .cons hb (ih hr)

theorem exists_of_mem_mapM (h : l.mapM f = some r) {b : β} (hb : b ∈ r) :
    ∃ a ∈ l, f a = some b := by
  have hall := forall₂_of_mapM h
  clear h
  induction hall with
  | nil => cases hb
  | @cons a b' l r hab _ ih =>
      rcases List.mem_cons.mp hb with rfl | hb
      · exact ⟨a, List.mem_cons_self .., hab⟩
      · obtain ⟨a', ha', hf⟩ := ih hb
        exact ⟨a', List.mem_cons_of_mem _ ha', hf⟩

theorem exists_result_of_mem (h : l.mapM f = some r) {a : α} (ha : a ∈ l) :
    ∃ b ∈ r, f a = some b := by
  have hall := forall₂_of_mapM h
  clear h
  induction hall with
  | nil => cases ha
  | @cons a' b l r hab _ ih =>
      rcases List.mem_cons.mp ha with rfl | ha
      · exact ⟨b, List.mem_cons_self .., hab⟩
      · obtain ⟨b', hb', hf⟩ := ih ha
        exact ⟨b', List.mem_cons_of_mem _ hb', hf⟩

/-- The loop comes to its end. -/
theorem exists_mapM (h : ∀ a ∈ l, f a ≠ none) : ∃ r, l.mapM f = some r := by
  induction l with
  | nil => exact ⟨[], rfl⟩
  | cons a l ih =>
      obtain ⟨ha, hl⟩ := List.forall_mem_cons.mp h
      obtain ⟨b, hb⟩ := Option.ne_none_iff_exists'.mp ha
      obtain ⟨r, hr⟩ := ih hl
      exact ⟨b :: r, by rw [List.mapM_cons, hb, hr]; rfl⟩

theorem mapM_of_forall {g : α → β} (h : ∀ a ∈ l, f a = some (g a)) : l.mapM f = some (l.map g) := by
  induction l with
  | nil => rfl
  | cons a l ih =>
      obtain ⟨ha, hl⟩ := List.forall_mem_cons.mp h
      rw [List.mapM_cons, ha, ih hl]
      rfl

theorem mapM_eq_some_map_iff {g : α → β} : l.mapM f = some (l.map g) ↔ ∀ a ∈ l, f a = some (g a) := by
  refine ⟨fun h => ?_, mapM_of_forall⟩
  exact List.forall₂_same.mp (List.forall₂_map_right_iff.mp (forall₂_of_mapM h))

/-! ### Lists with partners -/

/-- Every element of either list has a partner in the other. -/
def Paired (R : α → β → Prop) (l : List α) (r : List β) : Prop :=
  (∀ a ∈ l, ∃ b ∈ r, R a b) ∧ ∀ b ∈ r, ∃ a ∈ l, R a b

namespace Paired

variable {R : α → β → Prop}

theorem of_forall₂ (h : List.Forall₂ R l r) : Paired R l r := by
  induction h with
  | nil => exact ⟨by simp, by simp⟩
  | cons hab _ ih =>
      constructor
      · intro a ha
        rcases List.mem_cons.mp ha with rfl | ha
        · exact ⟨_, List.mem_cons_self, hab⟩
        · obtain ⟨b, hb, hR⟩ := ih.1 a ha
          exact ⟨b, List.mem_cons_of_mem _ hb, hR⟩
      · intro b hb
        rcases List.mem_cons.mp hb with rfl | hb
        · exact ⟨_, List.mem_cons_self, hab⟩
        · obtain ⟨a, ha, hR⟩ := ih.2 b hb
          exact ⟨a, List.mem_cons_of_mem _ ha, hR⟩

theorem symm (h : Paired R l r) : Paired (fun b a => R a b) r l := ⟨h.2, h.1⟩

theorem nil_iff (h : Paired R l r) : l = [] ↔ r = [] := by
  simp only [List.eq_nil_iff_forall_not_mem]
  constructor
  · intro hnone b hb
    obtain ⟨a, ha, -⟩ := h.2 b hb
    exact hnone a ha
  · intro hnone a ha
    obtain ⟨b, hb, -⟩ := h.1 a ha
    exact hnone b hb

/-- The order of the second list does not matter. -/
theorem of_mem_iff {r' : List β} (h : Paired R l r) (hr : ∀ b, b ∈ r' ↔ b ∈ r) :
    Paired R l r' := by
  constructor
  · intro a ha
    obtain ⟨b, hb, hR⟩ := h.1 a ha
    exact ⟨b, (hr b).mpr hb, hR⟩
  · exact fun b hb => h.2 b ((hr b).mp hb)

variable {P : α → Prop} {P' : β → Prop} (h : Paired R l r) (hP : ∀ a b, R a b → (P a ↔ P' b))
include h hP

/-- What partners agree on holds of all elements of both lists, or of neither. -/
theorem forall_iff : (∀ a ∈ l, P a) ↔ ∀ b ∈ r, P' b := by
  constructor
  · intro hall b hb
    obtain ⟨a, ha, hR⟩ := h.2 b hb
    exact (hP a b hR).mp (hall a ha)
  · intro hall a ha
    obtain ⟨b, hb, hR⟩ := h.1 a ha
    exact (hP a b hR).mpr (hall b hb)

theorem exists_iff : (∃ a ∈ l, P a) ↔ ∃ b ∈ r, P' b := by
  constructor
  · rintro ⟨a, ha, hPa⟩
    obtain ⟨b, hb, hR⟩ := h.1 a ha
    exact ⟨b, hb, (hP a b hR).mp hPa⟩
  · rintro ⟨b, hb, hPb⟩
    obtain ⟨a, ha, hR⟩ := h.2 b hb
    exact ⟨a, ha, (hP a b hR).mpr hPb⟩

end Paired

end InfraHub.Lib
