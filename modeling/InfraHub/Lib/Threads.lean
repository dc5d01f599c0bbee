import InfraHub.Lib.Run
import InfraHub.Lib.Slots

/-!
# Library — Threads

Numbered threads over a shared state.  `act w pc` is the command a thread does at `pc`; a label of
a run is the number of the thread that moves.

* `step_cases` says what a step is; `length_pcs` that no thread is lost.
* `invariant` is the induction rule for what the shared state and each thread keep, whoever moves.
* `round` builds the run in which all threads, at the same place, do one command each.
-/

namespace InfraHub.Lib

/-- The shared state, and where each thread is. -/
structure Threads (σ π : Type*) where
  shared : σ
  pcs : List π

namespace Threads

variable {σ π : Type*} {act : σ → π → Option (σ × π)} {s t : Threads σ π} {i : Nat} {l : List Nat}

/-- Thread `i` does its next command. -/
def next (act : σ → π → Option (σ × π)) (s : Threads σ π) (i : Nat) : Option (Threads σ π) :=
  s.pcs[i]?.bind fun pc => (act s.shared pc).map fun (w, pc) => ⟨w, s.pcs.set i pc⟩

abbrev Step (act : σ → π → Option (σ × π)) (s : Threads σ π) (i : Nat) (t : Threads σ π) : Prop :=
  next act s i = some t

/-- `k` threads at the same place. -/
def start (w : σ) (k : Nat) (pc : π) : Threads σ π := ⟨w, List.replicate k pc⟩

/-- All threads are at one place. -/
def AllAt (s : Threads σ π) (pc : π) : Prop := ∀ p ∈ s.pcs, p = pc

/-- What a step is. -/
theorem step_cases (h : Step act s i t) : ∃ pc w pc', s.pcs[i]? = some pc ∧
    act s.shared pc = some (w, pc') ∧ t = ⟨w, s.pcs.set i pc'⟩ := by
  obtain ⟨pc, hpc, h⟩ := Option.bind_eq_some_iff.mp h
  obtain ⟨⟨w, pc'⟩, hact, h⟩ := Option.map_eq_some_iff.mp h
  exact ⟨pc, w, pc', hpc, hact, h.symm⟩

theorem step_of {w w' : σ} {pcs : List π} {pc pc' : π} (hpc : pcs[i]? = some pc)
    (hact : act w pc = some (w', pc')) : Step act ⟨w, pcs⟩ i ⟨w', pcs.set i pc'⟩ := by
  simp [Step, next, hpc, hact]

theorem length_pcs (r : Run (Step act) s l t) : t.pcs.length = s.pcs.length := by
  refine r.invariant (I := fun u => u.pcs.length = s.pcs.length) (fun u i v hu h => ?_) rfl
  obtain ⟨pc, w, pc', -, -, rfl⟩ := step_cases h
  rw [List.length_set]
  exact hu

/-- What the moving thread keeps, and what it keeps of the others. -/
theorem invariant {J : σ → Prop} {K : σ → π → Prop}
    (hJ : ∀ w pc w' pc', J w → K w pc → act w pc = some (w', pc') → J w' ∧ K w' pc')
    (hK : ∀ w pc w' pc' p, J w → K w pc → act w pc = some (w', pc') → K w p → K w' p)
    (r : Run (Step act) s l t) (h₀ : J s.shared) (hs : ∀ p ∈ s.pcs, K s.shared p) :
    J t.shared ∧ ∀ p ∈ t.pcs, K t.shared p := by
  refine r.invariant (I := fun u => J u.shared ∧ ∀ p ∈ u.pcs, K u.shared p) ?_ ⟨h₀, hs⟩
  rintro u i v ⟨hu, hpcs⟩ h
  obtain ⟨pc, w, pc', hpc, hact, rfl⟩ := step_cases h
  have hmoves := hpcs pc (List.mem_of_getElem? hpc)
  obtain ⟨hw, hpc'⟩ := hJ _ _ _ _ hu hmoves hact
  refine ⟨hw, fun p hp => ?_⟩
  rcases List.mem_or_eq_of_mem_set hp with hp | rfl
  · exact hK _ _ _ _ p hu hmoves hact (hpcs p hp)
  · exact hpc'

/-- The threads from the `j`-th on do the command that the others have done. -/
theorem round_rest {w' : σ} {p p' : π} (h : act w' p = some (w', p')) (j k : Nat) :
    Run (Step act) ⟨w', List.replicate j p' ++ List.replicate k p⟩ (List.range' j k)
      ⟨w', List.replicate (j + k) p'⟩ := by
  induction k generalizing j with
  | zero =>
      rw [List.replicate_zero, List.append_nil]
      exact .nil _
  | succ k ih =>
      have hpc : (List.replicate j p' ++ List.replicate (k + 1) p)[j]? = some p := by
        simp [List.replicate_succ]
      have hset : (List.replicate j p' ++ List.replicate (k + 1) p).set j p' =
          List.replicate (j + 1) p' ++ List.replicate k p := by
        rw [List.set_append_right j p' (by simp), List.length_replicate, Nat.sub_self,
          List.replicate_succ, List.set_cons_zero, List.replicate_succ', List.append_assoc]
        rfl
      rw [List.range'_succ]
      refine .cons (step_of hpc h) ?_
      have hcount : j + (k + 1) = j + 1 + k := by omega
      rw [hset, hcount]
      exact ih (j + 1)

/-- All threads do one command, which the second does as the first. -/
theorem round {w w' : σ} {p p' : π} {k : Nat} (h : act w p = some (w', p'))
    (hagain : act w' p = some (w', p')) (hk : 0 < k) :
    Run (Step act) (start w k p) (List.range k) (start w' k p') := by
  obtain ⟨k, rfl⟩ := Nat.exists_eq_succ_of_ne_zero (Nat.ne_of_gt hk)
  rw [List.range_eq_range', List.range'_succ]
  refine .cons (step_of (by simp) h) ?_
  have hrest := round_rest hagain 1 k
  rw [Nat.add_comm 1 k] at hrest
  exact hrest

/-- All threads do a command that leaves the shared state as it is. -/
theorem round_read {w : σ} {p p' : π} {k : Nat} (h : act w p = some (w, p')) (hk : 0 < k) :
    Run (Step act) (start w k p) (List.range k) (start w k p') := round h h hk

end Threads

end InfraHub.Lib
