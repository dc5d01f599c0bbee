import Mathlib.Logic.Basic
import Mathlib.Data.List.Basic

/-!
# Library — Run

Runs of a labelled machine.  A machine is a relation `step : σ → ε → σ → Prop`; a run is a
list of labels with the states it passes through.

* `Run.split` cuts a run at any position of its list of labels.
* `Run.invariant` and `Run.invariant_log` are the induction rules: what every step keeps, every
  run keeps.  In the second the invariant may speak about the labels so far.
* `guarded step G` is the machine whose steps also meet `G`; a condition on each step of a run
  is a run of the guarded machine.
* `exec` runs a machine that is given as a function, guarded or not (`Run.of_exec`,
  `Run.guarded_of_exec`).
* `Throughout step P s l`: every state that the labels `l` lead through has `P`.  In a machine with
  one successor for each label, a run whose steps are guarded well has it (`throughout_of_guarded`),
  and where `P` after a step tells that the step was guarded, it is only those
  (`Throughout.guarded`).
* `Run.guarded_of_not_marked`: a step outside the guard leaves a mark that stays, and the end bears
  none.
-/

namespace InfraHub.Lib

variable {σ ε : Type*}

/-- `Run step s l t`: the machine goes from `s` to `t` by the labels `l`, in this order. -/
inductive Run (step : σ → ε → σ → Prop) : σ → List ε → σ → Prop where
  | nil (s : σ) : Run step s [] s
  | cons {s t u : σ} {e : ε} {l : List ε}
      (h : step s e t) (r : Run step t l u) : Run step s (e :: l) u

/-- The machine `step` restricted to the steps that meet `G`. -/
def guarded (step : σ → ε → σ → Prop) (G : σ → ε → Prop) (s : σ) (e : ε) (t : σ) : Prop :=
  step s e t ∧ G s e

/-- Run the labels of a machine given as a function. -/
def exec (next : σ → ε → Option σ) : σ → List ε → Option σ
  | s, [] => some s
  | s, e :: l => (next s e).bind fun t => exec next t l

namespace Run

variable {step : σ → ε → σ → Prop}

theorem one {s t : σ} {e : ε} (h : step s e t) : Run step s [e] t :=
  .cons h (.nil t)

theorem append {s t u : σ} {l₁ l₂ : List ε} (r₁ : Run step s l₁ t) (r₂ : Run step t l₂ u) :
    Run step s (l₁ ++ l₂) u := by
  induction r₁ with
  | nil => exact r₂
  | cons h _ ih => exact .cons h (ih r₂)

/-- A run cut at one of its labels. -/
theorem split {s u : σ} {l₁ l₂ : List ε} {e : ε} (r : Run step s (l₁ ++ e :: l₂) u) :
    ∃ t t', Run step s l₁ t ∧ step t e t' ∧ Run step t' l₂ u := by
  induction l₁ generalizing s with
  | nil =>
      cases r with
      | cons h r => exact ⟨s, _, .nil s, h, r⟩
  | cons a l₁ ih =>
      cases r with
      | cons h r =>
          obtain ⟨t, t', r₁, h', r₂⟩ := ih r
          exact ⟨t, t', .cons h r₁, h', r₂⟩

/-- What every step keeps, every run keeps. -/
theorem invariant {I : σ → Prop} (hstep : ∀ s e t, I s → step s e t → I t)
    {s t : σ} {l : List ε} (r : Run step s l t) (h₀ : I s) : I t := by
  induction r with
  | nil => exact h₀
  | cons h _ ih => exact ih (hstep _ _ _ h₀ h)

/-- `invariant`, for an invariant that also speaks about the labels so far. -/
theorem invariant_log {I : List ε → σ → Prop}
    (hstep : ∀ l s e t, I l s → step s e t → I (l ++ [e]) t)
    {s t : σ} {l : List ε} (r : Run step s l t) (h₀ : I [] s) : I l t := by
  suffices h : ∀ l₀, I l₀ s → I (l₀ ++ l) t from h [] h₀
  clear h₀
  induction r with
  | nil => intro l₀ h; simpa using h
  | cons h _ ih =>
      intro l₀ h₀
      have := ih (l₀ ++ [_]) (hstep _ _ _ _ h₀ h)
      simpa using this

theorem of_exec {next : σ → ε → Option σ} {s t : σ} {l : List ε} (h : exec next s l = some t) :
    Run (fun s e t => next s e = some t) s l t := by
  induction l generalizing s with
  | nil => exact Option.some.inj h ▸ .nil s
  | cons e l ih =>
      obtain ⟨u, hu, h⟩ := Option.bind_eq_some_iff.mp h
      exact .cons hu (ih h)

/-- What every step tells of its label, a run tells of its labels. -/
theorem forall_labels {p : ε → Prop} (h : ∀ s e t, step s e t → p e) {s t : σ} {l : List ε}
    (r : Run step s l t) : ∀ e ∈ l, p e := by
  induction r with
  | nil => exact nofun
  | cons hs _ ih => exact List.forall_mem_cons.mpr ⟨h _ _ _ hs, ih⟩

theorem mono {step' : σ → ε → σ → Prop} (h : ∀ s e t, step s e t → step' s e t) {s t : σ}
    {l : List ε} (r : Run step s l t) : Run step' s l t := by
  induction r with
  | nil => exact .nil _
  | cons hs _ ih => exact .cons (h _ _ _ hs) ih

/-- A run of the labels that meet the guard. -/
theorem guarded_of_exec {next : σ → ε → Option σ} {G : σ → ε → Prop}
    [∀ s e, Decidable (G s e)] {s t : σ} {l : List ε}
    (h : exec (fun s e => if G s e then next s e else none) s l = some t) :
    Run (guarded (fun s e t => next s e = some t) G) s l t := by
  refine (of_exec h).mono fun s e t h => ?_
  obtain ⟨hg, h⟩ := Option.ite_none_right_eq_some.mp h
  exact ⟨h, hg⟩

/-- A guarded run is a run. -/
theorem of_guarded {G : σ → ε → Prop} {s t : σ} {l : List ε} (r : Run (guarded step G) s l t) :
    Run step s l t :=
  r.mono fun _ _ _ h => h.1

/-- A step outside the guard leaves a mark that stays. -/
theorem guarded_of_not_marked {G : σ → ε → Prop} {I B : σ → Prop}
    (hI : ∀ s e t, I s → step s e t → I t) (hB : ∀ s e t, I s → step s e t → B s → B t)
    (hG : ∀ s e t, I s → step s e t → ¬ G s e → B t) {s t : σ} {l : List ε} (r : Run step s l t)
    (h₀ : I s) (hend : ¬ B t) : Run (guarded step G) s l t := by
  induction r with
  | nil => exact .nil _
  | @cons s u t e l h r ih =>
      have hu : I u := hI s e u h₀ h
      refine .cons ⟨h, ?_⟩ (ih hu hend)
      by_contra hg
      -- the mark is still there at the end
      have hstep : ∀ s e t, I s ∧ B s → step s e t → I t ∧ B t := fun s e t hib hs =>
        ⟨hI s e t hib.1 hs, hB s e t hib.1 hs hib.2⟩
      exact hend (r.invariant hstep ⟨hu, hG s e u h₀ h hg⟩).2

/-- A run cut between two labels. -/
theorem cut {s u : σ} {l₁ l₂ : List ε} (r : Run step s (l₁ ++ l₂) u) :
    ∃ t, Run step s l₁ t ∧ Run step t l₂ u := by
  induction l₁ generalizing s with
  | nil => exact ⟨s, .nil s, r⟩
  | cons e l₁ ih =>
      cases r with
      | cons h r =>
          obtain ⟨t, r₁, r₂⟩ := ih r
          exact ⟨t, .cons h r₁, r₂⟩

/-- One successor for each label, one end for each list of labels. -/
theorem unique (hstep : ∀ s e t t', step s e t → step s e t' → t = t') {s t t' : σ} {l : List ε}
    (r : Run step s l t) (r' : Run step s l t') : t = t' := by
  induction r with
  | nil => cases r'; rfl
  | cons h _ ih =>
      cases r' with
      | cons h' r' =>
          obtain rfl := hstep _ _ _ _ h h'
          exact ih r'

end Run

/-- Every state on the way has `P`, which may also speak about the labels so far. -/
def Throughout (step : σ → ε → σ → Prop) (P : List ε → σ → Prop) (s : σ) (l : List ε) : Prop :=
  ∀ l₁ t, l₁ <+: l → Run step s l₁ t → P l₁ t

section
variable {step : σ → ε → σ → Prop} {P : List ε → σ → Prop} {G : σ → ε → Prop} {s t : σ}
  {l : List ε}

theorem throughout_of_guarded (hstep : ∀ s e t t', step s e t → step s e t' → t = t')
    {I : List ε → σ → Prop} (hI : ∀ l s e t, I l s → guarded step G s e t → I (l ++ [e]) t)
    (hP : ∀ l s, I l s → P l s) (r : Run (guarded step G) s l t) (h₀ : I [] s) :
    Throughout step P s l := by
  rintro l₁ u ⟨l₂, rfl⟩ ru
  obtain ⟨v, rv, -⟩ := r.cut
  obtain rfl := Run.unique hstep ru rv.of_guarded
  exact hP l₁ u (rv.invariant_log hI h₀)

theorem Throughout.guarded
    (hG : ∀ l s' e t', Run step s l s' → step s' e t' → P l s' → P (l ++ [e]) t' → G s' e)
    (r : Run step s l t) (h : Throughout step P s l) : Run (guarded step G) s l t := by
  suffices hsuff : ∀ l₀ u l₁, Run step s l₀ u → Run step u l₁ t → l = l₀ ++ l₁ →
      Run (Lib.guarded step G) u l₁ t from hsuff [] s l (.nil s) r rfl
  intro l₀ u l₁ r₀ r₁ hl
  induction r₁ generalizing l₀ with
  | nil => exact .nil _
  | @cons u v t e l₁ hs r₁ ih =>
      have hsnoc : Run step s (l₀ ++ [e]) v := r₀.append (.one hs)
      have hP : P l₀ u := h l₀ u ⟨e :: l₁, hl.symm⟩ r₀
      have hP' : P (l₀ ++ [e]) v := h _ v ⟨l₁, by simp [hl]⟩ hsnoc
      exact .cons ⟨hs, hG l₀ u e v r₀ hs hP hP'⟩ (ih r (l₀ ++ [e]) hsnoc (by simp [hl]))

end

end InfraHub.Lib
