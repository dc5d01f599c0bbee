import InfraHub.Lib.Prog

/-!
# Library — Couple

Two runs of one program, from two states that are related.  `Alike R` says of two executions that
they came to the same outcome, in states that are related again; it is closed under sequences,
`attempt` and loops.

A loop may stay in step only while each round meets a condition on the two states it starts from
(`Throughout`).  `alike_forEach` is the loop rule for the runs that do; `apart_forEach` follows
those that do not to the end: what the first bad round drives apart, and no later round brings
together again, is apart in the end.
-/

namespace InfraHub.Lib.Prog

variable {σ ε α β : Type} {R : σ → σ → Prop}

/-- The same outcome, in related states. -/
def Alike (R : σ → σ → Prop) (p q : Except ε α × σ) : Prop := p.1 = q.1 ∧ R p.2 q.2

namespace Alike

theorem error {e : ε} {s t : σ} (h : R s t) : Alike (α := α) R (.error e, s) (.error e, t) := ⟨rfl, h⟩

theorem ok {a : α} {s t : σ} (h : R s t) : Alike (ε := ε) R (.ok a, s) (.ok a, t) := ⟨rfl, h⟩

theorem lift (x : Except ε α) {s t : σ} (h : R s t) :
    Alike R (exec (Prog.lift x) s) (exec (Prog.lift x) t) := by
  cases x with
  | error e => exact .error h
  | ok a => exact .ok h

theorem bind {m : Prog σ ε α} {f : α → Prog σ ε β} {s t : σ} (hm : Alike R (exec m s) (exec m t))
    (hf : ∀ a s' t', R s' t' → Alike R (exec (f a) s') (exec (f a) t')) :
    Alike R (exec (m >>= f) s) (exec (m >>= f) t) := by
  rw [exec_bind, exec_bind]
  obtain ⟨ho, hr⟩ := hm
  rcases hs : exec m s with ⟨o, s'⟩
  rcases ht : exec m t with ⟨o', t'⟩
  rw [hs, ht] at ho hr
  cases ho
  cases o with
  | error e => exact .error hr
  | ok a => exact hf a s' t' hr

theorem attempt {m : Prog σ ε α} {handler : ε → Prog σ ε α} {s t : σ}
    (hm : Alike R (exec m s) (exec m t))
    (hh : ∀ e s' t', R s' t' → Alike R (exec (handler e) s') (exec (handler e) t')) :
    Alike R (exec (Prog.attempt m handler) s) (exec (Prog.attempt m handler) t) := by
  rw [exec_attempt, exec_attempt]
  obtain ⟨ho, hr⟩ := hm
  rcases hs : exec m s with ⟨o, s'⟩
  rcases ht : exec m t with ⟨o', t'⟩
  rw [hs, ht] at ho hr
  cases ho
  cases o with
  | error e => exact hh e s' t' hr
  | ok a => exact .ok hr

end Alike

/-! ### Loops -/

/-- Each round of the loop starts from two states that meet the condition, until one raises. -/
def Throughout (body : β → Prog σ ε Unit) (C : β → σ → σ → Prop) : List β → σ → σ → Prop
  | [], _, _ => True
  | x :: l, s, t =>
      C x s t ∧ ∀ s' t', exec (body x) s = (.ok (), s') → exec (body x) t = (.ok (), t') →
        Throughout body C l s' t'

section
variable {body : β → Prog σ ε Unit} {C : β → σ → σ → Prop}

/-- **The loop stays in step.** -/
theorem alike_forEach
    (hbody : ∀ x s t, R s t → C x s t → Alike R (exec (body x) s) (exec (body x) t)) {l : List β}
    {s t : σ} (hr : R s t) (h : Throughout body C l s t) :
    Alike R (exec (forEach body l) s) (exec (forEach body l) t) := by
  induction l generalizing s t with
  | nil => exact .ok hr
  | cons x l ih =>
      obtain ⟨hx, h⟩ := h
      have hround : Alike R (exec (body x) s) (exec (body x) t) := hbody x s t hr hx
      rw [forEach, exec_bind, exec_bind]
      obtain ⟨ho, hr'⟩ := hround
      rcases hs : exec (body x) s with ⟨o, s'⟩
      rcases ht : exec (body x) t with ⟨o', t'⟩
      rw [hs, ht] at ho hr'
      cases ho
      cases o with
      | error e => exact .error hr'
      | ok _ => exact ih hr' (h s' t' hs ht)

/-- What is kept holds between the state after the first round and the last state. -/
theorem keeps_rounds {K : σ → σ → Prop} [IsPreorder σ K] (hk : ∀ x, Keeps K (body x)) (x : β)
    (l : List β) (s : σ) : K (exec (body x) s).2 (exec (forEach body (x :: l)) s).2 := by
  rw [forEach, exec_bind]
  rcases exec (body x) s with ⟨_ | _, s'⟩
  · exact refl_of K s'
  · exact Keeps.forEach (fun y _ => hk y) s'

/-- **The loop falls apart**, at the first round that does not meet the condition. -/
theorem apart_forEach {K D : σ → σ → Prop} [IsPreorder σ K] (hk : ∀ x, Keeps K (body x))
    (hkeep : ∀ {s t s' t'}, D s t → K s s' → K t t' → D s' t')
    (hbody : ∀ x s t, R s t → C x s t → Alike R (exec (body x) s) (exec (body x) t))
    (hapart : ∀ x s t, R s t → ¬ C x s t → D (exec (body x) s).2 (exec (body x) t).2) {l : List β}
    {s t : σ} (hr : R s t) (h : ¬ Throughout body C l s t) :
    D (exec (forEach body l) s).2 (exec (forEach body l) t).2 := by
  induction l generalizing s t with
  | nil => exact absurd trivial h
  | cons x l ih =>
      by_cases hx : C x s t
      · -- this round is in step: the bad one comes later
        have hlater : ∃ s' t', exec (body x) s = (.ok (), s') ∧ exec (body x) t = (.ok (), t') ∧
            ¬ Throughout body C l s' t' := by
          by_contra hno
          refine h ⟨hx, fun s' t' hs ht => ?_⟩
          by_contra hl
          exact hno ⟨s', t', hs, ht, hl⟩
        obtain ⟨s', t', hs, ht, hl⟩ := hlater
        have hr' := (hbody x s t hr hx).2
        rw [hs, ht] at hr'
        rw [forEach, exec_bind_of_ok hs, exec_bind_of_ok ht]
        exact ih hr' hl
      · exact hkeep (hapart x s t hr hx) (keeps_rounds hk x l s) (keeps_rounds hk x l t)

end

end InfraHub.Lib.Prog
