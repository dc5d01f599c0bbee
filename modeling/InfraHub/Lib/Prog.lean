import Mathlib.Data.List.Basic
import Mathlib.Order.Defs.Unbundled

/-!
# Library — Prog

Programs that may raise, over a state that survives the exception: what a request handler does
to a store that is not rolled back.  `exec` runs a program; its equations are the simp set.

* `exec_bind_ok` inverts a sequence that returned: both halves returned.
* `Keeps R m` says that `m` relates every initial state to its final one by `R`, whether it
  returns or raises.  For a preorder `R` it is closed under every way of building programs
  (`Keeps.bind`, `Keeps.attempt`, …), so a frame condition of a handler is the frame conditions
  of its parts.
* `Blind g m` says that `m` neither reads nor writes what `g` replaces: it may be replaced before
  or after.  It is closed under the ways of building programs, too.
-/

namespace InfraHub.Lib

/-- A program over the state `σ` that returns an `α` or raises an `ε`. -/
def Prog (σ ε α : Type) := σ → Except ε α × σ

namespace Prog

variable {σ ε α β : Type}

/-- The outcome of a program and the state it leaves. -/
def exec (m : Prog σ ε α) (s : σ) : Except ε α × σ := m s

/-- Run `m`, then `f` on what it returned; an exception of `m` skips `f`. -/
def andThen (m : Prog σ ε α) (f : α → Prog σ ε β) : Prog σ ε β := fun s =>
  match m s with
  | (.ok a, t) => f a t
  | (.error e, t) => (.error e, t)

instance : Monad (Prog σ ε) where
  pure a := fun s => (.ok a, s)
  bind := andThen

/-- Raise `e`. -/
def raise (e : ε) : Prog σ ε α := fun s => (.error e, s)

/-- Apply `f` to the state. -/
def update (f : σ → σ) : Prog σ ε Unit := fun s => (.ok (), f s)

/-- Read the state through `f`. -/
def read (f : σ → α) : Prog σ ε α := fun s => (.ok (f s), s)

/-- `try m except e: handler e`. -/
def attempt (m : Prog σ ε α) (handler : ε → Prog σ ε α) : Prog σ ε α := fun s =>
  match m s with
  | (.ok a, t) => (.ok a, t)
  | (.error e, t) => handler e t

/-- `try: m finally: cleanup`; an exception of `cleanup` takes the place of what `m` did. -/
def ensuring (m : Prog σ ε α) (cleanup : Prog σ ε Unit) : Prog σ ε α := fun s =>
  match cleanup (m s).2 with
  | (.ok _, t) => ((m s).1, t)
  | (.error e, t) => (.error e, t)

/-- The value of an optional, or an exception. -/
def orRaise (e : ε) : Option α → Prog σ ε α
  | some a => pure a
  | none => raise e

/-- The value of a computation without state, or its exception. -/
def lift : Except ε α → Prog σ ε α
  | .ok a => pure a
  | .error e => raise e

/-- `for x in l: body x`. -/
def forEach (body : β → Prog σ ε Unit) : List β → Prog σ ε Unit
  | [] => pure ()
  | x :: l => body x >>= fun _ => forEach body l

@[simp] theorem exec_pure (a : α) (s : σ) : exec (pure a : Prog σ ε α) s = (.ok a, s) := rfl

@[simp] theorem exec_raise (e : ε) (s : σ) : exec (raise e : Prog σ ε α) s = (.error e, s) := rfl

@[simp] theorem exec_update (f : σ → σ) (s : σ) :
    exec (update f : Prog σ ε Unit) s = (.ok (), f s) := rfl

@[simp] theorem exec_read (f : σ → α) (s : σ) :
    exec (read f : Prog σ ε α) s = (.ok (f s), s) := rfl

theorem exec_bind (m : Prog σ ε α) (f : α → Prog σ ε β) (s : σ) :
    exec (m >>= f) s =
      match exec m s with
      | (.ok a, t) => exec (f a) t
      | (.error e, t) => (.error e, t) :=
  rfl

theorem exec_attempt (m : Prog σ ε α) (handler : ε → Prog σ ε α) (s : σ) :
    exec (attempt m handler) s =
      match exec m s with
      | (.ok a, t) => (.ok a, t)
      | (.error e, t) => exec (handler e) t :=
  rfl

theorem exec_ensuring_of_ok {m : Prog σ ε α} {cleanup : Prog σ ε Unit} {s t u : σ}
    {r : Except ε α} (h : exec m s = (r, t)) (h' : exec cleanup t = (.ok (), u)) :
    exec (ensuring m cleanup) s = (r, u) := by
  rw [exec] at h h' ⊢
  rw [ensuring, h, h']

theorem exec_ensuring_of_error {m : Prog σ ε α} {cleanup : Prog σ ε Unit} {s t u : σ}
    {r : Except ε α} {e : ε} (h : exec m s = (r, t)) (h' : exec cleanup t = (.error e, u)) :
    exec (ensuring m cleanup) s = (.error e, u) := by
  rw [exec] at h h' ⊢
  rw [ensuring, h, h']

theorem exec_attempt_of_ok {m : Prog σ ε α} {handler : ε → Prog σ ε α} {s t : σ} {a : α}
    (h : exec m s = (.ok a, t)) : exec (attempt m handler) s = (.ok a, t) := by
  rw [exec_attempt, h]

theorem exec_attempt_of_error {m : Prog σ ε α} {handler : ε → Prog σ ε α} {s t : σ} {e : ε}
    (h : exec m s = (.error e, t)) : exec (attempt m handler) s = exec (handler e) t := by
  rw [exec_attempt, h]

theorem exec_bind_of_ok {m : Prog σ ε α} {f : α → Prog σ ε β} {s t : σ} {a : α}
    (h : exec m s = (.ok a, t)) : exec (m >>= f) s = exec (f a) t := by
  rw [exec_bind, h]

theorem exec_bind_of_error {m : Prog σ ε α} {f : α → Prog σ ε β} {s t : σ} {e : ε}
    (h : exec m s = (.error e, t)) : exec (m >>= f) s = (.error e, t) := by
  rw [exec_bind, h]

/-- A sequence that returned: its first half returned, and its second half from there. -/
theorem exec_bind_ok {m : Prog σ ε α} {f : α → Prog σ ε β} {s u : σ} {b : β} :
    exec (m >>= f) s = (.ok b, u) ↔
      ∃ a t, exec m s = (.ok a, t) ∧ exec (f a) t = (.ok b, u) := by
  rw [exec_bind]
  rcases exec m s with ⟨_ | a, t⟩
  · simp
  · constructor
    · exact fun h => ⟨a, t, rfl, h⟩
    · rintro ⟨_, _, h, h'⟩
      cases h
      exact h'

@[simp] theorem exec_pure_bind (a : α) (f : α → Prog σ ε β) (s : σ) :
    exec (pure a >>= f) s = exec (f a) s :=
  rfl

@[simp] theorem exec_read_bind (g : σ → α) (f : α → Prog σ ε β) (s : σ) :
    exec (read g >>= f) s = exec (f (g s)) s :=
  rfl

@[simp] theorem exec_update_bind (g : σ → σ) (f : Unit → Prog σ ε β) (s : σ) :
    exec (update g >>= f) s = exec (f ()) (g s) :=
  rfl

/-- A guard that let the program return did not fire. -/
theorem exec_guard_ok {p : Prop} [Decidable p] {e : ε} {m : Prog σ ε α} {s t : σ} {a : α} :
    exec (if p then raise e else m) s = (.ok a, t) ↔ ¬ p ∧ exec m s = (.ok a, t) := by
  by_cases h : p <;> simp [h]

@[simp] theorem exec_lift_ok_bind (a : α) (f : α → Prog σ ε β) (s : σ) :
    exec (lift (.ok a) >>= f) s = exec (f a) s :=
  rfl

@[simp] theorem exec_lift_error_bind (e : ε) (f : α → Prog σ ε β) (s : σ) :
    exec (lift (.error e) >>= f) s = (.error e, s) :=
  rfl

/-! ### What a program keeps -/

/-- `m` relates its initial state to its final one by `R`, returning or raising. -/
def Keeps (R : σ → σ → Prop) (m : Prog σ ε α) : Prop := ∀ s, R s (exec m s).2

namespace Keeps

variable {R : σ → σ → Prop}

theorem update {f : σ → σ} (h : ∀ s, R s (f s)) : Keeps R (Prog.update f : Prog σ ε Unit) := h

theorem ite {p : Prop} [Decidable p] {m n : Prog σ ε α} (hm : Keeps R m) (hn : Keeps R n) :
    Keeps R (if p then m else n) := by
  split
  · exact hm
  · exact hn

/-- What a program keeps, read off one of its executions. -/
theorem of_exec {m : Prog σ ε α} (h : Keeps R m) {s t : σ} {r : Except ε α}
    (he : exec m s = (r, t)) : R s t := by
  have := h s
  rwa [he] at this

/-- What holds of the outcome of a sequence, when `C s` survives a step from `s` by `R`: it holds
where the first half raised, and of the second half wherever that starts. -/
theorem bind_outcome {C : σ → Except ε β × σ → Prop} (hC : ∀ {s t p}, R s t → C t p → C s p)
    {m : Prog σ ε α} {f : α → Prog σ ε β} (hm : Keeps R m) (he : ∀ e t, C t (.error e, t))
    (hf : ∀ a t, C t (exec (f a) t)) (s : σ) : C s (exec (m >>= f) s) := by
  rw [exec_bind]
  rcases h : exec m s with ⟨e | a, t⟩
  · exact hC (hm.of_exec h) (he e t)
  · exact hC (hm.of_exec h) (hf a t)

variable [IsPreorder σ R]

theorem ret (a : α) : Keeps R (Pure.pure a : Prog σ ε α) := refl_of R

theorem raise (e : ε) : Keeps R (Prog.raise e : Prog σ ε α) := refl_of R

theorem read (f : σ → α) : Keeps R (Prog.read f : Prog σ ε α) := refl_of R

theorem orRaise (e : ε) (o : Option α) : Keeps R (Prog.orRaise e o : Prog σ ε α) := by
  cases o with
  | none => exact Keeps.raise e
  | some a => exact Keeps.ret a

theorem lift (x : Except ε α) : Keeps R (Prog.lift x : Prog σ ε α) := by
  cases x with
  | error e => exact Keeps.raise e
  | ok a => exact Keeps.ret a

theorem bind {m : Prog σ ε α} {f : α → Prog σ ε β} (hm : Keeps R m) (hf : ∀ a, Keeps R (f a)) :
    Keeps R (m >>= f) := by
  intro s
  rw [exec_bind]
  have h := hm s
  rcases he : exec m s with ⟨_ | a, t⟩
  · rwa [he] at h
  · rw [he] at h
    exact trans_of R h (hf a t)

theorem attempt {m : Prog σ ε α} {handler : ε → Prog σ ε α} (hm : Keeps R m)
    (hh : ∀ e, Keeps R (handler e)) : Keeps R (Prog.attempt m handler) := by
  intro s
  rw [exec_attempt]
  have h := hm s
  rcases he : exec m s with ⟨e | a, t⟩
  · rw [he] at h
    exact trans_of R h (hh e t)
  · rwa [he] at h

theorem forEach {body : β → Prog σ ε Unit} {l : List β} (h : ∀ x ∈ l, Keeps R (body x)) :
    Keeps R (Prog.forEach body l) := by
  induction l with
  | nil => exact Keeps.ret ()
  | cons x l ih =>
      exact (h x (by simp)).bind fun _ => ih fun y hy => h y (List.mem_cons_of_mem x hy)

end Keeps

/-! ### What a program does not see -/

/-- `m` neither reads nor writes what `g` replaces. -/
def Blind (g : σ → σ) (m : Prog σ ε α) : Prop :=
  ∀ s, exec m (g s) = ((exec m s).1, g (exec m s).2)

namespace Blind

variable {g : σ → σ}

theorem ret (a : α) : Blind g (Pure.pure a : Prog σ ε α) := fun _ => rfl

theorem raise (e : ε) : Blind g (Prog.raise e : Prog σ ε α) := fun _ => rfl

theorem lift (x : Except ε α) : Blind g (Prog.lift x : Prog σ ε α) := by
  cases x with
  | error e => exact Blind.raise e
  | ok a => exact Blind.ret a

theorem update {f : σ → σ} (h : ∀ s, f (g s) = g (f s)) :
    Blind g (Prog.update f : Prog σ ε Unit) := fun s => by
  simp [h]

theorem read {f : σ → α} (h : ∀ s, f (g s) = f s) : Blind g (Prog.read f : Prog σ ε α) := fun s => by
  simp [h]

theorem bind {m : Prog σ ε α} {f : α → Prog σ ε β} (hm : Blind g m) (hf : ∀ a, Blind g (f a)) :
    Blind g (m >>= f) := by
  intro s
  rw [exec_bind, exec_bind, hm s]
  rcases exec m s with ⟨_ | a, t⟩
  · rfl
  · exact hf a t

theorem attempt {m : Prog σ ε α} {handler : ε → Prog σ ε α} (hm : Blind g m)
    (hh : ∀ e, Blind g (handler e)) : Blind g (Prog.attempt m handler) := by
  intro s
  rw [exec_attempt, exec_attempt, hm s]
  rcases exec m s with ⟨e | a, t⟩
  · exact hh e t
  · rfl

theorem forEach {body : β → Prog σ ε Unit} {l : List β} (h : ∀ x, Blind g (body x)) :
    Blind g (Prog.forEach body l) := by
  induction l with
  | nil => exact Blind.ret ()
  | cons x l ih => exact (h x).bind fun _ => ih

end Blind

/-- A loop in two parts. -/
theorem exec_forEach_append {body : β → Prog σ ε Unit} {l₁ l₂ : List β} {s t : σ}
    (h : exec (forEach body l₁) s = (.ok (), t)) :
    exec (forEach body (l₁ ++ l₂)) s = exec (forEach body l₂) t := by
  induction l₁ generalizing s with
  | nil =>
      cases h
      rfl
  | cons x l₁ ih =>
      obtain ⟨_, u, hu, h⟩ := exec_bind_ok.mp h
      rw [List.cons_append, forEach, exec_bind_of_ok hu]
      exact ih h

/-- A loop that returned, cut in two. -/
theorem exec_forEach_cut {body : β → Prog σ ε Unit} {l₁ l₂ : List β} {s u : σ}
    (h : exec (forEach body (l₁ ++ l₂)) s = (.ok (), u)) :
    ∃ t, exec (forEach body l₁) s = (.ok (), t) ∧ exec (forEach body l₂) t = (.ok (), u) := by
  induction l₁ generalizing s with
  | nil => exact ⟨s, rfl, h⟩
  | cons x l₁ ih =>
      obtain ⟨_, t₁, hx, h⟩ := exec_bind_ok.mp h
      obtain ⟨t, ht, hu⟩ := ih h
      exact ⟨t, exec_bind_ok.mpr ⟨(), t₁, hx, ht⟩, hu⟩

/-- A loop of one round. -/
theorem exec_forEach_singleton {body : β → Prog σ ε Unit} {x : β} {s t : σ}
    (h : exec (forEach body [x]) s = (.ok (), t)) : exec (body x) s = (.ok (), t) := by
  obtain ⟨_, u, hx, h⟩ := exec_bind_ok.mp h
  cases h
  exact hx

/-- A loop goes on by one round. -/
theorem exec_forEach_snoc {body : β → Prog σ ε Unit} {l : List β} {x : β} {s t u : σ}
    (h : exec (forEach body l) s = (.ok (), t)) (hx : exec (body x) t = (.ok (), u)) :
    exec (forEach body (l ++ [x])) s = (.ok (), u) := by
  rw [exec_forEach_append h, forEach, exec_bind_of_ok hx]
  rfl

end Prog

end InfraHub.Lib
