import Mathlib.Data.List.Basic

/-!
# Library — Memo

Recursive computations over a store, and a table that keeps their results.

* `Ask`: a program that asks queries and calls other computations.  `direct` runs a computation with
  every call it makes, and tells which queries were asked.
* `Wp`: a program comes to a result with a property; one rule for each form of a program, and `wp_bind`.
* `serve` runs it with a table: what the table knows is not computed again, and what is computed is
  stored.  A table is two functions, and need not keep everything.
* `direct_congr`: a store that answers the queries that were asked in the same way gives the same result.
* `serve_of_direct`: where the table is sound, it makes no difference.  Soundness is a parameter, with the
  two rules that it has to keep; queries may be restricted by `Ok`.

Recursion is bounded by a number, and more of it gives the same result (`direct_mono`, `serve_mono`).
-/

namespace InfraHub.Lib

/-- A program with queries `q : Q`, answered by an `A q`, and calls `c : κ`, which return a `ν c`. -/
inductive Ask {κ Q : Type} (ν : κ → Type) (A : Q → Type) (α : Type)
  | ret (a : α)
  | ask (q : Q) (k : A q → Ask ν A α)
  | call (c : κ) (k : ν c → Ask ν A α)

/-- What a table of results offers. -/
structure Memo {κ : Type} (ν : κ → Type) (M : Type) where
  lookup : M → (c : κ) → Option (ν c)
  store : M → (c : κ) → ν c → M

namespace Ask

variable {κ Q : Type} {ν : κ → Type} {A : Q → Type} {α β M : Type}

def andThen : Ask ν A α → (α → Ask ν A β) → Ask ν A β
  | ret a, f => f a
  | ask q k, f => ask q fun x => (k x).andThen f
  | call c k, f => call c fun v => (k v).andThen f

instance : Monad (Ask ν A) where
  pure := ret
  bind := andThen

/-! ### Without a table -/

/-- The result of a program, and the queries that it and its calls ask. -/
def eval (answer : (q : Q) → A q) (sub : (c : κ) → Option (ν c × List Q)) :
    Ask ν A α → Option (α × List Q)
  | ret a => some (a, [])
  | ask q k => ((k (answer q)).eval answer sub).map fun r => (r.1, q :: r.2)
  | call c k => (sub c).bind fun v => ((k v.1).eval answer sub).map fun r => (r.1, v.2 ++ r.2)

/-- A computation with calls to the depth `n`. -/
def direct (body : (c : κ) → Ask ν A (ν c)) (answer : (q : Q) → A q) :
    Nat → (c : κ) → Option (ν c × List Q)
  | 0, _ => none
  | n + 1, c => (body c).eval answer (direct body answer n)

variable {answer answer' : (q : Q) → A q} {sub sub' : (c : κ) → Option (ν c × List Q)}
  {p : Ask ν A α} {r : α × List Q}

theorem eval_bind (p : Ask ν A α) (f : α → Ask ν A β) :
    (p >>= f).eval answer sub =
      (p.eval answer sub).bind fun r => ((f r.1).eval answer sub).map fun s => (s.1, r.2 ++ s.2) := by
  change (p.andThen f).eval answer sub = _
  induction p with
  | ret a => simp [andThen, eval]
  | ask q k ih =>
      simp only [andThen, eval, ih]
      cases (k (answer q)).eval answer sub with
      | none => rfl
      | some r => simp [Function.comp_def]
  | call c k ih =>
      simp only [andThen, eval, ih]
      cases sub c with
      | none => rfl
      | some v =>
          simp only [Option.bind_some]
          cases (k v.1).eval answer sub with
          | none => rfl
          | some r => simp [Function.comp_def]

/-- The same program, where the calls it makes and the queries that are asked agree. -/
theorem eval_congr (h : p.eval answer sub = some r)
    (hsub : ∀ c v, sub c = some v → (∀ q ∈ v.2, answer' q = answer q) → sub' c = some v)
    (hq : ∀ q ∈ r.2, answer' q = answer q) : p.eval answer' sub' = some r := by
  induction p generalizing r with
  | ret a => exact h
  | ask q k ih =>
      obtain ⟨s, hs, rfl⟩ := Option.map_eq_some_iff.mp h
      have hk := ih (answer q) hs fun q' hq' => hq q' (List.mem_cons_of_mem q hq')
      rw [eval, hq q List.mem_cons_self, hk]
      rfl
  | call c k ih =>
      obtain ⟨v, hv, h⟩ := Option.bind_eq_some_iff.mp h
      obtain ⟨s, hs, rfl⟩ := Option.map_eq_some_iff.mp h
      have hv' := hsub c v hv fun q hq' => hq q (List.mem_append_left _ hq')
      have hk := ih v.1 hs fun q hq' => hq q (List.mem_append_right _ hq')
      rw [eval, hv', Option.bind_some, hk]
      rfl

/-- A sequence whose parts have the results of the parts of another. -/
theorem eval_bind_imp {Ok : Q → Prop} {p' : Ask ν A α} {f f' : α → Ask ν A β} {s : β × List Q}
    (h : (p >>= f).eval answer sub = some s) (hok : ∀ q ∈ s.2, Ok q)
    (hp : ∀ r, p.eval answer sub = some r → (∀ q ∈ r.2, Ok q) → p'.eval answer sub' = some r)
    (hf : ∀ a r, (f a).eval answer sub = some r → (∀ q ∈ r.2, Ok q) →
      (f' a).eval answer sub' = some r) : (p' >>= f').eval answer sub' = some s := by
  rw [eval_bind] at h ⊢
  obtain ⟨r, hr, h⟩ := Option.bind_eq_some_iff.mp h
  obtain ⟨u, hu, rfl⟩ := Option.map_eq_some_iff.mp h
  have hr' := hp r hr fun q hq => hok q (List.mem_append_left _ hq)
  have hu' := hf r.1 u hu fun q hq => hok q (List.mem_append_right _ hq)
  rw [hr', Option.bind_some, hu']
  rfl

/-! ### What a program comes to -/

/-- The program comes to a result with the property. -/
def Wp (answer : (q : Q) → A q) (sub : (c : κ) → Option (ν c × List Q)) (p : Ask ν A α) (post : α → Prop) : Prop :=
  ∃ r, p.eval answer sub = some r ∧ post r.1

section
variable {post post' : α → Prop}

theorem wp_ret {a : α} : Wp answer sub (.ret a) post ↔ post a := by
  constructor
  · rintro ⟨r, hr, hpost⟩
    obtain rfl := Option.some.inj hr
    exact hpost
  · exact fun hpost => ⟨_, rfl, hpost⟩

theorem wp_ask {q : Q} {k : A q → Ask ν A α} :
    Wp answer sub (.ask q k) post ↔ Wp answer sub (k (answer q)) post := by
  constructor
  · rintro ⟨r, hr, hpost⟩
    obtain ⟨s, hs, rfl⟩ := Option.map_eq_some_iff.mp hr
    exact ⟨s, hs, hpost⟩
  · rintro ⟨s, hs, hpost⟩
    exact ⟨_, Option.map_eq_some_iff.mpr ⟨s, hs, rfl⟩, hpost⟩

/-- The result of a first part and of what follows it. -/
theorem exists_result {β : Type} {x : Option (β × List Q)} {y : β → Option (α × List Q)} :
    (∃ r, (x.bind fun v => (y v.1).map fun s => (s.1, v.2 ++ s.2)) = some r ∧ post r.1) ↔
      ∃ v, x = some v ∧ ∃ s, y v.1 = some s ∧ post s.1 := by
  constructor
  · rintro ⟨r, hr, hpost⟩
    obtain ⟨v, hv, hr⟩ := Option.bind_eq_some_iff.mp hr
    obtain ⟨s, hs, rfl⟩ := Option.map_eq_some_iff.mp hr
    exact ⟨v, hv, s, hs, hpost⟩
  · rintro ⟨v, hv, s, hs, hpost⟩
    exact ⟨_, Option.bind_eq_some_iff.mpr ⟨v, hv, Option.map_eq_some_iff.mpr ⟨s, hs, rfl⟩⟩, hpost⟩

theorem wp_call {c : κ} {k : ν c → Ask ν A α} :
    Wp answer sub (.call c k) post ↔ ∃ v, sub c = some v ∧ Wp answer sub (k v.1) post :=
  exists_result (y := fun v => (k v).eval answer sub)

theorem wp_bind {p : Ask ν A α} {f : α → Ask ν A β} {post : β → Prop} :
    Wp answer sub (p >>= f) post ↔ Wp answer sub p fun a => Wp answer sub (f a) post := by
  unfold Wp
  rw [eval_bind]
  exact exists_result (y := fun a => (f a).eval answer sub)

theorem Wp.imp (h : Wp answer sub p post) (hpost : ∀ a, post a → post' a) : Wp answer sub p post' :=
  Exists.imp (fun _ hr => And.imp_right (hpost _) hr) h

/-- A program has one result. -/
theorem Wp.and (h : Wp answer sub p post) (h' : Wp answer sub p post') :
    Wp answer sub p fun a => post a ∧ post' a := by
  obtain ⟨r, hr, hpost⟩ := h
  obtain ⟨r', hr', hpost'⟩ := h'
  obtain rfl := Option.some.inj (hr.symm.trans hr')
  exact ⟨r, hr, hpost, hpost'⟩

end

variable {body : (c : κ) → Ask ν A (ν c)} {n m : Nat} {c : κ} {v w : ν c × List Q}

/-- **The frame rule**: only the answers to the queries that were asked count. -/
theorem direct_congr (h : direct body answer n c = some v) (hq : ∀ q ∈ v.2, answer' q = answer q) :
    direct body answer' n c = some v := by
  induction n generalizing c with
  | zero => cases h
  | succ n ih => exact eval_congr h (fun c' w hw hq' => ih hw hq') hq

theorem direct_mono (h : direct body answer n c = some v) (hle : n ≤ m) :
    direct body answer m c = some v := by
  induction n generalizing c m with
  | zero => cases h
  | succ n ih =>
      cases m with
      | zero => exact absurd hle (Nat.not_succ_le_zero n)
      | succ m =>
          exact eval_congr h (fun c' w hw _ => ih hw (Nat.le_of_succ_le_succ hle)) fun _ _ => rfl

theorem direct_unique (h : direct body answer n c = some v) (h' : direct body answer m c = some w) :
    v = w := by
  have hv := direct_mono h (Nat.le_max_left n m)
  have hw := direct_mono h' (Nat.le_max_right n m)
  exact Option.some.inj (hv.symm.trans hw)

/-! ### With a table -/

/-- The result of a program, and the table that it and its calls leave. -/
def evalMemo (answer : (q : Q) → A q) (sub : (c : κ) → M → Option (ν c × M)) :
    Ask ν A α → M → Option (α × M)
  | ret a, t => some (a, t)
  | ask q k, t => (k (answer q)).evalMemo answer sub t
  | call c k, t => (sub c t).bind fun v => (k v.1).evalMemo answer sub v.2

/-- A computation with a table, and calls to the depth `n`. -/
def serve (T : Memo ν M) (body : (c : κ) → Ask ν A (ν c)) (answer : (q : Q) → A q) :
    Nat → (c : κ) → M → Option (ν c × M)
  | 0, _, _ => none
  | n + 1, c, t =>
    match T.lookup t c with
    | some v => some (v, t)
    | none =>
      ((body c).evalMemo answer (serve T body answer n) t).map fun v => (v.1, T.store v.2 c v.1)

variable {T : Memo ν M} {t t' u : M} {x y : ν c}

theorem evalMemo_mono {sub sub' : (c : κ) → M → Option (ν c × M)} {s : α × M}
    (hsub : ∀ c t v, sub c t = some v → sub' c t = some v)
    (h : p.evalMemo answer sub t = some s) : p.evalMemo answer sub' t = some s := by
  induction p generalizing t with
  | ret a => exact h
  | ask q k ih => exact ih (answer q) h
  | call c k ih =>
      obtain ⟨v, hv, h⟩ := Option.bind_eq_some_iff.mp h
      rw [evalMemo, hsub c t v hv]
      exact ih v.1 h

/-- Calls that leave the table as it is. -/
theorem evalMemo_of_same {sub : (c : κ) → M → Option (ν c × M)} {sub' : (c : κ) → Option (ν c × List Q)}
    (hsub : ∀ c v, sub' c = some v → sub c t = some (v.1, t)) (h : p.eval answer sub' = some r) :
    p.evalMemo answer sub t = some (r.1, t) := by
  induction p generalizing r with
  | ret a =>
      cases h
      rfl
  | ask q k ih =>
      obtain ⟨s, hs, rfl⟩ := Option.map_eq_some_iff.mp h
      have hk := ih (answer q) hs
      exact hk
  | call c k ih =>
      obtain ⟨v, hv, h⟩ := Option.bind_eq_some_iff.mp h
      obtain ⟨s, hs, rfl⟩ := Option.map_eq_some_iff.mp h
      have hk := ih v.1 hs
      rw [evalMemo, hsub c v hv]
      exact hk

/-- A call that the table does not know, and whose own calls leave the table as it is. -/
theorem serve_of_same {sub' : (c : κ) → Option (ν c × List Q)} (hlookup : T.lookup t c = none)
    (hsub : ∀ c v, sub' c = some v → serve T body answer n c t = some (v.1, t))
    (h : (body c).eval answer sub' = some v) :
    serve T body answer (n + 1) c t = some (v.1, T.store t c v.1) := by
  rw [serve, hlookup]
  simp only [evalMemo_of_same hsub h, Option.map_some]

theorem serve_mono {s : ν c × M} (h : serve T body answer n c t = some s) (hle : n ≤ m) :
    serve T body answer m c t = some s := by
  induction n generalizing c t m with
  | zero => cases h
  | succ n ih =>
      cases m with
      | zero => exact absurd hle (Nat.not_succ_le_zero n)
      | succ m =>
          rw [serve] at h ⊢
          cases hlookup : T.lookup t c with
          | some v =>
              rw [hlookup] at h
              exact h
          | none =>
              rw [hlookup] at h
              obtain ⟨v, hv, rfl⟩ := Option.map_eq_some_iff.mp h
              have hsub (c' : κ) (t' : M) (w : ν c' × M) (hw : serve T body answer n c' t' = some w) :
                  serve T body answer m c' t' = some w := ih hw (Nat.le_of_succ_le_succ hle)
              simp only [evalMemo_mono hsub hv, Option.map_some]

theorem serve_unique {s s' : ν c × M} (h : serve T body answer n c t = some s)
    (h' : serve T body answer m c t = some s') : s = s' := by
  have hs := serve_mono h (Nat.le_max_left n m)
  have hs' := serve_mono h' (Nat.le_max_right n m)
  exact Option.some.inj (hs.symm.trans hs')

/-! ### A sound table makes no difference -/

/-- What soundness of a table has to keep, for computations that ask queries of `Ok` only. -/
structure Keeps (T : Memo ν M) (body : (c : κ) → Ask ν A (ν c)) (answer : (q : Q) → A q)
    (Ok : Q → Prop) (Sound : M → Prop) : Prop where
  hit {t : M} {c : κ} {x : ν c} {n : Nat} {v : ν c × List Q} : Sound t → T.lookup t c = some x →
    direct body answer n c = some v → (∀ q ∈ v.2, Ok q) → x = v.1
  keep {t : M} {c : κ} {n : Nat} {v : ν c × List Q} : Sound t →
    direct body answer n c = some v → (∀ q ∈ v.2, Ok q) → Sound (T.store t c v.1)

section
variable {Ok : Q → Prop} {Sound : M → Prop}

theorem evalMemo_of_eval {sub : (c : κ) → M → Option (ν c × M)}
    {sub' : (c : κ) → Option (ν c × List Q)} (ht : Sound t) (h : p.eval answer sub' = some r)
    (hok : ∀ q ∈ r.2, Ok q)
    (hsub : ∀ c t v, Sound t → sub' c = some v → (∀ q ∈ v.2, Ok q) →
      ∃ t', sub c t = some (v.1, t') ∧ Sound t') :
    ∃ t', p.evalMemo answer sub t = some (r.1, t') ∧ Sound t' := by
  induction p generalizing t r with
  | ret a =>
      cases h
      exact ⟨t, rfl, ht⟩
  | ask q k ih =>
      obtain ⟨s, hs, rfl⟩ := Option.map_eq_some_iff.mp h
      have hk := ih (answer q) ht hs fun q' hq' => hok q' (List.mem_cons_of_mem q hq')
      exact hk
  | call c k ih =>
      obtain ⟨v, hv, h⟩ := Option.bind_eq_some_iff.mp h
      obtain ⟨s, hs, rfl⟩ := Option.map_eq_some_iff.mp h
      obtain ⟨t₁, ht₁, hsound⟩ := hsub c t v ht hv fun q hq' => hok q (List.mem_append_left _ hq')
      obtain ⟨t₂, ht₂, hsound⟩ := ih v.1 hsound hs fun q hq' => hok q (List.mem_append_right _ hq')
      refine ⟨t₂, ?_, hsound⟩
      rw [evalMemo, ht₁]
      exact ht₂

/-- **A sound table**: the result is the one without it, and the table stays sound. -/
theorem serve_of_direct (hkeeps : Keeps T body answer Ok Sound) (ht : Sound t)
    (h : direct body answer n c = some v) (hok : ∀ q ∈ v.2, Ok q) :
    ∃ t', serve T body answer n c t = some (v.1, t') ∧ Sound t' := by
  induction n generalizing c t with
  | zero => cases h
  | succ n ih =>
      rw [serve]
      cases hlookup : T.lookup t c with
      | some x =>
          obtain rfl := hkeeps.hit ht hlookup h hok
          exact ⟨t, rfl, ht⟩
      | none =>
          obtain ⟨t', ht', hsound⟩ := evalMemo_of_eval ht h hok fun c' t' w hs hw hokw => ih hs hw hokw
          refine ⟨T.store t' c v.1, ?_, hkeeps.keep hsound h hok⟩
          simp only [ht', Option.map_some]

end

end Ask

end InfraHub.Lib
