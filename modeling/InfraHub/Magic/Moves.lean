import InfraHub.Lib.Slots
import InfraHub.Magic.Wrapper

/-!
# Magic — Moves

What a step of a call can be, said once: `Move` has a constructor for every branch of `wrapper`, and
`move_of_advance` is the inversion that the invariants go through.

`results` are the values that the executions of `func` in a run return.
-/

namespace InfraHub.Magic
open InfraHub.Lib (Run getElem?_set_cases getElem?_set_other getElem?_set_same)

variable {W : Wrapper} {s t u : State} {i : Nat} {c : Call}

/-- The steps of call `i`, which is `c`. -/
inductive Move (W : Wrapper) (s : State) (i : Nat) (c : Call) : State → Prop
  /-- the first look finds nothing -/
  | miss (hpc : c.pc = .get) (he : s.entry = none) : Move W s i c (s.goto i c (.lock none))
  /-- a later look finds nothing -/
  | wait (hpc : c.pc = .sleep) (he : s.entry = none) : Move W s i c (s.goto i c .sleep)
  | poll (res : Entry) (hpc : c.pc = .get ∨ c.pc = .sleep) (he : s.entry = some res)
      (hready : res.status = .ready) : Move W s i c (s.goto i c .sleep)
  | read (res : Entry) (hpc : c.pc = .get ∨ c.pc = .sleep) (he : s.entry = some res)
      (hok : res.status = .ok) : Move W s i c (s.goto i c (.lock (some res)))
  | acquire (res : Option Entry) (hpc : c.pc = .lock res) (hl : s.lock = none) :
      Move W s i c ({ s with lock := some i }.goto i c (.check res))
  | hit (res : Entry) (hpc : c.pc = .check (some res)) (hv : W.is_valid c res) :
      Move W s i c (s.goto i c (.release res.data))
  | mark (res : Option Entry) (hpc : c.pc = .check res) (hv : ∀ r ∈ res, ¬ W.is_valid c r) :
      Move W s i c ({ s with entry := some ⟨c.n_time, none, .ready⟩ }.goto i c .func)
  | func (hpc : c.pc = .func) : Move W s i c (s.goto i c (.store (some s.version)))
  | store (data : Option Nat) (hpc : c.pc = .store data) :
      Move W s i c ({ s with entry := some ⟨c.n_time, data, .ok⟩ }.goto i c (.release data))
  | release (data : Option Nat) (hpc : c.pc = .release data) (hl : s.lock = some i) :
      Move W s i c ({ s with lock := none }.goto i c (.returned data))
  /-- the lock is another call's by now, or nobody's -/
  | lost (data : Option Nat) (hpc : c.pc = .release data) (hl : s.lock ≠ some i) :
      Move W s i c (s.goto i c .raised)

theorem move_of_await {res : Entry} (hpc : c.pc = .get ∨ c.pc = .sleep) (he : s.entry = some res) :
    Move W s i c (s.goto i c (await res)) := by
  cases hs : res.status with
  | ready =>
      rw [await, hs]
      exact .poll res hpc he hs
  | ok =>
      rw [await, hs]
      exact .read res hpc he hs

/-- Every step of a call is one of the moves. -/
theorem move_of_advance (h : advance W s i c = some t) : Move W s i c t := by
  unfold advance at h
  split at h
  case h_1 hpc =>
    split at h
    · next he => exact Option.some.inj h ▸ .miss hpc he
    · next res he => exact Option.some.inj h ▸ move_of_await (.inl hpc) he
  case h_2 hpc =>
    split at h
    · next he => exact Option.some.inj h ▸ .wait hpc he
    · next res he => exact Option.some.inj h ▸ move_of_await (.inr hpc) he
  case h_3 res hpc =>
    obtain ⟨hl, h⟩ := Option.ite_none_right_eq_some.mp h
    exact Option.some.inj h ▸ .acquire res hpc hl
  case h_4 hpc => exact Option.some.inj h ▸ .mark none hpc nofun
  case h_5 res hpc =>
    split at h
    · next hv => exact Option.some.inj h ▸ .hit res hpc hv
    · next hv =>
      have hold : ∀ r ∈ some res, ¬ W.is_valid c r := fun r hr => Option.some.inj hr ▸ hv
      exact Option.some.inj h ▸ .mark (some res) hpc hold
  case h_6 hpc => exact Option.some.inj h ▸ .func hpc
  case h_7 data hpc => exact Option.some.inj h ▸ .store data hpc
  case h_8 data hpc =>
    split at h
    · next hl => exact Option.some.inj h ▸ .release data hpc hl
    · next hl => exact Option.some.inj h ▸ .lost data hpc hl
  case h_9 => cases h
  case h_10 => cases h

theorem move_of_next (h : next W s (.advance i) = some t) :
    ∃ c, s.calls[i]? = some c ∧ Move W s i c t := by
  obtain ⟨c, hc, h⟩ := Option.bind_eq_some_iff.mp h
  exact ⟨c, hc, move_of_advance h⟩

theorem fail_of_next (h : next W s (.fail i) = some t) :
    ∃ c, s.calls[i]? = some c ∧ c.pc = .func ∧ t = s.goto i c (.store none) := by
  obtain ⟨c, hc, h⟩ := Option.bind_eq_some_iff.mp h
  obtain ⟨hpc, h⟩ := Option.ite_none_right_eq_some.mp h
  exact ⟨c, hc, hpc, (Option.some.inj h).symm⟩

/-! ### The calls after a step -/

theorem getElem?_goto {pc : Pc} {j : Nat} {d : Call} (h : (s.goto i c pc).calls[j]? = some d) :
    (j = i ∧ d = { c with pc }) ∨ (j ≠ i ∧ s.calls[j]? = some d) :=
  getElem?_set_cases h

theorem goto_other {pc : Pc} {j : Nat} (h : j ≠ i) : (s.goto i c pc).calls[j]? = s.calls[j]? :=
  getElem?_set_other h

theorem goto_self {pc : Pc} {d : Call} (h : s.calls[i]? = some d) :
    (s.goto i c pc).calls[i]? = some { c with pc } :=
  getElem?_set_same h

/-- Only its own steps move a call. -/
theorem call_kept {e : Event} (h : next W s e = some t) (hc : s.calls[i]? = some c)
    (hadvance : e ≠ .advance i) (hfail : e ≠ .fail i) : t.calls[i]? = some c := by
  have hother {j : Nat} {d : Call} {pc : Pc} {entry lock} (hj : i ≠ j) :
      ({ s with entry, lock }.goto j d pc).calls[i]? = some c :=
    (goto_other hj).trans hc
  cases e with
  | call cache_time =>
      cases h
      obtain ⟨hi, -⟩ := List.getElem?_eq_some_iff.mp hc
      exact (List.getElem?_append_left hi).trans hc
  | advance j =>
      have hj : i ≠ j := fun e => hadvance (e ▸ rfl)
      obtain ⟨d, -, hmove⟩ := move_of_next h
      cases hmove <;> exact hother hj
  | fail j =>
      have hj : i ≠ j := fun e => hfail (e ▸ rfl)
      obtain ⟨d, -, -, rfl⟩ := fail_of_next h
      exact hother hj
  | tick => cases h; exact hc
  | write => cases h; exact hc
  | invalid_cache key => cases h; exact hc
  | invalid_caches keys => cases h; exact hc
  | expire => cases h; exact hc
  | lock_expire => cases h; exact hc

/-! ### What the executions return -/

/-- What `func` returns at an event, if the event is an execution that ends well. -/
def State.result (s : State) : Event → List Nat
  | .advance i =>
      match s.calls[i]? with
      | some c => if c.pc = .func then [s.version] else []
      | none => []
  | _ => []

/-- The values that the executions in the events return, in order. -/
def results (W : Wrapper) : State → List Event → List Nat
  | _, [] => []
  | s, e :: l =>
      s.result e ++
        match next W s e with
        | some t => results W t l
        | none => []

theorem results_append {l₁ l₂ : List Event} (r : Run (Step W) s l₁ t) :
    results W s (l₁ ++ l₂) = results W s l₁ ++ results W t l₂ := by
  induction r with
  | nil => rfl
  | cons h _ ih =>
      have hnext : next W _ _ = some _ := h
      simp [results, hnext, ih]

theorem results_snoc {l : List Event} {e : Event} (r : Run (Step W) s l t) (h : next W t e = some u) :
    results W s (l ++ [e]) = results W s l ++ t.result e := by
  rw [results_append r]
  simp [results, h]

theorem result_func (hc : s.calls[i]? = some c) (hpc : c.pc = .func) :
    s.result (.advance i) = [s.version] := by
  simp [State.result, hc, hpc]

theorem result_other (hc : s.calls[i]? = some c) (hpc : c.pc ≠ .func) :
    s.result (.advance i) = [] := by
  simp [State.result, hc, hpc]

end InfraHub.Magic
