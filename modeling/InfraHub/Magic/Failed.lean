import InfraHub.Magic.Moves
import InfraHub.Magic.Stale

/-!
# Magic — Failed

Whether a call returns something that no execution of `func` returned.

It does once an execution raises: the exception is logged, and the `""` in the place of the data is
stored as `ok` and returned.  `nothing_failed_iff` says that every run is free of that exactly as
long as no call goes on after its execution raised.
-/

namespace InfraHub.Magic
open InfraHub.Lib (Run Throughout getElem?_snoc_cases)
open scoped List

variable {W : Wrapper} {s t : State} {l l' : List Event}

/-- The data is what one of the executions returned. -/
def Genuine (W : Wrapper) (l : List Event) (data : Option Nat) : Prop :=
  ∃ v, data = some v ∧ v ∈ results W .init l

/-- After the events `l`: every call has raised or returned genuine data, and what is stored as `ok`
is genuine. -/
structure NothingFailed (W : Wrapper) (l : List Event) (s : State) : Prop where
  returned : ∀ c ∈ s.calls, ∀ data, c.pc = .returned data → Genuine W l data
  stored : ∀ res, s.entry = some res → res.status = .ok → Genuine W l res.data

/-- A call whose execution raised has gone on. -/
def FailedOn (l : List Event) : Prop := ∃ i, [.fail i, .advance i] <+ l

theorem FailedOn.mono (h : FailedOn l) (hl : l <+ l') : FailedOn l' :=
  h.imp fun _ hi => hi.trans hl

/-! ### Runs without it -/

/-- Genuine, unless a call has gone on. -/
def Served (W : Wrapper) (l : List Event) (data : Option Nat) : Prop :=
  Genuine W l data ∨ FailedOn l

/-- What call `i` carries at its place; only where it is about to store, the data may be that of its
own failed execution. -/
def Carried (W : Wrapper) (l : List Event) (i : Nat) : Pc → Prop
  | .lock (some res) | .check (some res) => Served W l res.data
  | .store data => Genuine W l data ∨ .fail i ∈ l
  | .release data | .returned data => Served W l data
  | _ => True

/-- The invariant, after the events `l`. -/
structure Origin (W : Wrapper) (l : List Event) (s : State) : Prop where
  run : Run (Step W) .init l s
  entry : ∀ res, s.entry = some res → res.status = .ok → Served W l res.data
  calls : ∀ i c, s.calls[i]? = some c → Carried W l i c.pc

section
variable {e : Event}

theorem Genuine.snoc {data : Option Nat} (r : Run (Step W) .init l s) (h : next W s e = some t)
    (hg : Genuine W l data) : Genuine W (l ++ [e]) data := by
  obtain ⟨v, hv, hmem⟩ := hg
  rw [Genuine, results_snoc r h]
  exact ⟨v, hv, List.mem_append_left _ hmem⟩

theorem Served.snoc {data : Option Nat} (r : Run (Step W) .init l s) (h : next W s e = some t)
    (hs : Served W l data) : Served W (l ++ [e]) data :=
  hs.imp (Genuine.snoc r h) fun hf => hf.mono (List.sublist_append_left ..)

theorem Carried.snoc {i : Nat} {pc : Pc} (r : Run (Step W) .init l s) (h : next W s e = some t)
    (hc : Carried W l i pc) : Carried W (l ++ [e]) i pc := by
  cases pc with
  | lock res | check res =>
      cases res with
      | none => trivial
      | some res => exact Served.snoc r h hc
  | store data => exact Or.imp (Genuine.snoc r h) (List.mem_append_left _) hc
  | release data | returned data => exact Served.snoc r h hc
  | get | sleep | func | raised => trivial

/-- What call `i` stores was genuine, or it goes on after its execution raised. -/
theorem served_of_store {i : Nat} {data : Option Nat} (r : Run (Step W) .init l s)
    (h : next W s (.advance i) = some t) (hc : Carried W l i (.store data)) :
    Served W (l ++ [.advance i]) data := by
  rcases hc with hg | hmem
  · exact .inl (hg.snoc r h)
  · exact .inr ⟨i, (List.singleton_sublist.mpr hmem).append (List.Sublist.refl _)⟩

/-- The move of call `i`: the entry, and what the call carries after it. -/
theorem origin_move {i : Nat} {c : Call} (ho : Origin W l s) (h : next W s (.advance i) = some t)
    (hc : s.calls[i]? = some c) (hm : Move W s i c t) :
    (∀ res, t.entry = some res → res.status = .ok → Served W (l ++ [.advance i]) res.data) ∧
      ∀ d, t.calls[i]? = some d → Carried W (l ++ [.advance i]) i d.pc := by
  have hentry (res : Entry) (he : s.entry = some res) (hok : res.status = .ok) :
      Served W (l ++ [.advance i]) res.data := (ho.entry res he hok).snoc ho.run h
  have hpc : Carried W (l ++ [.advance i]) i c.pc := (ho.calls i c hc).snoc ho.run h
  have hself {u : State} {pc : Pc} (hp : Carried W (l ++ [.advance i]) i pc) (d : Call)
      (hd : (u.goto i c pc).calls[i]? = some d) : Carried W (l ++ [.advance i]) i d.pc := by
    rcases getElem?_goto hd with ⟨-, rfl⟩ | ⟨hne, -⟩
    · exact hp
    · exact absurd rfl hne
  cases hm with
  | miss | wait | poll => exact ⟨hentry, hself trivial⟩
  | read res _ he hok => exact ⟨hentry, hself (hentry res he hok)⟩
  | acquire res hp =>
      rw [hp] at hpc
      refine ⟨hentry, hself ?_⟩
      cases res <;> exact hpc
  | hit res hp =>
      rw [hp] at hpc
      exact ⟨hentry, hself hpc⟩
  | mark res =>
      refine ⟨fun res he hok => ?_, hself trivial⟩
      cases he
      cases hok
  | func hp =>
      refine ⟨hentry, hself (.inl ⟨s.version, rfl, ?_⟩)⟩
      rw [results_snoc ho.run h, result_func hc hp]
      exact List.mem_append_right _ (List.mem_singleton_self _)
  | store data hp =>
      have hdata : Served W (l ++ [.advance i]) data :=
        served_of_store ho.run h (hp ▸ ho.calls i c hc)
      refine ⟨fun res he _ => ?_, hself hdata⟩
      cases he
      exact hdata
  | release data hp =>
      rw [hp] at hpc
      exact ⟨hentry, hself hpc⟩
  | lost => exact ⟨hentry, hself trivial⟩

/-- An event that is no step of a call leaves the calls, or adds one at its first look, and can only
delete the entry. -/
theorem origin_step (ho : Origin W l s) (h : next W s e = some t) : Origin W (l ++ [e]) t := by
  have hrun : Run (Step W) .init (l ++ [e]) t := ho.run.append (.one h)
  have hentry (res : Entry) (he : s.entry = some res) (hok : res.status = .ok) :
      Served W (l ++ [e]) res.data := (ho.entry res he hok).snoc ho.run h
  have hcalls (i : Nat) (c : Call) (hc : s.calls[i]? = some c) : Carried W (l ++ [e]) i c.pc :=
    (ho.calls i c hc).snoc ho.run h
  cases e with
  | call cache_time =>
      refine ⟨hrun, ?_, fun i c hc => ?_⟩
      · cases h
        exact hentry
      · cases h
        rcases getElem?_snoc_cases hc with hold | rfl
        · exact hcalls i c hold
        · trivial
  | advance i =>
      obtain ⟨c, hc, hm⟩ := move_of_next h
      obtain ⟨hentry', hself⟩ := origin_move ho h hc hm
      refine ⟨hrun, hentry', fun j d hd => ?_⟩
      by_cases hj : j = i
      · subst hj
        exact hself d hd
      · have hback : s.calls[j]? = some d := by
          cases hm <;> exact (goto_other hj).symm.trans hd
        exact hcalls j d hback
  | fail i =>
      obtain ⟨c, hc, -, rfl⟩ := fail_of_next h
      refine ⟨hrun, hentry, fun j d hd => ?_⟩
      rcases getElem?_goto hd with ⟨rfl, rfl⟩ | ⟨-, hd⟩
      · exact .inr (List.mem_append_right _ (List.mem_singleton_self _))
      · exact hcalls j d hd
  | tick => cases h; exact ⟨hrun, hentry, hcalls⟩
  | write => cases h; exact ⟨hrun, hentry, hcalls⟩
  | invalid_cache key =>
      cases h
      exact ⟨hrun, fun res he => hentry res (Option.ite_none_left_eq_some.mp he).2, hcalls⟩
  | invalid_caches keys =>
      cases h
      exact ⟨hrun, fun res he => hentry res (Option.ite_none_left_eq_some.mp he).2, hcalls⟩
  | expire => cases h; exact ⟨hrun, nofun, hcalls⟩
  | lock_expire => cases h; exact ⟨hrun, hentry, hcalls⟩

end

theorem origin_of_run (r : Run (Step W) .init l s) : Origin W l s :=
  r.invariant_log (I := Origin W) (fun _ _ _ _ ho h => origin_step ho h)
    ⟨.nil _, nofun, fun i c hc => by simp [State.init] at hc⟩

theorem Served.genuine {data : Option Nat} (hl : ¬ FailedOn l) (h : Served W l data) :
    Genuine W l data := h.resolve_right hl

/-- A run in which no call goes on after its execution raised. -/
theorem nothing_failed (r : Run (Step W) .init l s) (hl : ¬ FailedOn l) : NothingFailed W l s where
  returned c hc data hpc := by
    obtain ⟨i, hi⟩ := List.getElem?_of_mem hc
    have hcarried := (origin_of_run r).calls i c hi
    rw [hpc] at hcarried
    exact Served.genuine hl hcarried
  stored res he hok := ((origin_of_run r).entry res he hok).genuine hl

/-! ### Runs with it -/

/-- The call whose execution raised waits for its next step. -/
theorem failed_call_kept {i : Nat} {c : Call} (r : Run (Step W) s l t) (hc : s.calls[i]? = some c)
    (hpc : c.pc = .store none) (hl : .advance i ∉ l) : t.calls[i]? = some c := by
  induction r with
  | nil => exact hc
  | @cons s u t e l h _ ih =>
      have hne : e ≠ .advance i := fun he => hl (he ▸ List.mem_cons_self ..)
      refine ih ?_ fun hmem => hl (List.mem_cons_of_mem e hmem)
      by_cases hfail : e = .fail i
      · subst hfail
        obtain ⟨d, hd, hd', -⟩ := fail_of_next h
        obtain rfl := Option.some.inj (hc.symm.trans hd)
        cases hpc.symm.trans hd'
      · exact call_kept h hc hne hfail

/-- Going on after a failure breaks the property there and then. -/
theorem not_nothing_failed (r : Run (Step W) .init l s) (hl : FailedOn l) :
    ∃ l₁ t, l₁ <+: l ∧ Run (Step W) .init l₁ t ∧ ¬ NothingFailed W l₁ t := by
  obtain ⟨i, hi⟩ := hl
  obtain ⟨r₁, r₂, rfl, hfail, hadv⟩ := List.cons_sublist_iff.mp hi
  obtain ⟨a, b, rfl⟩ := List.append_of_mem hfail
  have hmem : Event.advance i ∈ b ++ r₂ :=
    List.mem_append_right _ (List.singleton_sublist.mp hadv)
  obtain ⟨m, z, hm, hfirst⟩ := List.eq_append_cons_of_mem hmem
  have hsplit : a ++ .fail i :: b ++ r₂ = a ++ .fail i :: (m ++ .advance i :: z) := by
    rw [← hm]
    simp
  rw [hsplit] at r ⊢
  obtain ⟨u, u', hu, hf, r⟩ := r.split
  obtain ⟨v, w, hv, hstep, -⟩ := r.split
  obtain ⟨c, hc, -, rfl⟩ := fail_of_next hf
  have hkept : v.calls[i]? = some { c with pc := .store none } :=
    failed_call_kept hv (goto_self hc) rfl hfirst
  obtain ⟨d, hd, hmove⟩ := move_of_next hstep
  obtain rfl := Option.some.inj (hkept.symm.trans hd)
  refine ⟨a ++ .fail i :: (m ++ [.advance i]), w, ⟨z, by simp⟩, ?_, fun hn => ?_⟩
  · exact hu.append (.cons hf (hv.append (.one hstep)))
  · cases hmove with
    | store data hpc =>
        cases hpc
        obtain ⟨v, hv, -⟩ := hn.stored _ rfl rfl
        cases hv
    | _ => simp_all

/-- **When a failed execution is never served as data**: exactly in the runs in which no call goes on
after its execution raised. -/
theorem nothing_failed_iff (r : Run (Step W) .init l s) :
    Throughout (Step W) (NothingFailed W) .init l ↔ ∀ i, ¬ [.fail i, .advance i] <+ l := by
  constructor
  · intro h i hi
    obtain ⟨l₁, t, hl₁, ht, hnot⟩ := not_nothing_failed r ⟨i, hi⟩
    exact hnot (h l₁ t hl₁ ht)
  · intro h l₁ t hl₁ ht
    exact nothing_failed ht fun ⟨i, hi⟩ => h i (hi.trans hl₁.sublist)

/-- Call 0 executes `func`, which raises; call 1 gets what it stored. -/
def sampleFailure : List Event :=
  [.call 600, .advance 0, .advance 0, .advance 0, .fail 0, .advance 0, .advance 0,
    .call 600, .advance 1, .advance 1, .advance 1, .advance 1]

theorem failure_served :
    ∃ s, Run (Step sampleWrapper) .init sampleFailure s ∧
      s.calls.map Call.pc = [.returned none, .returned none] ∧
      ¬ NothingFailed sampleWrapper sampleFailure s := by
  have h : ∃ s, InfraHub.Lib.exec (next sampleWrapper) .init sampleFailure = some s ∧
      s.calls.map Call.pc = [.returned none, .returned none] := ⟨_, rfl, rfl⟩
  obtain ⟨s, hs, hpcs⟩ := h
  refine ⟨s, Run.of_exec hs, hpcs, fun hn => ?_⟩
  have hmem : Pc.returned none ∈ s.calls.map Call.pc := by simp [hpcs]
  obtain ⟨c, hc, hpc⟩ := List.mem_map.mp hmem
  obtain ⟨v, hv, -⟩ := hn.returned c hc none hpc
  cases hv

/-- Call 0 executes `func`, and call 1 gets the result. -/
def sampleServed : List Event :=
  [.call 600, .advance 0, .advance 0, .advance 0, .advance 0, .advance 0, .advance 0,
    .call 600, .advance 1, .advance 1, .advance 1, .advance 1]

theorem nothing_failed_iff_served :
    ∃ s, Run (Step sampleWrapper) .init sampleServed s ∧
      s.calls.map Call.pc = [.returned (some 0), .returned (some 0)] ∧
      Throughout (Step sampleWrapper) (NothingFailed sampleWrapper) .init sampleServed := by
  have h : ∃ s, InfraHub.Lib.exec (next sampleWrapper) .init sampleServed = some s ∧
      s.calls.map Call.pc = [.returned (some 0), .returned (some 0)] := ⟨_, rfl, rfl⟩
  obtain ⟨s, hs, hpcs⟩ := h
  have r := Run.of_exec hs
  refine ⟨s, r, hpcs, (nothing_failed_iff r).mpr fun i hi => ?_⟩
  have hmem : Event.fail i ∈ sampleServed := hi.subset (List.mem_cons_self ..)
  simp [sampleServed] at hmem

end InfraHub.Magic
