import InfraHub.Magic.Failed

/-!
# Magic — Flight

How often `func` is executed by calls that start with an empty cache, while nothing is invalidated
and nothing expires.

Every call that finds the cache empty executes `func`: the lock only makes them take turns, and the
cache is not read again under it.  `single_flight_iff` says that the finished runs with one execution
are those in which no call finds the cache empty while another one that did has yet to mark it.
-/

namespace InfraHub.Magic
open InfraHub.Lib (Run guarded Throughout countP_set_add getElem?_snoc_cases)

variable {W : Wrapper} {s t : State} {i : Nat} {c : Call} {l l₁ l₂ : List Event}

/-- Nothing is invalidated, nothing expires and `func` does not raise; a call starts while what any
earlier call stores is valid for it. -/
def Quiet (W : Wrapper) (s : State) : Event → Prop
  | .call cache_time => 0 < cache_time - W.invalid_time ∧
      ∀ d ∈ s.calls, s.now - d.n_time < cache_time - W.invalid_time
  | .advance _ | .tick | .write => True
  | .fail _ | .invalid_cache _ | .invalid_caches _ | .expire | .lock_expire => False

instance (W : Wrapper) (s : State) : ∀ e, Decidable (Quiet W s e)
  | .call _ => inferInstanceAs (Decidable (_ ∧ _))
  | .advance _ | .tick | .write => .isTrue trivial
  | .fail _ | .invalid_cache _ | .invalid_caches _ | .expire | .lock_expire => .isFalse not_false

abbrev QuietStep (W : Wrapper) : State → Event → State → Prop := guarded (Step W) (Quiet W)

/-- The call found the cache empty and has not executed `func` yet. -/
def Pc.bound : Pc → Bool
  | .lock none | .check none | .func => true
  | _ => false

/-- The event is a first look at an empty cache. -/
def Miss (s : State) : Event → Prop
  | .advance i => s.calls[i]?.map Call.pc = some .get ∧ s.entry = none
  | _ => False

instance (s : State) : ∀ e, Decidable (Miss s e)
  | .advance _ => inferInstanceAs (Decidable (_ ∧ _))
  | .call _ | .fail _ | .tick | .write | .invalid_cache _ | .invalid_caches _ | .expire
  | .lock_expire => .isFalse not_false

/-- No call finds the cache empty while another one that did is yet to mark it. -/
def Alone (s : State) (e : Event) : Prop := Miss s e → ∀ d ∈ s.calls, d.pc.bound = false

instance (s : State) (e : Event) : Decidable (Alone s e) := inferInstanceAs (Decidable (_ → _))

/-- Every call has ended. -/
def Finished (s : State) : Prop := ∀ c ∈ s.calls, (∃ data, c.pc = .returned data) ∨ c.pc = .raised

/-- One execution, and every call returns its result. -/
def SingleFlight (W : Wrapper) (l : List Event) (s : State) : Prop :=
  ∃ v, results W .init l = [v] ∧ ∀ c ∈ s.calls, c.pc = .returned (some v)

/-! ### Quiet runs -/

/-- When a call started, and how long it takes an entry for valid. -/
def Call.start (c : Call) : Int × Int := (c.n_time, c.cache_time)

def State.starts (s : State) : List (Int × Int) := s.calls.map Call.start

theorem starts_goto {pc : Pc} (h : s.calls[i]? = some c) : (s.goto i c pc).starts = s.starts := by
  obtain ⟨hi, rfl⟩ := List.getElem?_eq_some_iff.mp h
  refine List.ext_getElem (by simp [State.starts, State.goto]) fun j _ _ => ?_
  by_cases hj : i = j
  · subst hj
    simp [State.starts, State.goto, Call.start]
  · simp [State.starts, State.goto, hj]

/-- The entry is of one of the calls. -/
def Stamped (s : State) (res : Entry) : Prop := ∃ q ∈ s.starts, res.c_time = q.1

/-- Where call `i` may be: with the lock or without it, with an entry of one of the calls, and before
the first mark only on its way there. -/
def Place (s : State) (i : Nat) : Pc → Prop
  | .get | .lock none => True
  | .sleep => s.entry ≠ none
  | .lock (some res) => Stamped s res ∧ s.entry ≠ none
  | .check none => s.lock = some i
  | .check (some res) => s.lock = some i ∧ Stamped s res ∧ s.entry ≠ none
  | .func | .store _ | .release _ => s.lock = some i ∧ s.entry ≠ none
  | .returned _ => s.entry ≠ none
  | .raised => False

/-- What holds in a quiet run. -/
structure Calm (W : Wrapper) (s : State) : Prop where
  started : ∀ p ∈ s.starts, p.1 ≤ s.now
  window : ∀ p ∈ s.starts, ∀ q ∈ s.starts, p.1 - q.1 < p.2 - W.invalid_time
  entry : ∀ res, s.entry = some res → Stamped s res
  calls : ∀ i c, s.calls[i]? = some c → Place s i c.pc

theorem mem_starts (h : s.calls[i]? = some c) : c.start ∈ s.starts :=
  List.mem_map_of_mem (List.mem_of_getElem? h)

/-- What a call has got hold of is valid for it. -/
theorem is_valid_of_calm {res : Entry} (hs : Calm W s) (hc : s.calls[i]? = some c)
    (hres : Stamped s res) : W.is_valid c res := by
  obtain ⟨q, hq, hstamp⟩ := hres
  have := hs.window c.start (mem_starts hc) q hq
  rwa [Wrapper.is_valid, hstamp]

/-- The place of a call depends on the starts, on whether there is an entry, and, where the call
holds the lock, on the lock. -/
theorem Place.mono {pc : Pc} (h : Place s i pc) (hstarts : s.starts ⊆ t.starts)
    (hentry : s.entry ≠ none → t.entry ≠ none) (hlock : s.lock = some i → t.lock = some i) :
    Place t i pc := by
  have hstamp {res : Entry} : Stamped s res → Stamped t res := fun ⟨q, hq, hres⟩ =>
    ⟨q, hstarts hq, hres⟩
  cases pc with
  | get | raised => exact h
  | sleep | returned _ => exact hentry h
  | lock res =>
      cases res with
      | none => trivial
      | some res => exact h.imp hstamp hentry
  | check res =>
      cases res with
      | none => exact hlock h
      | some res => exact h.imp hlock (And.imp hstamp hentry)
  | func | store _ | release _ => exact h.imp hlock hentry

/-- A step of call `i` that deletes no entry and takes no lock away from another call. -/
theorem calm_goto {u : State} {pc : Pc} (hs : Calm W s) (hc : s.calls[i]? = some c)
    (hcalls : u.calls = s.calls) (hnow : u.now = s.now)
    (hentry : ∀ res, u.entry = some res → Stamped s res) (hkept : s.entry ≠ none → u.entry ≠ none)
    (hlock : ∀ j, j ≠ i → s.lock = some j → u.lock = some j) (hpc : Place (u.goto i c pc) i pc) :
    Calm W (u.goto i c pc) := by
  have hstarts : (u.goto i c pc).starts = s.starts := by
    rw [starts_goto (hcalls ▸ hc), State.starts, State.starts, hcalls]
  refine ⟨?_, ?_, fun res hres => ?_, fun j d hd => ?_⟩
  · rw [hstarts]
    exact hnow ▸ hs.started
  · rw [hstarts]
    exact hs.window
  · obtain ⟨q, hq, hstamp⟩ := hentry res hres
    exact ⟨q, hstarts ▸ hq, hstamp⟩
  · rcases getElem?_goto hd with ⟨rfl, rfl⟩ | ⟨hne, hd⟩
    · exact hpc
    · have hsub : s.starts ⊆ (u.goto i c pc).starts := hstarts ▸ List.Subset.refl _
      exact (hs.calls j d (hcalls ▸ hd)).mono hsub hkept (hlock j hne)

theorem stamped_goto {u : State} {pc : Pc} {res : Entry} (hc : s.calls[i]? = some c)
    (hcalls : u.calls = s.calls) (h : Stamped s res) : Stamped (u.goto i c pc) res := by
  obtain ⟨q, hq, hres⟩ := h
  refine ⟨q, ?_, hres⟩
  rw [starts_goto (hcalls ▸ hc), State.starts, hcalls]
  exact hq

theorem calm_move (hs : Calm W s) (hc : s.calls[i]? = some c) (hm : Move W s i c t) :
    Calm W t := by
  have hplace := hs.calls i c hc
  have hown : Stamped s ⟨c.n_time, none, .ready⟩ := ⟨c.start, mem_starts hc, rfl⟩
  cases hm with
  | miss => exact calm_goto hs hc rfl rfl hs.entry id (fun _ _ => id) trivial
  | wait hpc he =>
      rw [hpc] at hplace
      exact absurd he hplace
  | poll res _ he =>
      exact calm_goto hs hc rfl rfl hs.entry id (fun _ _ => id) (by simp [Place, State.goto, he])
  | read res _ he =>
      exact calm_goto hs hc rfl rfl hs.entry id (fun _ _ => id)
        ⟨stamped_goto hc rfl (hs.entry res he), by simp [State.goto, he]⟩
  | acquire res hpc hl =>
      rw [hpc] at hplace
      refine calm_goto (u := { s with lock := some i }) hs hc rfl rfl hs.entry id
        (fun j _ hj => nomatch hl.symm.trans hj) ?_
      cases res with
      | none => rfl
      | some res => exact ⟨rfl, stamped_goto hc rfl hplace.1, hplace.2⟩
  | hit res hpc =>
      rw [hpc] at hplace
      exact calm_goto hs hc rfl rfl hs.entry id (fun _ _ => id) ⟨hplace.1, hplace.2.2⟩
  | mark res hpc =>
      have hl : s.lock = some i := by
        rw [hpc] at hplace
        cases res with
        | none => exact hplace
        | some res => exact hplace.1
      refine calm_goto (u := { s with entry := _ }) hs hc rfl rfl (fun res hres => ?_) nofun
        (fun _ _ => id) ⟨hl, nofun⟩
      cases hres
      exact hown
  | func hpc =>
      rw [hpc] at hplace
      exact calm_goto hs hc rfl rfl hs.entry id (fun _ _ => id) hplace
  | store data hpc =>
      rw [hpc] at hplace
      refine calm_goto (u := { s with entry := _ }) hs hc rfl rfl (fun res hres => ?_) nofun
        (fun _ _ => id) ⟨hplace.1, nofun⟩
      cases hres
      exact hown
  | release data hpc hl =>
      rw [hpc] at hplace
      exact calm_goto (u := { s with lock := none }) hs hc rfl rfl hs.entry id
        (fun j hj hj' => absurd (Option.some.inj (hj'.symm.trans hl)) hj) hplace.2
  | lost data hpc hl =>
      rw [hpc] at hplace
      exact absurd hplace.1 hl

theorem calm_call {cache_time : Int} (hs : Calm W s) (hq : Quiet W s (.call cache_time))
    (h : next W s (.call cache_time) = some t) : Calm W t := by
  obtain ⟨hpos, hvalid⟩ := hq
  have hstarts : t.starts = s.starts ++ [(s.now, cache_time)] := by
    cases h
    simp [State.starts, Call.start]
  have hsub : s.starts ⊆ t.starts := hstarts ▸ List.subset_append_left ..
  have hmem (p : Int × Int) (hp : p ∈ t.starts) : p ∈ s.starts ∨ p = (s.now, cache_time) := by
    rwa [hstarts, List.mem_append, List.mem_singleton] at hp
  cases h
  refine ⟨fun p hp => ?_, fun p hp q hq => ?_, fun res hres => ?_, fun j d hd => ?_⟩
  · rcases hmem p hp with hp | rfl
    · exact hs.started p hp
    · exact Int.le_refl s.now
  · rcases hmem p hp with hp | rfl <;> rcases hmem q hq with hq | rfl
    · exact hs.window p hp q hq
    · -- a call that is there was started before this one
      have hself := hs.window p hp p hp
      have hold := hs.started p hp
      simp only
      omega
    · obtain ⟨d, hd, rfl⟩ := List.mem_map.mp hq
      exact hvalid d hd
    · simpa using hpos
  · obtain ⟨q, hq, hstamp⟩ := hs.entry res hres
    exact ⟨q, hsub hq, hstamp⟩
  · rcases getElem?_snoc_cases hd with hd | rfl
    · exact (hs.calls j d hd).mono hsub id id
    · trivial

theorem calm_step {e : Event} (hs : Calm W s) (h : QuietStep W s e t) : Calm W t := by
  obtain ⟨h, hq⟩ := h
  cases e with
  | call cache_time => exact calm_call hs hq h
  | advance i =>
      obtain ⟨c, hc, hm⟩ := move_of_next h
      exact calm_move hs hc hm
  | tick =>
      cases h
      exact ⟨fun p hp => Int.le_add_one (hs.started p hp), hs.window, hs.entry, hs.calls⟩
  | write => cases h; exact ⟨hs.started, hs.window, hs.entry, hs.calls⟩
  | fail | invalid_cache | invalid_caches | expire | lock_expire => exact hq.elim

theorem calm_of_run (r : Run (QuietStep W) .init l s) : Calm W s :=
  r.invariant (I := Calm W) (fun _ _ _ hs h => calm_step hs h)
    ⟨nofun, nofun, nofun, fun i c hc => by simp [State.init] at hc⟩

/-! ### Counting the executions -/

/-- The calls that will execute `func`. -/
def State.bound (s : State) : Nat := s.calls.countP fun c => c.pc.bound

/-- The executions, done and to come, of the calls that have looked. -/
def flights (W : Wrapper) (l : List Event) (s : State) : Nat :=
  (results W .init l).length + s.bound

theorem bound_goto {pc : Pc} (hc : s.calls[i]? = some c) :
    (s.goto i c pc).bound + (if c.pc.bound then 1 else 0) =
      s.bound + (if pc.bound then 1 else 0) :=
  countP_set_add _ hc

/-- A move of a call that is bound after it just as before. -/
theorem flights_goto {u : State} {pc : Pc} (hu : u.calls = s.calls) (hc : s.calls[i]? = some c)
    (hpc : c.pc ≠ .func) (hb : pc.bound = c.pc.bound) :
    (s.result (.advance i)).length + (u.goto i c pc).bound = s.bound := by
  have : (u.goto i c pc).bound + (if c.pc.bound then 1 else 0) =
      u.bound + (if pc.bound then 1 else 0) := bound_goto (hu ▸ hc)
  rw [result_other hc hpc]
  simp only [State.bound, hu, hb, List.length_nil] at this ⊢
  omega

/-- What a move of a call adds to the flights. -/
theorem flights_move (hs : Calm W s) (hc : s.calls[i]? = some c) (hm : Move W s i c t) :
    (s.result (.advance i)).length + t.bound = s.bound + if Miss s (.advance i) then 1 else 0 := by
  have hmiss (h : ¬ Miss s (.advance i))
      (heq : (s.result (.advance i)).length + t.bound = s.bound) :
      (s.result (.advance i)).length + t.bound =
        s.bound + if Miss s (.advance i) then 1 else 0 := by
    rw [if_neg h]
    exact heq
  have hget (h : c.pc ≠ .get) : ¬ Miss s (.advance i) := fun hm => by
    simp [Miss, hc, h] at hm
  have hentry {res : Entry} (h : s.entry = some res) : ¬ Miss s (.advance i) := fun hm => by
    simp [Miss, h] at hm
  cases hm with
  | miss hpc he =>
      have hmiss : Miss s (.advance i) := ⟨by simp [hc, hpc], he⟩
      have : (s.goto i c (.lock none)).bound + (if c.pc.bound then 1 else 0) =
          s.bound + (if (Pc.lock none).bound then 1 else 0) := bound_goto hc
      rw [if_pos hmiss, result_other hc (by simp [hpc])]
      simp only [hpc, Pc.bound, List.length_nil, reduceIte, Bool.false_eq_true] at this ⊢
      omega
  | wait hpc =>
      exact hmiss (hget (by simp [hpc])) (flights_goto rfl hc (by simp [hpc]) (by rw [hpc]))
  | poll res hpc he =>
      refine hmiss (hentry he) (flights_goto rfl hc ?_ ?_) <;>
        rcases hpc with hpc | hpc <;> simp [hpc, Pc.bound]
  | read res hpc he =>
      refine hmiss (hentry he) (flights_goto rfl hc ?_ ?_) <;>
        rcases hpc with hpc | hpc <;> simp [hpc, Pc.bound]
  | acquire res hpc =>
      refine hmiss (hget (by simp [hpc])) (flights_goto rfl hc (by simp [hpc]) ?_)
      rw [hpc]
      cases res <;> rfl
  | hit res hpc =>
      exact hmiss (hget (by simp [hpc])) (flights_goto rfl hc (by simp [hpc]) (by rw [hpc]; rfl))
  | mark res hpc hv =>
      cases res with
      | none =>
          exact hmiss (hget (by simp [hpc]))
            (flights_goto rfl hc (by simp [hpc]) (by rw [hpc]; rfl))
      | some res =>
          have hplace := hs.calls i c hc
          rw [hpc] at hplace
          exact absurd (is_valid_of_calm hs hc hplace.2.1) (hv res rfl)
  | func hpc =>
      have : (s.goto i c (.store (some s.version))).bound + (if c.pc.bound then 1 else 0) =
          s.bound + (if (Pc.store (some s.version)).bound then 1 else 0) := bound_goto hc
      rw [if_neg (hget (by simp [hpc])), result_func hc hpc]
      simp only [hpc, Pc.bound, List.length_singleton, reduceIte, Bool.false_eq_true] at this ⊢
      omega
  | store data hpc =>
      exact hmiss (hget (by simp [hpc])) (flights_goto rfl hc (by simp [hpc]) (by rw [hpc]; rfl))
  | release data hpc =>
      exact hmiss (hget (by simp [hpc])) (flights_goto rfl hc (by simp [hpc]) (by rw [hpc]; rfl))
  | lost data hpc =>
      exact hmiss (hget (by simp [hpc])) (flights_goto rfl hc (by simp [hpc]) (by rw [hpc]; rfl))

/-- **One step of a quiet run**: a first look at an empty cache adds a flight, and nothing else
does. -/
theorem flights_step {e : Event} (r : Run (QuietStep W) .init l s) (h : QuietStep W s e t) :
    flights W (l ++ [e]) t = flights W l s + if Miss s e then 1 else 0 := by
  have hres : results W .init (l ++ [e]) = results W .init l ++ s.result e :=
    results_snoc r.of_guarded h.1
  have hstep : (s.result e).length + t.bound = s.bound + if Miss s e then 1 else 0 := by
    obtain ⟨h, hq⟩ := h
    cases e with
    | advance i =>
        obtain ⟨c, hc, hm⟩ := move_of_next h
        exact flights_move (calm_of_run r) hc hm
    | call cache_time => cases h; simp [State.result, State.bound, Miss, Pc.bound]
    | tick => cases h; simp [State.result, State.bound, Miss]
    | write => cases h; simp [State.result, State.bound, Miss]
    | fail | invalid_cache | invalid_caches | expire | lock_expire => exact hq.elim
  simp only [flights, hres, List.length_append]
  omega

theorem flights_mono (r₁ : Run (QuietStep W) .init l₁ s) (r₂ : Run (QuietStep W) s l₂ t) :
    flights W l₁ s ≤ flights W (l₁ ++ l₂) t := by
  induction r₂ generalizing l₁ with
  | nil => simp
  | @cons s u t e l₂ h r ih =>
      have hstep := flights_step r₁ h
      have hrest := ih (r₁.append (.one h))
      rw [List.append_assoc, List.singleton_append] at hrest
      omega

/-! ### When there is one -/

/-- While the cache is empty, nothing has been executed. -/
theorem results_of_empty (r : Run (QuietStep W) .init l s) (he : s.entry = none) :
    results W .init l = [] := by
  revert he
  refine (r.invariant_log (I := fun l s => Run (QuietStep W) .init l s ∧
    (s.entry = none → results W .init l = [])) (fun l s e t ⟨r, hs⟩ h => ?_) ⟨.nil _, fun _ => rfl⟩).2
  refine ⟨r.append (.one h), fun he => ?_⟩
  rw [results_snoc r.of_guarded h.1]
  obtain ⟨h, hq⟩ := h
  cases e with
  | advance i =>
      obtain ⟨c, hc, hm⟩ := move_of_next h
      have hplace := (calm_of_run r).calls i c hc
      cases hm with
      | func hpc =>
          rw [hpc] at hplace
          exact absurd he hplace.2
      | mark | store => cases he
      | miss hpc | wait hpc | acquire _ hpc | hit _ hpc | release _ hpc | lost _ hpc =>
          rw [result_other hc (by simp [hpc]), List.append_nil]
          exact hs he
      | poll _ hpc | read _ hpc =>
          rw [result_other hc (by rcases hpc with hpc | hpc <;> simp [hpc]), List.append_nil]
          exact hs he
  | call | tick | write =>
      cases h
      simpa [State.result] using hs he
  | fail | invalid_cache | invalid_caches | expire | lock_expire => exact hq.elim

theorem flights_le_one (r : Run (guarded (QuietStep W) Alone) .init l s) : flights W l s ≤ 1 := by
  refine (r.invariant_log (I := fun l s => Run (QuietStep W) .init l s ∧ flights W l s ≤ 1)
    (fun l s e t ⟨r, hle⟩ ⟨h, halone⟩ => ⟨r.append (.one h), ?_⟩) ⟨.nil _, Nat.zero_le 1⟩).2
  rw [flights_step r h]
  split
  · next hmiss =>
    -- nobody else is on the way, and nothing has been executed
    have hnone : s.bound = 0 := by
      rw [State.bound, List.countP_eq_zero]
      exact fun d hd => Bool.eq_false_iff.mp (halone hmiss d hd)
    have hempty : s.entry = none := by
      cases e with
      | advance i => exact hmiss.2
      | _ => exact hmiss.elim
    simp [flights, hnone, results_of_empty r hempty]
  · exact hle

theorem not_failed_on (r : Run (QuietStep W) .init l s) : ¬ FailedOn l := by
  rintro ⟨i, hi⟩
  have hquiet : ∀ e ∈ l, e ≠ .fail i := r.forall_labels fun s e t h he => by
    subst he
    exact h.2
  exact hquiet _ (hi.subset (List.mem_cons_self ..)) rfl

/-- In a finished quiet run every call has returned what an execution returned. -/
theorem returned_of_finished (r : Run (QuietStep W) .init l s) (hfin : Finished s) (hc : c ∈ s.calls) :
    ∃ v ∈ results W .init l, c.pc = .returned (some v) := by
  rcases hfin c hc with ⟨data, hpc⟩ | hpc
  · obtain ⟨v, rfl, hv⟩ := (nothing_failed r.of_guarded (not_failed_on r)).returned c hc data hpc
    exact ⟨v, hv, hpc⟩
  · obtain ⟨i, hi⟩ := List.getElem?_of_mem hc
    have hplace := (calm_of_run r).calls i c hi
    rw [hpc] at hplace
    exact hplace.elim

theorem single_flight_of_alone (r : Run (guarded (QuietStep W) Alone) .init l s)
    (hfin : Finished s) (hne : s.calls ≠ []) : SingleFlight W l s := by
  have hlen : (results W .init l).length ≤ 1 :=
    Nat.le_trans (Nat.le_add_right ..) (flights_le_one r)
  obtain ⟨c, hc⟩ := List.exists_mem_of_ne_nil _ hne
  obtain ⟨v, hv, -⟩ := returned_of_finished r.of_guarded hfin hc
  have hone : results W .init l = [v] := by
    obtain ⟨w, hw⟩ := List.length_eq_one_iff.mp (Nat.le_antisymm hlen (List.length_pos_of_mem hv))
    rw [hw] at hv ⊢
    rw [List.mem_singleton.mp hv]
  refine ⟨v, hone, fun d hd => ?_⟩
  obtain ⟨w, hw, hpc⟩ := returned_of_finished r.of_guarded hfin hd
  rw [hone] at hw
  rw [hpc, List.mem_singleton.mp hw]

theorem alone_of_single_flight (r : Run (QuietStep W) .init l s) (h : SingleFlight W l s) :
    Run (guarded (QuietStep W) Alone) .init l s := by
  obtain ⟨v, hv, hpcs⟩ := h
  have hend : flights W l s ≤ 1 := by
    have hnone : s.bound = 0 := by
      rw [State.bound, List.countP_eq_zero]
      intro c hc
      simp [hpcs c hc, Pc.bound]
    simp [flights, hv, hnone]
  have hthrough : Throughout (QuietStep W) (fun l s => flights W l s ≤ 1) .init l := by
    rintro l₁ t ⟨l₂, rfl⟩ rt
    obtain ⟨u, ru, ru'⟩ := r.cut
    obtain rfl := Run.unique (fun s e t t' h h' => Option.some.inj (h.1.symm.trans h'.1)) rt ru
    exact Nat.le_trans (flights_mono rt ru') hend
  refine hthrough.guarded (fun l s e t r h _ hle hmiss d hd => ?_) r
  rw [flights_step r h, if_pos hmiss] at hle
  have hnone : s.bound = 0 := by
    rw [flights] at hle
    omega
  exact Bool.eq_false_iff.mpr (List.countP_eq_zero.mp hnone d hd)

/-- **When there is a single flight**: `func` is executed once, and every call returns its result,
exactly in the runs in which no call finds the cache empty while another one that did has yet to
mark it. -/
theorem single_flight_iff (r : Run (QuietStep W) .init l s) (hfin : Finished s)
    (hne : s.calls ≠ []) :
    SingleFlight W l s ↔ Run (guarded (QuietStep W) Alone) .init l s :=
  ⟨alone_of_single_flight r, fun ra => single_flight_of_alone ra hfin hne⟩

/-- Call 1 waits for call 0. -/
def sampleFlight : List Event :=
  [.call 600, .advance 0, .advance 0, .advance 0, .call 600, .advance 1, .advance 0, .advance 0,
    .advance 1, .advance 0, .advance 1, .advance 1, .advance 1]

theorem single_flight_iff_waiting :
    ∃ s, Run (QuietStep sampleWrapper) .init sampleFlight s ∧ s.calls.length = 2 ∧
      SingleFlight sampleWrapper sampleFlight s := by
  have h : ∃ s, InfraHub.Lib.exec (fun s e => if Quiet sampleWrapper s e ∧ Alone s e then
        next sampleWrapper s e else none) .init sampleFlight = some s ∧
      s.calls.map Call.pc = [.returned (some 0), .returned (some 0)] := ⟨_, rfl, rfl⟩
  obtain ⟨s, hs, hpcs⟩ := h
  have r : Run (guarded (Step sampleWrapper) fun s e => Quiet sampleWrapper s e ∧ Alone s e) .init
      sampleFlight s := Run.guarded_of_exec hs
  have ra : Run (guarded (QuietStep sampleWrapper) Alone) .init sampleFlight s :=
    r.mono fun _ _ _ h => ⟨⟨h.1, h.2.1⟩, h.2.2⟩
  have hlen : s.calls.length = 2 := by simpa using congrArg List.length hpcs
  have hfin : Finished s := fun c hc => by
    have hpc := List.mem_map_of_mem (f := Call.pc) hc
    rw [hpcs] at hpc
    exact .inl ⟨some 0, by simpa using hpc⟩
  have hne : s.calls ≠ [] := fun he => by simp [he] at hlen
  exact ⟨s, ra.of_guarded, hlen, (single_flight_iff ra.of_guarded hfin hne).mpr ra⟩

/-- Both calls find the cache empty, and one executes `func` after the other. -/
def sampleDouble : List Event :=
  [.call 600, .call 600, .advance 0, .advance 1, .advance 0, .advance 0, .advance 0, .advance 0,
    .advance 0, .advance 1, .advance 1, .advance 1, .advance 1, .advance 1]

theorem double_flight :
    ∃ s, Run (QuietStep sampleWrapper) .init sampleDouble s ∧
      s.calls.map Call.pc = [.returned (some 0), .returned (some 0)] ∧
      results sampleWrapper .init sampleDouble = [0, 0] ∧
      ¬ SingleFlight sampleWrapper sampleDouble s := by
  have h : ∃ s, InfraHub.Lib.exec (fun s e => if Quiet sampleWrapper s e then
        next sampleWrapper s e else none) .init sampleDouble = some s ∧
      s.calls.map Call.pc = [.returned (some 0), .returned (some 0)] := ⟨_, rfl, rfl⟩
  obtain ⟨s, hs, hpcs⟩ := h
  have htwice : results sampleWrapper .init sampleDouble = [0, 0] := by decide
  refine ⟨s, Run.guarded_of_exec hs, hpcs, htwice, fun ⟨v, hv, _⟩ => ?_⟩
  cases htwice.symm.trans hv

end InfraHub.Magic
