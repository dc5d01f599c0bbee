import InfraHub.Magic.Wrapper

/-!
# Magic — Stale

Whether a call can return data older than the last write that was invalidated before it.

It can: an invalidation takes no lock, so a call that has read the data and not stored it yet puts
the old value back after the entry was deleted.  `nothing_stale` is the condition under which that
does not happen, for every interleaving: whenever the entry is deleted, no call is about to store a
value read before the last write.
-/

namespace InfraHub.Magic
open InfraHub.Lib (Run guarded)

variable {W : Wrapper} {s t : State} {n i : Nat}

/-! ### The condition -/

/-- The value a call is about to store. -/
def Pc.stored : Pc → Option (Option Nat)
  | .store data => some data
  | _ => none

theorem Pc.mem_stored {pc : Pc} {data : Option Nat} : data ∈ pc.stored ↔ pc = .store data := by
  cases pc <;> simp [Pc.stored, eq_comm]

/-- Every call that has read the data has read the current version. -/
def Settled (s : State) : Prop :=
  ∀ c ∈ s.calls, ∀ data, c.pc = .store data → data = some s.version

instance (s : State) : Decidable (Settled s) :=
  decidable_of_iff (∀ c ∈ s.calls, ∀ data ∈ c.pc.stored, data = some s.version)
    (forall₂_congr fun c _ => forall_congr' fun data => by rw [Pc.mem_stored])

/-- No call is about to store an old value when the entry is deleted, the key as a pattern matches
itself, and the decorated function does not raise. -/
def Guard (W : Wrapper) (s : State) : Event → Prop
  | .invalid_cache key => (key = W.key → W.hits key) ∧ (W.hits key → Settled s)
  | .invalid_caches keys => W.key ∈ keys → Settled s
  | .fail _ => False
  | _ => True

instance (W : Wrapper) (s : State) : ∀ e, Decidable (Guard W s e)
  | .invalid_cache _ => inferInstanceAs (Decidable (_ ∧ _))
  | .invalid_caches _ => inferInstanceAs (Decidable (_ → _))
  | .fail _ => .isFalse not_false
  | .call _ | .advance _ | .tick | .write | .expire | .lock_expire => .isTrue trivial

/-! ### What holds of a version from then on -/

/-- The data was read at version `n` or later. -/
def Since (n : Nat) (data : Option Nat) : Prop := ∃ v, data = some v ∧ n ≤ v

/-- The data a call carries was read at version `n` or later. -/
def Pc.Since (n : Nat) : Pc → Prop
  | .lock (some res) | .check (some res) => Magic.Since n res.data
  | .store data | .release data | .returned data => Magic.Since n data
  | _ => True

/-- Everything that can be read or stored from now on is of version `n` or later. -/
structure Above (n : Nat) (s : State) : Prop where
  version : n ≤ s.version
  entry : ∀ res, s.entry = some res → res.status = .ok → Since n res.data
  calls : ∀ c ∈ s.calls, ∀ data, c.pc = .store data → Since n data

theorem await_since {res : Entry} (h : res.status = .ok → Since n res.data) :
    (await res).Since n := by
  unfold await
  split
  · next hok => exact h hok
  · trivial

theorem await_ne_store {res : Entry} {p : Option Nat → Prop} :
    ∀ data, await res = .store data → p data := by
  unfold await
  split <;> nofun

/-- What a call may leave in the cache: what was there, a `ready` mark, or what it was about to
store. -/
def Leaves (c : Call) (entry entry' : Option Entry) : Prop :=
  entry' = entry ∨ entry' = some ⟨c.n_time, none, .ready⟩ ∨
    ∃ data, c.pc = .store data ∧ entry' = some ⟨c.n_time, data, .ok⟩

/-- One step of a call: the call is at another place, and of the shared state the entry and the lock
may have changed.  A value is about to be stored only when it was just read, and what the call
carries is no older than what it could get hold of. -/
theorem advance_cases {c : Call} (h : advance W s i c = some t) :
    ∃ pc entry lock, t = { s with entry, lock }.goto i c pc ∧ Leaves c s.entry entry ∧
      (∀ data, pc = .store data → data = some s.version) ∧
      ∀ n, Above n s → c.pc.Since n → pc.Since n := by
  unfold advance at h
  split at h
  case h_1 =>
    split at h
    · exact ⟨_, _, _, (Option.some.inj h).symm, .inl rfl, nofun, fun _ _ _ => trivial⟩
    · next res he =>
      exact ⟨_, _, _, (Option.some.inj h).symm, .inl rfl, await_ne_store,
        fun n ha _ => await_since (ha.entry res he)⟩
  case h_2 =>
    split at h
    · exact ⟨_, _, _, (Option.some.inj h).symm, .inl rfl, nofun, fun _ _ _ => trivial⟩
    · next res he =>
      exact ⟨_, _, _, (Option.some.inj h).symm, .inl rfl, await_ne_store,
        fun n ha _ => await_since (ha.entry res he)⟩
  case h_3 res hpc =>
    split at h
    · refine ⟨_, _, _, (Option.some.inj h).symm, .inl rfl, nofun, fun n _ hc => ?_⟩
      rw [hpc] at hc
      cases res <;> exact hc
    · cases h
  case h_4 =>
    exact ⟨_, _, _, (Option.some.inj h).symm, .inr (.inl rfl), nofun, fun _ _ _ => trivial⟩
  case h_5 res hpc =>
    split at h
    · exact ⟨_, _, _, (Option.some.inj h).symm, .inl rfl, nofun, fun n _ hc => by rwa [hpc] at hc⟩
    · exact ⟨_, _, _, (Option.some.inj h).symm, .inr (.inl rfl), nofun, fun _ _ _ => trivial⟩
  case h_6 =>
    refine ⟨_, _, _, (Option.some.inj h).symm, .inl rfl, fun data hd => ?_, fun n ha _ => ?_⟩
    · cases hd; rfl
    · exact ⟨_, rfl, ha.version⟩
  case h_7 data hpc =>
    exact ⟨_, _, _, (Option.some.inj h).symm, .inr (.inr ⟨data, hpc, rfl⟩), nofun,
      fun n _ hc => by rwa [hpc] at hc⟩
  case h_8 data hpc =>
    split at h
    · exact ⟨_, _, _, (Option.some.inj h).symm, .inl rfl, nofun, fun n _ hc => by rwa [hpc] at hc⟩
    · exact ⟨_, _, _, (Option.some.inj h).symm, .inl rfl, nofun, fun _ _ _ => trivial⟩
  case h_9 => cases h
  case h_10 => cases h

/-- The calls after call `i` went on at `pc`. -/
theorem mem_goto {c d : Call} {pc : Pc} (h : d ∈ (s.goto i c pc).calls) :
    d ∈ s.calls ∨ d = { c with pc } :=
  List.mem_or_eq_of_mem_set h

theorem above_advance {c : Call} (ha : Above n s) (hc : c ∈ s.calls)
    (h : advance W s i c = some t) : Above n t := by
  obtain ⟨pc, entry, lock, rfl, he, hstore, -⟩ := advance_cases h
  refine ⟨ha.version, fun res hres hok => ?_, fun d hd data hd' => ?_⟩
  · rcases he with rfl | rfl | ⟨data, hpc, rfl⟩
    · exact ha.entry res hres hok
    · cases hres
      cases hok
    · cases hres
      exact ha.calls c hc data hpc
  · rcases mem_goto hd with hd | rfl
    · exact ha.calls d hd data hd'
    · exact ⟨_, hstore data hd', ha.version⟩

/-- **What every event keeps**: once everything is of version `n` or later, it stays so. -/
theorem above_step {e : Event} (ha : Above n s) (hg : Guard W s e) (h : next W s e = some t) :
    Above n t := by
  cases e with
  | call cache_time =>
      cases h
      refine ⟨ha.version, ha.entry, fun c hc data hd => ?_⟩
      rcases List.mem_append.mp hc with hc | hc
      · exact ha.calls c hc data hd
      · rw [List.mem_singleton.mp hc] at hd
        cases hd
  | advance i =>
      obtain ⟨c, hc, h⟩ := Option.bind_eq_some_iff.mp h
      exact above_advance ha (List.mem_of_getElem? hc) h
  | fail i => exact hg.elim
  | tick => cases h; exact ⟨ha.version, ha.entry, ha.calls⟩
  | write => cases h; exact ⟨Nat.le_succ_of_le ha.version, ha.entry, ha.calls⟩
  | invalid_cache key =>
      cases h
      refine ⟨ha.version, fun res hres hok => ?_, ha.calls⟩
      exact ha.entry res (Option.ite_none_left_eq_some.mp hres).2 hok
  | invalid_caches keys =>
      cases h
      refine ⟨ha.version, fun res hres hok => ?_, ha.calls⟩
      exact ha.entry res (Option.ite_none_left_eq_some.mp hres).2 hok
  | expire => cases h; exact ⟨ha.version, nofun, ha.calls⟩
  | lock_expire => cases h; exact ⟨ha.version, ha.entry, ha.calls⟩

/-! ### The invariant -/

/-- A clean state is of the current version, and a call is of the version it was started at, with
everything it can still get hold of. -/
structure Inv (s : State) : Prop where
  clean : s.clean = true → Above s.version s
  calls : ∀ c ∈ s.calls, ∀ n, c.floor = some n → Above n s ∧ c.pc.Since n

theorem inv_init : Inv .init where
  clean _ := ⟨Nat.le_refl _, nofun, nofun⟩
  calls := nofun

/-- Deleting the entry of a settled state makes it of the current version. -/
theorem above_of_settled (h : Settled s) : Above s.version { s with entry := none } where
  version := Nat.le_refl _
  entry := nofun
  calls c hc data hd := ⟨_, h c hc data hd, Nat.le_refl _⟩

/-- The clean half: an event that deletes the entry does so in a settled state, and the others leave
a clean state clean. -/
theorem clean_step {e : Event} (hi : Inv s) (hg : Guard W s e) (h : next W s e = some t)
    (hclean : t.clean = true) : Above t.version t := by
  have hkeep (hc : s.clean = true) (hv : t.version = s.version) : Above t.version t :=
    hv ▸ above_step (hi.clean hc) hg h
  cases e with
  | call cache_time => cases h; exact hkeep hclean rfl
  | advance i =>
      obtain ⟨c, -, hadv⟩ := Option.bind_eq_some_iff.mp h
      obtain ⟨pc, entry, lock, rfl, -⟩ := advance_cases hadv
      exact hkeep hclean rfl
  | fail i => exact hg.elim
  | tick => cases h; exact hkeep hclean rfl
  | write => cases h; cases hclean
  | invalid_cache key =>
      by_cases hhit : W.hits key
      · cases h
        have := above_of_settled (hg.2 hhit)
        exact ⟨this.version, by simp [hhit], this.calls⟩
      · refine hkeep ?_ (by cases h; rfl)
        cases h
        have hne : key ≠ W.key := fun e => hhit (hg.1 e)
        simpa [hhit, hne] using hclean
  | invalid_caches keys =>
      by_cases hmem : W.key ∈ keys
      · cases h
        have := above_of_settled (hg hmem)
        exact ⟨this.version, by simp [hmem], this.calls⟩
      · refine hkeep ?_ (by cases h; rfl)
        cases h
        simpa [hmem] using hclean
  | expire => cases h; exact hkeep hclean rfl
  | lock_expire => cases h; exact hkeep hclean rfl

theorem inv_step {e : Event} (hi : Inv s) (hg : Guard W s e) (h : next W s e = some t) : Inv t where
  clean := clean_step hi hg h
  calls := by
    intro c hc n hn
    have hold (hmem : c ∈ s.calls) : Above n t ∧ c.pc.Since n :=
      ⟨above_step (hi.calls c hmem n hn).1 hg h, (hi.calls c hmem n hn).2⟩
    cases e with
    | call cache_time =>
        rcases List.mem_append.mp (Option.some.inj h ▸ hc) with hmem | hmem
        · exact hold hmem
        · rw [List.mem_singleton.mp hmem] at hn ⊢
          obtain ⟨hclean, hv⟩ := Option.ite_none_right_eq_some.mp hn
          cases hv
          exact ⟨above_step (hi.clean hclean) hg h, trivial⟩
    | advance i =>
        obtain ⟨d, hd, hadv⟩ := Option.bind_eq_some_iff.mp h
        obtain ⟨pc, entry, lock, rfl, -, -, hsince⟩ := advance_cases hadv
        rcases mem_goto hc with hmem | rfl
        · exact hold hmem
        · obtain ⟨ha, hpc⟩ := hi.calls d (List.mem_of_getElem? hd) n hn
          exact ⟨above_step ha hg h, hsince n ha hpc⟩
    | fail i => exact hg.elim
    | tick => cases h; exact hold hc
    | write => cases h; exact hold hc
    | invalid_cache key => cases h; exact hold hc
    | invalid_caches keys => cases h; exact hold hc
    | expire => cases h; exact hold hc
    | lock_expire => cases h; exact hold hc

/-- **Nothing stale comes back**, in any interleaving whose steps meet the guard. -/
theorem nothing_stale {l : List Event} (r : Run (guarded (Step W) (Guard W)) .init l s) :
    NothingStale s := by
  have hi : Inv s := r.invariant (I := Inv) (fun _ _ _ hi h => inv_step hi h.2 h.1) inv_init
  intro c hc n data hn hpc
  have := (hi.calls c hc n hn).2
  rwa [hpc] at this

/-- The permissions of user 1, cached for ten minutes. -/
def sampleWrapper : Wrapper where
  key := "get_user_permission_1_GET"
  invalid_time := 0
  glob pattern key := pattern = key

/-- A write, its invalidation, and a call that misses the cache. -/
def sampleMiss : List Event :=
  [.write, .invalid_caches ["get_user_permission_1_GET"], .call 600, .advance 0, .advance 0,
    .advance 0, .advance 0, .advance 0, .advance 0]

theorem nothing_stale_after_write :
    ∃ s, Run (guarded (Step sampleWrapper) (Guard sampleWrapper)) .init sampleMiss s ∧
      s.calls = [⟨0, 600, some 1, .returned (some 1)⟩] ∧ NothingStale s := by
  have h : ∃ s, InfraHub.Lib.exec (fun s e => if Guard sampleWrapper s e then next sampleWrapper s e else none)
      .init sampleMiss = some s ∧ s.calls = [⟨0, 600, some 1, .returned (some 1)⟩] :=
    ⟨_, rfl, rfl⟩
  obtain ⟨s, hs, hc⟩ := h
  have r := Run.guarded_of_exec hs
  exact ⟨s, r, hc, nothing_stale r⟩

/-- Call 0 reads the data before the write and stores it after the invalidation; call 1, started
after both, gets it. -/
def sampleRace : List Event :=
  [.call 600, .advance 0, .advance 0, .advance 0, .advance 0,
    .write, .invalid_caches ["get_user_permission_1_GET"],
    .advance 0, .advance 0,
    .call 600, .advance 1, .advance 1, .advance 1, .advance 1]

theorem stale_after_race :
    ∃ s, Run (Step sampleWrapper) .init sampleRace s ∧ ¬ NothingStale s ∧
      s.calls[1]? = some ⟨0, 600, some 1, .returned (some 0)⟩ := by
  have h : ∃ s, InfraHub.Lib.exec (next sampleWrapper) .init sampleRace = some s ∧
      s.calls[1]? = some ⟨0, 600, some 1, .returned (some 0)⟩ :=
    ⟨_, rfl, rfl⟩
  obtain ⟨s, hs, hc⟩ := h
  refine ⟨s, Run.of_exec hs, fun hn => ?_, hc⟩
  obtain ⟨v, hv, hle⟩ := hn _ (List.mem_of_getElem? hc) 1 _ rfl rfl
  cases hv
  exact absurd hle (by decide)

end InfraHub.Magic
