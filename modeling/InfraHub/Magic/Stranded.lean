import InfraHub.Magic.Moves
import InfraHub.Magic.Stale

/-!
# Magic — Stranded

Whether a call can wait for an `ok` entry that nobody will write.

It can: the loop also waits while there is no entry at all, so an invalidation or a timeout after the
`ok` was written and before the call looked again leaves it there.  `not_stranded_iff` says that a run
is free of that exactly when the entry is only deleted while no call waits, or while some call is
still on its way to write `ok`.
-/

namespace InfraHub.Magic
open InfraHub.Lib (Run guarded Throughout throughout_of_guarded)

variable {W : Wrapper} {s t : State} {i : Nat} {c : Call} {l : List Event}

/-- Between writing `ready` and writing `ok`. -/
def Pc.writing : Pc → Bool
  | .func | .store _ => true
  | _ => false

/-- Some call is in the loop. -/
def Waiting (s : State) : Prop := ∃ c ∈ s.calls, c.pc = .sleep

/-- Some call will still write `ok`. -/
def Writer (s : State) : Prop := ∃ c ∈ s.calls, c.pc.writing = true

/-- Who waits has an `ok` entry to find, or somebody who will write one. -/
def NotStranded (s : State) : Prop :=
  Waiting s → (∃ res, s.entry = some res ∧ res.status = .ok) ∨ Writer s

/-- If a call waits, some call will still write `ok`. -/
def Attended (s : State) : Prop := Waiting s → Writer s

instance (s : State) : Decidable (Waiting s) := inferInstanceAs (Decidable (∃ c ∈ s.calls, _))

instance (s : State) : Decidable (Writer s) := inferInstanceAs (Decidable (∃ c ∈ s.calls, _))

instance (s : State) : Decidable (Attended s) := inferInstanceAs (Decidable (_ → _))

/-- The entry is deleted in an attended state only. -/
def AttendedDelete (W : Wrapper) (s : State) : Event → Prop
  | .invalid_cache key => W.hits key → Attended s
  | .invalid_caches keys => W.key ∈ keys → Attended s
  | .expire => Attended s
  | _ => True

instance (W : Wrapper) (s : State) : ∀ e, Decidable (AttendedDelete W s e)
  | .invalid_cache _ => inferInstanceAs (Decidable (_ → _))
  | .invalid_caches _ => inferInstanceAs (Decidable (_ → _))
  | .expire => inferInstanceAs (Decidable (Attended _))
  | .call _ | .advance _ | .fail _ | .tick | .write | .lock_expire => .isTrue trivial

/-! ### Waiting and writing after a move -/

theorem writer_of_pc {pc : Pc} (hc : s.calls[i]? = some c) (hpc : pc.writing = true) :
    Writer (s.goto i c pc) :=
  ⟨_, List.mem_of_getElem? (goto_self hc), hpc⟩

/-- The others go on writing. -/
theorem writer_goto {pc : Pc} (hc : s.calls[i]? = some c) (hpc : c.pc.writing = false)
    (h : Writer s) : Writer (s.goto i c pc) := by
  obtain ⟨d, hd, hw⟩ := h
  obtain ⟨j, hj⟩ := List.getElem?_of_mem hd
  have hne : j ≠ i := by
    rintro rfl
    obtain rfl := Option.some.inj (hc.symm.trans hj)
    exact Bool.noConfusion (hpc.symm.trans hw)
  exact ⟨d, List.mem_of_getElem? ((goto_other hne).trans hj), hw⟩

theorem waiting_of_goto {pc : Pc} (hpc : pc ≠ .sleep) (h : Waiting (s.goto i c pc)) :
    Waiting s := by
  obtain ⟨d, hd, hw⟩ := h
  rcases mem_goto hd with hd | rfl
  · exact ⟨d, hd, hw⟩
  · exact absurd hw hpc

/-! ### The invariant -/

/-- A `ready` entry has its writer, and nobody is stranded. -/
structure Awaited (s : State) : Prop where
  ready : ∀ res, s.entry = some res → res.status = .ready → Writer s
  not_stranded : NotStranded s

theorem Awaited.of_writer (h : Writer s) : Awaited s := ⟨fun _ _ _ => h, fun _ => .inr h⟩

/-- A call that neither writes nor starts to wait. -/
theorem Awaited.goto {pc : Pc} (ha : Awaited s) (hc : s.calls[i]? = some c)
    (hw : c.pc.writing = false) (hpc : pc ≠ .sleep) : Awaited (s.goto i c pc) where
  ready res he hready := writer_goto hc hw (ha.ready res he hready)
  not_stranded hwait := (ha.not_stranded (waiting_of_goto hpc hwait)).imp_right (writer_goto hc hw)

theorem Awaited.relock {lock : Option Nat} (ha : Awaited s) : Awaited { s with lock } :=
  ⟨ha.ready, ha.not_stranded⟩

theorem awaited_move (ha : Awaited s) (hc : s.calls[i]? = some c) (hm : Move W s i c t) :
    Awaited t := by
  cases hm with
  | miss hpc => exact ha.goto hc (by rw [hpc]; rfl) nofun
  | wait hpc he =>
      -- the waiting call found nothing, so a writer there must be
      have hwriter : Writer s := by
        rcases ha.not_stranded ⟨c, List.mem_of_getElem? hc, hpc⟩ with ⟨res, hres, -⟩ | hwriter
        · cases he.symm.trans hres
        · exact hwriter
      exact .of_writer (writer_goto hc (by rw [hpc]; rfl) hwriter)
  | poll res hpc he hready =>
      have hw : c.pc.writing = false := by rcases hpc with hpc | hpc <;> rw [hpc] <;> rfl
      exact .of_writer (writer_goto hc hw (ha.ready res he hready))
  | read res hpc =>
      have hw : c.pc.writing = false := by rcases hpc with hpc | hpc <;> rw [hpc] <;> rfl
      exact ha.goto hc hw nofun
  | acquire res hpc => exact ha.relock.goto hc (by rw [hpc]; rfl) nofun
  | hit res hpc => exact ha.goto hc (by rw [hpc]; rfl) nofun
  | mark => exact .of_writer (writer_of_pc (s := { s with entry := _ }) hc rfl)
  | func => exact .of_writer (writer_of_pc hc rfl)
  | store data =>
      refine ⟨fun res he hready => ?_, fun _ => .inl ⟨_, rfl, rfl⟩⟩
      cases he
      cases hready
  | release data hpc => exact ha.relock.goto hc (by rw [hpc]; rfl) nofun
  | lost data hpc => exact ha.goto hc (by rw [hpc]; rfl) nofun

theorem awaited_delete (h : Attended s) : Awaited { s with entry := none } :=
  ⟨nofun, fun hwait => .inr (h hwait)⟩

theorem awaited_step {e : Event} (ha : Awaited s) (hg : AttendedDelete W s e)
    (h : next W s e = some t) : Awaited t := by
  cases e with
  | call cache_time =>
      cases h
      have hwriter {d : Call} (hw : Writer s) : Writer { s with calls := s.calls ++ [d] } :=
        hw.imp fun _ hc => ⟨List.mem_append_left _ hc.1, hc.2⟩
      refine ⟨fun res he hready => hwriter (ha.ready res he hready), fun ⟨d, hd, hpc⟩ => ?_⟩
      rcases List.mem_append.mp hd with hd | hd
      · exact (ha.not_stranded ⟨d, hd, hpc⟩).imp_right hwriter
      · rw [List.mem_singleton.mp hd] at hpc
        cases hpc
  | advance i =>
      obtain ⟨c, hc, hm⟩ := move_of_next h
      exact awaited_move ha hc hm
  | fail i =>
      obtain ⟨c, hc, -, rfl⟩ := fail_of_next h
      exact .of_writer (writer_of_pc hc rfl)
  | tick => cases h; exact ⟨ha.ready, ha.not_stranded⟩
  | write => cases h; exact ⟨ha.ready, ha.not_stranded⟩
  | invalid_cache key =>
      cases h
      by_cases hhit : W.hits key
      · simp only [if_pos hhit]
        have := awaited_delete (hg hhit)
        exact ⟨this.ready, this.not_stranded⟩
      · simp only [if_neg hhit]
        exact ⟨ha.ready, ha.not_stranded⟩
  | invalid_caches keys =>
      cases h
      by_cases hmem : W.key ∈ keys
      · simp only [if_pos hmem]
        have := awaited_delete (hg hmem)
        exact ⟨this.ready, this.not_stranded⟩
      · simp only [if_neg hmem]
        exact ⟨ha.ready, ha.not_stranded⟩
  | expire => cases h; exact awaited_delete hg
  | lock_expire => cases h; exact ha.relock

theorem awaited_init : Awaited .init := ⟨nofun, fun ⟨_, hc, _⟩ => nomatch hc⟩

/-! ### The condition is exact -/

/-- Where nobody is stranded after the entry was deleted, the state was attended. -/
theorem attended_of_delete (h : NotStranded t) (he : t.entry = none)
    (hcalls : t.calls = s.calls) : Attended s := by
  intro hwait
  rw [NotStranded, Waiting, Writer, hcalls] at h
  rcases h hwait with ⟨res, hres, -⟩ | hwriter
  · cases he.symm.trans hres
  · exact hwriter

theorem attended_delete_of_step {e : Event} (h : next W s e = some t) (ht : NotStranded t) :
    AttendedDelete W s e := by
  cases e with
  | invalid_cache key =>
      intro hhit
      cases h
      exact attended_of_delete ht (if_pos hhit) rfl
  | invalid_caches keys =>
      intro hmem
      cases h
      exact attended_of_delete ht (if_pos hmem) rfl
  | expire => cases h; exact attended_of_delete ht rfl rfl
  | call | advance | fail | tick | write | lock_expire => trivial

theorem step_unique (W : Wrapper) (s : State) (e : Event) (t t' : State) (h : Step W s e t)
    (h' : Step W s e t') : t = t' := Option.some.inj (h.symm.trans h')

/-- **When no caller is stranded**: exactly in the runs in which the entry is deleted only while no
call waits in the loop or some call is between writing `ready` and writing `ok`. -/
theorem not_stranded_iff (r : Run (Step W) .init l s) :
    Throughout (Step W) (fun _ => NotStranded) .init l ↔
      Run (guarded (Step W) (AttendedDelete W)) .init l s := by
  constructor
  · intro h
    exact h.guarded (fun _ _ _ _ _ hs _ ht => attended_delete_of_step hs ht) r
  · intro r'
    exact throughout_of_guarded (I := fun _ => Awaited) (step_unique W)
      (fun _ _ _ _ ha hs => awaited_step ha hs.2 hs.1) (fun _ _ ha => ha.not_stranded) r'
      awaited_init

/-- Call 0 marks the entry, call 1 waits for it; the entry is invalidated after call 0 has stored it
and before call 1 looks. -/
def sampleStranded : List Event :=
  [.call 600, .advance 0, .advance 0, .advance 0, .call 600, .advance 1, .advance 0, .advance 0,
    .invalid_caches ["get_user_permission_1_GET"], .advance 0, .advance 1]

theorem caller_stranded :
    ∃ s, Run (Step sampleWrapper) .init sampleStranded s ∧ s.entry = none ∧
      s.calls.map Call.pc = [.returned (some 0), .sleep] ∧ ¬ NotStranded s := by
  have h : ∃ s, InfraHub.Lib.exec (next sampleWrapper) .init sampleStranded = some s ∧
      s.entry = none ∧ s.calls.map Call.pc = [.returned (some 0), .sleep] ∧ Waiting s ∧
      ¬ Writer s := ⟨_, rfl, rfl, rfl, by decide, by decide⟩
  obtain ⟨s, hs, he, hpcs, hwait, hno⟩ := h
  refine ⟨s, Run.of_exec hs, he, hpcs, fun hn => ?_⟩
  rcases hn hwait with ⟨res, hres, -⟩ | hwriter
  · cases he.symm.trans hres
  · exact hno hwriter

/-- The same calls, and the entry is invalidated once call 1 has looked. -/
def sampleAttended : List Event :=
  [.call 600, .advance 0, .advance 0, .advance 0, .call 600, .advance 1, .advance 0, .advance 0,
    .advance 1, .invalid_caches ["get_user_permission_1_GET"], .advance 0, .advance 1, .advance 1,
    .advance 1]

theorem not_stranded_iff_attended :
    ∃ s, Run (Step sampleWrapper) .init sampleAttended s ∧
      s.calls.map Call.pc = [.returned (some 0), .returned (some 0)] ∧
      Throughout (Step sampleWrapper) (fun _ => NotStranded) .init sampleAttended := by
  have h : ∃ s, InfraHub.Lib.exec (fun s e => if AttendedDelete sampleWrapper s e then
        next sampleWrapper s e else none) .init sampleAttended = some s ∧
      s.calls.map Call.pc = [.returned (some 0), .returned (some 0)] := ⟨_, rfl, rfl⟩
  obtain ⟨s, hs, hpcs⟩ := h
  have r := Run.guarded_of_exec hs
  exact ⟨s, r.of_guarded, hpcs, (not_stranded_iff r.of_guarded).mpr r⟩

end InfraHub.Magic
