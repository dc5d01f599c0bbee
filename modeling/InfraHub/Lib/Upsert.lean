import Mathlib.Data.Option.Basic
import Mathlib.Data.List.Basic

/-!
# Library — Upsert

A table with a unique key and a unique label, written one record at a time: the record with key
`k` and label `n` replaces the row with key `k`, if there is one, and is refused where another row
has the label `n`.

`putAll_isSome_iff` says when a whole sequence of records, with distinct keys and distinct labels,
is taken: every row that stands in the way of a record must itself be replaced by then.
-/

namespace InfraHub.Lib

variable {τ ω ρ κ ν : Type*}

/-- A table type `τ` of rows `ρ`, with a write `put` of a record `ω`, and what is known of it where
the write is `Valid`. -/
structure Upsert (τ ω ρ κ ν : Type*) where
  Mem : ρ → τ → Prop
  key : ρ → Option κ
  label : ρ → ν
  newKey : ω → κ
  newLabel : ω → ν
  put : τ → ω → Option τ
  Valid : τ → ω → Prop
  /-- the row holds the record -/
  Wrote : ω → ρ → Prop
  label_of_wrote {w : ω} {r : ρ} : Wrote w r → label r = newLabel w
  /-- a record is refused only where its label is taken -/
  put_isSome {t : τ} {w : ω} : Valid t w →
    ((put t w).isSome ↔ ∀ r, Mem r t → label r = newLabel w → key r = some (newKey w))
  valid_put {t t' : τ} {v w : ω} : Valid t w → Valid t v → put t v = some t' → Valid t' w
  mem_other {t t' : τ} {w : ω} {r : ρ} : Valid t w → put t w = some t' →
    key r ≠ some (newKey w) → (Mem r t' ↔ Mem r t)
  wrote {t t' : τ} {w : ω} {r : ρ} : Valid t w → put t w = some t' → Mem r t' →
    key r = some (newKey w) → Wrote w r
  exists_key {t t' : τ} {w : ω} : put t w = some t' → ∃ r, Mem r t' ∧ key r = some (newKey w)

namespace Upsert

variable (U : Upsert τ ω ρ κ ν)

/-- Write the records in order, up to the first that is refused. -/
def putAll (t : τ) : List ω → Option τ
  | [] => some t
  | w :: ws => (U.put t w).bind fun t' => putAll t' ws

/-- Every row with the label of a record has the key of this record or of an earlier one. -/
def Clear (t : τ) (ws : List ω) : Prop :=
  ∀ pre w post, ws = pre ++ w :: post → ∀ r, U.Mem r t → U.label r = U.newLabel w →
    ∃ v ∈ pre ++ [w], U.key r = some (U.newKey v)

/-- No two records share a key or a label. -/
def Distinct (ws : List ω) : Prop :=
  (ws.map U.newKey).Nodup ∧ (ws.map U.newLabel).Nodup

variable {U}

theorem Distinct.tail {w : ω} {ws : List ω} (h : U.Distinct (w :: ws)) : U.Distinct ws :=
  ⟨h.1.of_cons, h.2.of_cons⟩

theorem Distinct.key_ne {w v : ω} {ws : List ω} (h : U.Distinct (w :: ws)) (hv : v ∈ ws) :
    U.newKey v ≠ U.newKey w := by
  intro e
  have hn := (List.nodup_cons.mp h.1).1
  exact hn (e ▸ List.mem_map_of_mem hv)

theorem Distinct.label_ne {w v : ω} {ws : List ω} (h : U.Distinct (w :: ws)) (hv : v ∈ ws) :
    U.newLabel v ≠ U.newLabel w := by
  intro e
  have hn := (List.nodup_cons.mp h.2).1
  exact hn (e ▸ List.mem_map_of_mem hv)

/-- After the first record, the others are as clear as they were. -/
theorem clear_cons {t t' : τ} {w : ω} {ws : List ω} (hd : U.Distinct (w :: ws)) (hv : U.Valid t w)
    (hp : U.put t w = some t') : U.Clear t (w :: ws) ↔ U.Clear t' ws := by
  have hfit := (U.put_isSome hv).mp (by rw [hp]; rfl)
  constructor
  · intro h pre u post e r hr hl
    have hu : u ∈ ws := by rw [e]; simp
    -- the row of `w` has another label
    have hk : U.key r ≠ some (U.newKey w) := fun hk =>
      hd.label_ne hu (hl.symm.trans (U.label_of_wrote (U.wrote hv hp hr hk)))
    obtain ⟨v, hmem, hkey⟩ := h (w :: pre) u post (by rw [e]; rfl) r
      ((U.mem_other hv hp hk).mp hr) hl
    rcases List.mem_cons.mp hmem with rfl | hmem
    · exact absurd hkey hk
    · exact ⟨v, hmem, hkey⟩
  · intro h pre u post e r hr hl
    rcases pre with _ | ⟨x, pre⟩
    · obtain ⟨rfl, rfl⟩ := List.cons.inj e
      exact ⟨w, by simp, hfit r hr hl⟩
    · obtain ⟨rfl, rfl⟩ := List.cons.inj e
      by_cases hk : U.key r = some (U.newKey w)
      · exact ⟨w, by simp, hk⟩
      · obtain ⟨v, hmem, hkey⟩ := h pre u post rfl r ((U.mem_other hv hp hk).mpr hr) hl
        exact ⟨v, List.mem_cons_of_mem _ hmem, hkey⟩

/-- **When a sequence of records is taken.** -/
theorem putAll_isSome_iff {t : τ} {ws : List ω} (hd : U.Distinct ws)
    (hv : ∀ w ∈ ws, U.Valid t w) : (U.putAll t ws).isSome ↔ U.Clear t ws := by
  induction ws generalizing t with
  | nil => simp [putAll, Clear]
  | cons w ws ih =>
      have hw := hv w (by simp)
      rw [putAll]
      cases hp : U.put t w with
      | none =>
          rw [Option.bind_none]
          constructor
          · intro h
            cases h
          · intro h
            have hfit := (U.put_isSome hw).mpr fun r hr hl => by
              obtain ⟨v, hmem, hkey⟩ := h [] w ws rfl r hr hl
              rwa [List.mem_singleton.mp hmem] at hkey
            rw [hp] at hfit
            cases hfit
      | some t' =>
          rw [Option.bind_some, clear_cons hd hw hp]
          exact ih hd.tail fun v hmem => U.valid_put (hv v (List.mem_cons_of_mem _ hmem)) hw hp

/-- What the table holds once a sequence of records is taken. -/
theorem mem_putAll {t t' : τ} {ws : List ω} (hd : U.Distinct ws) (hv : ∀ w ∈ ws, U.Valid t w)
    (h : U.putAll t ws = some t') :
    (∀ w ∈ ws, (∃ r, U.Mem r t' ∧ U.key r = some (U.newKey w)) ∧
      ∀ r, U.Mem r t' → U.key r = some (U.newKey w) → U.Wrote w r) ∧
    ∀ r, (∀ w ∈ ws, U.key r ≠ some (U.newKey w)) → (U.Mem r t' ↔ U.Mem r t) := by
  induction ws generalizing t with
  | nil =>
      cases h
      exact ⟨by simp, fun _ _ => Iff.rfl⟩
  | cons w ws ih =>
      have hw := hv w (by simp)
      rw [putAll, Option.bind_eq_some_iff] at h
      obtain ⟨t₁, hp, h⟩ := h
      obtain ⟨hin, hout⟩ := ih hd.tail
        (fun v hmem => U.valid_put (hv v (List.mem_cons_of_mem _ hmem)) hw hp) h
      -- the later records leave the row of `w` alone
      have hlater {r : ρ} (hk : U.key r = some (U.newKey w)) : U.Mem r t' ↔ U.Mem r t₁ :=
        hout r fun v hmem hv => hd.key_ne hmem (Option.some.inj (hv.symm.trans hk))
      refine ⟨fun v hmem => ?_, fun r hr => ?_⟩
      · rcases List.mem_cons.mp hmem with rfl | hmem
        · obtain ⟨r, hr, hk⟩ := U.exists_key hp
          exact ⟨⟨r, (hlater hk).mpr hr, hk⟩, fun r hr hk => U.wrote hw hp ((hlater hk).mp hr) hk⟩
        · exact hin v hmem
      · rw [hout r fun v hmem => hr v (List.mem_cons_of_mem _ hmem)]
        exact U.mem_other hw hp (hr w (by simp))

end Upsert

end InfraHub.Lib
