import InfraHub.Virt.Tables
import Mathlib.Data.Set.Basic

/-!
# Virt — Own

The rows of one platform, as a set: what is left of a table when the rows of other platforms and
the primary keys are forgotten (`Table.own`).  A column that holds a primary key is replaced by what
the key stands for, through a function `see` on the columns.

* `own_upsert`, `own_deactivate` compute the set after a write from the set before.
* `constraints_upsert_iff` says when a write is taken: the platform's own rows decide it, but for
  one question (`Table.Valid`) that the rows of other platforms answer.
* `update_or_create_alike` is the step from two tables with one set of own rows, and
  `update_or_create_apart` what happens where the question is answered differently.
* `link_upsert`, `link_deactivate` follow the row that a primary key stands for.
-/

namespace InfraHub.Virt

variable {γ δ : Type}

/-- The row without its primary key, seen through `see`. -/
def Row.seen (see : γ → δ) (r : Row γ) : Row δ where
  id := 0
  platform := r.platform
  uuid := r.uuid
  name := r.name
  mo_ref := r.mo_ref
  is_active := r.is_active
  columns := see r.columns

namespace Table

/-- The rows of the platform, without their primary keys. -/
def own (see : γ → δ) (platform : Nat) (t : Table γ) : Set (Row δ) :=
  {c | ∃ r ∈ t.rows, r.platform = platform ∧ r.seen see = c}

/-- A row of another platform holds the uuid. -/
def Taken (platform : Nat) (uuid : String) (t : Table γ) : Prop :=
  ∃ r ∈ t.rows, r.platform ≠ platform ∧ r.uuid = some uuid

/-- A row of the platform holds the uuid. -/
def Owned (platform : Nat) (uuid : String) (t : Table γ) : Prop :=
  ∃ r ∈ t.rows, r.platform = platform ∧ r.uuid = some uuid

/-- The platform has neither the uuid nor the name of the record. -/
def Lacks (platform : Nat) (t : Table γ) (d : Record γ) : Prop :=
  ∀ r ∈ t.rows, r.platform = platform → r.uuid ≠ some d.uuid ∧ r.name ≠ d.name

section
variable {platform : Nat} {d : Record γ} {t : Table γ} {see : γ → δ}

theorem valid_iff_not_taken : t.Valid platform d ↔ ¬ t.Taken platform d.uuid := by
  constructor
  · rintro hv ⟨r, hr, hp, hu⟩
    exact hp (hv r hr hu)
  · intro h r hr hu
    by_contra hp
    exact h ⟨r, hr, hp, hu⟩

theorem not_taken_of_owned {uuid : String} (h : t.Owned platform uuid) :
    ¬ t.Taken platform uuid := by
  obtain ⟨r, hr, hp, hu⟩ := h
  rintro ⟨s, hs, hsp, hsu⟩
  have : s = r := t.eq_of_uuid hs hr hsu hu
  exact hsp (this ▸ hp)

theorem owned_iff_own (see : γ → δ) {uuid : String} :
    t.Owned platform uuid ↔ ∃ c ∈ t.own see platform, c.uuid = some uuid := by
  constructor
  · rintro ⟨r, hr, hp, hu⟩
    exact ⟨_, ⟨r, hr, hp, rfl⟩, hu⟩
  · rintro ⟨_, ⟨r, hr, hp, rfl⟩, hu⟩
    exact ⟨r, hr, hp, hu⟩

theorem fits_iff_own (see : γ → δ) :
    t.Fits platform d ↔ ∀ c ∈ t.own see platform, c.name = d.name → c.uuid = some d.uuid := by
  constructor
  · rintro h _ ⟨r, hr, hp, rfl⟩ hn
    exact h r hr hp hn
  · intro h r hr hp hn
    exact h _ ⟨r, hr, hp, rfl⟩ hn

theorem lacks_iff_own (see : γ → δ) :
    t.Lacks platform d ↔ ∀ c ∈ t.own see platform, c.uuid ≠ some d.uuid ∧ c.name ≠ d.name := by
  constructor
  · rintro h _ ⟨r, hr, hp, rfl⟩
    exact h r hr hp
  · intro h r hr hp
    exact h _ ⟨r, hr, hp, rfl⟩

/-- A record fits where its uuid is the platform's or where the platform lacks it. -/
theorem lacks_of_fits (hf : t.Fits platform d) (ho : ¬ t.Owned platform d.uuid) :
    t.Lacks platform d := by
  intro r hr hp
  have hu : r.uuid ≠ some d.uuid := fun hu => ho ⟨r, hr, hp, hu⟩
  exact ⟨hu, fun hn => hu (hf r hr hp hn)⟩

theorem fits_of_lacks (h : t.Lacks platform d) : t.Fits platform d := by
  intro r hr hp hn
  exact absurd hn (h r hr hp).2

/-! ### A write -/

/-- **When the constraints let a record in.** -/
theorem constraints_upsert_iff :
    Constraints (upsert platform d t.rows) ↔ t.Fits platform d ∧ t.Valid platform d := by
  constructor
  · intro h
    refine ⟨fits_of_constraints h, fun r hr hu => ?_⟩
    by_contra hp
    obtain ⟨s, hs, hd⟩ : ∃ s ∈ upsert platform d t.rows, s.Holds platform d :=
      exists_mem_upsert t.rows
    have hr' : r ∈ upsert platform d t.rows :=
      (mem_upsert_of_not_matches fun hm => hp hm.1).mpr hr
    have hrs : r = s := (⟨_, h⟩ : Table γ).eq_of_uuid hr' hs hu hd.uuid
    exact hp (hrs ▸ hd.platform)
  · rintro ⟨hf, hv⟩
    exact put_isSome_iff.mp ((put_isSome_iff_fits hv).mpr hf)

theorem update_or_create_fault {fault : Record γ → Option Fault} {e : Fault}
    (h : fault d = some e) : t.update_or_create fault platform d = .error e := by
  unfold update_or_create
  rw [h]

theorem update_or_create_refused {fault : Record γ → Option Fault} (h : fault d = none)
    (hno : ¬ (t.Fits platform d ∧ t.Valid platform d)) :
    t.update_or_create fault platform d = .error "IntegrityError" := by
  unfold update_or_create
  rw [h]
  exact dif_neg fun hc => hno (constraints_upsert_iff.mp hc)

theorem update_or_create_taken {fault : Record γ → Option Fault} (h : fault d = none)
    (hf : t.Fits platform d) (hv : t.Valid platform d) :
    ∃ u, t.update_or_create fault platform d = .ok u ∧ u.rows = upsert platform d t.rows := by
  unfold update_or_create
  rw [h]
  exact ⟨_, dif_pos (constraints_upsert_iff.mpr ⟨hf, hv⟩), rfl⟩

/-- The platform's rows after a write: the row of the key is the record. -/
theorem own_upsert {u : Table γ} (h : u.rows = upsert platform d t.rows) :
    u.own see platform = {c | c = (Row.create 0 platform d).seen see ∨
      c ∈ t.own see platform ∧ c.uuid ≠ some d.uuid} := by
  have hseen {r : Row γ} (hr : r.Holds platform d) :
      r.seen see = (Row.create 0 platform d).seen see := by
    simp [Row.seen, Row.create, hr.platform, hr.uuid, hr.name, hr.mo_ref, hr.is_active, hr.columns]
  ext c
  constructor
  · rintro ⟨r, hr, hp, rfl⟩
    rw [h] at hr
    by_cases hu : r.uuid = some d.uuid
    · exact .inl (hseen (holds_of_mem_upsert hr ⟨hp, hu⟩))
    · exact .inr ⟨⟨r, (mem_upsert_of_not_matches fun hm => hu hm.2).mp hr, hp, rfl⟩, hu⟩
  · rintro (rfl | ⟨⟨r, hr, hp, rfl⟩, hu⟩)
    · obtain ⟨r, hr, hd⟩ : ∃ r ∈ upsert platform d t.rows, r.Holds platform d :=
        exists_mem_upsert t.rows
      exact ⟨r, h ▸ hr, hd.platform, hseen hd⟩
    · exact ⟨r, h ▸ (mem_upsert_of_not_matches fun hm => hu hm.2).mpr hr, hp, rfl⟩

theorem seen_inactive {p : Row γ → Bool} {q : Row δ → Bool} {r : Row γ}
    (h : p r = q (r.seen see)) :
    (if p r then { r with is_active := false } else r).seen see =
      if q (r.seen see) then { r.seen see with is_active := false } else r.seen see := by
  rw [h]
  split <;> rfl

/-- The platform's rows after `filter(…).update(is_active=False)`. -/
theorem own_deactivate {p : Row γ → Bool} {q : Row δ → Bool}
    (hq : ∀ r : Row γ, r.platform = platform → p r = q (r.seen see)) :
    (t.deactivate p).own see platform =
      (fun c => if q c then { c with is_active := false } else c) '' t.own see platform := by
  ext c
  constructor
  · rintro ⟨s, hs, hp, rfl⟩
    obtain ⟨r, hr, rfl⟩ := List.mem_map.mp hs
    have hp' : r.platform = platform := by
      rw [← hp]
      split <;> rfl
    exact ⟨r.seen see, ⟨r, hr, hp', rfl⟩, (seen_inactive (hq r hp')).symm⟩
  · rintro ⟨_, ⟨r, hr, hp, rfl⟩, rfl⟩
    refine ⟨if p r then { r with is_active := false } else r, List.mem_map.mpr ⟨r, hr, rfl⟩, ?_,
      seen_inactive (hq r hp)⟩
    split <;> exact hp

end

/-! ### What a primary key stands for -/

/-- The platform's row with this primary key, without it. -/
def link (platform : Nat) (t : Table γ) (id : Nat) : Option (Row γ) :=
  ((t.rows.find? fun r => r.id = id).filter fun r => r.platform = platform).map (Row.seen fun c => c)

section
variable {platform : Nat} {d : Record γ} {t : Table γ}

theorem link_eq_of_mem {r : Row γ} (hr : r ∈ t.rows) :
    t.link platform r.id = if r.platform = platform then some (r.seen fun c => c) else none := by
  have hfind : t.rows.find? (fun s => s.id = r.id) = some r := by
    cases h : t.rows.find? (fun s => s.id = r.id) with
    | none => simpa using List.find?_eq_none.mp h r hr
    | some s =>
        have hs : s ∈ t.rows := List.mem_of_find?_eq_some h
        have hid : s.id = r.id := by simpa using List.find?_some h
        rw [t.eq_of_id hs hr hid]
  rw [link, hfind]
  by_cases hp : r.platform = platform <;> simp [Option.filter, hp]

/-- The row behind a primary key, after a write. -/
theorem link_upsert {u : Table γ} (h : u.rows = upsert platform d t.rows) {id : Nat}
    (hid : id ∈ t.rows.map Row.id) :
    u.link platform id = (t.link platform id).map fun c =>
      if c.uuid = some d.uuid then (Row.create 0 platform d).seen fun c => c else c := by
  obtain ⟨r, hr, rfl⟩ := List.mem_map.mp hid
  have hmem : (if r.Matches platform d.uuid then r.update d else r) ∈ u.rows :=
    h ▸ mem_upsert_of_mem hr
  rw [link_eq_of_mem hr]
  by_cases hm : r.Matches platform d.uuid
  · rw [if_pos hm] at hmem
    rw [show r.id = (r.update d).id from rfl, link_eq_of_mem hmem]
    obtain ⟨hp, hu⟩ := hm
    simp [Row.seen, Row.update, Row.create, hp, hu]
  · rw [if_neg hm] at hmem
    rw [link_eq_of_mem hmem]
    by_cases hp : r.platform = platform
    · have hu : r.uuid ≠ some d.uuid := fun hu => hm ⟨hp, hu⟩
      simp [Row.seen, hp, hu]
    · simp [hp]

/-- The row behind a primary key, after `filter(…).update(is_active=False)`. -/
theorem link_deactivate {p q : Row γ → Bool}
    (hq : ∀ r : Row γ, r.platform = platform → p r = q (r.seen fun c => c)) {id : Nat}
    (hid : id ∈ t.rows.map Row.id) :
    (t.deactivate p).link platform id = (t.link platform id).map fun c =>
      if q c then { c with is_active := false } else c := by
  obtain ⟨r, hr, rfl⟩ := List.mem_map.mp hid
  have hmem : (if p r then { r with is_active := false } else r) ∈ (t.deactivate p).rows :=
    List.mem_map.mpr ⟨r, hr, rfl⟩
  have hid : (if p r then { r with is_active := false } else r).id = r.id := by split <;> rfl
  have hplatform : (if p r then { r with is_active := false } else r).platform = r.platform := by
    split <;> rfl
  rw [← hid, link_eq_of_mem hmem, hid, link_eq_of_mem hr, hplatform]
  by_cases hp : r.platform = platform
  · rw [if_pos hp, if_pos hp, Option.map_some, seen_inactive (hq r hp)]
  · rw [if_neg hp, if_neg hp, Option.map_none]

end

/-! ### Two tables -/

section
variable {platform : Nat} {t t' : Table γ} {d d' : Record γ} {see see' : γ → δ}
  {fault : Record γ → Option Fault}

/-- Of a record that the platform lacks, other platforms hold the uuid in both tables or in
neither. -/
def Even (fault : Record γ → Option Fault) (platform : Nat) (t t' : Table γ) (d : Record γ) : Prop :=
  fault d = none → t.Lacks platform d → (t.Taken platform d.uuid ↔ t'.Taken platform d.uuid)

/-- **A write to two tables in which the platform has the same rows**, of records that look the
same. -/
theorem update_or_create_alike (hown : t.own see platform = t'.own see' platform)
    (hd : (Row.create 0 platform d).seen see = (Row.create 0 platform d').seen see')
    (hfault : fault d = fault d') (heven : Even fault platform t t' d) :
    (∃ e, t.update_or_create fault platform d = .error e ∧
      t'.update_or_create fault platform d' = .error e) ∨
    ∃ u u', t.update_or_create fault platform d = .ok u ∧
      t'.update_or_create fault platform d' = .ok u' ∧
      u.rows = upsert platform d t.rows ∧ u'.rows = upsert platform d' t'.rows ∧
      u.own see platform = u'.own see' platform := by
  have huuid : d.uuid = d'.uuid := Option.some.inj (congrArg Row.uuid hd)
  have hname : d.name = d'.name := congrArg Row.name hd
  have hfits : t.Fits platform d ↔ t'.Fits platform d' := by
    rw [fits_iff_own see, fits_iff_own see', hown, huuid, hname]
  cases hf : fault d with
  | some e =>
      exact .inl ⟨e, update_or_create_fault hf, update_or_create_fault (hfault ▸ hf)⟩
  | none =>
      have hvalid : t.Fits platform d → (t.Valid platform d ↔ t'.Valid platform d') := by
        intro hfit
        rw [valid_iff_not_taken, valid_iff_not_taken, ← huuid]
        by_cases ho : t.Owned platform d.uuid
        · -- the platform's own row: no other platform can hold its uuid
          have ho' : t'.Owned platform d.uuid := by
            rw [owned_iff_own see', ← hown]
            exact (owned_iff_own see).mp ho
          exact iff_of_true (not_taken_of_owned ho) (not_taken_of_owned ho')
        · exact not_congr (heven hf (lacks_of_fits hfit ho))
      by_cases h : t.Fits platform d ∧ t.Valid platform d
      · obtain ⟨u, hu, hrows⟩ := update_or_create_taken hf h.1 h.2
        obtain ⟨u', hu', hrows'⟩ :=
          update_or_create_taken (hfault ▸ hf) (hfits.mp h.1) ((hvalid h.1).mp h.2)
        refine .inr ⟨u, u', hu, hu', hrows, hrows', ?_⟩
        rw [own_upsert hrows, own_upsert hrows', hown, hd, huuid]
      · have h' : ¬ (t'.Fits platform d' ∧ t'.Valid platform d') := fun h' =>
          h ⟨hfits.mpr h'.1, (hvalid (hfits.mpr h'.1)).mpr h'.2⟩
        exact .inl ⟨_, update_or_create_refused hf h, update_or_create_refused (hfault ▸ hf) h'⟩

/-- A uuid is the platform's in one table, and another platform's in the other. -/
def Apart (platform : Nat) (t t' : Table γ) : Prop :=
  ∃ uuid, t.Taken platform uuid ∧ t'.Owned platform uuid ∨
    t.Owned platform uuid ∧ t'.Taken platform uuid

theorem own_ne_of_apart (see see' : γ → δ) (h : Apart platform t t') :
    t.own see platform ≠ t'.own see' platform := by
  intro hown
  have howned (uuid : String) : t.Owned platform uuid ↔ t'.Owned platform uuid := by
    rw [owned_iff_own see, owned_iff_own see', hown]
  obtain ⟨uuid, ⟨ht, ho⟩ | ⟨ho, ht⟩⟩ := h
  · exact not_taken_of_owned ((howned uuid).mpr ho) ht
  · exact not_taken_of_owned ((howned uuid).mp ho) ht

/-- The rows of the first table are still there in the second, with their uuids. -/
def Retains (t u : Table γ) : Prop :=
  ∀ r ∈ t.rows, ∃ s ∈ u.rows, s.platform = r.platform ∧ s.uuid = r.uuid

instance : IsPreorder (Table γ) Retains where
  refl _ r hr := ⟨r, hr, rfl, rfl⟩
  trans _ _ _ h₁ h₂ r hr := by
    obtain ⟨s, hs, hp, hu⟩ := h₁ r hr
    obtain ⟨q, hq, hp', hu'⟩ := h₂ s hs
    exact ⟨q, hq, hp'.trans hp, hu'.trans hu⟩

theorem retains_upsert {u : Table γ} (h : u.rows = upsert platform d t.rows) : t.Retains u := by
  intro r hr
  refine ⟨_, h ▸ mem_upsert_of_mem hr, ?_⟩
  split
  · exact ⟨rfl, rfl⟩
  · exact ⟨rfl, rfl⟩

theorem retains_deactivate (p : Row γ → Bool) : t.Retains (t.deactivate p) := by
  intro r hr
  refine ⟨_, List.mem_map_of_mem hr, ?_⟩
  split
  · exact ⟨rfl, rfl⟩
  · exact ⟨rfl, rfl⟩

theorem Taken.retained {uuid : String} {u : Table γ} (h : t.Taken platform uuid)
    (hu : t.Retains u) : u.Taken platform uuid := by
  obtain ⟨r, hr, hp, hruuid⟩ := h
  obtain ⟨s, hs, hsp, hsuuid⟩ := hu r hr
  exact ⟨s, hs, hsp ▸ hp, hsuuid.trans hruuid⟩

theorem Owned.retained {uuid : String} {u : Table γ} (h : t.Owned platform uuid)
    (hu : t.Retains u) : u.Owned platform uuid := by
  obtain ⟨r, hr, hp, hruuid⟩ := h
  obtain ⟨s, hs, hsp, hsuuid⟩ := hu r hr
  exact ⟨s, hs, hsp.trans hp, hsuuid.trans hruuid⟩

/-- Apart once, apart for good. -/
theorem Apart.retained {u u' : Table γ} (h : Apart platform t t') (hu : t.Retains u)
    (hu' : t'.Retains u') : Apart platform u u' := by
  obtain ⟨uuid, ⟨ht, ho⟩ | ⟨ho, ht⟩⟩ := h
  · exact ⟨uuid, .inl ⟨ht.retained hu, ho.retained hu'⟩⟩
  · exact ⟨uuid, .inr ⟨ho.retained hu, ht.retained hu'⟩⟩

theorem owned_upsert {u : Table γ} (h : u.rows = upsert platform d t.rows) :
    u.Owned platform d.uuid := by
  obtain ⟨r, hr, hd⟩ : ∃ r ∈ upsert platform d t.rows, r.Holds platform d :=
    exists_mem_upsert t.rows
  exact ⟨r, h ▸ hr, hd.platform, hd.uuid⟩

/-- **Where other platforms hold the uuid in one of the tables only**, one write is refused and the
other is not. -/
theorem update_or_create_apart (hown : t.own see platform = t'.own see' platform)
    (hd : (Row.create 0 platform d).seen see = (Row.create 0 platform d').seen see')
    (hfault : fault d = fault d') (h : ¬ Even fault platform t t' d) :
    (t.Taken platform d.uuid ∧ ∃ u', t'.update_or_create fault platform d' = .ok u' ∧
      u'.rows = upsert platform d' t'.rows ∧ u'.Owned platform d.uuid ∧
      t.update_or_create fault platform d = .error "IntegrityError") ∨
    t'.Taken platform d.uuid ∧ ∃ u, t.update_or_create fault platform d = .ok u ∧
      u.rows = upsert platform d t.rows ∧ u.Owned platform d.uuid ∧
      t'.update_or_create fault platform d' = .error "IntegrityError" := by
  have huuid : d.uuid = d'.uuid := Option.some.inj (congrArg Row.uuid hd)
  have hname : d.name = d'.name := congrArg Row.name hd
  obtain ⟨hf, hlacks, htaken⟩ : fault d = none ∧ t.Lacks platform d ∧
      ¬ (t.Taken platform d.uuid ↔ t'.Taken platform d.uuid) := by
    unfold Even at h
    push Not at h
    obtain ⟨hf, hl, h⟩ := h
    exact ⟨hf, hl, by tauto⟩
  have hf' : fault d' = none := hfault ▸ hf
  have hlacks' : t'.Lacks platform d' := by
    rw [lacks_iff_own see', ← hown, ← huuid, ← hname]
    exact (lacks_iff_own see).mp hlacks
  by_cases ht : t.Taken platform d.uuid
  · have ht' : ¬ t'.Taken platform d'.uuid := fun h' => htaken (iff_of_true ht (huuid ▸ h'))
    obtain ⟨u', hu', hrows⟩ :=
      update_or_create_taken hf' (fits_of_lacks hlacks') (valid_iff_not_taken.mpr ht')
    refine .inl ⟨ht, u', hu', hrows, huuid ▸ owned_upsert hrows, ?_⟩
    exact update_or_create_refused hf fun h => valid_iff_not_taken.mp h.2 ht
  · have ht' : t'.Taken platform d.uuid := by
      by_contra h'
      exact htaken (iff_of_false ht h')
    obtain ⟨u, hu, hrows⟩ :=
      update_or_create_taken hf (fits_of_lacks hlacks) (valid_iff_not_taken.mpr ht)
    refine .inr ⟨ht', u, hu, hrows, owned_upsert hrows, ?_⟩
    exact update_or_create_refused hf' fun h => valid_iff_not_taken.mp h.2 (huuid ▸ ht')

end

end Table

end InfraHub.Virt
