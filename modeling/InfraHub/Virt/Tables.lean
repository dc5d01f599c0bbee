import InfraHub.Virt.Inventory
import InfraHub.Lib.Upsert
import InfraHub.Lib.Table
import Mathlib.Data.List.Nodup
import Mathlib.Data.List.Pairwise

/-!
# Virt — Tables

The `Host` and `VirtualMachine` tables, and the two writes a sync makes to them.  Both tables
carry the same constraints: `uuid` is unique where it is not null, and so is `(platform, name)`
(`Constraints`).  A write that would break one raises and leaves the table as it was.
-/

namespace InfraHub.Virt

/-- A row of `Host` or of `VirtualMachine`. -/
structure Row (γ : Type) where
  id : Nat
  platform : Nat
  uuid : Option String
  name : String
  mo_ref : Option String
  is_active : Bool
  columns : γ
  deriving DecidableEq, Repr

/-- The rows do not share a uuid; null is not shared. -/
def Row.Apart {γ : Type} (r s : Row γ) : Prop := r.uuid = none ∨ r.uuid ≠ s.uuid

instance {γ : Type} (r s : Row γ) : Decidable (r.Apart s) :=
  inferInstanceAs (Decidable (_ ∨ _))

instance {γ : Type} : Std.Symm (Row.Apart (γ := γ)) where
  symm r s h := by
    by_cases hs : s.uuid = none
    · exact .inl hs
    · exact .inr fun e => h.elim (fun hr => hs (e.trans hr)) fun hn => hn e.symm

/-- The constraints the models declare. -/
structure Constraints {γ : Type} (rows : List (Row γ)) : Prop where
  ids : (rows.map Row.id).Nodup
  uuids : rows.Pairwise Row.Apart
  names : (rows.map fun r => (r.platform, r.name)).Nodup

instance {γ : Type} (rows : List (Row γ)) : Decidable (Constraints rows) :=
  decidable_of_iff ((rows.map Row.id).Nodup ∧
      rows.Pairwise Row.Apart ∧
      (rows.map fun r => (r.platform, r.name)).Nodup)
    ⟨fun h => ⟨h.1, h.2.1, h.2.2⟩, fun h => ⟨h.ids, h.uuids, h.names⟩⟩

structure Table (γ : Type) where
  rows : List (Row γ)
  constraints : Constraints rows

variable {γ : Type}

/-- The lookup of `update_or_create(platform=…, uuid=…)`. -/
def Row.Matches (platform : Nat) (uuid : String) (r : Row γ) : Prop :=
  r.platform = platform ∧ r.uuid = some uuid

instance (platform : Nat) (uuid : String) (r : Row γ) : Decidable (r.Matches platform uuid) :=
  inferInstanceAs (Decidable (_ ∧ _))

/-- The row with the `defaults` of `update_or_create`. -/
def Row.update (d : Record γ) (r : Row γ) : Row γ :=
  { r with name := d.name, mo_ref := some d.mo_ref, is_active := true, columns := d.columns }

/-- The row `update_or_create` inserts. -/
def Row.create (id platform : Nat) (d : Record γ) : Row γ where
  id
  platform
  uuid := some d.uuid
  name := d.name
  mo_ref := some d.mo_ref
  is_active := true
  columns := d.columns

/-- A primary key that is not in use. -/
def freshId (rows : List (Row γ)) : Nat := (rows.map Row.id).foldr max 0 + 1

/-- The rows after `update_or_create`, if the database takes them. -/
def upsert (platform : Nat) (d : Record γ) (rows : List (Row γ)) : List (Row γ) :=
  if ∃ r ∈ rows, r.Matches platform d.uuid then
    rows.map fun r => if r.Matches platform d.uuid then r.update d else r
  else rows ++ [Row.create (freshId rows) platform d]

/-- `update_or_create(platform=…, uuid=…, defaults=…)`; `fault` is what the database raises for the
values of the other columns. -/
def Table.update_or_create (fault : Record γ → Option Fault) (platform : Nat) (d : Record γ)
    (t : Table γ) : Except Fault (Table γ) :=
  match fault d with
  | some e => .error e
  | none =>
      if h : Constraints (upsert platform d t.rows) then .ok ⟨upsert platform d t.rows, h⟩
      else .error "IntegrityError"

/-- `filter(…).update(is_active=False)`. -/
def deactivate (p : Row γ → Bool) (rows : List (Row γ)) : List (Row γ) :=
  rows.map fun r => if p r then { r with is_active := false } else r

theorem map_deactivate {α : Type} {f : Row γ → α} (hf : ∀ r b, f { r with is_active := b } = f r)
    (p : Row γ → Bool) (rows : List (Row γ)) : (deactivate p rows).map f = rows.map f := by
  rw [deactivate, List.map_map]
  refine List.map_congr_left fun r _ => ?_
  simp only [Function.comp]
  split
  · exact hf r false
  · rfl

theorem constraints_deactivate {rows : List (Row γ)} (h : Constraints rows) (p : Row γ → Bool) :
    Constraints (deactivate p rows) where
  ids := by rw [map_deactivate fun _ _ => rfl]; exact h.ids
  uuids := by
    have hu : (rows.map Row.uuid).Pairwise fun a b => a = none ∨ a ≠ b :=
      List.pairwise_map.mpr h.uuids
    rw [← map_deactivate (fun _ _ => rfl) p] at hu
    exact (List.pairwise_map (f := Row.uuid)).mp hu
  names := by rw [map_deactivate fun _ _ => rfl]; exact h.names

def Table.deactivate (p : Row γ → Bool) (t : Table γ) : Table γ :=
  ⟨Virt.deactivate p t.rows, constraints_deactivate t.constraints p⟩

/-- `exclude(uuid__in=uuids)`: a row without a uuid is in no list. -/
def Row.excluded (uuids : List String) (r : Row γ) : Bool :=
  match r.uuid with
  | some uuid => uuid ∉ uuids
  | none => true

/-! ### Rows by key -/

namespace Table

theorem eq_of_id (t : Table γ) {r s : Row γ} (hr : r ∈ t.rows) (hs : s ∈ t.rows)
    (h : r.id = s.id) : r = s :=
  List.inj_on_of_nodup_map t.constraints.ids hr hs h

theorem eq_of_name (t : Table γ) {r s : Row γ} (hr : r ∈ t.rows) (hs : s ∈ t.rows)
    (hp : r.platform = s.platform) (hn : r.name = s.name) : r = s :=
  List.inj_on_of_nodup_map t.constraints.names hr hs (by simp [hp, hn])

theorem eq_of_uuid (t : Table γ) {r s : Row γ} (hr : r ∈ t.rows) (hs : s ∈ t.rows)
    {uuid : String} (hru : r.uuid = some uuid) (hsu : s.uuid = some uuid) : r = s := by
  by_contra hne
  rcases t.constraints.uuids.forall hr hs hne with h | h
  · rw [hru] at h; cases h
  · exact h (hru.trans hsu.symm)

end Table

/-! ### What `update_or_create` does -/

/-- The row holds the record, as a row of `platform`. -/
structure Row.Holds (platform : Nat) (d : Record γ) (r : Row γ) : Prop where
  platform : r.platform = platform
  uuid : r.uuid = some d.uuid
  name : r.name = d.name
  mo_ref : r.mo_ref = some d.mo_ref
  is_active : r.is_active = true
  columns : r.columns = d.columns

variable {platform : Nat} {d : Record γ}

theorem holds_update {r : Row γ} (h : r.Matches platform d.uuid) :
    (r.update d).Holds platform d :=
  ⟨h.1, h.2, rfl, rfl, rfl, rfl⟩

theorem holds_create (id : Nat) : (Row.create id platform d).Holds platform d :=
  ⟨rfl, rfl, rfl, rfl, rfl, rfl⟩

/-- The rows of other keys are kept. -/
theorem mem_upsert_of_not_matches {rows : List (Row γ)} {r : Row γ}
    (hr : ¬ r.Matches platform d.uuid) : r ∈ upsert platform d rows ↔ r ∈ rows := by
  unfold upsert
  split
  · rw [List.mem_map]
    constructor
    · rintro ⟨s, hs, rfl⟩
      by_cases hm : s.Matches platform d.uuid
      · rw [if_pos hm] at hr
        exact absurd ⟨hm.1, hm.2⟩ hr
      · rwa [if_neg hm]
    · intro h
      exact ⟨r, h, if_neg hr⟩
  · rw [List.mem_append, List.mem_singleton]
    constructor
    · rintro (h | rfl)
      · exact h
      · exact absurd ⟨rfl, rfl⟩ hr
    · exact .inl

/-- The row of the key holds the record. -/
theorem holds_of_mem_upsert {rows : List (Row γ)} {r : Row γ} (h : r ∈ upsert platform d rows)
    (hr : r.Matches platform d.uuid) : r.Holds platform d := by
  unfold upsert at h
  split at h
  · obtain ⟨s, _, rfl⟩ := List.mem_map.mp h
    by_cases hm : s.Matches platform d.uuid
    · rw [if_pos hm]
      exact holds_update hm
    · rw [if_neg hm] at hr
      exact absurd hr hm
  · next hno =>
    rcases List.mem_append.mp h with h | h
    · exact absurd ⟨r, h, hr⟩ hno
    · rw [List.mem_singleton.mp h]
      exact holds_create _

theorem exists_mem_upsert (rows : List (Row γ)) :
    ∃ r ∈ upsert platform d rows, r.Holds platform d := by
  unfold upsert
  split
  · next h =>
    obtain ⟨r, hr, hm⟩ := h
    exact ⟨r.update d, List.mem_map.mpr ⟨r, hr, if_pos hm⟩, holds_update hm⟩
  · exact ⟨_, List.mem_append_right _ (.head _), holds_create _⟩

/-- A row is still there afterwards, as it was or with the record. -/
theorem mem_upsert_of_mem {rows : List (Row γ)} {r : Row γ} (h : r ∈ rows) :
    (if r.Matches platform d.uuid then r.update d else r) ∈ upsert platform d rows := by
  unfold upsert
  split
  · exact List.mem_map_of_mem h
  · next hno =>
    rw [if_neg fun hm => hno ⟨r, h, hm⟩]
    exact List.mem_append_left _ h

theorem freshId_notMem (rows : List (Row γ)) : freshId rows ∉ rows.map Row.id :=
  Lib.fresh_notMem _

namespace Table

theorem rows_update_or_create {fault : Record γ → Option Fault} {t t' : Table γ}
    (h : t.update_or_create fault platform d = .ok t') : t'.rows = upsert platform d t.rows := by
  unfold update_or_create at h
  split at h
  · cases h
  · split at h
    · cases h; rfl
    · cases h

/-- `update_or_create`, when only the constraints can refuse the row. -/
def put (platform : Nat) (t : Table γ) (d : Record γ) : Option (Table γ) :=
  (t.update_or_create (fun _ => none) platform d).toOption

theorem rows_put {t t' : Table γ} (h : t.put platform d = some t') :
    t'.rows = upsert platform d t.rows := by
  unfold put update_or_create at h
  simp only at h
  split at h
  · cases h; rfl
  · cases h

theorem put_isSome_iff {t : Table γ} :
    (t.put platform d).isSome ↔ Constraints (upsert platform d t.rows) := by
  unfold put update_or_create
  simp only
  split
  · next h => simp [Except.toOption, h]
  · next h => simp [Except.toOption, h]

/-- No row of another platform holds the uuid of the record. -/
def Valid (platform : Nat) (t : Table γ) (d : Record γ) : Prop :=
  ∀ r ∈ t.rows, r.uuid = some d.uuid → r.platform = platform

/-- The record fits: a row of the platform with its name is the row with its uuid. -/
def Fits (platform : Nat) (t : Table γ) (d : Record γ) : Prop :=
  ∀ r ∈ t.rows, r.platform = platform → r.name = d.name → r.uuid = some d.uuid

theorem fits_of_constraints {t : Table γ} (h : Constraints (upsert platform d t.rows)) :
    t.Fits platform d := by
  intro r hr hp hn
  by_contra hu
  obtain ⟨s, hs, hd⟩ : ∃ s ∈ upsert platform d t.rows, s.Holds platform d :=
    exists_mem_upsert t.rows
  have hmem : r ∈ upsert platform d t.rows :=
    (mem_upsert_of_not_matches fun hm => hu hm.2).mpr hr
  have : r = s := List.inj_on_of_nodup_map h.names hmem hs (by simp [hp, hd.platform, hn, hd.name])
  exact hu (this ▸ hd.uuid)

/-- Updating the row of the key keeps the constraints. -/
theorem constraints_update {t : Table γ} (hf : t.Fits platform d) :
    Constraints (t.rows.map fun r => if r.Matches platform d.uuid then r.update d else r) where
  ids := by
    rw [List.map_map]
    convert t.constraints.ids using 2
    funext r
    simp only [Function.comp]
    split <;> rfl
  uuids := by
    refine List.pairwise_map.mpr (t.constraints.uuids.imp fun {r s} h => ?_)
    have uuid (r : Row γ) : (if r.Matches platform d.uuid then r.update d else r).uuid = r.uuid := by
      split <;> rfl
    rwa [Row.Apart, uuid, uuid]
  names := by
    rw [List.map_map]
    refine List.Nodup.map_on (fun r hr s hs h => ?_) (t.constraints.ids.of_map _)
    simp only [Function.comp, Prod.mk.injEq] at h
    obtain ⟨hp, hn⟩ := h
    by_cases hmr : r.Matches platform d.uuid <;> by_cases hms : s.Matches platform d.uuid
    · exact t.eq_of_uuid hr hs hmr.2 hms.2
    · rw [if_pos hmr, if_neg hms] at hp hn
      have hsp : s.platform = platform := hp.symm.trans hmr.1
      exact absurd ⟨hsp, hf s hs hsp hn.symm⟩ hms
    · rw [if_neg hmr, if_pos hms] at hp hn
      have hrp : r.platform = platform := hp.trans hms.1
      exact absurd ⟨hrp, hf r hr hrp hn⟩ hmr
    · rw [if_neg hmr, if_neg hms] at hp hn
      exact t.eq_of_name hr hs hp hn

/-- Inserting a row of a new key keeps the constraints. -/
theorem constraints_create {t : Table γ} (hf : t.Fits platform d) (hv : t.Valid platform d)
    (hno : ¬ ∃ r ∈ t.rows, r.Matches platform d.uuid) :
    Constraints (t.rows ++ [Row.create (freshId t.rows) platform d]) where
  ids := by
    rw [List.map_append, List.nodup_append]
    refine ⟨t.constraints.ids, List.nodup_singleton _, ?_⟩
    intro i hi j hj e
    rw [List.mem_singleton.mp hj] at e
    rw [e] at hi
    exact freshId_notMem t.rows hi
  uuids := by
    rw [List.pairwise_append]
    refine ⟨t.constraints.uuids, List.pairwise_singleton _ _, ?_⟩
    intro r hr s hs
    rw [List.mem_singleton.mp hs]
    refine .inr fun e => hno ⟨r, hr, hv r hr e, e⟩
  names := by
    rw [List.map_append, List.nodup_append]
    refine ⟨t.constraints.names, List.nodup_singleton _, ?_⟩
    intro x hx y hy e
    rw [List.mem_singleton.mp hy] at e
    obtain ⟨r, hr, rfl⟩ := List.mem_map.mp hx
    have hp : r.platform = platform := congrArg Prod.fst e
    exact hno ⟨r, hr, hp, hf r hr hp (congrArg Prod.snd e)⟩

/-- **When a record is taken.** -/
theorem put_isSome_iff_fits {t : Table γ} (hv : t.Valid platform d) :
    (t.put platform d).isSome ↔ t.Fits platform d := by
  rw [put_isSome_iff]
  constructor
  · exact fits_of_constraints
  · intro hf
    unfold upsert
    split
    · exact constraints_update hf
    · next hno => exact constraints_create hf hv hno

theorem valid_put {t t' : Table γ} {d' : Record γ} (hv : t.Valid platform d)
    (h : t.put platform d' = some t') : t'.Valid platform d := by
  intro r hr hu
  rw [rows_put h] at hr
  by_cases hm : r.Matches platform d'.uuid
  · exact hm.1
  · exact hv r ((mem_upsert_of_not_matches hm).mp hr) hu

/-- The rows of a platform, as a table written by uuid and with the name as label. -/
def upserts (γ : Type) (platform : Nat) :
    Lib.Upsert (Table γ) (Record γ) (Row γ) String String where
  Mem r t := r ∈ t.rows ∧ r.platform = platform
  key := Row.uuid
  label := Row.name
  newKey := Record.uuid
  newLabel := Record.name
  put := Table.put platform
  Valid := Table.Valid platform
  Wrote d r := r.Holds platform d
  label_of_wrote h := h.name
  put_isSome hv := (put_isSome_iff_fits hv).trans
    ⟨fun h r hr hn => h r hr.1 hr.2 hn, fun h r hr hp hn => h r ⟨hr, hp⟩ hn⟩
  valid_put hv _ h := valid_put hv h
  mem_other _ h hk := by
    rw [rows_put h, mem_upsert_of_not_matches fun hm => hk hm.2]
  wrote _ h hr hk := holds_of_mem_upsert (rows_put h ▸ hr.1) ⟨hr.2, hk⟩
  exists_key h := by
    obtain ⟨r, hr, hd⟩ := exists_mem_upsert _
    exact ⟨r, ⟨rows_put h ▸ hr, hd.platform⟩, hd.uuid⟩

end Table

end InfraHub.Virt
