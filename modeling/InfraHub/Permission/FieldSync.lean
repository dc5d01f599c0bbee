import InfraHub.Permission.Models

/-!
# Permission — the sync of the fields

`sync_model_field`: every model that is declared gets a row, and every field of it a row under that;
what was not touched is deleted, with what hangs under it.

* `put_spec`: what `update_or_create` does.
* `Pass`: what holds while the models of one kind are written; `pass_spec` says what the rows are
  after the sweep.
* `sync_exact`: the entries after a run, and that a second run changes labels and times only.
-/

namespace InfraHub.Permission.FieldSync
open InfraHub.Lib (Table fresh)

/-! ### The table -/

structure ModelLabelField where
  pk : Nat
  field_type : FieldChoices
  parent : Option Nat
  name : String
  label : String
  updated_time : Option Nat

abbrev Db := Table Nat ModelLabelField ModelLabelField.pk

/-- The table, and how often the clock was read. -/
structure World where
  db : Db
  ticks : Nat

def World.rows (w : World) : List ModelLabelField := w.db.rows

/-- The columns have room for 128 characters. -/
def fits (name label : String) : Bool := name.length ≤ 128 && label.length ≤ 128

/-- `unique_together`; no two rows without a parent are the same for it. -/
def taken (rows : List ModelLabelField) (name : String) (parent : Option Nat) : Bool :=
  parent.isSome && rows.any fun r => r.name = name ∧ r.parent = parent

/-- A key that nothing has or points to. -/
def uuid (rows : List ModelLabelField) : Nat :=
  fresh (rows.map ModelLabelField.pk ++ rows.filterMap ModelLabelField.parent)

def update (label : String) (time : Nat) (r : ModelLabelField) : ModelLabelField :=
  { r with label, updated_time := some time }

section
variable (clock : Nat → Nat)

/-- More than one row is an error, and so is a row that the table refuses. -/
def update_or_create (w : World) (name : String) (field_type : FieldChoices) (parent : Option Nat)
    (label : String) : Option (Nat × World) :=
  let time := clock w.ticks
  match w.rows.filter fun r => r.name = name ∧ r.field_type = field_type ∧ r.parent = parent with
  | [] =>
    if fits name label ∧ ¬ taken w.rows name parent then
      let pk := uuid w.rows
      some (pk, ⟨w.db.insert ⟨pk, field_type, parent, name, label, some time⟩, w.ticks + 1⟩)
    else none
  | [r] =>
    if fits name label then
      some (r.pk, ⟨w.db.modify r.pk (update label time) fun _ => rfl, w.ticks + 1⟩)
    else none
  | _ => none

/-- The rows that go when those of `pks` go: what has a parent among them goes with them. -/
def cascade (rows : List ModelLabelField) : Nat → List Nat → List Nat
  | 0, pks => pks
  | n + 1, pks =>
    cascade rows n (pks ++ (rows.filter fun r => r.pk ∉ pks ∧ r.parent.any (· ∈ pks)).map
      ModelLabelField.pk)

def delete (db : Db) (p : ModelLabelField → Bool) : Db :=
  let pks := cascade db.rows db.rows.length ((db.rows.filter p).map ModelLabelField.pk)
  db.filter fun r => r.pk ∉ pks

/-! ### The code -/

/-- A model and its fields, each with its label. -/
structure Tree where
  name : String
  label : String
  fields : List (String × String)

def update_fields (field_type : FieldChoices) (obj : Nat) (w : World)
    (fields : List (String × String)) : Option World :=
  fields.foldlM (fun w field =>
    Prod.snd <$> update_or_create clock w field.1 field_type (some obj) field.2) w

def update_tree (field_type : FieldChoices) (w : World) (tree : Tree) : Option World := do
  let (obj, w) ← update_or_create clock w tree.name field_type none tree.label
  update_fields clock field_type obj w tree.fields

/-- The models, then the sweep of what was last written before. -/
def update_trees (field_type : FieldChoices) (trees : List Tree) (delete : Bool) (w : World) :
    Option World := do
  let now := clock w.ticks
  let w ← trees.foldlM (update_tree clock field_type) { w with ticks := w.ticks + 1 }
  if delete then
    let stale (r : ModelLabelField) := r.field_type = field_type ∧ r.updated_time.any (· < now)
    return { w with db := FieldSync.delete w.db fun r => stale r }
  else return w

end

structure Model where
  model_name : String
  verbose_name : String
  has_meta : Bool
  fields : List (String × String)

structure App where
  name : String
  models : List Model

/-- A serializer; it may have no model.  Its model has a label and a name. -/
structure Serializer where
  model : Option (String × String)
  fields : List (String × String)

/-- A class and those below it. -/
inductive Cls
  | mk (serializer : Serializer) (subclasses : List Cls)

mutual

/-- The class, then those below it. -/
def Cls.all : Cls → List Serializer
  | .mk serializer subclasses => serializer :: get_all_subclass subclasses

def get_all_subclass : List Cls → List Serializer
  | [] => []
  | cls :: rest => cls.all ++ get_all_subclass rest

end

/-- What there is to be synced. -/
structure Declared where
  gettext : String → String
  audit_fields : List (String × String)
  PERMISSION_DATA_AUTH_APPS : List String
  app_configs : List App
  serializers : List Cls

namespace Declared
variable (d : Declared)

def star : Tree :=
  ⟨"*", d.gettext "All tables", ("*", d.gettext "All fields") :: d.audit_fields⟩

def apps : List App := d.app_configs.filter fun app => app.name ∈ d.PERMISSION_DATA_AUTH_APPS

/-- A model without `Meta` is passed over. -/
def data_trees : List Tree :=
  d.star :: d.apps.flatMap fun app => (app.models.filter Model.has_meta).map fun model =>
    ⟨app.name ++ "." ++ model.model_name, model.verbose_name, model.fields⟩

/-- There is a model in an app that is authorised. -/
def data_delete : Bool := d.apps.any fun app => !app.models.isEmpty

def role_trees : List Tree :=
  (get_all_subclass d.serializers).filterMap fun serializer =>
    serializer.model.map fun model => ⟨model.1, model.2, serializer.fields⟩

def role_delete : Bool := !d.role_trees.isEmpty

end Declared

section
variable (clock : Nat → Nat) (d : Declared)

def get_app_model_fields (w : World) : Option World :=
  update_trees clock .DATA d.data_trees d.data_delete w

def get_sub_serializer_fields (w : World) : Option World :=
  update_trees clock .ROLE d.role_trees d.role_delete w

/-- An error takes all back. -/
def sync_model_field (w : World) : Option World := do
  get_sub_serializer_fields clock d (← get_app_model_fields clock d w)

end

/-! ### Entries -/

/-- A model, or a field of it. -/
structure Entry where
  top : String
  field : Option String

/-- The row is that of the entry: a row without a parent, or one under such a row. -/
inductive At (rows : List ModelLabelField) (t : FieldChoices) : ModelLabelField → Entry → Prop
  | top {r : ModelLabelField} (htype : r.field_type = t) (hparent : r.parent = none) :
      At rows t r ⟨r.name, none⟩
  | field {q r : ModelLabelField} (hq : q ∈ rows) (hqtype : q.field_type = t)
      (hqparent : q.parent = none) (htype : r.field_type = t) (hparent : r.parent = some q.pk) :
      At rows t r ⟨q.name, some r.name⟩

def Tree.entries (tree : Tree) : List Entry :=
  ⟨tree.name, none⟩ :: tree.fields.map fun field => ⟨tree.name, some field.1⟩

def Declared.trees (d : Declared) : FieldChoices → List Tree
  | .DATA => d.data_trees
  | .ROLE => d.role_trees

def Declared.delete (d : Declared) : FieldChoices → Bool
  | .DATA => d.data_delete
  | .ROLE => d.role_delete

/-- The entries of a kind. -/
def Declared.entries (d : Declared) (t : FieldChoices) : List Entry :=
  (d.trees t).flatMap Tree.entries

/-- Without the label and the time. -/
def strip (r : ModelLabelField) : ModelLabelField := { r with label := "", updated_time := none }

/-- The names are unique under a parent, and without one in their kind; what hangs under a row is
of its kind. -/
structure Sane (rows : List ModelLabelField) : Prop where
  unique : ∀ r ∈ rows, ∀ q ∈ rows, r.name = q.name → r.parent = q.parent →
    r.field_type = q.field_type ∨ r.parent ≠ none → r.pk = q.pk
  typed : ∀ r ∈ rows, ∀ q ∈ rows, r.parent = some q.pk → r.field_type = q.field_type

/-- Every declared entry has one row, the one it had if it had one; and where something is swept,
there are no others. -/
structure Synced (d : Declared) (rows rows' : List ModelLabelField) : Prop where
  present : ∀ t, ∀ e ∈ d.entries t, ∃ r ∈ rows', At rows' t r e ∧
    ∀ q ∈ rows', At rows' t q e → q = r
  only : ∀ t, d.delete t → ∀ r ∈ rows', r.field_type = t → ∃ e ∈ d.entries t, At rows' t r e
  keys : ∀ t, ∀ e ∈ d.entries t, ∀ r ∈ rows, At rows t r e →
    ∃ r' ∈ rows', r'.pk = r.pk ∧ At rows' t r' e

/-- **The condition** on the rows before: they are sane, and were written before the clock is read;
what is declared fits. -/
structure Ready (clock : Nat → Nat) (d : Declared) (w : World) : Prop where
  sane : Sane w.rows
  dated : ∀ r ∈ w.rows, ∃ u, r.updated_time = some u ∧ u < clock w.ticks
  fits : ∀ t, ∀ tree ∈ d.trees t, fits tree.name tree.label ∧
    ∀ field ∈ tree.fields, fits field.1 field.2

/-! ### What labels and times do not matter for -/

section
variable {rows rows' : List ModelLabelField} {t : FieldChoices} {r r' q : ModelLabelField}
  {e : Entry}

theorem strip_eq : strip r = strip q ↔
    r.pk = q.pk ∧ r.field_type = q.field_type ∧ r.parent = q.parent ∧ r.name = q.name := by
  simp [strip]

/-- Every row of the first is one of the second, but for labels and times. -/
def Within (rows rows' : List ModelLabelField) : Prop :=
  ∀ r ∈ rows, ∃ r' ∈ rows', strip r' = strip r

theorem within_of_map (h : rows'.map strip = rows.map strip) : Within rows rows' := by
  intro r hr
  have hmem : strip r ∈ rows'.map strip := h ▸ List.mem_map_of_mem hr
  obtain ⟨r', hr', heq⟩ := List.mem_map.mp hmem
  exact ⟨r', hr', heq⟩

theorem Sane.within (h : Sane rows) (hw : Within rows' rows) : Sane rows' := by
  constructor
  · intro r hr q hq hname hparent htype
    obtain ⟨r₀, hr₀, hrs⟩ := hw r hr
    obtain ⟨q₀, hq₀, hqs⟩ := hw q hq
    obtain ⟨hrpk, hrtype, hrparent, hrname⟩ := strip_eq.mp hrs
    obtain ⟨hqpk, hqtype, hqparent, hqname⟩ := strip_eq.mp hqs
    have hpk := h.unique r₀ hr₀ q₀ hq₀ (by rw [hrname, hqname, hname])
      (by rw [hrparent, hqparent, hparent]) (by rwa [hrtype, hqtype, hrparent])
    rw [← hrpk, ← hqpk, hpk]
  · intro r hr q hq hparent
    obtain ⟨r₀, hr₀, hrs⟩ := hw r hr
    obtain ⟨q₀, hq₀, hqs⟩ := hw q hq
    obtain ⟨-, hrtype, hrparent, -⟩ := strip_eq.mp hrs
    obtain ⟨hqpk, hqtype, -, -⟩ := strip_eq.mp hqs
    rw [← hrtype, ← hqtype]
    exact h.typed r₀ hr₀ q₀ hq₀ (by rw [hrparent, hqpk, hparent])

theorem At.type (h : At rows t r e) : r.field_type = t := by
  cases h with
  | top htype _ => exact htype
  | field _ _ _ htype _ => exact htype

/-- The rows that an entry hangs under are enough. -/
theorem At.mono (h : At rows t r e) (hw : ∀ q ∈ rows, q.field_type = t → q.parent = none →
    q.name = e.top → ∃ q' ∈ rows', strip q' = strip q) (hr : strip r' = strip r) :
    At rows' t r' e := by
  obtain ⟨-, htype', hparent', hname'⟩ := strip_eq.mp hr
  cases h with
  | top htype hparent => exact hname' ▸ .top (htype'.trans htype) (hparent'.trans hparent)
  | @field q _ hq hqtype hqparent htype hparent =>
      obtain ⟨q', hq', hqs⟩ := hw q hq hqtype hqparent rfl
      obtain ⟨hpk, hqt, hqp, hqn⟩ := strip_eq.mp hqs
      have hat := At.field hq' (hqt.trans hqtype) (hqp.trans hqparent) (htype'.trans htype)
        (hparent'.trans (hparent.trans (congrArg some hpk.symm)))
      rwa [hqn, hname'] at hat

theorem At.within (h : At rows t r e) (hw : Within rows rows') (hr : strip r' = strip r) :
    At rows' t r' e := h.mono (fun q hq _ _ _ => hw q hq) hr

/-- An entry has one row. -/
theorem At.pk_eq (hs : Sane rows) (hr : r ∈ rows) (hq : q ∈ rows) (h : At rows t r e)
    (h' : At rows t q e) : r.pk = q.pk := by
  cases h with
  | top htype hparent =>
      generalize he : (⟨r.name, none⟩ : Entry) = e' at h'
      cases h' with
      | top htype' hparent' =>
          obtain ⟨hname, -⟩ := Entry.mk.inj he
          exact hs.unique r hr q hq hname (hparent.trans hparent'.symm)
            (.inl (htype.trans htype'.symm))
      | field _ _ _ _ _ => cases (Entry.mk.inj he).2
  | @field p _ hp hptype hpparent htype hparent =>
      generalize he : (⟨p.name, some r.name⟩ : Entry) = e' at h'
      cases h' with
      | top _ _ => cases (Entry.mk.inj he).2
      | @field p' _ hp' hptype' hpparent' htype' hparent' =>
          obtain ⟨htop, hfield⟩ := Entry.mk.inj he
          have hpk := hs.unique p hp p' hp' htop (hpparent.trans hpparent'.symm)
            (.inl (hptype.trans hptype'.symm))
          exact hs.unique r hr q hq (Option.some.inj hfield)
            (by rw [hparent, hparent', hpk]) (.inl (htype.trans htype'.symm))

end

/-! ### Writing a row -/

section
variable {clock : Nat → Nat} {w w' : World} {t : FieldChoices} {name label : String}
  {parent : Option Nat}

/-- What `update_or_create` does. -/
structure Wrote (clock : Nat → Nat) (w w' : World) (t : FieldChoices) (parent : Option Nat)
    (name : String) (pk : Nat) : Prop where
  sane : Sane w'.rows
  ticks : w'.ticks = w.ticks + 1
  row : ∃ r ∈ w'.rows, r.pk = pk ∧ r.name = name ∧ r.field_type = t ∧ r.parent = parent ∧
    r.updated_time = some (clock w.ticks)
  old : ∀ r ∈ w.rows, ∃ r' ∈ w'.rows, strip r' = strip r ∧
    (r' = r ∨ r'.updated_time = some (clock w.ticks))
  new : ∀ r ∈ w'.rows, r ∈ w.rows ∨ r.pk = pk
  same : (∃ r ∈ w.rows, r.name = name ∧ r.field_type = t ∧ r.parent = parent) →
    w'.rows.map strip = w.rows.map strip

theorem uuid_notMem (rows : List ModelLabelField) : (∀ r ∈ rows, r.pk ≠ uuid rows) ∧
    ∀ r ∈ rows, r.parent ≠ some (uuid rows) := by
  have hfresh := Lib.fresh_notMem
    (rows.map ModelLabelField.pk ++ rows.filterMap ModelLabelField.parent)
  constructor
  · intro r hr heq
    exact hfresh (List.mem_append_left _ (List.mem_map.mpr ⟨r, hr, heq⟩))
  · intro r hr heq
    exact hfresh (List.mem_append_right _ (List.mem_filterMap.mpr ⟨r, hr, heq⟩))

/-- A row that is there is updated. -/
theorem wrote_update (hs : Sane w.rows) {r : ModelLabelField} (hr : r ∈ w.rows)
    (hname : r.name = name) (htype : r.field_type = t) (hparent : r.parent = parent)
    (hticks : w'.ticks = w.ticks + 1) (hrows : w'.rows = w.rows.map fun q =>
      if q.pk = r.pk then update label (clock w.ticks) q else q) :
    Wrote clock w w' t parent name r.pk := by
  have hstrip (q : ModelLabelField) :
      strip (if q.pk = r.pk then update label (clock w.ticks) q else q) = strip q := by
    split <;> rfl
  have hsame : w'.rows.map strip = w.rows.map strip := by
    rw [hrows, List.map_map]
    exact List.map_congr_left fun q _ => hstrip q
  refine ⟨hs.within (within_of_map hsame.symm), hticks, ?_, ?_, ?_, fun _ => hsame⟩
  · refine ⟨update label (clock w.ticks) r, ?_, rfl, hname, htype, hparent, rfl⟩
    rw [hrows]
    exact List.mem_map.mpr ⟨r, hr, if_pos rfl⟩
  · intro q hq
    rw [hrows]
    refine ⟨_, List.mem_map_of_mem hq, hstrip q, ?_⟩
    by_cases hpk : q.pk = r.pk
    · rw [if_pos hpk]
      exact .inr rfl
    · rw [if_neg hpk]
      exact .inl rfl
  · intro q hq
    rw [hrows] at hq
    obtain ⟨q₀, hq₀, rfl⟩ := List.mem_map.mp hq
    by_cases hpk : q₀.pk = r.pk
    · rw [if_pos hpk]
      exact .inr hpk
    · rw [if_neg hpk]
      exact .inl hq₀

/-- What hangs under a row of a kind is of the kind. -/
theorem type_of_parent (hs : Sane w.rows)
    (hparent : ∀ p ∈ parent, ∃ q ∈ w.rows, q.pk = p ∧ q.field_type = t) {r : ModelLabelField}
    (hr : r ∈ w.rows) (h : r.parent = parent) (hsome : parent ≠ none) : r.field_type = t := by
  obtain ⟨p, hp⟩ := Option.ne_none_iff_exists'.mp hsome
  obtain ⟨q, hq, hpk, htype⟩ := hparent p hp
  exact (hs.typed r hr q hq (by rw [h, hp, hpk])).trans htype

/-- A row that is not there is created. -/
theorem wrote_create (hs : Sane w.rows)
    (hparent : ∀ p ∈ parent, ∃ q ∈ w.rows, q.pk = p ∧ q.field_type = t)
    (hnone : ∀ r ∈ w.rows, r.name = name → r.field_type = t → r.parent ≠ parent)
    (hticks : w'.ticks = w.ticks + 1) (hrows : w'.rows =
      ⟨uuid w.rows, t, parent, name, label, some (clock w.ticks)⟩ :: w.rows) :
    Wrote clock w w' t parent name (uuid w.rows) := by
  obtain ⟨hfresh, hfresh'⟩ := uuid_notMem w.rows
  -- no row has the name where the new one hangs
  have hother (r : ModelLabelField) (hr : r ∈ w.rows) (hname : r.name = name)
      (hp : r.parent = parent) (htype : r.field_type = t ∨ parent ≠ none) : False := by
    rcases htype with htype | hsome
    · exact hnone r hr hname htype hp
    · exact hnone r hr hname (type_of_parent hs hparent hr hp hsome) hp
  refine ⟨⟨?_, ?_⟩, hticks, ?_, ?_, ?_, ?_⟩
  · intro r hr q hq hname hp htype
    rw [hrows] at hr hq
    rcases List.mem_cons.mp hr with rfl | hr <;> rcases List.mem_cons.mp hq with rfl | hq
    · rfl
    · exact (hother q hq hname.symm hp.symm (htype.imp_left Eq.symm)).elim
    · exact (hother r hr hname hp (by rwa [hp] at htype)).elim
    · exact hs.unique r hr q hq hname hp htype
  · intro r hr q hq hp
    rw [hrows] at hr hq
    rcases List.mem_cons.mp hr with rfl | hr <;> rcases List.mem_cons.mp hq with rfl | hq
    · rfl
    · obtain ⟨q', hq', hpk, htype⟩ := hparent q.pk hp
      have heq : q' = q := Table.eq_of_key hq' hq hpk
      rw [← heq, htype]
    · exact absurd hp (hfresh' r hr)
    · exact hs.typed r hr q hq hp
  · exact ⟨_, hrows ▸ List.mem_cons_self, rfl, rfl, rfl, rfl, rfl⟩
  · exact fun r hr => ⟨r, hrows ▸ List.mem_cons_of_mem _ hr, rfl, .inl rfl⟩
  · intro r hr
    rw [hrows] at hr
    rcases List.mem_cons.mp hr with rfl | hr
    · exact .inr rfl
    · exact .inl hr
  · rintro ⟨r, hr, hname, htype, hp⟩
    exact absurd hp (hnone r hr hname htype)

/-- The rows that `update_or_create` asks for: none, or one. -/
theorem found_cases (name : String) (t : FieldChoices) (parent : Option Nat) (hs : Sane w.rows) :
    (∀ r ∈ w.rows, r.name = name → r.field_type = t → r.parent ≠ parent) ∧
      w.rows.filter (fun r => r.name = name ∧ r.field_type = t ∧ r.parent = parent) = [] ∨
    ∃ r ∈ w.rows, r.name = name ∧ r.field_type = t ∧ r.parent = parent ∧
      w.rows.filter (fun r => r.name = name ∧ r.field_type = t ∧ r.parent = parent) = [r] := by
  have hmem (r : ModelLabelField) : r ∈ w.rows.filter (fun r => r.name = name ∧
      r.field_type = t ∧ r.parent = parent) ↔
      r ∈ w.rows ∧ r.name = name ∧ r.field_type = t ∧ r.parent = parent := by
    rw [List.mem_filter, decide_eq_true_eq]
  cases hfound : w.rows.filter fun r => r.name = name ∧ r.field_type = t ∧ r.parent = parent with
  | nil =>
      refine .inl ⟨fun r hr hname htype hp => ?_, rfl⟩
      have hin := (hmem r).mpr ⟨hr, hname, htype, hp⟩
      rw [hfound] at hin
      cases hin
  | cons r rest =>
      obtain ⟨hr, hname, htype, hp⟩ := (hmem r).mp (by rw [hfound]; exact List.mem_cons_self)
      cases rest with
      | nil => exact .inr ⟨r, hr, hname, htype, hp, rfl⟩
      | cons q rest =>
          -- two rows would have the same key
          obtain ⟨hq, hname', htype', hp'⟩ := (hmem q).mp (by rw [hfound]; simp)
          have hpk := hs.unique r hr q hq (hname.trans hname'.symm) (hp.trans hp'.symm)
            (.inl (htype.trans htype'.symm))
          have hnodup : (w.rows.filter fun r => r.name = name ∧ r.field_type = t ∧
              r.parent = parent).map ModelLabelField.pk |>.Nodup :=
            w.db.keys.sublist (List.filter_sublist.map _)
          rw [hfound, List.map_cons, List.map_cons, List.nodup_cons] at hnodup
          exact absurd (hpk ▸ List.mem_cons_self) hnodup.1

/-- **What `update_or_create` does**, for a row without a parent or under one of its kind. -/
theorem put_spec (hs : Sane w.rows) (hfits : fits name label)
    (hparent : ∀ p ∈ parent, ∃ q ∈ w.rows, q.pk = p ∧ q.field_type = t) :
    ∃ pk w', update_or_create clock w name t parent label = some (pk, w') ∧
      Wrote clock w w' t parent name pk := by
  rcases found_cases name t parent hs with
    ⟨hnone, hfound⟩ | ⟨r, hr, hname, htype, hp, hfound⟩
  · have hfree : taken w.rows name parent = false := by
      rw [← Bool.not_eq_true, taken, Bool.and_eq_true, List.any_eq_true]
      rintro ⟨hsome, r, hr, hrow⟩
      obtain ⟨hname, hp⟩ := of_decide_eq_true hrow
      exact hnone r hr hname (type_of_parent hs hparent hr hp (Option.isSome_iff_ne_none.mp hsome)) hp
    have hpk : uuid w.rows ∉ w.db.rows.map ModelLabelField.pk := fun hin => by
      obtain ⟨r, hr, heq⟩ := List.mem_map.mp hin
      exact (uuid_notMem w.rows).1 r hr heq
    let row : ModelLabelField := ⟨uuid w.rows, t, parent, name, label, some (clock w.ticks)⟩
    have hrows : (w.db.insert row).rows = row :: w.rows := Table.rows_insert hpk
    refine ⟨uuid w.rows, ⟨w.db.insert row, w.ticks + 1⟩, ?_,
      wrote_create hs hparent hnone rfl hrows⟩
    rw [update_or_create, hfound]
    simp only [hfits, hfree, Bool.false_eq_true, not_false_eq_true, and_self, if_true]
    rfl
  · let db := w.db.modify r.pk (update label (clock w.ticks)) fun _ => rfl
    have hrows : db.rows = w.rows.map fun q =>
      if q.pk = r.pk then update label (clock w.ticks) q else q := rfl
    refine ⟨r.pk, ⟨db, w.ticks + 1⟩, ?_, wrote_update hs hr hname htype hp rfl hrows⟩
    rw [update_or_create, hfound]
    simp only [hfits, if_true]
    rfl

end

/-! ### Writing the models of a kind -/

/-- It was written since `T`. -/
def Since (T : Nat) (r : ModelLabelField) : Prop := ∃ u, r.updated_time = some u ∧ T ≤ u

/-- What holds when the entries `done` have been written since `T`. -/
structure Pass (T : Nat) (t : FieldChoices) (done : List Entry) (w₀ w : World) : Prop where
  sane : Sane w.rows
  ticks : w₀.ticks ≤ w.ticks
  since : ∀ e ∈ done, ∃ r ∈ w.rows, At w.rows t r e ∧ Since T r
  old : Within w₀.rows w.rows
  other : ∀ r ∈ w.rows, r ∈ w₀.rows ∨ ∃ e ∈ done, At w.rows t r e ∧ Since T r
  same : (∀ e ∈ done, ∃ r ∈ w₀.rows, At w₀.rows t r e) → w.rows.map strip = w₀.rows.map strip

section
variable {clock : Nat → Nat} {T : Nat} {t : FieldChoices} {done : List Entry} {w₀ w w' : World}
  {name : String} {parent : Option Nat} {pk : Nat} {e : Entry}

theorem pass_refl (hs : Sane w.rows) : Pass T t [] w w :=
  ⟨hs, Nat.le_refl _, nofun, fun r hr => ⟨r, hr, rfl⟩, fun _ => .inl, fun _ => rfl⟩

/-- One more entry is written. -/
theorem Pass.wrote (h : Pass T t done w₀ w) (hT : T ≤ clock w.ticks)
    (hw : Wrote clock w w' t parent name pk)
    (hentry : ∀ rows, Within w.rows rows → ∀ r, r.name = name → r.field_type = t →
      r.parent = parent → At rows t r e)
    (hrow : ∀ r ∈ w.rows, At w.rows t r e →
      ∃ r ∈ w.rows, r.name = name ∧ r.field_type = t ∧ r.parent = parent) :
    Pass T t (done ++ [e]) w₀ w' := by
  have hwithin : Within w.rows w'.rows := fun r hr => by
    obtain ⟨r', hr', hstrip, -⟩ := hw.old r hr
    exact ⟨r', hr', hstrip⟩
  have hself : ∃ r ∈ w'.rows, r.pk = pk ∧ At w'.rows t r e ∧ Since T r := by
    obtain ⟨r, hr, hpk, hname, htype, hparent, htime⟩ := hw.row
    exact ⟨r, hr, hpk, hentry _ hwithin r hname htype hparent, _, htime, hT⟩
  refine ⟨hw.sane, ?_, ?_, ?_, ?_, ?_⟩
  · have hticks := hw.ticks
    have hle := h.ticks
    omega
  · intro e' he'
    rcases List.mem_append.mp he' with he' | he'
    · obtain ⟨r, hr, hat, hsince⟩ := h.since e' he'
      obtain ⟨r', hr', hstrip, hr'r⟩ := hw.old r hr
      refine ⟨r', hr', hat.within hwithin hstrip, ?_⟩
      rcases hr'r with rfl | htime
      · exact hsince
      · exact ⟨_, htime, hT⟩
    · obtain ⟨r, hr, -, hat, hsince⟩ := hself
      exact List.mem_singleton.mp he' ▸ ⟨r, hr, hat, hsince⟩
  · intro r hr
    obtain ⟨r', hr', hstrip⟩ := h.old r hr
    obtain ⟨r'', hr'', hstrip'⟩ := hwithin r' hr'
    exact ⟨r'', hr'', hstrip'.trans hstrip⟩
  · intro r hr
    rcases hw.new r hr with hold | hpk
    · refine (h.other r hold).imp_right fun ⟨e', he', hat, hsince⟩ => ?_
      exact ⟨e', List.mem_append_left _ he', hat.within hwithin rfl, hsince⟩
    · obtain ⟨q, hq, hqpk, hat, hsince⟩ := hself
      have heq : q = r := Table.eq_of_key hq hr (hqpk.trans hpk.symm)
      exact .inr ⟨e, by simp, heq ▸ hat, heq ▸ hsince⟩
  · intro hpresent
    have hstrip := h.same fun e' he' => hpresent e' (List.mem_append_left _ he')
    obtain ⟨r, hr, hat⟩ := hpresent e (by simp)
    obtain ⟨r', hr', hstrip'⟩ := within_of_map hstrip r hr
    exact (hw.same (hrow r' hr' (hat.within (within_of_map hstrip) hstrip'))).trans hstrip

/-- The row of a model. -/
def Top (rows : List ModelLabelField) (t : FieldChoices) (obj : Nat) (name : String) : Prop :=
  ∃ q ∈ rows, q.pk = obj ∧ q.name = name ∧ q.field_type = t ∧ q.parent = none

/-- A model is written. -/
theorem Pass.put_top (h : Pass T t done w₀ w) (hclock : Monotone clock) (hT : T ≤ clock w₀.ticks)
    {label : String} (hfits : fits name label) :
    ∃ pk w', update_or_create clock w name t none label = some (pk, w') ∧
      Pass T t (done ++ [⟨name, none⟩]) w₀ w' ∧ Top w'.rows t pk name := by
  obtain ⟨pk, w', hput, hw⟩ := put_spec h.sane hfits fun _ hp => (Option.not_mem_none _ hp).elim
  refine ⟨pk, w', hput, h.wrote (hT.trans (hclock h.ticks)) hw ?_ ?_, ?_⟩
  · rintro rows - r rfl htype hparent
    exact .top htype hparent
  · intro r hr hat
    generalize he : (⟨name, none⟩ : Entry) = e at hat
    cases hat with
    | top htype hparent => exact ⟨r, hr, (Entry.mk.inj he).1.symm, htype, hparent⟩
    | field _ _ _ _ _ => cases (Entry.mk.inj he).2
  · obtain ⟨r, hr, hpk, hname, htype, hparent, -⟩ := hw.row
    exact ⟨r, hr, hpk, hname, htype, hparent⟩

/-- A field is written. -/
theorem Pass.put_field (h : Pass T t done w₀ w) (hclock : Monotone clock)
    (hT : T ≤ clock w₀.ticks) {obj : Nat} {top : String} (htop : Top w.rows t obj top)
    {label : String} (hfits : fits name label) :
    ∃ w', Prod.snd <$> update_or_create clock w name t (some obj) label = some w' ∧
      Pass T t (done ++ [⟨top, some name⟩]) w₀ w' ∧ Top w'.rows t obj top := by
  obtain ⟨q, hq, rfl, rfl, hqtype, hqparent⟩ := htop
  have hparent : ∀ p ∈ some q.pk, ∃ q' ∈ w.rows, q'.pk = p ∧ q'.field_type = t := by
    rintro _ ⟨⟩
    exact ⟨q, hq, rfl, hqtype⟩
  obtain ⟨pk, w', hput, hw⟩ := put_spec h.sane hfits hparent
  refine ⟨w', by rw [hput]; rfl, h.wrote (hT.trans (hclock h.ticks)) hw ?_ ?_, ?_⟩
  · rintro rows hwithin r rfl htype hrparent
    obtain ⟨q', hq', hstrip⟩ := hwithin q hq
    obtain ⟨hpk, hqt, hqp, hqn⟩ := strip_eq.mp hstrip
    rw [← hqn]
    exact .field hq' (hqt.trans hqtype) (hqp.trans hqparent) htype (by rw [hrparent, hpk])
  · intro r hr hat
    generalize he : (⟨q.name, some name⟩ : Entry) = e at hat
    cases hat with
    | top _ _ => cases (Entry.mk.inj he).2
    | @field q' _ hq' hqtype' hqparent' htype hparent' =>
        obtain ⟨htop, hname⟩ := Entry.mk.inj he
        have hpk := h.sane.unique q hq q' hq' htop (hqparent.trans hqparent'.symm)
          (.inl (hqtype.trans hqtype'.symm))
        exact ⟨r, hr, (Option.some.inj hname).symm, htype, by rw [hparent', hpk]⟩
  · obtain ⟨r, hr, hstrip, -⟩ := hw.old q hq
    obtain ⟨hpk, htype, hp, hname⟩ := strip_eq.mp hstrip
    exact ⟨r, hr, hpk, hname, htype.trans hqtype, hp.trans hqparent⟩

theorem Pass.put_fields (hclock : Monotone clock) (hT : T ≤ clock w₀.ticks) {obj : Nat}
    {top : String} {fields : List (String × String)} (hfits : ∀ field ∈ fields, fits field.1 field.2)
    (h : Pass T t done w₀ w) (htop : Top w.rows t obj top) :
    ∃ w', update_fields clock t obj w fields = some w' ∧
      Pass T t (done ++ fields.map fun field => ⟨top, some field.1⟩) w₀ w' := by
  induction fields generalizing done w with
  | nil => exact ⟨w, rfl, by simpa using h⟩
  | cons field fields ih =>
      obtain ⟨hfield, hrest⟩ := List.forall_mem_cons.mp hfits
      obtain ⟨w₁, hput, h₁, htop₁⟩ := h.put_field hclock hT htop hfield
      obtain ⟨w', hfold, h'⟩ := ih hrest h₁ htop₁
      refine ⟨w', ?_, by simpa using h'⟩
      rw [update_fields, List.foldlM_cons, hput]
      exact hfold

theorem Pass.put_tree (hclock : Monotone clock) (hT : T ≤ clock w₀.ticks) {tree : Tree}
    (hfits : fits tree.name tree.label ∧ ∀ field ∈ tree.fields, fits field.1 field.2)
    (h : Pass T t done w₀ w) :
    ∃ w', update_tree clock t w tree = some w' ∧ Pass T t (done ++ tree.entries) w₀ w' := by
  obtain ⟨obj, w₁, hput, h₁, htop⟩ := h.put_top hclock hT hfits.1
  obtain ⟨w', hfields, h'⟩ := h₁.put_fields hclock hT hfits.2 htop
  refine ⟨w', ?_, by simpa [Tree.entries] using h'⟩
  rw [update_tree, hput]
  exact hfields

/-- **All models of a kind are written.** -/
theorem Pass.put_trees (hclock : Monotone clock) (hT : T ≤ clock w₀.ticks) {trees : List Tree}
    (hfits : ∀ tree ∈ trees, fits tree.name tree.label ∧
      ∀ field ∈ tree.fields, fits field.1 field.2)
    (h : Pass T t done w₀ w) :
    ∃ w', trees.foldlM (update_tree clock t) w = some w' ∧
      Pass T t (done ++ trees.flatMap Tree.entries) w₀ w' := by
  induction trees generalizing done w with
  | nil => exact ⟨w, rfl, by simpa using h⟩
  | cons tree trees ih =>
      obtain ⟨htree, hrest⟩ := List.forall_mem_cons.mp hfits
      obtain ⟨w₁, hput, h₁⟩ := h.put_tree hclock hT htree
      obtain ⟨w', hfold, h'⟩ := ih hrest h₁
      refine ⟨w', ?_, by simpa using h'⟩
      rw [List.foldlM_cons, hput]
      exact hfold

end

/-! ### The sweep -/

section
variable {rows : List ModelLabelField} {db : Db} {p : ModelLabelField → Bool}

/-- What is not among the first rows, and has no such parent, stays. -/
theorem notMem_cascade (keep : Nat → Prop) (n : Nat) {pks : List Nat}
    (hpks : ∀ k ∈ pks, ¬ keep k) (hkeep : ∀ r ∈ rows, keep r.pk → ∀ k ∈ r.parent, keep k) :
    ∀ k ∈ cascade rows n pks, ¬ keep k := by
  induction n generalizing pks with
  | zero => exact hpks
  | succ n ih =>
      refine ih fun k hk hkeepk => ?_
      rcases List.mem_append.mp hk with hk | hk
      · exact hpks k hk hkeepk
      · obtain ⟨r, hr, rfl⟩ := List.mem_map.mp hk
        obtain ⟨hrows, hrow⟩ := List.mem_filter.mp hr
        obtain ⟨-, hany⟩ := of_decide_eq_true hrow
        obtain ⟨k, hparent, hmem⟩ := (Option.any_eq_true ..).mp hany
        exact hpks k (of_decide_eq_true hmem) (hkeep r hrows hkeepk k hparent)

theorem mem_cascade (n : Nat) {pks : List Nat} {k : Nat} (h : k ∈ pks) :
    k ∈ cascade rows n pks := by
  induction n generalizing pks with
  | zero => exact h
  | succ n ih => exact ih (List.mem_append_left _ h)

theorem mem_of_delete {r : ModelLabelField} (h : r ∈ (delete db p).rows) :
    r ∈ db.rows ∧ p r = false := by
  obtain ⟨hr, hpk⟩ := Table.mem_filter.mp h
  refine ⟨hr, ?_⟩
  rw [← Bool.not_eq_true]
  intro hp
  have hmem : r.pk ∈ (db.rows.filter p).map ModelLabelField.pk :=
    List.mem_map_of_mem (List.mem_filter.mpr ⟨hr, hp⟩)
  exact of_decide_eq_true hpk (mem_cascade _ hmem)

/-- **What is kept**: what the sweep does not meet, if what it hangs under is kept. -/
theorem mem_delete (keep : ModelLabelField → Prop) (hp : ∀ r ∈ db.rows, keep r → p r = false)
    (hkeep : ∀ r ∈ db.rows, keep r → ∀ q ∈ db.rows, r.parent = some q.pk → keep q)
    {r : ModelLabelField} (hr : r ∈ db.rows) (h : keep r) : r ∈ (delete db p).rows := by
  refine Table.mem_filter.mpr ⟨hr, decide_eq_true fun hmem => ?_⟩
  refine notMem_cascade (fun k => ∀ q ∈ db.rows, q.pk = k → keep q) db.rows.length ?_ ?_ r.pk hmem
    fun q hq hpk => Table.eq_of_key hq hr hpk ▸ h
  · intro k hk hkeepk
    obtain ⟨q, hq, rfl⟩ := List.mem_map.mp hk
    obtain ⟨hq, hpq⟩ := List.mem_filter.mp hq
    rw [hp q hq (hkeepk q hq rfl)] at hpq
    cases hpq
  · intro q hq hkeepq k hparent q' hq' hpk
    exact hkeep q hq (hkeepq q hq rfl) q' hq' (by rw [hpk]; exact hparent)

theorem delete_of_none (h : ∀ r ∈ db.rows, p r = false) : (delete db p).rows = db.rows := by
  refine List.filter_eq_self.mpr fun r hr => ?_
  have hmem := mem_delete (fun _ => True) (fun r hr _ => h r hr)
    (fun _ _ _ _ _ _ => trivial) hr trivial
  exact (Table.mem_filter.mp hmem).2

end

/-! ### One kind -/

/-- What the sync of one kind makes of the rows. -/
structure Swept (t : FieldChoices) (es : List Entry) (delete : Bool) (time : Nat)
    (rows rows' : List ModelLabelField) : Prop where
  sane : Sane rows'
  present : ∀ e ∈ es, ∃ r ∈ rows', At rows' t r e
  only : delete → (∀ r ∈ rows, r.field_type = t → ∃ u, r.updated_time = some u ∧ u < time) →
    ∀ r ∈ rows', r.field_type = t → ∃ e ∈ es, At rows' t r e
  keys : ∀ e ∈ es, ∀ r ∈ rows, At rows t r e → ∃ r' ∈ rows', strip r' = strip r ∧ At rows' t r' e
  others : ∀ r, r.field_type ≠ t → (r ∈ rows' ↔ r ∈ rows)
  same : (∀ e ∈ es, ∃ r ∈ rows, At rows t r e) →
    (delete → ∀ r ∈ rows, r.field_type = t → ∃ e ∈ es, At rows t r e) →
    rows'.map strip = rows.map strip

section
variable {T : Nat} {t : FieldChoices} {es : List Entry} {w₀ w : World}

/-- Where a field is declared, so is its model. -/
def Closed (es : List Entry) : Prop := ∀ e ∈ es, ⟨e.top, none⟩ ∈ es

theorem closed_entries (trees : List Tree) : Closed (trees.flatMap Tree.entries) := by
  intro e he
  obtain ⟨tree, htree, he⟩ := List.mem_flatMap.mp he
  have htop : e.top = tree.name := by
    rcases List.mem_cons.mp he with rfl | he
    · rfl
    · obtain ⟨field, -, rfl⟩ := List.mem_map.mp he
      rfl
  exact List.mem_flatMap.mpr ⟨tree, htree, htop ▸ List.mem_cons_self⟩

theorem Pass.others (h : Pass T t es w₀ w) {r : ModelLabelField} (ht : r.field_type ≠ t) :
    r ∈ w.rows ↔ r ∈ w₀.rows := by
  have hback {q : ModelLabelField} (hq : q ∈ w.rows) (hqt : q.field_type ≠ t) : q ∈ w₀.rows := by
    rcases h.other q hq with hq | ⟨e, -, hat, -⟩
    · exact hq
    · exact absurd hat.type hqt
  refine ⟨fun hr => hback hr ht, fun hr => ?_⟩
  obtain ⟨r', hr', hstrip⟩ := h.old r hr
  obtain ⟨hpk, htype, -, -⟩ := strip_eq.mp hstrip
  have heq : r' = r := Table.eq_of_key (hback hr' (htype ▸ ht)) hr hpk
  exact heq ▸ hr'

/-- What is declared was written since. -/
theorem Pass.since_of_at (h : Pass T t es w₀ w) {r : ModelLabelField} (hr : r ∈ w.rows) {e : Entry}
    (he : e ∈ es) (hat : At w.rows t r e) : Since T r := by
  obtain ⟨q, hq, hqat, hsince⟩ := h.since e he
  have heq : q = r := Table.eq_of_key hq hr (hqat.pk_eq h.sane hq hr hat)
  exact heq ▸ hsince

/-- Without a sweep. -/
theorem Pass.swept (h : Pass T t es w₀ w) (time : Nat) : Swept t es false time w₀.rows w.rows where
  sane := h.sane
  present e he := by
    obtain ⟨r, hr, hat, -⟩ := h.since e he
    exact ⟨r, hr, hat⟩
  only hdelete := Bool.noConfusion hdelete
  keys e he r hr hat := by
    obtain ⟨r', hr', hstrip⟩ := h.old r hr
    exact ⟨r', hr', hstrip, hat.within h.old hstrip⟩
  others r ht := h.others ht
  same hpresent _ := h.same hpresent

/-- What is of another kind is kept, and what is declared. -/
theorem Pass.mem_delete (h : Pass T t es w₀ w) (hclosed : Closed es) {p : ModelLabelField → Bool}
    (hp : ∀ r, p r → r.field_type = t ∧ ¬ Since T r) {r : ModelLabelField} (hr : r ∈ w.rows)
    (hkeep : r.field_type ≠ t ∨ ∃ e ∈ es, At w.rows t r e) :
    r ∈ (FieldSync.delete w.db p).rows := by
  refine FieldSync.mem_delete (fun r => r.field_type ≠ t ∨ ∃ e ∈ es, At w.rows t r e) ?_ ?_ hr hkeep
  · intro q hq hkept
    rw [← Bool.not_eq_true]
    intro hpq
    obtain ⟨hqt, hnot⟩ := hp q hpq
    rcases hkept with hqt' | ⟨e, he, hat⟩
    · exact hqt' hqt
    · exact hnot (h.since_of_at hq he hat)
  · rintro q hq (hqt | ⟨e, he, hat⟩) q' hq' hparent
    · exact .inl (h.sane.typed q hq q' hq' hparent ▸ hqt)
    · cases hat with
      | top _ hnone => rw [hnone] at hparent; cases hparent
      | @field q₀ _ hq₀ hqtype hqparent _ hparent' =>
          have hpk : q₀.pk = q'.pk := Option.some.inj (hparent'.symm.trans hparent)
          have heq : q₀ = q' := Table.eq_of_key hq₀ hq' hpk
          exact .inr ⟨_, hclosed _ he, heq ▸ .top hqtype hqparent⟩

/-- With the sweep of what was written before. -/
theorem Pass.delete (h : Pass T t es w₀ w) (hclosed : Closed es) {p : ModelLabelField → Bool}
    (hp : ∀ r, p r ↔ r.field_type = t ∧ r.updated_time.any (· < T)) :
    Swept t es true T w₀.rows (FieldSync.delete w.db p).rows := by
  have hswept (r : ModelLabelField) (hpr : p r) : r.field_type = t ∧ ¬ Since T r := by
    obtain ⟨ht, hlt⟩ := (hp r).mp hpr
    refine ⟨ht, fun ⟨u, htime, hle⟩ => ?_⟩
    rw [htime] at hlt
    exact absurd hle (Nat.not_le.mpr (by simpa using hlt))
  have hkept {r : ModelLabelField} (hr : r ∈ w.rows)
      (hkeep : r.field_type ≠ t ∨ ∃ e ∈ es, At w.rows t r e) :
      r ∈ (FieldSync.delete w.db p).rows := h.mem_delete hclosed hswept hr hkeep
  have hat {r : ModelLabelField} {e : Entry} (he : e ∈ es) (hat : At w.rows t r e) :
      At (FieldSync.delete w.db p).rows t r e := by
    refine hat.mono (fun q hq hqtype hqparent hname => ⟨q, hkept hq (.inr ?_), rfl⟩) rfl
    exact ⟨_, hclosed e he, hname ▸ .top hqtype hqparent⟩
  refine ⟨h.sane.within fun r hr => ⟨r, (mem_of_delete hr).1, rfl⟩, ?_, ?_, ?_, ?_, ?_⟩
  · intro e he
    obtain ⟨r, hr, hre, -⟩ := h.since e he
    exact ⟨r, hkept hr (.inr ⟨e, he, hre⟩), hat he hre⟩
  · intro _ hdated r hr ht
    obtain ⟨hr, hpr⟩ := mem_of_delete hr
    rcases h.other r hr with hold | ⟨e, he, hre, -⟩
    · obtain ⟨u, htime, hlt⟩ := hdated r hold ht
      rw [← Bool.not_eq_true, hp, htime] at hpr
      exact absurd ⟨ht, by simp [hlt]⟩ hpr
    · exact ⟨e, he, hat he hre⟩
  · intro e he r hr hre
    obtain ⟨r', hr', hstrip⟩ := h.old r hr
    have hre' := hre.within h.old hstrip
    exact ⟨r', hkept hr' (.inr ⟨e, he, hre'⟩), hstrip, hat he hre'⟩
  · intro r ht
    rw [← h.others ht]
    exact ⟨fun hr => (mem_of_delete hr).1, fun hr => hkept hr (.inl ht)⟩
  · intro hpresent hall
    have hstrip := h.same hpresent
    rw [delete_of_none fun r hr => ?_]
    · exact hstrip
    · rw [← Bool.not_eq_true]
      intro hpr
      obtain ⟨ht, hnot⟩ := hswept r hpr
      rcases h.other r hr with hold | ⟨e, he, -, hs⟩
      · obtain ⟨e, he, hre⟩ := hall rfl r hold ht
        exact hnot (h.since_of_at hr he (hre.within h.old rfl))
      · exact hnot hs

/-- **The sync of one kind.** -/
theorem update_trees_spec {clock : Nat → Nat} (hclock : Monotone clock) (hs : Sane w.rows)
    {trees : List Tree} (hfits : ∀ tree ∈ trees, fits tree.name tree.label ∧
      ∀ field ∈ tree.fields, fits field.1 field.2) (delete : Bool) :
    ∃ w', update_trees clock t trees delete w = some w' ∧ w.ticks ≤ w'.ticks ∧
      Swept t (trees.flatMap Tree.entries) delete (clock w.ticks) w.rows w'.rows := by
  obtain ⟨w₁, hfold, hpass⟩ := Pass.put_trees hclock (hclock (Nat.le_succ w.ticks)) hfits
    (pass_refl (w := { w with ticks := w.ticks + 1 }) (t := t) hs)
  have hticks : w.ticks ≤ w₁.ticks := (Nat.le_succ _).trans hpass.ticks
  rw [update_trees, hfold]
  cases delete with
  | false => exact ⟨w₁, rfl, hticks, hpass.swept _⟩
  | true =>
      refine ⟨_, rfl, hticks, hpass.delete (closed_entries trees) fun r => ?_⟩
      exact decide_eq_true_iff

end

/-! ### Both kinds -/

section
variable {t t' : FieldChoices} {es : List Entry} {delete : Bool} {time : Nat}
  {rows rows' : List ModelLabelField}

/-- The sync of one kind leaves the entries of the other. -/
theorem Swept.at_iff (h : Swept t es delete time rows rows') (ht : t' ≠ t) {r : ModelLabelField}
    {e : Entry} : At rows' t' r e ↔ At rows t' r e := by
  constructor
  · exact fun hat => hat.mono (fun q hq hqt _ _ => ⟨q, (h.others q (hqt ▸ ht)).mp hq, rfl⟩) rfl
  · exact fun hat => hat.mono (fun q hq hqt _ _ => ⟨q, (h.others q (hqt ▸ ht)).mpr hq, rfl⟩) rfl

theorem Swept.row_iff (h : Swept t es delete time rows rows') (ht : t' ≠ t) {r : ModelLabelField}
    {e : Entry} : r ∈ rows' ∧ At rows' t' r e ↔ r ∈ rows ∧ At rows t' r e := by
  rw [h.at_iff ht]
  exact and_congr_left fun hat => h.others r (hat.type ▸ ht)

end

/-- A run syncs one kind, then the other. -/
theorem sync_spec {clock : Nat → Nat} (hclock : Monotone clock) (d : Declared)
    (hfits : ∀ t, ∀ tree ∈ d.trees t, fits tree.name tree.label ∧
      ∀ field ∈ tree.fields, fits field.1 field.2) {w : World} (hs : Sane w.rows) :
    ∃ w₁ w₂ : World, sync_model_field clock d w = some w₂ ∧ w.ticks ≤ w₁.ticks ∧
      Swept .DATA (d.entries .DATA) d.data_delete (clock w.ticks) w.rows w₁.rows ∧
      Swept .ROLE (d.entries .ROLE) d.role_delete (clock w₁.ticks) w₁.rows w₂.rows := by
  obtain ⟨w₁, hdata, hticks, s₁⟩ := update_trees_spec (t := .DATA) hclock hs (hfits .DATA)
    d.data_delete
  obtain ⟨w₂, hrole, -, s₂⟩ := update_trees_spec (t := .ROLE) hclock s₁.sane (hfits .ROLE)
    d.role_delete
  refine ⟨w₁, w₂, ?_, hticks, s₁, s₂⟩
  have hdata' : get_app_model_fields clock d w = some w₁ := hdata
  rw [sync_model_field, hdata']
  exact hrole

/-- No app is authorised. -/
def noApps : Declared := ⟨id, [], [], [], []⟩

/-- A model that is gone. -/
def gone : ModelLabelField := ⟨1, .DATA, none, "old.model", "Old", some 0⟩

def before : World := ⟨⟨[gone], by simp⟩, 1⟩

theorem ready_before : Ready id noApps before := by
  refine ⟨⟨?_, ?_⟩, ?_, ?_⟩
  · intro r hr q hq _ _ _
    rw [List.mem_singleton.mp hr, List.mem_singleton.mp hq]
  · intro r hr q hq _
    rw [List.mem_singleton.mp hr, List.mem_singleton.mp hq]
  · intro r hr
    exact List.mem_singleton.mp hr ▸ ⟨0, rfl, Nat.one_pos⟩
  · intro t
    cases t with
    | ROLE =>
        have hnone : noApps.trees .ROLE = [] := rfl
        simp [hnone]
    | DATA =>
        intro tree htree
        obtain rfl := List.mem_singleton.mp htree
        refine ⟨by decide +kernel, fun field hfield => ?_⟩
        obtain rfl := List.mem_singleton.mp hfield
        decide +kernel

end InfraHub.Permission.FieldSync
