import InfraHub.Lib.Json
import InfraHub.Lib.Table

/-!
# Settings — Setting

`Setting.update_or_create`, with the JSON texts in which the values are kept, in clear or encrypted.

The row is saved only where its `cleaned_value` is not equal to the new value, as Python compares
them (`eq`). A setting that is not there, an empty text and a text that is no JSON all have the
value `None`, and the flag `encrypted` is not compared.  `update_or_create_iff` says when what was
asked for is stored.
-/

namespace InfraHub.Settings
open InfraHub.Lib (Str str Table)
open InfraHub.Lib.Json

variable {F ε : Type}

/-! ### Python's `==` -/

/-- How floats compare: with one another, and with an integer. -/
structure Compare {F : Type} (fl : Floats F) where
  eq : F → F → Bool
  eq_int : F → Int → Bool
  refl : ∀ x, fl.Finite x → eq x x = true

/-- A value that is a number; a `bool` is one. -/
def to_int : Value F → Option Int
  | .bool b => some (if b then 1 else 0)
  | .int n => some n
  | _ => none

section
variable {fl : Floats F} (cmp : Compare fl)

mutual

def eq : Value F → Value F → Bool
  | .null, .null => true
  | .str s, .str t => s = t
  | .float x, .float y => cmp.eq x y
  | .float x, w => (to_int w).any (cmp.eq_int x)
  | .list items, .list items' => eqItems items items'
  | .dict items, .dict items' => items.length = items'.length && eqPairs items items'
  | .bool b, .float y => cmp.eq_int y (if b then 1 else 0)
  | .int n, .float y => cmp.eq_int y n
  | .bool b, w => to_int w = some (if b then 1 else 0)
  | .int n, w => to_int w = some n
  | _, _ => false

def eqItems : List (Value F) → List (Value F) → Bool
  | [], [] => true
  | v :: items, w :: items' => eq v w && eqItems items items'
  | _, _ => false

/-- Every key has an equal value in the other dict. -/
def eqPairs : List (Str × Value F) → List (Str × Value F) → Bool
  | [], _ => true
  | (key, v) :: items, items' => (items'.lookup key).any (fun w => eq v w) && eqPairs items items'

end

theorem eqItems_refl {items : List (Value F)} (h : ∀ v ∈ items, eq cmp v v) :
    eqItems cmp items items := by
  induction items with
  | nil => rfl
  | cons v items ih =>
      obtain ⟨hv, hitems⟩ := List.forall_mem_cons.mp h
      rw [eqItems, hv, ih hitems, Bool.and_self]

theorem eqPairs_iff {items items' : List (Str × Value F)} :
    eqPairs cmp items items' ↔ ∀ item ∈ items, ∃ w, items'.lookup item.1 = some w ∧
    eq cmp item.2 w := by
  induction items with
  | nil => simp [eqPairs]
  | cons item items ih =>
      rw [eqPairs, Bool.and_eq_true, ih, Option.any_eq_true, List.forall_mem_cons]

/-- What stands in a dict is found. -/
theorem lookup_of_mem {items : List (Str × Value F)} (hkeys : (items.map Prod.fst).Nodup)
    {item : Str × Value F} (h : item ∈ items) : items.lookup item.1 = some item.2 := by
  induction items with
  | nil => cases h
  | cons head items ih =>
      obtain ⟨hnew, hrest⟩ := List.nodup_cons.mp hkeys
      rcases List.mem_cons.mp h with rfl | h
      · exact List.lookup_cons_self
      · have hne : item.1 ≠ head.1 := fun heq => hnew (heq ▸ List.mem_map_of_mem h)
        rw [List.lookup_cons, beq_false_of_ne hne]
        exact ih hrest h

/-- **A JSON value is equal to itself.** -/
theorem eq_refl {Q : Str → Prop} {v : Value F} (h : v.Of Q fl.Finite) : eq cmp v v := by
  induction h with
  | null => simp [eq]
  | bool b => simp [eq, to_int]
  | int n => simp [eq, to_int]
  | float h => simpa [eq] using cmp.refl _ h
  | str _ => simp [eq]
  | list _ ih => rw [eq, eqItems_refl cmp ih]
  | dict hkeys _ _ ih =>
      have hpairs := (eqPairs_iff cmp).mpr fun item hitem =>
          ⟨item.2, lookup_of_mem hkeys hitem, ih item hitem⟩
      simp [eq, hpairs]

/-- Nothing else is `None`. -/
theorem eq_null_iff {v : Value F} : eq cmp .null v ↔ v = .null := by
  cases v <;> simp [eq]

end

/-! ### The table -/

/-- A row: `None` is no value. -/
structure Setting where
  name : Str
  value : Option Str
  category : Str
  encrypted : Bool
  is_active : Bool
  creator : Option Nat
  modifier : Option Nat

/-- The names are unique. -/
abbrev Db := Table Str Setting Setting.name

def save (db : Db) (setting : Setting) : Db := (db.delete setting.name).insert setting

/-- The cipher; `draw` is what it draws to encrypt. -/
structure Signer (ε : Type) where
  encrypt : (draw : Nat) → Str → Str
  decrypt : Str → Except ε Str

/-- What a setting is set to.  A file is stored, and the value is its address. -/
inductive Item (F : Type)
  | value (v : Value F)
  | set (items : List (Value F))
  | file (url : Str)

def Item.json : Item F → Value F
  | .value v => v
  | .set items => .list items
  | .file url => .str url

section
variable (fl : Floats F) (cmp : Compare fl) (signer : Signer ε)

/-- `setting.cleaned_value != item`: no value is equal to a set. -/
def Item.differs (cleaned_value : Value F) : Item F → Bool
  | .set _ => true
  | item => !eq cmp cleaned_value item.json

/-- A text that is no JSON is `None`. -/
def from_text : Option Str → Value F
  | none | some [] => .null
  | some text => (loads fl text).getD .null

/-- What the cipher raises is raised. -/
def cleaned_value (setting : Setting) : Except ε (Value F) := do
  let value ←
    match setting.encrypted, setting.value with
    | true, some value => some <$> signer.decrypt value
    | _, value => pure value
  return from_text fl value

def set_cleaned_value (draw : Nat) (setting : Setting) (item : Item F) : Setting :=
  let v := dumps fl true item.json
  { setting with value := some (if setting.encrypted then signer.encrypt draw v else v) }

def update_or_create (draw : Nat) (db : Db) (name : Str) (value : Item F) (encrypted : Bool)
    (category : Str)
    (user : Option Nat) : Except ε (Bool × Setting × Db) := do
  let setting := (db.get name).getD
    { name, value := none, category, encrypted, is_active := true, creator := user,
      modifier := user }
  if value.differs fl cmp (← cleaned_value fl signer setting) then
    let setting :=
      set_cleaned_value fl signer draw { setting with encrypted, modifier := user } value
    return (true, setting, save db setting)
  else
    return (false, setting, db)

/-! ### What is asked of it -/

/-- The row has the flag and a value that is equal; saving it again changes nothing; the other rows
are those of before. -/
def Stored (db db' : Db) (name : Str) (v : Value F) (encrypted : Bool) (category : Str)
    (user : Option Nat) :
    Prop :=
  (∃ setting, db'.get name = some setting ∧ setting.encrypted = encrypted ∧
      ∃ c, cleaned_value fl signer setting = .ok c ∧ eq cmp c v) ∧
    (∀ draw, ∃ setting,
      update_or_create fl cmp signer draw db' name (.value v) encrypted category user =
        .ok (false, setting, db')) ∧
    db'.without name = db.without name

/-- **The condition**: a new setting is not set to `None`, and one that has an equal value has the
flag. -/
def Fits (db : Db) (name : Str) (v : Value F) (encrypted : Bool) : Prop :=
  match db.get name with
  | none => v ≠ .null
  | some setting =>
    setting.encrypted = encrypted ∨ ∃ c, cleaned_value fl signer setting = .ok c ∧
    eq cmp c v = false

end

/-! ### The result -/

section
variable {fl : Floats F} {cmp : Compare fl} {signer : Signer ε} {draw : Nat} {db db' : Db}
  {name : Str}
  {value : Item F} {v : Value F} {encrypted changed : Bool} {category : Str} {user : Option Nat}
  {setting setting' : Setting}

theorem get_save (db : Db) (setting : Setting) :
    (save db setting).get setting.name = some setting :=
  Table.get_insert_self (Table.get_delete_self db setting.name)

theorem without_save (db : Db) (setting : Setting) :
    (save db setting).without setting.name = db.without setting.name := by
  rw [save, Table.without_insert, Table.without_delete]

theorem from_text_dumps (hv : v.Of Proper fl.Finite) :
    from_text fl (some (dumps fl true v)) = v := by
  have hloads : loads fl (dumps fl true v) = some v :=
    loads_dumps (hv.imp (fun _ h => readable_of_proper fun _ => h) fun _ h => h)
  cases htext : dumps fl true v with
  | nil => exact absurd htext (dumps_ne_nil fl true v)
  | cons c text =>
      rw [from_text, ← htext, hloads, Option.getD_some]
      exact htext ▸ List.cons_ne_nil c text

/-- **What is set is read**, in clear or encrypted. -/
theorem cleaned_value_set (hsigner : ∀ draw x, signer.decrypt (signer.encrypt draw x) = .ok x)
    (hv : v.Of Proper fl.Finite) (draw : Nat) (setting : Setting) :
    cleaned_value fl signer (set_cleaned_value fl signer draw setting (.value v)) = .ok v := by
  have hread (value : Option Str) (h : value = some (dumps fl true v)) :
      (pure (from_text fl value) : Except ε (Value F)) = .ok v := by
    rw [h, from_text_dumps hv]
    rfl
  cases hencrypted : setting.encrypted with
  | false =>
      simp only [cleaned_value, set_cleaned_value, hencrypted]
      exact hread _ rfl
  | true =>
      simp only [cleaned_value, set_cleaned_value, hencrypted, if_true, hsigner]
      exact hread _ rfl

/-- The setting that is there, or a new one. -/
def current (db : Db) (name : Str) (encrypted : Bool) (category : Str) (user : Option Nat) :
    Setting :=
  (db.get name).getD
    { name, value := none, category, encrypted, is_active := true, creator := user,
      modifier := user }

/-- What is saved. -/
def written (fl : Floats F) (signer : Signer ε) (draw : Nat) (setting : Setting) (value : Item F)
    (encrypted : Bool) (user : Option Nat) : Setting :=
  set_cleaned_value fl signer draw { setting with encrypted, modifier := user } value

/-- **The two ways**: the row is saved, or nothing is done. -/
theorem update_or_create_eq (fl : Floats F) (cmp : Compare fl) (signer : Signer ε) (draw : Nat)
    (db : Db)
    (name : Str) (value : Item F) (encrypted : Bool) (category : Str) (user : Option Nat) :
    update_or_create fl cmp signer draw db name value encrypted category user =
      (cleaned_value fl signer (current db name encrypted category user)).map fun c =>
        if value.differs fl cmp c then
          (true, written fl signer draw (current db name encrypted category user) value encrypted user,
            save db (written fl signer draw
              (current db name encrypted category user) value encrypted user))
        else (false, current db name encrypted category user, db) := by
  rw [update_or_create, ← current]
  cases cleaned_value fl signer (current db name encrypted category user) with
  | error e => rfl
  | ok c =>
      change (if _ then _ else _) = Except.ok (if _ then _ else _)
      split
      · rfl
      · rfl

theorem current_name : (current db name encrypted category user).name = name := by
  unfold current
  cases h : db.get name with
  | none => rfl
  | some setting => exact Table.key_of_get h

theorem written_name :
    (written fl signer draw setting value encrypted user).name = setting.name := rfl

theorem written_encrypted :
    (written fl signer draw setting value encrypted user).encrypted = encrypted := rfl

theorem current_of_get (hget : db.get name = some setting) :
    current db name encrypted category user = setting := by
  rw [current, hget, Option.getD_some]

theorem differs_value (c : Value F) : (Item.value v).differs fl cmp c = !eq cmp c v := rfl

/-- A new setting has no value. -/
theorem cleaned_value_new (hget : db.get name = none) :
    cleaned_value fl signer (current db name encrypted category user) = .ok .null := by
  rw [current, hget, Option.getD_none]
  cases encrypted with
  | false => rfl
  | true => rfl

/-- An equal value is not saved. -/
theorem update_of_eq {c : Value F} (hget : db.get name = some setting)
    (hcleaned : cleaned_value fl signer setting = .ok c) (heq : eq cmp c v) (draw : Nat) :
    update_or_create fl cmp signer draw db name (.value v) encrypted category user =
      .ok (false, setting, db) := by
  have hsame : (Item.value v).differs fl cmp c = false := by rw [differs_value, heq, Bool.not_true]
  rw [update_or_create_eq, current_of_get hget, hcleaned, Except.map, hsame]
  rfl

/-- What is saved is stored as it was asked for. -/
theorem stored_save (hsigner : ∀ draw x, signer.decrypt (signer.encrypt draw x) = .ok x)
    (hv : v.Of Proper fl.Finite) (hname : setting.name = name) :
    Stored fl cmp signer db (save db (written fl signer draw setting (.value v) encrypted user))
    name v encrypted
      category user := by
  have hget := get_save db (written fl signer draw setting (.value v) encrypted user)
  have hwithout := without_save db (written fl signer draw setting (.value v) encrypted user)
  rw [written_name, hname] at hget hwithout
  have hcleaned : cleaned_value fl signer
      (written fl signer draw setting (.value v) encrypted user) = .ok v :=
    cleaned_value_set hsigner hv draw _
  have heq : eq cmp v v := eq_refl cmp hv
  exact ⟨⟨_, hget, rfl, v, hcleaned, heq⟩, fun draw' =>
    ⟨_, update_of_eq hget hcleaned heq draw'⟩, hwithout⟩

/-- Where nothing is done, that is right only for a row with the flag. -/
theorem stored_same_iff {c : Value F}
    (hcleaned : cleaned_value fl signer (current db name encrypted category user) = .ok c)
    (heq : eq cmp c v) :
    Stored fl cmp signer db db name v encrypted category user ↔
      ∃ setting, db.get name = some setting ∧ setting.encrypted = encrypted := by
  constructor
  · rintro ⟨⟨setting, hget, hflag, -⟩, -⟩
    exact ⟨setting, hget, hflag⟩
  · rintro ⟨setting, hget, hflag⟩
    rw [current_of_get hget] at hcleaned
    exact ⟨⟨setting, hget, hflag, c, hcleaned, heq⟩, fun draw =>
      ⟨setting, update_of_eq hget hcleaned heq draw⟩,
      rfl⟩

/-- **When what was asked for is stored.** -/
theorem update_or_create_iff (hsigner : ∀ draw x, signer.decrypt (signer.encrypt draw x) = .ok x)
    (hv : v.Of Proper fl.Finite)
    (h : update_or_create fl cmp signer draw db name (.value v) encrypted category user =
      .ok (changed, setting', db')) :
    Stored fl cmp signer db db' name v encrypted category user ↔
    Fits fl cmp signer db name v encrypted := by
  rw [update_or_create_eq] at h
  cases hcleaned : cleaned_value fl signer (current db name encrypted category user) with
  | error e =>
      rw [hcleaned] at h
      cases h
  | ok c =>
      rw [hcleaned] at h
      have hresult := Except.ok.inj h
      dsimp only at hresult
      rw [differs_value] at hresult
      cases heq : eq cmp c v with
      | false =>
          rw [heq, Bool.not_false, if_pos rfl] at hresult
          cases hresult
          refine iff_of_true (stored_save hsigner hv current_name) ?_
          unfold Fits
          cases hget : db.get name with
          | none =>
              rintro rfl
              rw [cleaned_value_new hget] at hcleaned
              cases hcleaned
              rw [(eq_null_iff cmp).mpr rfl] at heq
              cases heq
          | some setting =>
              rw [current_of_get hget] at hcleaned
              exact .inr ⟨c, hcleaned, heq⟩
      | true =>
          rw [heq, Bool.not_true, if_neg Bool.false_ne_true] at hresult
          cases hresult
          rw [stored_same_iff hcleaned heq]
          unfold Fits
          cases hget : db.get name with
          | none =>
              rw [cleaned_value_new hget] at hcleaned
              cases hcleaned
              simpa using (eq_null_iff cmp).mp heq
          | some setting =>
              rw [current_of_get hget] at hcleaned
              have hno : ¬ ∃ d, cleaned_value fl signer setting = .ok d ∧ eq cmp d v = false := by
                rintro ⟨d, hd, hne⟩
                cases hcleaned.symm.trans hd
                rw [heq] at hne
                cases hne
              simp [hno]

end

/-! ### Settings that are not stored -/

def sample_floats : Floats Unit := ⟨fun _ => (), fun _ => str "NaN", fun _ => rfl, shape_nan⟩

def sample_compare : Compare sample_floats where
  eq _ _ := false
  eq_int _ _ := false
  refl _ h := absurd List.mem_cons_self h

/-- The draw goes before the text. -/
def sample_signer : Signer Unit where
  encrypt draw x := draw :: x
  decrypt := fun
    | [] => .error ()
    | _ :: x => .ok x

theorem sample_signer_decrypt (draw : Nat) (x : Str) :
    sample_signer.decrypt (sample_signer.encrypt draw x) = .ok x := rfl

/-- In clear, it is `true`. -/
def plain_setting : Setting where
  name := str "debug"
  value := some (dumps sample_floats true (.bool true))
  category := str "default"
  encrypted := false
  is_active := true
  creator := none
  modifier := none

def plain_settings : Db := ⟨[plain_setting], List.nodup_singleton _⟩

theorem plain_settings_get : plain_settings.get (str "debug") = some plain_setting := by
  rw [plain_settings, Table.get, List.find?_cons_of_pos]
  simp [plain_setting]

/-- A new setting is encrypted. -/
theorem update_or_create_iff_new :
    Stored sample_floats sample_compare sample_signer .empty
      (save .empty (written sample_floats sample_signer 7
        (current .empty (str "debug") true (str "default") none) (.value (.bool true)) true none))
      (str "debug") (.bool true) true (str "default") none := by
  have hupdate : update_or_create sample_floats sample_compare sample_signer 7 .empty (str "debug")
      (.value (.bool true)) true (str "default") none = .ok (true, _, _) := rfl
  exact (update_or_create_iff sample_signer_decrypt (.bool true) hupdate).mpr
    (by simp [Fits, Table.get, Table.empty])

/-- **`None` makes no row, and a value stays in clear** when it is set again to be encrypted. -/
theorem setting_is_not_stored :
    (∃ setting, update_or_create sample_floats sample_compare sample_signer 7 .empty (str "debug")
          (.value .null) false (str "default") none = .ok (false, setting, .empty) ∧
        ¬ Stored sample_floats sample_compare sample_signer .empty .empty (str "debug") .null false
          (str "default") none) ∧
      ∃ setting, update_or_create sample_floats sample_compare sample_signer 7 plain_settings
      (str "debug")
          (.value (.bool true)) true (str "default") none = .ok (false, setting, plain_settings) ∧
        ¬ Stored sample_floats sample_compare sample_signer plain_settings plain_settings
        (str "debug")
          (.bool true) true (str "default") none := by
  have hcleaned : cleaned_value sample_floats sample_signer plain_setting = .ok (.bool true) :=
    congrArg Except.ok (from_text_dumps (.bool true))
  have heq : eq sample_compare (.bool true) (.bool true) :=
    eq_refl sample_compare (Q := Proper) (.bool true)
  refine ⟨⟨_, rfl, ?_⟩, _, update_of_eq plain_settings_get hcleaned heq 7, ?_⟩
  · rintro ⟨⟨setting, hget, -⟩, -⟩
    cases hget
  · rintro ⟨⟨setting, hget, hflag, -⟩, -⟩
    cases plain_settings_get.symm.trans hget
    cases hflag

end InfraHub.Settings
