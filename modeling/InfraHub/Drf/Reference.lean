import InfraHub.Drf.Scalar
import InfraHub.Lib.Gather

/-!
# Drf — Reference

Whether references and choices survive export and import.

A related object is shown as `name(id)`, and recognised by a pattern that wants a name in one line; a choice
is cut out of its text at parentheses.  In a list, the names stand in JSON whose quotes are replaced.
`references_iff`: which references, lists of references and choices come back.
-/

namespace InfraHub.Cells
open InfraHub.Lib (Str str strOfNat strOfNat_ne_nil digit_of_mem_strOfNat int int_strOfNat
  mapM_eq_some_map_iff)
open InfraHub.Lib.Json

variable {F : Type}

/-! ### Related objects -/

/-- `str` of a UUID. -/
structure Uuid where
  text : Str
  digits : ∀ c ∈ text, ('a'.toNat ≤ c ∧ c ≤ 'f'.toNat) ∨ ('0'.toNat ≤ c ∧ c ≤ '9'.toNat) ∨ c = '-'.toNat
  groups : (text.splitOn '-'.toNat).map List.length = [8, 4, 4, 4, 12]

inductive Pk
  | int (n : Int)
  | uuid (u : Uuid)

/-- The primary key in JSON. -/
def Pk.value : Pk → Value F
  | .int n => .int n
  | .uuid u => .str u.text

/-- A related object in JSON: its primary key, and whatever names it has. -/
structure Related (F : Type) where
  items : List (Str × Value F)
  pk : Pk
  pk_eq : items.lookup (str "pk") = some pk.value
  id_eq : ∀ v, items.lookup (str "id") = some v → v = pk.value
  names : ∀ key ∈ ["display_name", "name", "username", "nickname"], ∀ v,
    items.lookup (str key) = some v → v = .null ∨ ∃ s, v = .str s

/-- The primary key that was read. -/
def referred : Value F → Option (Value F)
  | .dict items => items.lookup (str "pk")
  | _ => none

def referred_list : Value F → Option (List (Value F))
  | .list items => items.mapM referred
  | _ => none

section
variable (py : Python F)

/-- **The condition on a reference**: a name, in one line, and no negative number. -/
def Recognised (o : Related F) : Prop :=
  name_text py o.items ≠ [] ∧ 0xa ∉ name_text py o.items ∧ ∀ n, o.pk = .int n → 0 ≤ n

/-- A field for a list of references. -/
def Field.IsMany : Field → Prop
  | .BasePrimaryKeyRelatedField many _ => many
  | .ManyRelatedField (.BasePrimaryKeyRelatedField many _) _ => ¬ many
  | _ => False

/-- What `LabeledChoiceField.to_representation` makes of a choice. -/
def labeled (key : Value F) (label : Str) : Value F :=
  .dict [(str "value", key), (str "label", .str label)]

/-- The key is a choice, the last one of its text; or it is the blank that is allowed. -/
def Selects (choices : List (Value F × Str)) (allow_blank : Bool) (key : Value F) : Prop :=
  if text py key = [] ∧ allow_blank then key = .str []
  else ∃ before label after, choices = before ++ (key, label) :: after ∧
    ∀ choice ∈ after, text py choice.1 ≠ text py key

/-- **The condition on a choice**: its text is not cut, has no quotes but the double ones, and selects it. -/
def Chosen (choices : List (Value F × Str)) (allow_blank : Bool) (key : Value F) : Prop :=
  '('.toNat ∉ text py key ∧ (text py key).getLast? ≠ some ')'.toNat ∧ (∀ c ∈ text py key, c ∉ quotes) ∧
    Selects py choices allow_blank key

end

/-! ### A primary key -/

section
variable {py : Python F} {s name : Str} {pk : Pk} {o : Related F}

theorem Uuid.dash_mem (u : Uuid) : '-'.toNat ∈ u.text := by
  by_contra hnot
  have hgroups := u.groups
  rw [List.splitOn_eq_singleton hnot] at hgroups
  simp at hgroups

theorem id_char_of_digit {c : Nat} (h : 0x30 ≤ c ∧ c ≤ 0x39) : id_char c :=
  decide_eq_true (.inr (.inl h))

theorem isdigit_strOfNat (n : Nat) : isdigit (strOfNat n) :=
  decide_eq_true ⟨strOfNat_ne_nil n, fun _ hc => digit_of_mem_strOfNat hc⟩

theorem not_isdigit_of_dash (h : '-'.toNat ∈ s) : isdigit s = false := by
  refine decide_eq_false fun hall => ?_
  exact absurd (hall.2 _ h) (by decide)

theorem text_pk_char (pk : Pk) : ∀ c ∈ text py pk.value, id_char c := by
  intro c hc
  cases pk with
  | int n =>
      cases n with
      | ofNat n => exact id_char_of_digit (digit_of_mem_strOfNat hc)
      | negSucc n =>
          rcases List.mem_cons.mp hc with rfl | hc
          · decide
          · exact id_char_of_digit (digit_of_mem_strOfNat hc)
  | uuid u =>
      refine decide_eq_true ((u.digits c hc).imp_left fun h => ⟨h.1, h.2.trans ?_⟩)
      decide

theorem text_pk_ne_nil (pk : Pk) : text py (pk.value : Value F) ≠ [] := by
  cases pk with
  | int n =>
      cases n with
      | ofNat n => exact strOfNat_ne_nil n
      | negSucc n => exact List.cons_ne_nil _ _
  | uuid u => exact List.ne_nil_of_mem u.dash_mem

variable (py) in
/-- What the parser makes of the text of a primary key. -/
theorem id_eq_iff (pk : Pk) :
    (if isdigit (text py pk.value) then .int ((int (text py pk.value)).getD 0) else .str (text py pk.value)) =
      (pk.value : Value F) ↔ ∀ n, pk = .int n → 0 ≤ n := by
  cases pk with
  | int n =>
      cases n with
      | ofNat n =>
          have htext : text py (Pk.value (.int (.ofNat n))) = strOfNat n := rfl
          rw [htext, if_pos (isdigit_strOfNat n), int_strOfNat]
          refine iff_of_true rfl ?_
          rintro _ ⟨⟩
          exact Int.natCast_nonneg n
      | negSucc n =>
          have hdash : isdigit (text py (Pk.value (.int (.negSucc n)))) = false :=
            not_isdigit_of_dash List.mem_cons_self
          rw [hdash]
          refine iff_of_false nofun fun hall => ?_
          exact absurd (hall _ rfl) (by simp)
  | uuid u =>
      have hdash : isdigit (text py (Pk.value (.uuid u))) = false := not_isdigit_of_dash u.dash_mem
      rw [hdash]
      exact iff_of_true rfl nofun

theorem pk_text_eq (o : Related F) : pk_text py o.items = text py o.pk.value := by
  rw [pk_text, get, get, o.pk_eq, Option.getD_some, either]
  split_ifs with htruthy
  · cases hid : o.items.lookup (str "id") with
    | none =>
        rw [hid] at htruthy
        cases htruthy
    | some v => rw [o.id_eq v hid, Option.getD_some]
  · rfl

end

/-! ### A text that ends with a parenthesis -/

section
variable {py : Python F} {name k : Str} {pk : Pk} {field : Field}

theorem replace_paren (name k : Str) : replace_chinese_quote (name ++ '('.toNat :: k ++ [')'.toNat]) =
    replace_chinese_quote name ++ '('.toNat :: replace_chinese_quote k ++ [')'.toNat] := by
  simp only [replace_append, List.append_assoc, List.append_cancel_left_eq]
  rfl

/-- It is neither in brackets nor a dash. -/
theorem load_col_paren (py : Python F) (name k : Str) :
    load_col py (name ++ '('.toNat :: k ++ [')'.toNat]) =
      .str (replace_chinese_quote name ++ '('.toNat :: replace_chinese_quote k ++ [')'.toNat]) := by
  have hclose : some ')'.toNat ≠ some ']'.toNat ∧ some ')'.toNat ≠ some '}'.toNat := by decide
  rw [load_col, replace_paren]
  refine if_neg fun h => ?_
  rw [bracketed, List.getLast?_concat, decide_eq_true_eq] at h
  rcases h with ⟨-, h⟩ | ⟨-, h⟩
  · exact hclose.1 h
  · exact hclose.2 h

theorem not_dash_paren (name k : Str) :
    is_text (str "-") (.str (name ++ '('.toNat :: k ++ [')'.toNat]) : Value F) = false := by
  refine decide_eq_false fun heq => ?_
  have hlast := congrArg List.getLast? heq
  rw [List.getLast?_concat] at hlast
  exact absurd hlast (by decide)

theorem mem_replace_iff {c : Nat} {s : Str} (hc : c ∉ quotes) (hquote : c ≠ dquote) :
    c ∈ replace_chinese_quote s ↔ c ∈ s := by
  constructor
  · intro h
    obtain ⟨d, hd, heq⟩ := List.mem_map.mp h
    split_ifs at heq
    · exact absurd heq.symm hquote
    · exact heq ▸ hd
  · exact fun h => List.mem_map.mpr ⟨c, h, if_neg hc⟩

theorem replace_pk (pk : Pk) :
    replace_chinese_quote (text py (pk.value : Value F)) = text py (pk.value : Value F) := by
  refine replace_eq_self_iff.mpr fun c hc hmem => ?_
  have hall : ∀ c ∈ quotes, ¬ id_char c := by decide
  exact hall c hmem (text_pk_char pk c hc)

/-- **What is made of a reference.** -/
theorem referred_iff (name : Str) (pk : Pk) :
    referred (id_name_to_obj (.str (name ++ '('.toNat :: text py pk.value ++ [')'.toNat]))) =
      some (pk.value : Value F) ↔ name ≠ [] ∧ 0xa ∉ name ∧ ∀ n, pk = .int n → 0 ≤ n := by
  rw [id_name_to_obj, obj_pattern_reference name (text_pk_ne_nil pk) (text_pk_char pk)]
  by_cases hname : name ≠ [] ∧ 0xa ∉ name
  · rw [if_pos hname, ← id_eq_iff py pk]
    simp [referred, hname]
  · rw [if_neg hname]
    exact iff_of_false nofun fun hall => hname ⟨hall.1, hall.2.1⟩

end

/-! ### One reference -/

section
variable {py : Python F} {allow_null : Bool}

/-- The text of a reference. -/
def reference (py : Python F) (o : Related F) : Str :=
  name_text py o.items ++ '('.toNat :: text py (o.pk.value : Value F) ++ [')'.toNat]

theorem to_id_name_eq (o : Related F) : to_id_name py (.dict o.items) = some (reference py o) := by
  rw [to_id_name, pk_text_eq, reference]

/-- **A reference comes back** if and only if it is recognised. -/
theorem reference_iff (o : Related F) :
    (read_back py (.BasePrimaryKeyRelatedField false allow_null) (.dict o.items)).bind referred =
      some o.pk.value ↔ Recognised py o := by
  have hrender : render_value py (.BasePrimaryKeyRelatedField false allow_null) (.dict o.items) =
      some (reference py o) := to_id_name_eq o
  have hdash := not_dash_paren (F := F) (replace_chinese_quote (name_text py o.items))
    (text py (o.pk.value : Value F))
  have hname : replace_chinese_quote (name_text py o.items) = [] ↔ name_text py o.items = [] := by
    rw [replace_chinese_quote, List.map_eq_nil_iff]
  have hline : 0xa ∈ replace_chinese_quote (name_text py o.items) ↔ 0xa ∈ name_text py o.items :=
    mem_replace_iff (by decide) (by decide)
  rw [read_back_of_render hrender, reference, load_col_paren, replace_pk, parse_value.eq_def, hdash]
  simp only [Bool.false_eq_true, false_and, if_false, Option.bind_some]
  rw [referred_iff, Recognised, ne_eq, hname, hline]

end

/-! ### A list of references -/

section
variable {py : Python F} {field : Field} {objs : List (Related F)}

/-- The references of a list in JSON. -/
def references (py : Python F) (objs : List (Related F)) : Value F :=
  .list (objs.map fun o => .str (reference py o))

theorem render_references (h : field.IsMany) (objs : List (Related F)) :
    render_value py field (.list (objs.map fun o => .dict o.items)) =
      some (dumps py.floats false (references py objs)) := by
  have hmapM (f : Value F → Option Str) (hf : ∀ o : Related F, f (.dict o.items) = some (reference py o)) :
      (objs.map fun o => Value.dict o.items).mapM f = some (objs.map (reference py)) := by
    rw [List.mapM_map]
    exact mapM_eq_some_map_iff.mpr fun o _ => hf o
  have hfinite : finite py.floats (references py objs) = true := by
    rw [references, finite, finiteItems_eq, List.all_map]
    exact List.all_eq_true.mpr fun _ _ => rfl
  have htexts : to_texts py (objs.map (reference py)) = some (dumps py.floats false (references py objs)) := by
    rw [to_texts, List.map_map]
    exact if_pos hfinite
  cases field with
  | BasePrimaryKeyRelatedField many allow_null =>
      obtain rfl : many = true := h
      simp only [render_value, iterate, Option.bind_eq_bind, Option.bind_some, if_true]
      rw [hmapM _ to_id_name_eq]
      exact htexts
  | ManyRelatedField child allow_null =>
      cases child with
      | BasePrimaryKeyRelatedField many allow_null' =>
          obtain rfl : many = false := Bool.eq_false_iff.mpr h
          have hchild (o : Related F) : render_value py (.BasePrimaryKeyRelatedField false allow_null')
              (.dict o.items) = some (reference py o) := to_id_name_eq o
          simp only [render_value, iterate, Option.bind_eq_bind, Option.bind_some]
          rw [hmapM _ hchild]
          exact htexts
      | _ => exact h.elim
  | _ => exact h.elim

/-- The text is JSON in brackets, and has no quotes to replace. -/
theorem load_references (hquotes : ∀ o ∈ objs, ∀ c ∈ name_text py o.items, c ∉ quotes) :
    load_col py (dumps py.floats false (references py objs)) = references py objs := by
  have hpk (o : Related F) : ∀ c ∈ text py (o.pk.value : Value F), c ∉ quotes :=
    replace_eq_self_iff.mp (replace_pk o.pk)
  have hparen : '('.toNat ∉ quotes ∧ ')'.toNat ∉ quotes := by decide
  have hreference : ∀ o ∈ objs, ∀ c ∈ reference py o, c ∉ quotes := by
    intro o ho c hc
    simp only [reference, List.mem_append, List.mem_cons, List.not_mem_nil, or_false] at hc
    rcases hc with (hc | rfl | hc) | rfl
    · exact hquotes o ho c hc
    · exact hparen.1
    · exact hpk o c hc
    · exact hparen.2
  have hstrings {Q : Str → Prop} (hQ : ∀ o ∈ objs, Q (reference py o)) :
      (references py objs).Of Q fun _ => True := by
    refine .list fun v hv => ?_
    obtain ⟨o, ho, rfl⟩ := List.mem_map.mp hv
    exact .str (hQ o ho)
  have hsame : replace_chinese_quote (dumps py.floats false (references py objs)) =
      dumps py.floats false (references py objs) := by
    refine replace_eq_self_iff.mpr (mem_dumps (fun _ => not_quote_of_ascii) (hstrings fun o ho c hc => ?_))
    exact ⟨nofun, fun _ => hreference o ho c hc⟩
  have hbracketed : bracketed (dumps py.floats false (references py objs)) := by
    refine decide_eq_true (.inl ⟨rfl, ?_⟩)
    rw [references, dumps]
    exact List.getLast?_concat
  rw [load_col, hsame, if_pos hbracketed, loads_dumps (hstrings fun o _ => readable_raw _)]
  rfl

/-- What the parser makes of the references, one by one. -/
theorem parse_references (h : field.IsMany) (objs : List (Related F)) :
    parse_value py field (references py objs) =
      some (.list (objs.map fun o => id_name_to_obj (.str (reference py o)))) := by
  have hnot : ∀ items : List (Value F), is_text (str "-") (.list items) = false := fun _ => rfl
  have hdash (o : Related F) : is_text (str "-") (.str (reference py o) : Value F) = false :=
    not_dash_paren (name_text py o.items) (text py (o.pk.value : Value F))
  cases field with
  | BasePrimaryKeyRelatedField many allow_null =>
      obtain rfl : many = true := h
      rw [parse_value.eq_def, references, hnot]
      simp [iterate, Function.comp_def]
  | ManyRelatedField child allow_null =>
      cases child with
      | BasePrimaryKeyRelatedField many allow_null' =>
          obtain rfl : many = false := Bool.eq_false_iff.mpr h
          have hchild (o : Related F) : parse_value py (.BasePrimaryKeyRelatedField false allow_null')
              (.str (reference py o)) = some (id_name_to_obj (.str (reference py o))) := by
            rw [parse_value.eq_def, hdash]
            rfl
          have hall : (objs.map fun o => Value.str (reference py o)).mapM
              (parse_value py (.BasePrimaryKeyRelatedField false allow_null')) =
                some (objs.map fun o => id_name_to_obj (.str (reference py o))) := by
            rw [List.mapM_map]
            exact mapM_eq_some_map_iff.mpr fun o _ => hchild o
          rw [parse_value.eq_def, references, hnot]
          simp [iterate, hall]
      | _ => exact h.elim
  | _ => exact h.elim

/-- **A list of references comes back** if and only if each of them is recognised, where no name has a
quote that is replaced. -/
theorem reference_list_iff (h : field.IsMany) (hquotes : ∀ o ∈ objs, ∀ c ∈ name_text py o.items, c ∉ quotes) :
    (read_back py field (.list (objs.map fun o => .dict o.items))).bind referred_list =
      some (objs.map fun o => o.pk.value) ↔ ∀ o ∈ objs, Recognised py o := by
  rw [read_back_of_render (render_references h objs), load_references hquotes, parse_references h objs,
    Option.bind_some, referred_list, List.mapM_map, mapM_eq_some_map_iff]
  exact forall₂_congr fun o _ => referred_iff (name_text py o.items) o.pk

end

/-! ### A choice -/

section
variable {py : Python F} {choices : List (Value F × Str)} {allow_blank : Bool} {key : Value F} {s : Str}

/-- What `to_internal_value` cuts out of a choice: the text in parentheses, without more of them. -/
def cut (s : Str) : Str := (s.rdropWhile (· = ')'.toNat)).rtakeWhile (· ≠ '('.toNat)

theorem rdropWhile_append_cons {p : Nat → Bool} {c : Nat} (hc : ¬ p c) (name s : Str) :
    (name ++ c :: s).rdropWhile p = name ++ c :: s.rdropWhile p := by
  induction s using List.reverseRecOn with
  | nil => exact List.rdropWhile_concat_neg p name c hc
  | append_singleton s d ih =>
      by_cases hd : p d
      · rw [List.rdropWhile_concat_pos p s d hd, ← ih, ← List.cons_append, ← List.append_assoc]
        exact List.rdropWhile_concat_pos p _ d hd
      · rw [List.rdropWhile_concat_neg p s d hd, ← List.cons_append, ← List.append_assoc]
        exact List.rdropWhile_concat_neg p _ d hd

theorem rtakeWhile_append_cons {p : Nat → Bool} {c : Nat} (hc : ¬ p c) (name s : Str) :
    (name ++ c :: s).rtakeWhile p = s.rtakeWhile p := by
  induction s using List.reverseRecOn with
  | nil => exact List.rtakeWhile_concat_neg p name c hc
  | append_singleton s d ih =>
      rw [← List.cons_append, ← List.append_assoc, List.rtakeWhile_concat, List.rtakeWhile_concat, ih]

theorem last_part_paren (name s : Str) : last_part (name ++ '('.toNat :: s ++ [')'.toNat]) = cut s := by
  have hopen : ¬ ('('.toNat = ')'.toNat) := by decide
  have hstop : ¬ (decide ('('.toNat = ')'.toNat) = true) := by decide
  have hhead (t : Str) : ∃ name',
      (name ++ '('.toNat :: t).dropWhile (· = ')'.toNat) = name' ++ '('.toNat :: t := by
    induction name with
    | nil => exact ⟨[], List.dropWhile_cons_of_neg hstop⟩
    | cons c name ih =>
        by_cases hc : c = ')'.toNat
        · rw [List.cons_append, List.dropWhile_cons_of_pos (by simpa using hc)]
          exact ih
        · exact ⟨c :: name, List.dropWhile_cons_of_neg (by simpa using hc)⟩
  rw [last_part, List.rdropWhile_concat_pos _ _ _ (by simp), rdropWhile_append_cons hstop]
  obtain ⟨name', hname⟩ := hhead (s.rdropWhile (· = ')'.toNat))
  rw [hname, cut]
  exact rtakeWhile_append_cons (by simp) name' _

/-- Only a text that is not cut is left by it. -/
theorem cut_eq_self_iff : cut s = s ↔ '('.toNat ∉ s ∧ s.getLast? ≠ some ')'.toNat := by
  have hinfix : (cut s).length ≤ (s.rdropWhile (· = ')'.toNat)).length :=
    (List.rtakeWhile_suffix _ _).length_le
  have hlast : s.rdropWhile (· = ')'.toNat) = s ↔ s.getLast? ≠ some ')'.toNat := by
    rw [List.rdropWhile_eq_self_iff]
    cases s using List.reverseRecOn with
    | nil => simp
    | append_singleton s c => simp
  have hopen : s.rtakeWhile (· ≠ '('.toNat) = s ↔ '('.toNat ∉ s := by
    rw [List.rtakeWhile_eq_self_iff]
    constructor
    · exact fun h hmem => of_decide_eq_true (h _ hmem) rfl
    · exact fun h c hc => decide_eq_true fun heq => h (heq ▸ hc)
  constructor
  · intro h
    rw [h] at hinfix
    have hsame : s.rdropWhile (· = ')'.toNat) = s :=
      (List.rdropWhile_prefix _ _).eq_of_length_le hinfix
    rw [cut, hsame] at h
    exact ⟨hopen.mp h, hlast.mp hsame⟩
  · rintro ⟨hmem, hend⟩
    rw [cut, hlast.mpr hend]
    exact hopen.mpr hmem

/-- The text that is read for a choice. -/
def choice_text (py : Python F) (key : Value F) : Str := cut (replace_chinese_quote (text py key))

theorem choice_text_eq_iff : choice_text py key = text py key ↔
    '('.toNat ∉ text py key ∧ (text py key).getLast? ≠ some ')'.toNat ∧ ∀ c ∈ text py key, c ∉ quotes := by
  have hlength : (replace_chinese_quote (text py key)).length = (text py key).length := List.length_map _
  constructor
  · intro h
    -- the text is as long as before only where nothing was cut
    have hcut := List.rdropWhile_prefix (· = ')'.toNat) (replace_chinese_quote (text py key))
    have hsuffix := List.rtakeWhile_suffix (· ≠ '('.toNat)
      ((replace_chinese_quote (text py key)).rdropWhile (· = ')'.toNat))
    have hle : (replace_chinese_quote (text py key)).length ≤ (choice_text py key).length := by
      rw [h, hlength]
    have hdrop := hcut.eq_of_length_le (hle.trans hsuffix.length_le)
    have hself : cut (replace_chinese_quote (text py key)) = replace_chinese_quote (text py key) := by
      rw [cut, hsuffix.eq_of_length_le (hcut.length_le.trans hle), hdrop]
    have hsame : replace_chinese_quote (text py key) = text py key := hself.symm.trans h
    rw [hsame] at hself
    obtain ⟨hopen, hclose⟩ := cut_eq_self_iff.mp hself
    exact ⟨hopen, hclose, replace_eq_self_iff.mp hsame⟩
  · rintro ⟨hopen, hclose, hquotes⟩
    rw [choice_text, replace_eq_self_iff.mpr hquotes]
    exact cut_eq_self_iff.mpr ⟨hopen, hclose⟩

theorem to_internal_value_paren (name t : Str) :
    to_internal_value py choices allow_blank (.str (name ++ '('.toNat :: t ++ [')'.toNat])) =
      if cut t = [] ∧ allow_blank then some (.str [])
      else (choices.reverse.find? fun choice => text py choice.1 = cut t).map Prod.fst := by
  have hopen : '('.toNat ∈ name ++ '('.toNat :: t ++ [')'.toNat] := by simp
  have htruthy : truthy py (.str (name ++ '('.toNat :: t ++ [')'.toNat])) := by simp [truthy]
  have hblank : is_text [] (.str (cut t) : Value F) = true ↔ cut t = [] := by simp [is_text]
  unfold to_internal_value
  rw [if_pos htruthy]
  have hparen : '('.toNat ∈ name ++ '('.toNat :: t ++ [')'.toNat] ∧
      (name ++ '('.toNat :: t ++ [')'.toNat]).getLast? = some ')'.toNat := ⟨hopen, List.getLast?_concat⟩
  simp only [if_pos hparen, last_part_paren, hblank]
  rfl

/-- What is read for a choice is looked up. -/
theorem read_choice (allow_null : Bool) (label : Str) :
    (read_back py (.LabeledChoiceField allow_null) (labeled key label)).bind
        (to_internal_value py choices allow_blank) =
      if choice_text py key = [] ∧ allow_blank then some (.str [])
      else (choices.reverse.find? fun choice => text py choice.1 = choice_text py key).map Prod.fst := by
  have hrender : render_value py (.LabeledChoiceField allow_null) (labeled key label) =
      some (label ++ '('.toNat :: text py key ++ [')'.toNat]) := rfl
  have hdash := not_dash_paren (F := F) (replace_chinese_quote label) (replace_chinese_quote (text py key))
  rw [read_back_of_render hrender, load_col_paren, parse_value.eq_def, hdash]
  exact to_internal_value_paren _ _

theorem find_reverse_iff : (choices.reverse.find? fun choice => text py choice.1 = text py key).map Prod.fst =
      some key ↔ ∃ before label after, choices = before ++ (key, label) :: after ∧
        ∀ choice ∈ after, text py choice.1 ≠ text py key := by
  rw [Option.map_eq_some_iff]
  constructor
  · rintro ⟨⟨_, label⟩, hfind, rfl⟩
    obtain ⟨-, after, before, hsplit, hafter⟩ := List.find?_eq_some_iff_append.mp hfind
    refine ⟨before.reverse, label, after.reverse, ?_, fun choice hmem => ?_⟩
    · rw [← List.reverse_reverse choices, hsplit]
      simp
    · simpa using hafter choice (List.mem_reverse.mp hmem)
  · rintro ⟨before, label, after, rfl, hafter⟩
    refine ⟨(key, label), ?_, rfl⟩
    refine List.find?_eq_some_iff_append.mpr ⟨by simp, after.reverse, before.reverse, ?_, ?_⟩
    · simp
    · intro choice hmem
      simpa using hafter choice (List.mem_reverse.mp hmem)

/-- **A choice comes back** if and only if its text is left as it is, and selects it. -/
theorem choice_iff (allow_null : Bool) (label : Str) :
    (read_back py (.LabeledChoiceField allow_null) (labeled key label)).bind
        (to_internal_value py choices allow_blank) = some key ↔ Chosen py choices allow_blank key := by
  rw [read_choice]
  constructor
  · intro h
    have hsame : choice_text py key = text py key := by
      split_ifs at h with hblank
      · obtain rfl : .str [] = key := Option.some.inj h
        rfl
      · obtain ⟨choice, hfind, rfl⟩ := Option.map_eq_some_iff.mp h
        have hfound := List.find?_some hfind
        exact (of_decide_eq_true hfound).symm
    rw [hsame] at h
    obtain ⟨hopen, hclose, hquotes⟩ := choice_text_eq_iff.mp hsame
    refine ⟨hopen, hclose, hquotes, ?_⟩
    rw [Selects]
    split_ifs at h ⊢ with hblank
    · exact (Option.some.inj h).symm
    · exact find_reverse_iff.mp h
  · rintro ⟨hopen, hclose, hquotes, hselects⟩
    rw [choice_text_eq_iff.mpr ⟨hopen, hclose, hquotes⟩]
    rw [Selects] at hselects
    split_ifs at hselects ⊢ with hblank
    · rw [hselects]
    · exact find_reverse_iff.mpr hselects

end

/-! ### What comes back -/

/-- **Which references, lists of references and choices survive export and import.** -/
theorem references_iff (py : Python F) :
    (∀ (allow_null : Bool) (o : Related F),
      (read_back py (.BasePrimaryKeyRelatedField false allow_null) (.dict o.items)).bind referred =
        some o.pk.value ↔ Recognised py o) ∧
    (∀ (field : Field) (objs : List (Related F)), field.IsMany →
      (∀ o ∈ objs, ∀ c ∈ name_text py o.items, c ∉ quotes) →
      ((read_back py field (.list (objs.map fun o => .dict o.items))).bind referred_list =
        some (objs.map fun o => o.pk.value) ↔ ∀ o ∈ objs, Recognised py o)) ∧
    ∀ (choices : List (Value F × Str)) (allow_blank allow_null : Bool) (key : Value F) (label : Str),
      (read_back py (.LabeledChoiceField allow_null) (labeled key label)).bind
        (to_internal_value py choices allow_blank) = some key ↔ Chosen py choices allow_blank key :=
  ⟨fun _ o => reference_iff o, fun _ _ h hquotes => reference_list_iff h hquotes,
    fun _ _ allow_null _ label => choice_iff allow_null label⟩

/-- An object of a name, with the primary key 5. -/
def sampleObject (name : Str) : Related Unit where
  items := [(str "pk", .int 5), (str "name", .str name)]
  pk := .int 5
  pk_eq := rfl
  id_eq _ h := by
    have hnone : [(str "pk", (.int 5 : Value Unit)), (str "name", .str name)].lookup (str "id") = none := by
      have hne : str "id" ≠ str "pk" ∧ str "id" ≠ str "name" := by decide +kernel
      rw [List.lookup_cons, List.lookup_cons, beq_false_of_ne hne.1, beq_false_of_ne hne.2]
      rfl
    rw [hnone] at h
    cases h
  names key hkey v h := by
    have hmem := List.lookup_eq_some_iff.mp h
    obtain ⟨before, after, hsplit, -⟩ := hmem
    have hv : (str key, v) ∈ [(str "pk", (.int 5 : Value Unit)), (str "name", .str name)] := by
      rw [hsplit]
      simp
    have hpk : ∀ key ∈ ["display_name", "name", "username", "nickname"], str key ≠ str "pk" := by
      decide +kernel
    simp only [List.mem_cons, List.not_mem_nil, or_false, Prod.mk.injEq] at hv
    rcases hv with ⟨heq, -⟩ | ⟨-, rfl⟩
    · exact absurd heq (hpk key hkey)
    · exact .inr ⟨name, rfl⟩

/-- An object that is called `a (b)`, twice. -/
theorem references_iff_twice :
    let o := sampleObject (str "a (b)")
    (read_back samplePython (.BasePrimaryKeyRelatedField true false)
      (.list [.dict o.items, .dict o.items])).bind referred_list = some [.int 5, .int 5] := by
  intro o
  have hname : name_text samplePython o.items = str "a (b)" := by decide +kernel
  have hquotes : ∀ c ∈ name_text samplePython o.items, c ∉ quotes := by
    rw [hname]
    decide +kernel
  have hrecognised : Recognised samplePython o := by
    refine ⟨?_, ?_, ?_⟩
    · rw [hname]
      decide +kernel
    · rw [hname]
      decide +kernel
    · rintro _ ⟨⟩
      decide
  exact ((references_iff samplePython).2.1 (.BasePrimaryKeyRelatedField true false) [o, o] rfl
    (by simpa using hquotes)).mpr (by simpa using hrecognised)

/-- **A name that is empty, a name in a list with an apostrophe, and a choice that ends with a parenthesis**
are lost. -/
theorem references_are_lost :
    (read_back samplePython (.BasePrimaryKeyRelatedField false false) (.dict (sampleObject []).items)).bind
      referred ≠ some (sampleObject []).pk.value ∧
    (read_back samplePython (.BasePrimaryKeyRelatedField true false)
        (.list [.dict (sampleObject (str "it\x27s")).items])).bind referred_list ≠
      some [(sampleObject (str "it\x27s")).pk.value] ∧
    (read_back samplePython (.LabeledChoiceField false) (labeled (.str (str "a)")) (str "A"))).bind
      (to_internal_value samplePython [(.str (str "a)"), str "A")] false) ≠ some (.str (str "a)")) := by
  have hlost {α : Type} {x : Option α} {v : α} (h : x.isNone) : x ≠ some v := by
    rintro rfl
    cases h
  exact ⟨hlost (by decide +kernel), hlost (by decide +kernel), hlost (by decide +kernel)⟩

end InfraHub.Cells
