import InfraHub.Drf.FormData
import Mathlib.Logic.Function.Basic

/-!
# Drf — Malformed

Which form keys `format_data` takes, and what `AxiosMultiPartParser.parse` makes of the others.

Whether a key can be put into the tree depends on what the keys before it have left under the same
name: nothing, a string, a dict, or a list of which some first elements are no dicts.  `Kind` is that
much of the tree, and `parse_iff` says that the keys of each name, one after another, decide.  What is
raised otherwise is no `MultiPartParserError`, and `parse` lets it through.
-/

namespace InfraHub.Drf
open InfraHub.Lib (Str str int)

/-! ### `AxiosMultiPartParser.parse` -/

inductive ParseFault
  /-- `ParseError`, with its detail -/
  | ParseError (detail : String)
  /-- an exception of `format_data`: `IndexError`, `ValueError`, `TypeError`, `KeyError` or
  `AttributeError` -/
  | escaped
  deriving DecidableEq, Repr

/-- `parsed` is what Django's parser gives, or the text of its `MultiPartParserError`. -/
def parse (parsed : Except String FormData) : Except ParseFault Items :=
  match parsed with
  | .error exc => .error (.ParseError ("Multipart form parse error - " ++ exc))
  | .ok data =>
    match format_data data with
    | some new_data => .ok new_data
    | none => .error .escaped

/-! ### What keys leave -/

/-- What is under a name: nothing or an empty string; a string; a dict; or a list of `length`
elements, of which those from `bare` on are dicts. -/
inductive Kind
  | nothing
  | text
  | dict
  | list (bare length : Nat)
  deriving DecidableEq, Repr

/-- Below the second part of a key, a part that starts with a digit is zero. -/
def Zeros (rest : List Str) : Prop := ∀ part ∈ rest, matches_digit part → int part = some 0

instance : DecidablePred Zeros := fun _ => inferInstanceAs (Decidable (∀ part ∈ _, _))

/-- The rest of the key names a field. -/
def named (rest : List Str) : Bool := rest.head?.any fun part => !matches_digit part

/-- `dict.update` takes what the rest of the key makes: a dict, an empty string, or a list of a string
of two characters. -/
def merges (rest : List Str) (value : Str) : Bool :=
  match rest with
  | [] => value = []
  | [part] => !matches_digit part || value.length = 2
  | part :: _ :: _ => !matches_digit part

/-- What a plain key leaves; `values` is `getlist` for the key `pks` of a `QueryDict`. -/
def plain (values : Option (List Str)) (value : Str) : Kind :=
  match values with
  | some values => if values = [] then .nothing else .list values.length values.length
  | none => if value = [] then .nothing else .text

/-- What a key leaves whose second part is a position: one more element, or a dict that is there. -/
def Kind.after_list (k : Kind) (rest : List Str) (value : Str) (position : Nat) : Option Kind :=
  match k with
  | .nothing => if position = 0 then some (.list (if named rest then 0 else 1) 1) else none
  | .list bare length =>
    if bare ≤ position ∧ position ≤ length ∧ merges rest value then
      some (.list bare (max length (position + 1)))
    else none
  | .text | .dict => none

/-- What a key leaves whose second part is a name. -/
def Kind.after_dict : Kind → Option Kind
  | .nothing | .dict => some .dict
  | .text | .list .. => none

/-- What is left under a name after one more key of it, of which the parts behind the name are given;
none, where the key cannot be put. -/
def Kind.after (values : Option (List Str)) (k : Kind) : List Str → Str → Option Kind
  | [], value => some (plain values value)
  | index :: rest, value =>
    if Zeros rest then
      if matches_digit index then (int index).bind (k.after_list rest value) else k.after_dict
    else none

/-- The list for a name, if the data gives it one. -/
def FormData.values (data : FormData) (name : Str) : Option (List Str) :=
  if name = str "pks" then data.pks else none

/-- The keys of a name in their order: what follows the name, and the value. -/
def keysOf (items : List (Str × Str)) (name : Str) : List (List Str × Str) :=
  items.filterMap fun p =>
    let key_split := p.1.splitOn '.'.toNat
    if key_split.head? = some name then some (key_split.tail, p.2) else none

/-- **The keys of a name fit together.** -/
def Fits (data : FormData) (name : Str) : Prop :=
  ((keysOf data.items name).foldlM (fun k p => Kind.after (data.values name) k p.1 p.2)
    Kind.nothing).isSome

/-! ### The kind of a value -/

/-- The value under a name is of the kind. -/
inductive HasKind : Option Value → Kind → Prop where
  | nothing {info : Option Value} (h : info.filter Value.truthy = none) : HasKind info .nothing
  | text {value : Str} (h : value ≠ []) : HasKind (some (.leaf value)) .text
  | dict {d : Items} (h : d ≠ []) : HasKind (some (.dict d)) .dict
  | list {items : List Value} {bare : Nat} (h : items ≠ []) (hbare : bare ≤ items.length)
      (hdict : ∀ position, position < items.length →
        ((∃ d, items[position]? = some (.dict d)) ↔ bare ≤ position)) :
      HasKind (some (.list items)) (.list bare items.length)

section
variable {key index : Str} {rest : List Str} {value : Str} {info : Option Value} {v : Value} {d : Items}

theorem truthy_list {items : List Value} (h : items ≠ []) :
    (some (Value.list items)).filter Value.truthy = some (.list items) := by
  simp [Value.truthy, h]

theorem truthy_dict (h : d ≠ []) : (some (Value.dict d)).filter Value.truthy = some (.dict d) := by
  simp [Value.truthy, h]

theorem truthy_leaf (h : value ≠ []) :
    (some (Value.leaf value)).filter Value.truthy = some (.leaf value) := by
  simp [Value.truthy, h]

/-- The rest of a key makes a value. -/
theorem chain_isSome : (chain rest value).isSome ↔ Zeros rest := by
  induction rest with
  | nil => simp [chain, Zeros]
  | cons part rest ih =>
      rw [Zeros, List.forall_mem_cons, ← Zeros, ← ih, chain]
      cases hrest : chain rest value with
      | none => simp
      | some w =>
          simp only [Option.bind_some, wrap, Option.isSome_some, and_true]
          cases matches_digit part with
          | false => simp
          | true => cases int part <;> simp

/-- `dict.update` does not ask what the dict is. -/
theorem update_isSome (d : Items) : (update d v).isSome ↔ match v with
    | .dict _ => True
    | .leaf value => value = []
    | .list items => ∀ item ∈ items, item.pair.isSome := by
  cases v with
  | dict items => simp [update]
  | leaf value => by_cases h : value = [] <;> simp [update, h]
  | list items =>
      dsimp only [update]
      induction items generalizing d with
      | nil => simp
      | cons item items ih =>
          rw [List.foldlM_cons, List.forall_mem_cons]
          cases item.pair with
          | none => simp
          | some p => simpa using ih _

theorem update_chain (h : chain rest value = some v) (d : Items) :
    (update d v).isSome ↔ merges rest value := by
  rw [update_isSome]
  cases rest with
  | nil =>
      cases h
      simp [merges]
  | cons part rest =>
      obtain ⟨w, hw, hwrap⟩ := Option.bind_eq_some_iff.mp h
      rcases wrap_cases hwrap with ⟨hdigit, rfl⟩ | ⟨hdigit, rfl⟩
      · cases rest with
        | nil =>
            cases hw
            rcases value with _ | ⟨a, _ | ⟨b, _ | ⟨c, value⟩⟩⟩
            all_goals simp [merges, hdigit, Value.pair]
        | cons part' rest =>
            obtain ⟨x, -, hwrap⟩ := Option.bind_eq_some_iff.mp hw
            rcases wrap_cases hwrap with ⟨-, rfl⟩ | ⟨-, rfl⟩
            · simp [merges, hdigit, Value.pair]
            · simp [merges, hdigit, Value.pair]
      · cases rest <;> simp [merges, hdigit]

theorem named_chain (h : chain rest value = some v) : (∃ d, v = .dict d) ↔ named rest := by
  cases rest with
  | nil =>
      cases h
      simp [named]
  | cons part rest =>
      obtain ⟨w, hw, hwrap⟩ := Option.bind_eq_some_iff.mp h
      rcases wrap_cases hwrap with ⟨hdigit, rfl⟩ | ⟨hdigit, rfl⟩
      · simp [named, hdigit]
      · simp [named, hdigit]

/-- A value and its kind, or neither. -/
abbrev Agree (o : Option Value) (o' : Option Kind) : Prop :=
  Option.Rel (fun v k => HasKind (some v) k) o o'

theorem hasKind_single {item : Value} (hitem : chain rest value = some item) :
    HasKind (some (.list [item])) (.list (if named rest then 0 else 1) 1) := by
  have hnamed := named_chain hitem
  refine .list (List.cons_ne_nil item []) (by split_ifs <;> simp) fun position hposition => ?_
  obtain rfl : position = 0 := by simpa using hposition
  split_ifs with h
  · simpa [eq_comm] using hnamed.mpr h
  · simpa [eq_comm] using fun d hd => h (hnamed.mp ⟨d, hd⟩)

/-- A dict of the list is updated. -/
theorem update_kind {items : List Value} {bare position : Nat} {item : Value}
    (hitem : chain rest value = some item) (hget : items[position]? = some (.dict d))
    (hbare : bare ≤ items.length) (hdict : ∀ position, position < items.length →
      ((∃ d, items[position]? = some (.dict d)) ↔ bare ≤ position)) :
    Agree ((update d item).map fun d => .list (items.set position (.dict d)))
      (if merges rest value then some (.list bare items.length) else none) := by
  obtain ⟨hposition, -⟩ := List.getElem?_eq_some_iff.mp hget
  by_cases hmerges : merges rest value
  · obtain ⟨d', hupdate⟩ := Option.isSome_iff_exists.mp ((update_chain hitem d).mpr hmerges)
    rw [hupdate, if_pos hmerges, Option.map_some, ← List.length_set (a := Value.dict d') (i := position)]
    refine .some (.list ?_ (by rwa [List.length_set]) fun other hother => ?_)
    · exact List.ne_nil_of_length_pos (by rw [List.length_set]; omega)
    · rw [List.length_set] at hother
      rw [List.getElem?_set, ← hdict other hother]
      split_ifs with heq
      · subst heq
        exact iff_of_true ⟨d', rfl⟩ ⟨d, hget⟩
      · exact Iff.rfl
  · have hnone : update d item = none := by
      rw [← Option.not_isSome_iff_eq_none, update_chain hitem]
      exact hmerges
    rw [hnone, if_neg hmerges]
    exact .none

/-- The branch for lists. -/
theorem put_list_kind {k : Kind} {item : Value} (hinfo : HasKind info k)
    (hitem : chain rest value = some item) :
    Agree (put_list info [(index, item)]) ((int index).bind (k.after_list rest value)) := by
  simp only [put_list]
  cases int index with
  | none => exact .none
  | some position =>
      simp only [Option.bind_some]
      cases hinfo with
      | nothing h =>
          rw [h, Kind.after_list]
          by_cases hposition : position = 0
          · simp only [if_pos hposition]
            exact .some (hasKind_single hitem)
          · simp only [if_neg hposition]
            exact .none
      | text h =>
          rw [truthy_leaf h]
          exact .none
      | dict h =>
          rw [truthy_dict h]
          exact .none
      | @list items bare h hbare hdict =>
          rw [truthy_list h, Kind.after_list]
          dsimp only
          rcases Nat.lt_trichotomy position items.length with hlt | rfl | hgt
          · rw [if_neg (show ¬ position + 1 > items.length by omega), Nat.max_eq_left hlt]
            by_cases hle : bare ≤ position
            · obtain ⟨d, hd⟩ := (hdict position hlt).mpr hle
              simp only [hd, hle, Nat.le_of_lt hlt, true_and]
              exact update_kind hitem hd hbare hdict
            · rw [if_neg fun h => hle h.1]
              cases hd : items[position]? with
              | none => exact .none
              | some x =>
                  cases x with
                  | dict d => exact absurd ((hdict position hlt).mp ⟨d, hd⟩) hle
                  | leaf _ | list _ => exact .none
          · -- a new element, which is a dict
            rw [if_pos (show items.length + 1 > items.length by omega),
              Nat.max_eq_right (show items.length ≤ items.length + 1 by omega)]
            have hget : (items ++ [Value.dict []])[items.length]? = some (.dict []) := by simp
            have hlength : (items ++ [Value.dict []]).length = items.length + 1 := by simp
            simp only [hget, hbare, Nat.le_refl, true_and]
            rw [← hlength]
            refine update_kind hitem hget (by omega) fun other hother => ?_
            rcases Nat.lt_or_eq_of_le (Nat.le_of_lt_succ (hlength ▸ hother)) with hlt | rfl
            · rw [List.getElem?_append_left hlt]
              exact hdict other hlt
            · exact iff_of_true ⟨[], hget⟩ hbare
          · rw [if_pos (show position + 1 > items.length by omega),
              if_neg fun h => absurd h.2.1 (Nat.not_le.mpr hgt)]
            have hget : (items ++ [Value.dict []])[position]? = none := by
              rw [List.getElem?_eq_none_iff, List.length_append, List.length_singleton]
              exact hgt
            rw [hget]
            exact .none

theorem set_ne_nil (d : Items) : set d key v ≠ [] := by
  rw [set]
  split_ifs with hmem
  · intro hnil
    rw [List.map_eq_nil_iff.mp hnil] at hmem
    exact absurd hmem List.not_mem_nil
  · simp

/-- The branch for dicts. -/
theorem put_dict_kind {k : Kind} {item : Value} (hinfo : HasKind info k) :
    Agree (put_dict info [(index, item)]) k.after_dict := by
  rw [put_dict]
  cases hinfo with
  | nothing h =>
      rw [h]
      exact .some (.dict (by simp))
  | text h =>
      rw [truthy_leaf h]
      exact .none
  | @dict d h =>
      rw [truthy_dict h]
      exact .some (.dict (set_ne_nil d))
  | list h hbare hdict =>
      rw [truthy_list h]
      exact .none

/-! ### The keys -/

variable {pks : Option (List Str)} {k : Kind}

/-- What is put under a name, given what was there. -/
def entry (pks : Option (List Str)) (name : Str) (info : Option Value) : List Str → Str → Option Value
  | [], value =>
    some (match if name = str "pks" then pks else none with
      | some values => .list (values.map .leaf)
      | none => .leaf value)
  | index :: rest, value =>
    (chain rest value).bind fun item =>
      if matches_digit index then put_list info [(index, item)] else put_dict info [(index, item)]

theorem put_entry (pks : Option (List Str)) (d : Items) (name : Str) (rest : List Str) (value : Str) :
    put pks d (name :: rest) value = (entry pks name (get d name) rest value).map (set d name) := by
  cases rest with
  | nil =>
      cases pks with
      | none => simp [put, entry]
      | some values => by_cases h : name = str "pks" <;> simp [put, entry, h]
  | cons index rest =>
      rw [put.eq_def]
      dsimp only
      rw [put_single, entry]
      cases chain rest value with
      | none => rfl
      | some item => rfl

theorem plain_kind (values : Option (List Str)) (value : Str) :
    HasKind (some (match values with
      | some values => .list (values.map .leaf)
      | none => .leaf value)) (plain values value) := by
  cases values with
  | none =>
      rw [plain]
      dsimp only
      split_ifs with h
      · exact .nothing (by simp [Value.truthy, h])
      · exact .text h
  | some values =>
      rw [plain]
      dsimp only
      split_ifs with h
      · exact .nothing (by simp [Value.truthy, h])
      · have hlength : (values.map Value.leaf).length = values.length := List.length_map Value.leaf
        rw [← hlength]
        refine .list (by simpa using h) (Nat.le_refl _) fun position hposition => ?_
        refine iff_of_false ?_ (Nat.not_le.mpr hposition)
        rintro ⟨d, hd⟩
        simp at hd

variable (pks) in
/-- **What is put has the kind that the key leaves**, and is not put where it leaves none. -/
theorem entry_kind (name : Str) (hinfo : HasKind info k) (rest : List Str) (value : Str) :
    Agree (entry pks name info rest value)
      (k.after (if name = str "pks" then pks else none) rest value) := by
  cases rest with
  | nil => exact .some (plain_kind _ value)
  | cons index rest =>
      rw [entry, Kind.after]
      by_cases hzeros : Zeros rest
      · obtain ⟨item, hitem⟩ := Option.isSome_iff_exists.mp (chain_isSome.mpr hzeros)
        rw [if_pos hzeros, hitem, Option.bind_some]
        split_ifs
        · exact put_list_kind hinfo hitem
        · exact put_dict_kind hinfo
      · rw [if_neg hzeros, Option.not_isSome_iff_eq_none.mp fun h => hzeros (chain_isSome.mp h)]
        exact .none

theorem get_set (d : Items) (name : Str) (v : Value) (other : Str) :
    get (set d name v) other = if other = name then some v else get d other := by
  by_cases hmem : name ∈ d.map Prod.fst
  · have hsame (q : Str × Value) : ((if q.1 = name then (name, v) else q).1 = other) ↔ q.1 = other := by
      split_ifs with h
      · rw [h]
      · exact Iff.rfl
    rw [set, if_pos hmem, get, List.find?_map, get]
    simp only [Function.comp_def, hsame]
    split_ifs with heq
    · subst heq
      obtain ⟨q, hq, hname⟩ := List.mem_map.mp hmem
      cases hfind : d.find? fun p => p.1 = other with
      | none => exact absurd (decide_eq_true hname) (List.find?_eq_none.mp hfind q hq)
      | some p =>
          have hp : p.1 = other := by simpa using List.find?_some hfind
          simp [hp]
    · cases hfind : d.find? fun p => p.1 = other with
      | none => rfl
      | some p =>
          have hp : p.1 = other := by simpa using List.find?_some hfind
          simp [hp, heq]
  · rw [set_of_notMem hmem]
    split_ifs with heq
    · exact heq ▸ get_last hmem v
    · have hne : (decide (name = other)) = false := decide_eq_false (Ne.symm heq)
      simp [get, List.find?_append, hne]

/-- The keys of each name decide, one after another. -/
theorem foldlM_isSome_iff {items : List (Str × Str)} {kinds : Str → Kind}
    (hd : ∀ name, HasKind (get d name) (kinds name)) :
    (items.foldlM (fun d p => put pks d (p.1.splitOn '.'.toNat) p.2) d).isSome ↔
      ∀ name, ((keysOf items name).foldlM
        (fun k p => Kind.after (if name = str "pks" then pks else none) k p.1 p.2) (kinds name)).isSome := by
  induction items generalizing d kinds with
  | nil => simp [keysOf]
  | cons p items ih =>
      obtain ⟨name, rest, hsplit⟩ := List.exists_cons_of_ne_nil (List.splitOn_ne_nil '.'.toNat p.1)
      have hkeys (other : Str) : keysOf (p :: items) other =
          if name = other then (rest, p.2) :: keysOf items other else keysOf items other := by
        simp only [keysOf, List.filterMap_cons, hsplit, List.head?_cons, Option.some.injEq, List.tail_cons]
        split_ifs <;> rfl
      rw [List.foldlM_cons, hsplit, put_entry]
      have hentry := entry_kind pks name (hd name) rest p.2
      generalize hafter :
        Kind.after (if name = str "pks" then pks else none) (kinds name) rest p.2 = k' at hentry
      generalize entry pks name (get d name) rest p.2 = v at hentry
      cases hentry with
      | none =>
          refine iff_of_false (by simp) fun hall => ?_
          have hname := hall name
          rw [hkeys, if_pos rfl, List.foldlM_cons, hafter] at hname
          cases hname
      | @some v k' hkind =>
          rw [Option.map_some, Option.bind_eq_bind, Option.bind_some,
            @ih _ (Function.update kinds name k') fun other => ?_]
          · refine forall_congr' fun other => ?_
            rw [hkeys]
            by_cases heq : name = other
            · subst heq
              rw [if_pos rfl, List.foldlM_cons, hafter, Function.update_self]
              rfl
            · rw [if_neg heq, Function.update_of_ne (Ne.symm heq)]
          · rw [get_set]
            by_cases heq : other = name
            · subst heq
              rw [if_pos rfl, Function.update_self]
              exact hkind
            · rw [if_neg heq, Function.update_of_ne heq]
              exact hd other

end

/-- `format_data` gives a dict if and only if the keys of each name fit together. -/
theorem format_data_isSome_iff (data : FormData) : (format_data data).isSome ↔ ∀ name, Fits data name :=
  foldlM_isSome_iff fun _ => .nothing rfl

theorem parse_escaped_iff (data : FormData) : parse (.ok data) = .error .escaped ↔ format_data data = none := by
  rw [parse]
  cases format_data data <;> simp

/-- **No exception escapes** `parse` if and only if Django's parser raises, or the keys of each name fit
together. -/
theorem parse_iff (parsed : Except String FormData) :
    parse parsed ≠ .error .escaped ↔ ∀ data, parsed = .ok data → ∀ name, Fits data name := by
  cases parsed with
  | error exc => simp [parse]
  | ok data =>
      rw [ne_eq, parse_escaped_iff, ← ne_eq, Option.ne_none_iff_isSome, format_data_isSome_iff]
      simp only [Except.ok.injEq, forall_eq']

/-- A list index with a letter, a gap in a list, a key that is a scalar and a prefix, and a name that is
a list and a dict. -/
theorem parse_escapes :
    parse (.ok (.dict [(str "a.1b.c", str "x")])) = .error .escaped ∧
    parse (.ok (.dict [(str "a.1.b", str "x")])) = .error .escaped ∧
    parse (.ok (.dict [(str "a", str "x"), (str "a.b", str "y")])) = .error .escaped ∧
    parse (.ok (.dict [(str "a.0.b", str "x"), (str "a.c", str "y")])) = .error .escaped := by
  simp only [parse_escaped_iff]
  decide +kernel

end InfraHub.Drf
