import InfraHub.Common.CacheList
import InfraHub.Lib.Dict
import InfraHub.Lib.Redis
import InfraHub.Settings.Setting
import Mathlib.Data.List.Perm.Subperm

/-!
# Common — CacheSet and CacheSortedSet

A value is pushed and popped as its JSON text; `exist` asks for the value as Redis takes it.

* `Agrees`: what is read of a set, after some operations, about one value.
* `membership_iff`: it agrees with the contents exactly under `Ready`, for both classes.

Values are equal as Python compares them: `1`, `1.0` and `True` are one value, with three texts.
-/

namespace InfraHub.Common.Cache
open InfraHub.Lib (Run Str str Dict)
open InfraHub.Lib.Json
open InfraHub.Lib.Redis
open InfraHub.Common.CacheList (format_return lrange lrange_all)
open InfraHub.Settings (Compare eq to_int)

variable {F N S : Type}

/-! ### Values -/

inductive Scalar (F : Type)
  | null
  | bool (b : Bool)
  | int (n : Int)
  | float (x : F)
  | str (s : Str)

def Scalar.value : Scalar F → Value F
  | .null => .null
  | .bool b => .bool b
  | .int n => .int n
  | .float x => .float x
  | .str s => .str s

/-- It is a number, and its texts have no surrogates that would be joined. -/
def Scalar.Proper (fl : Floats F) : Scalar F → Prop
  | .float x => fl.repr x ≠ Lib.str "NaN"
  | .str s => Lib.Json.Proper s
  | _ => True

structure Element (fl : Floats F) where
  scalar : Scalar F
  proper : scalar.Proper fl

def Element.value {fl : Floats F} (v : Element fl) : Value F := v.scalar.value

/-- The numbers that the floats and the integers stand for. -/
structure Numbers (F N : Type) where
  of_float : F → N
  of_int : Int → N
  injective : Function.Injective of_int

/-- Numbers are equal that are the same number. -/
def Numbers.compare [DecidableEq N] (num : Numbers F N) (fl : Floats F) : Compare fl where
  eq x y := num.of_float x = num.of_float y
  eq_int x n := num.of_float x = num.of_int n
  refl _ _ := decide_eq_true rfl

/-! ### The classes -/

section
variable {fl : Floats F} [DecidableEq N] (num : Numbers F N)

/-- A scalar can always be written. -/
def format_input (v : Element fl) : Str := dumps fl true v.value

/-- `repr` of the floats that JSON writes in another way. -/
def reprs : List (Str × Str) :=
  [(str "NaN", str "nan"), (str "Infinity", str "inf"), (str "-Infinity", str "-inf")]

/-- There is no UTF-8 for a surrogate. -/
def utf8 (s : Str) : Bool := s.all fun c => !high c && !low c

/-- How a value is sent to Redis: a number by its `repr`, a text as it is, others not at all. -/
def encode (fl : Floats F) : Scalar F → Option Str
  | .int n => some (strOfInt n)
  | .float x => some ((reprs.lookup (fl.repr x)).getD (fl.repr x))
  | .str s => if utf8 s then some s else none
  | _ => none

/-- `a == b` -/
def same (v w : Element fl) : Bool := eq (num.compare fl) v.value w.value

/-- `v in values` -/
def isin (v : Element fl) (values : List (Value F)) : Bool :=
  values.any fun w => eq (num.compare fl) w v.value

/-- One more, if no equal one is there. -/
def put {α : Type} (equal : α → α → Bool) (q : List α) (x : α) : List α :=
  if q.any (equal · x) then q else q ++ [x]

namespace CacheSet

def get_all (fl : Floats F) (s : MemberSet Str) : List (Value F) :=
  (s.smembers.map (format_return fl)).foldl (put (eq (num.compare fl))) []

def exist (s : MemberSet Str) (val : Element fl) : Option Bool :=
  (encode fl val.scalar).map s.sismember

def count (s : MemberSet Str) : Nat := s.scard

def push (s : MemberSet Str) (val : Element fl) (args : List (Element fl)) : MemberSet Str :=
  s.sadd (format_input val :: args.map format_input)

def pop (s : MemberSet Str) (val : Element fl) : MemberSet Str := s.srem (format_input val)

end CacheSet

namespace CacheSortedSet

variable [LinearOrder S]

def get_members (fl : Floats F) (z : SortedSet Str S) (start stop : Int) : List (Value F) :=
  (lrange z.members.reverse start stop).map (format_return fl)

def get_all (fl : Floats F) (z : SortedSet Str S) : List (Value F) := get_members fl z 0 (-1)

/-- `bool(None)` and `bool(0)` are false. -/
def exist (z : SortedSet Str S) (val : Element fl) : Option Bool :=
  (encode fl val.scalar).map fun text => (z.zrank text).any (· ≠ 0)

def count (z : SortedSet Str S) : Nat := z.zcard

/-- Every value with the time at which it is written. -/
def push (z : SortedSet Str S) (val : Element fl × S) (args : List (Element fl × S)) :
    SortedSet Str S :=
  let map_data := Dict.ofList ((val :: args).map fun x => (format_input x.1, x.2))
  z.zadd map_data.items

def pop (z : SortedSet Str S) (val : Element fl) : SortedSet Str S := z.zrem (format_input val)

end CacheSortedSet

/-! ### The operations -/

/-- A set takes no notice of the times. -/
inductive Op (fl : Floats F) (S : Type)
  | push (val : Element fl × S) (args : List (Element fl × S))
  | pop (val : Element fl)
  | delete

def CacheSet.next (s : MemberSet Str) : Op fl S → MemberSet Str
  | .push val args => CacheSet.push s val.1 (args.map Prod.fst)
  | .pop val => CacheSet.pop s val
  | .delete => .empty

def CacheSortedSet.next [LinearOrder S] (z : SortedSet Str S) : Op fl S → SortedSet Str S
  | .push val args => CacheSortedSet.push z val args
  | .pop val => CacheSortedSet.pop z val
  | .delete => .empty

def CacheSet.Step (s : MemberSet Str) (op : Op fl S) (s' : MemberSet Str) : Prop :=
  CacheSet.next s op = s'

def CacheSortedSet.Step [LinearOrder S] (z : SortedSet Str S) (op : Op fl S)
    (z' : SortedSet Str S) : Prop :=
  CacheSortedSet.next z op = z'

/-! ### What is asked of them -/

/-- The contents, if values that are `equal` are one value. -/
def contents (equal : Element fl → Element fl → Bool) (q : List (Element fl)) :
    Op fl S → List (Element fl)
  | .push val args => ((val :: args).map Prod.fst).foldl (put equal) q
  | .pop val => q.filter fun x => !equal x val
  | .delete => []

/-- What was pushed and not popped since. -/
def left (equal : Element fl → Element fl → Bool) (ops : List (Op fl S)) : List (Element fl) :=
  ops.foldl (contents equal) []

/-- What is read agrees, about `v`; `after` is what there is after `v` was popped. -/
structure Agrees (ops : List (Op fl S)) (v : Element fl) (exist : Option Bool) (count : Nat)
    (all after : List (Value F)) : Prop where
  exist : exist = some (isin num v all)
  count : count = (left (same num) ops).length
  pop : ∀ w : Element fl, isin num w after ↔ isin num w all ∧ ¬ same num v w

/-! ### The condition -/

/-- Values with the same text. -/
def same_text (v w : Element fl) : Bool := format_input v = format_input w

/-- Whether `exist` finds what it should: a number, unless it is infinite or the lowest; a text by
chance, if it is the text of a member. -/
def Found (lowest : Option Str) (kept : List (Element fl)) (v : Element fl) : Prop :=
  let member := ∃ x ∈ kept, same_text x v
  match v.scalar with
  | .int _ => member → lowest ≠ some (format_input v)
  | .float x => member → fl.Finite x ∧ lowest ≠ some (format_input v)
  | .str s => utf8 s ∧ ((∃ x ∈ kept, format_input x = s ∧ lowest ≠ some s) ↔ member)
  | _ => False

/-- **The condition**: what is kept are no two equal values, none of them popped as an equal one;
`v` is equal to no other of them, and is found if it is one. -/
structure Ready (lowest : Option Str) (ops : List (Op fl S)) (v : Element fl) : Prop where
  apart : (left same_text ops).Pairwise fun x y => ¬ same num x y
  still : ∀ x ∈ left same_text ops, ∃ y ∈ left (same num) ops, same num x y
  only : ∀ x ∈ left same_text ops, same num x v → same_text x v
  found : Found lowest (left same_text ops) v

end

/-! ### Python's `==` on scalars -/

/-- What a value is told apart by. -/
inductive Key (N : Type)
  | null
  | number (n : N)
  | str (s : Str)

section
variable {fl : Floats F} [DecidableEq N] {num : Numbers F N} {v w x y : Element fl}

def Scalar.key (num : Numbers F N) : Scalar F → Key N
  | .null => .null
  | .bool b => .number (num.of_int (if b then 1 else 0))
  | .int n => .number (num.of_int n)
  | .float x => .number (num.of_float x)
  | .str s => .str s

theorem eq_iff_key (v w : Scalar F) :
    eq (num.compare fl) v.value w.value ↔ v.key num = w.key num := by
  have hint (n m : Int) : num.of_int n = num.of_int m ↔ n = m := num.injective.eq_iff
  cases v <;> cases w <;>
    simp [Scalar.value, Scalar.key, eq, to_int, Numbers.compare, hint, eq_comm]

theorem same_iff_key (v w : Element fl) : same num v w ↔ v.scalar.key num = w.scalar.key num :=
  eq_iff_key ..

end

/-! ### Texts -/

section
variable {fl : Floats F} {v w x y : Element fl}

theorem value_injective {v w : Scalar F} (h : v.value = w.value) : v = w := by
  cases v <;> cases w <;> simp_all [Scalar.value]

theorem Element.readable (v : Element fl) : v.value.Of (Readable true) fun _ => True := by
  obtain ⟨v, hv⟩ := v
  cases v with
  | null => exact .null
  | bool b => exact .bool b
  | int n => exact .int n
  | float x => exact .float trivial
  | str s => exact .str (readable_of_proper fun _ => hv)

theorem loads_format_input (v : Element fl) : loads fl (format_input v) = some v.value :=
  loads_dumps v.readable

theorem format_return_input (v : Element fl) : format_return fl (format_input v) = v.value := by
  rw [format_return, loads_format_input, Option.getD_some]

/-- Different values have different texts. -/
theorem format_input_inj : format_input v = format_input w ↔ v.scalar = w.scalar := by
  refine ⟨fun h => value_injective (Option.some.inj ?_), fun h => ?_⟩
  · have hloads := congrArg (loads fl) h
    rwa [loads_format_input, loads_format_input] at hloads
  · rw [format_input, format_input, Element.value, Element.value, h]

theorem same_text_iff (v w : Element fl) :
    same_text v w ↔ format_input v = format_input w := decide_eq_true_iff

end

/-! ### Values without their equals -/

section
variable {α κ : Type} {equal : α → α → Bool} {key : α → κ}

/-- What does not tell equal values apart is told of a value that is put, though an equal one may
stand for it. -/
theorem any_foldl_put {p : α → Bool} (values q : List α)
    (h : ∀ x ∈ q ++ values, ∀ y ∈ values, equal x y → p x = p y) :
    (values.foldl (put equal) q).any p = (q ++ values).any p := by
  induction values generalizing q with
  | nil => rw [List.foldl_nil, List.append_nil]
  | cons x values ih =>
      have hx : x ∈ q ++ x :: values := by simp
      rw [List.foldl_cons, put]
      split
      · next hany =>
        obtain ⟨z, hz, heq⟩ := List.any_eq_true.mp hany
        have hzx : p z = p x := h z (List.mem_append_left _ hz) x List.mem_cons_self heq
        have hq : p x = true → q.any p = true := fun hp =>
          List.any_eq_true.mpr ⟨z, hz, hzx.trans hp⟩
        rw [ih q fun a ha b hb => h a (by simp at ha ⊢; tauto) b (List.mem_cons_of_mem _ hb),
          List.any_append, List.any_append, List.any_cons]
        cases hp : p x
        · rfl
        · simp [hq hp]
      · rw [ih _ fun a ha b hb => h a (by simpa using ha) b (List.mem_cons_of_mem _ hb),
          List.append_assoc, List.singleton_append]

variable (hkey : ∀ x y, equal x y ↔ key x = key y)
include hkey

theorem mem_keys_put (values q : List α) (k : κ) :
    k ∈ (values.foldl (put equal) q).map key ↔ k ∈ q.map key ∨ k ∈ values.map key := by
  classical
  have hany := any_foldl_put (p := fun x => decide (key x = k)) values q fun x _ y _ h => by
    rw [(hkey x y).mp h]
  have hmem (l : List α) : k ∈ l.map key ↔ l.any (fun x => decide (key x = k)) := by simp
  rw [hmem, hany, ← hmem, List.map_append, List.mem_append]

theorem nodup_keys_put (values : List α) {q : List α} (h : (q.map key).Nodup) :
    ((values.foldl (put equal) q).map key).Nodup := by
  induction values generalizing q with
  | nil => exact h
  | cons x values ih =>
      rw [List.foldl_cons, put]
      split
      · exact ih h
      · next hany =>
        refine ih ?_
        rw [List.map_append, List.map_singleton, List.nodup_append]
        refine ⟨h, List.nodup_singleton _, fun a ha b hb hab => hany ?_⟩
        obtain ⟨z, hz, rfl⟩ := List.mem_map.mp ha
        rw [List.mem_singleton] at hb
        exact List.any_eq_true.mpr ⟨z, hz, (hkey z x).mpr (hab.trans hb)⟩

end

/-! ### What is left -/

section
variable {fl : Floats F} {κ : Type} {equal : Element fl → Element fl → Bool}
  {key : Element fl → κ} {q : List (Element fl)} {v : Element fl}

/-- What an operation pushes, if anything. -/
def Op.pushed : Op fl S → List (Element fl)
  | .push val args => (val :: args).map Prod.fst
  | _ => []

/-- What an operation removes. -/
def Op.Removes (key : Element fl → κ) (k : κ) : Op fl S → Prop
  | .push _ _ => False
  | .pop val => k = key val
  | .delete => True

variable (hkey : ∀ x y, equal x y ↔ key x = key y)
include hkey

theorem mem_contents (q : List (Element fl)) (op : Op fl S) (k : κ) :
    k ∈ (contents equal q op).map key ↔
      k ∈ q.map key ∧ ¬ op.Removes key k ∨ k ∈ op.pushed.map key := by
  cases op with
  | push val args =>
      rw [contents, mem_keys_put hkey]
      simp [Op.Removes, Op.pushed]
  | pop val =>
      simp only [contents, Op.Removes, Op.pushed, List.mem_map, List.mem_filter, Bool.not_eq_true',
        ← Bool.not_eq_true, hkey]
      constructor
      · rintro ⟨x, ⟨hx, hne⟩, rfl⟩
        exact .inl ⟨⟨x, hx, rfl⟩, hne⟩
      · rintro (⟨⟨x, hx, rfl⟩, hne⟩ | ⟨x, hx, -⟩)
        · exact ⟨x, ⟨hx, hne⟩, rfl⟩
        · cases hx
  | delete => simp [contents, Op.Removes, Op.pushed]

theorem nodup_contents (h : (q.map key).Nodup) (op : Op fl S) :
    ((contents equal q op).map key).Nodup := by
  cases op with
  | push val args => exact nodup_keys_put hkey _ h
  | pop val => exact h.sublist (List.filter_sublist.map _)
  | delete => exact List.nodup_nil

theorem nodup_left (ops : List (Op fl S)) : ((left equal ops).map key).Nodup := by
  exact List.foldlRecOn (motive := fun q : List (Element fl) => (q.map key).Nodup) ops _ List.nodup_nil
    fun q hq op _ => nodup_contents hkey hq op

omit hkey in
theorem left_snoc (ops : List (Op fl S)) (op : Op fl S) :
    left equal (ops ++ [op]) = contents equal (left equal ops) op := List.foldl_concat ..

end

/-! ### The texts that are kept -/

section
variable {fl : Floats F} [DecidableEq N] {num : Numbers F N} {ops : List (Op fl S)}

/-- The texts are those of what is left, each of them once. -/
structure Holds (ops : List (Op fl S)) (texts : List Str) : Prop where
  nodup : texts.Nodup
  mem : ∀ t, t ∈ texts ↔ t ∈ (left same_text ops).map format_input

theorem CacheSet.mem_next (s : MemberSet Str) (op : Op fl S) (t : Str) :
    t ∈ (CacheSet.next s op).smembers ↔
      t ∈ s.smembers ∧ ¬ op.Removes format_input t ∨ t ∈ op.pushed.map format_input := by
  cases op with
  | push val args =>
      rw [CacheSet.next, CacheSet.push, MemberSet.mem_sadd]
      simp [Op.Removes, Op.pushed]
  | pop val =>
      rw [CacheSet.next, CacheSet.pop, MemberSet.mem_srem]
      simp [Op.Removes, Op.pushed]
  | delete => simp [CacheSet.next, MemberSet.empty, Op.Removes, Op.pushed]

theorem CacheSortedSet.mem_next [LinearOrder S] (z : SortedSet Str S) (op : Op fl S) (t : Str) :
    t ∈ (CacheSortedSet.next z op).members ↔
      t ∈ z.members ∧ ¬ op.Removes format_input t ∨ t ∈ op.pushed.map format_input := by
  cases op with
  | push val args =>
      rw [CacheSortedSet.next, CacheSortedSet.push, SortedSet.mem_zadd, Dict.mem_keys_ofList]
      simp [Op.Removes, Op.pushed]
  | pop val =>
      rw [CacheSortedSet.next, CacheSortedSet.pop, SortedSet.mem_zrem]
      simp [Op.Removes, Op.pushed]
  | delete => simp [CacheSortedSet.next, SortedSet.empty, SortedSet.members, Op.Removes, Op.pushed]

theorem Holds.step {texts texts' : List Str} (h : Holds ops texts) (hnodup : texts'.Nodup)
    {op : Op fl S} (hmem : ∀ t, t ∈ texts' ↔
      t ∈ texts ∧ ¬ op.Removes format_input t ∨ t ∈ op.pushed.map format_input) :
    Holds (ops ++ [op]) texts' := by
  refine ⟨hnodup, fun t => ?_⟩
  rw [hmem, h.mem, left_snoc, mem_contents same_text_iff]

theorem holds_nil : Holds ([] : List (Op fl S)) [] := ⟨List.nodup_nil, fun _ => Iff.rfl⟩

theorem CacheSet.holds_run {s : MemberSet Str} (r : Run CacheSet.Step .empty ops s) :
    Holds ops s.smembers := by
  refine r.invariant_log (I := fun ops s => Holds ops s.smembers) (fun ops s op s' h hs => ?_)
    holds_nil
  exact hs ▸ h.step (CacheSet.next s op).nodup (CacheSet.mem_next s op)

theorem CacheSortedSet.holds_run [LinearOrder S] {z : SortedSet Str S}
    (r : Run CacheSortedSet.Step .empty ops z) : Holds ops z.members := by
  refine r.invariant_log (I := fun ops z => Holds ops z.members) (fun ops z op z' h hs => ?_)
    holds_nil
  exact hs ▸ h.step (CacheSortedSet.next z op).nodup (CacheSortedSet.mem_next z op)

/-- What is left is kept, as itself or an equal value. -/
theorem kept_of_left (ops : List (Op fl S)) (k : Key N)
    (h : k ∈ (left (same num) ops).map fun x => x.scalar.key num) :
    k ∈ (left same_text ops).map fun x => x.scalar.key num := by
  induction ops using List.reverseRecOn with
  | nil => exact h
  | append_singleton ops op ih =>
      rw [left_snoc, mem_contents same_iff_key] at h
      rw [left_snoc]
      have hof {x : Element fl}
          (hx : format_input x ∈ (contents same_text (left same_text ops) op).map format_input) :
          x.scalar.key num ∈
            (contents same_text (left same_text ops) op).map fun x => x.scalar.key num := by
        obtain ⟨y, hy, heq⟩ := List.mem_map.mp hx
        exact List.mem_map.mpr ⟨y, hy, by rw [format_input_inj.mp heq]⟩
      rcases h with ⟨hleft, hremoves⟩ | hpushed
      · obtain ⟨x, hx, rfl⟩ := List.mem_map.mp (ih hleft)
        refine hof ((mem_contents same_text_iff _ op _).mpr
          (.inl ⟨List.mem_map_of_mem hx, fun h => hremoves ?_⟩))
        cases op with
        | push val args => exact h
        | pop val => exact congrArg (Scalar.key num) (format_input_inj.mp h)
        | delete => trivial
      · obtain ⟨x, hx, rfl⟩ := List.mem_map.mp hpushed
        exact hof ((mem_contents same_text_iff _ op _).mpr
          (.inr (List.mem_map_of_mem hx)))

end

/-! ### What is read -/

section
variable {fl : Floats F} [DecidableEq N] {num : Numbers F N} {ops : List (Op fl S)}
  {texts : List Str} {v : Element fl} {lowest : Option Str} {all after : List (Value F)}

theorem same_of_text {x y : Element fl} (h : same_text x y) : same num x y := by
  rw [same_iff_key, format_input_inj.mp ((same_text_iff ..).mp h)]

theorem Holds.mem_iff (h : Holds ops texts) {t : Str} :
    t ∈ texts ↔ ∃ x ∈ left same_text ops, format_input x = t :=
  (h.mem t).trans List.mem_map

/-- The values of the texts are those that are kept. -/
theorem Holds.any_values (h : Holds ops texts) {p : Value F → Bool} :
    (texts.map (format_return fl)).any p ↔ ∃ x ∈ left same_text ops, p x.value := by
  simp only [List.any_map, List.any_eq_true, h.mem_iff, Function.comp_apply]
  constructor
  · rintro ⟨t, ⟨x, hx, rfl⟩, hp⟩
    exact ⟨x, hx, format_return_input x ▸ hp⟩
  · rintro ⟨x, hx, hp⟩
    exact ⟨format_input x, ⟨x, hx, rfl⟩, (format_return_input x).symm ▸ hp⟩

variable (num) in
/-- `count` is right if nothing that is kept has an equal, and all of it is left. -/
theorem Holds.count_iff (h : Holds ops texts) :
    texts.length = (left (same num) ops).length ↔
      ((left same_text ops).Pairwise fun x y => ¬ same num x y) ∧
        ∀ x ∈ left same_text ops, ∃ y ∈ left (same num) ops, same num x y := by
  have hkept := nodup_left same_text_iff ops
  have hlength : texts.length = (left same_text ops).length := by
    rw [((List.perm_ext_iff_of_nodup h.nodup hkept).mpr h.mem).length_eq, List.length_map]
  have hnodup : ((left (same num) ops).map fun x => x.scalar.key num).Nodup :=
    nodup_left same_iff_key ops
  have hsub : (left (same num) ops).map (fun x => x.scalar.key num) ⊆
      (left same_text ops).map fun x => x.scalar.key num := fun k hk => kept_of_left ops k hk
  have hapart : ((left same_text ops).Pairwise fun x y => ¬ same num x y) ↔
      ((left same_text ops).map fun x => x.scalar.key num).Nodup := by
    simp only [List.Nodup, List.pairwise_map, same_iff_key, ne_eq]
  have hstill : (∀ x ∈ left same_text ops, ∃ y ∈ left (same num) ops, same num x y) ↔
      (left same_text ops).map (fun x => x.scalar.key num) ⊆
        (left (same num) ops).map fun x => x.scalar.key num := by
    rw [List.subset_def, List.forall_mem_map]
    simp only [List.mem_map, same_iff_key]
    exact forall₂_congr fun x _ => exists_congr fun y => and_congr_right fun _ => eq_comm
  rw [hlength, hapart, hstill]
  have hsubperm := List.Nodup.subperm hnodup hsub
  constructor
  · intro hlen
    have hperm := hsubperm.perm_of_length_le (by simp [hlen])
    exact ⟨hperm.nodup_iff.mp hnodup, hperm.symm.subset⟩
  · rintro ⟨hk, hsub'⟩
    have hperm := (List.perm_ext_iff_of_nodup hk hnodup).mpr fun k => ⟨@hsub' k, @hsub k⟩
    simpa using hperm.length_eq

/-- Nothing is popped with `v` if nothing else that is kept is equal to it. -/
theorem pop_iff (hall : ∀ w, isin num w all ↔ ∃ x ∈ left same_text ops, same num x w)
    (hafter : ∀ w, isin num w after ↔
      ∃ x ∈ left same_text ops, ¬ same_text x v ∧ same num x w) :
    (∀ w : Element fl, isin num w after ↔ isin num w all ∧ ¬ same num v w) ↔
      ∀ x ∈ left same_text ops, same num x v → same_text x v := by
  simp only [hall, hafter]
  constructor
  · intro h x hx hxv
    by_contra hne
    have hself : same num x x := (same_iff_key ..).mpr rfl
    refine ((h x).mp ⟨x, hx, hne, hself⟩).2 ?_
    exact (same_iff_key ..).mpr ((same_iff_key ..).mp hxv).symm
  · intro h w
    constructor
    · rintro ⟨x, hx, hne, hxw⟩
      refine ⟨⟨x, hx, hxw⟩, fun hvw => hne (h x hx ?_)⟩
      exact (same_iff_key ..).mpr (((same_iff_key ..).mp hxw).trans ((same_iff_key ..).mp hvw).symm)
    · rintro ⟨⟨x, hx, hxw⟩, hvw⟩
      refine ⟨x, hx, fun htext => hvw ?_, hxw⟩
      have hxv : x.scalar.key num = v.scalar.key num := (same_iff_key ..).mp (same_of_text htext)
      exact (same_iff_key ..).mpr (hxv.symm.trans ((same_iff_key ..).mp hxw))

/-- What is no JSON is no text of a value. -/
theorem format_input_ne {t : Str} (h : loads fl t = none) (x : Element fl) : format_input x ≠ t := by
  rintro rfl
  rw [loads_format_input] at h
  cases h

theorem infinite_text {x : F} (hnan : fl.repr x ≠ str "NaN") (h : ¬ fl.Finite x) :
    ∃ t, encode fl (.float x) = some t ∧ loads fl t = none := by
  simp only [Floats.Finite, not_not, nonfinite, List.mem_cons, List.not_mem_nil, or_false] at h
  rcases h with h | h | h
  · exact absurd h hnan
  · exact ⟨str "inf", by rw [encode, h]; rfl, rfl⟩
  · exact ⟨str "-inf", by rw [encode, h]; rfl, rfl⟩

theorem finite_text {x : F} (h : fl.Finite x) : encode fl (.float x) = some (fl.repr x) := by
  have hnone : reprs.lookup (fl.repr x) = none := by
    rw [List.lookup_eq_none_iff]
    intro p hp
    have hmem : p.1 ∈ nonfinite := by
      have hnames : ∀ p ∈ reprs, p.1 ∈ nonfinite := by decide +kernel
      exact hnames p hp
    exact bne_iff_ne.mpr fun heq => h (heq ▸ hmem)
  rw [encode, hnone, Option.getD_none]

/-- Where `v` is equal to no other value that is kept, it is in the contents if it is kept. -/
theorem isin_iff (hall : ∀ w, isin num w all ↔ ∃ x ∈ left same_text ops, same num x w)
    (honly : ∀ x ∈ left same_text ops, same num x v → same_text x v) :
    isin num v all ↔ ∃ x ∈ left same_text ops, same_text x v := by
  rw [hall]
  exact ⟨fun ⟨x, hx, h⟩ => ⟨x, hx, honly x hx h⟩, fun ⟨x, hx, h⟩ => ⟨x, hx, same_of_text h⟩⟩

/-- What `exist` returns for a value that is sent as `t`. -/
theorem exist_iff (h : Holds ops texts) {t : Str} (ht : encode fl v.scalar = some t) {b : Bool}
    {p : Prop} (hb : b ↔ p) :
    (encode fl v.scalar).map (fun t => decide (t ∈ texts) && decide (lowest ≠ some t)) = some b ↔
      ((∃ x ∈ left same_text ops, format_input x = t) ∧ lowest ≠ some t ↔ p) := by
  rw [ht, Option.map_some, Option.some.injEq, Bool.eq_iff_iff, hb, Bool.and_eq_true,
    decide_eq_true_eq, decide_eq_true_eq, h.mem_iff]

theorem found_iff (h : Holds ops texts)
    (hall : ∀ w, isin num w all ↔ ∃ x ∈ left same_text ops, same num x w)
    (honly : ∀ x ∈ left same_text ops, same num x v → same_text x v) :
    (encode fl v.scalar).map (fun t => decide (t ∈ texts) && decide (lowest ≠ some t)) =
        some (isin num v all) ↔
      Found lowest (left same_text ops) v := by
  have hin := isin_iff hall honly
  -- a number that is sent as it is written
  have hnumber (ht : encode fl v.scalar = some (format_input v)) :
      (encode fl v.scalar).map (fun t => decide (t ∈ texts) && decide (lowest ≠ some t)) =
          some (isin num v all) ↔
        ((∃ x ∈ left same_text ops, same_text x v) → lowest ≠ some (format_input v)) := by
    rw [exist_iff h ht hin]
    simp only [same_text_iff]
    exact and_iff_left_iff_imp
  obtain ⟨scalar, hproper⟩ := v
  cases scalar with
  | null => exact iff_of_false (by simp [encode]) id
  | bool b => exact iff_of_false (by simp [encode]) id
  | int n => exact hnumber rfl
  | float x =>
      by_cases hfinite : fl.Finite x
      · exact (hnumber (finite_text hfinite)).trans
          (forall_congr' fun _ => (and_iff_right hfinite).symm)
      · obtain ⟨t, ht, hnone⟩ := infinite_text hproper hfinite
        rw [exist_iff h ht hin]
        have hno : ¬ ∃ x ∈ left same_text ops, format_input x = t :=
          fun ⟨x, _, hx⟩ => format_input_ne hnone x hx
        simp only [Found, hno, hfinite, false_and, false_iff, imp_false]
  | str s =>
      by_cases hutf8 : utf8 s
      · have ht : encode fl (.str s) = some s := if_pos hutf8
        rw [exist_iff h ht hin]
        have hcond : (∃ x ∈ left same_text ops, format_input x = s ∧ lowest ≠ some s) ↔
            (∃ x ∈ left same_text ops, format_input x = s) ∧ lowest ≠ some s :=
          ⟨fun ⟨x, hx, ht, hl⟩ => ⟨⟨x, hx, ht⟩, hl⟩, fun ⟨⟨x, hx, ht⟩, hl⟩ => ⟨x, hx, ht, hl⟩⟩
        simp only [Found, hutf8, hcond, true_and]
      · have hnone : encode fl (.str s) = none := if_neg hutf8
        simp only [Found, hnone, hutf8, Option.map_none, reduceCtorEq, false_and]

/-- **What is read of a set** that keeps its texts. -/
theorem agrees_iff (h : Holds ops texts)
    (hall : ∀ w, isin num w all ↔ ∃ x ∈ left same_text ops, same num x w)
    (hafter : ∀ w, isin num w after ↔
      ∃ x ∈ left same_text ops, ¬ same_text x v ∧ same num x w) :
    Agrees num ops v
        ((encode fl v.scalar).map fun t => decide (t ∈ texts) && decide (lowest ≠ some t))
        texts.length all after ↔
      Ready num lowest ops v := by
  have hcount := h.count_iff num
  have hpop := pop_iff hall hafter
  constructor
  · rintro ⟨hexist, hc, hp⟩
    obtain ⟨hapart, hstill⟩ := hcount.mp hc
    have honly := hpop.mp hp
    exact ⟨hapart, hstill, honly, (found_iff h hall honly).mp hexist⟩
  · rintro ⟨hapart, hstill, honly, hfound⟩
    exact ⟨(found_iff h hall honly).mpr hfound, hcount.mpr ⟨hapart, hstill⟩, hpop.mpr honly⟩

/-- Without the text of `v`. -/
theorem Holds.any_rest (h : Holds ops texts) {rest : List Str}
    (hrest : ∀ t, t ∈ rest ↔ t ∈ texts ∧ t ≠ format_input v) {p : Value F → Bool} :
    (rest.map (format_return fl)).any p ↔
      ∃ x ∈ left same_text ops, ¬ same_text x v ∧ p x.value := by
  simp only [List.any_map, List.any_eq_true, hrest, h.mem_iff, Function.comp_apply, same_text_iff]
  constructor
  · rintro ⟨t, ⟨⟨x, hx, rfl⟩, hne⟩, hp⟩
    exact ⟨x, hx, hne, format_return_input x ▸ hp⟩
  · rintro ⟨x, hx, hne, hp⟩
    exact ⟨format_input x, ⟨⟨x, hx, rfl⟩, hne⟩, (format_return_input x).symm ▸ hp⟩

/-- A Python set of values has the same values in it. -/
theorem isin_distinct (htexts : ∀ t ∈ texts, ∃ x : Element fl, format_input x = t)
    (v : Element fl) :
    isin num v ((texts.map (format_return fl)).foldl (put (eq (num.compare fl))) []) =
      isin num v (texts.map (format_return fl)) := by
  refine any_foldl_put _ [] fun a ha b hb hab => ?_
  have hvalue (c : Value F) (hc : c ∈ texts.map (format_return fl)) :
      ∃ x : Element fl, c = x.value := by
    obtain ⟨t, ht, rfl⟩ := List.mem_map.mp hc
    obtain ⟨x, rfl⟩ := htexts t ht
    exact ⟨x, format_return_input x⟩
  obtain ⟨x, rfl⟩ := hvalue a ha
  obtain ⟨y, rfl⟩ := hvalue b hb
  have hkey := (same_iff_key x y).mp hab
  have hx : same num x v ↔ x.scalar.key num = v.scalar.key num := same_iff_key ..
  have hy : same num y v ↔ y.scalar.key num = v.scalar.key num := same_iff_key ..
  rw [Bool.eq_iff_iff]
  exact hx.trans (hkey ▸ hy.symm)

theorem CacheSet.agrees_iff {s : MemberSet Str} (h : Holds ops s.smembers) (v : Element fl) :
    Agrees num ops v (CacheSet.exist s v) (CacheSet.count s) (CacheSet.get_all num fl s)
        (CacheSet.get_all num fl (CacheSet.pop s v)) ↔
      Ready num none ops v := by
  have htexts : ∀ t ∈ s.smembers, ∃ x : Element fl, format_input x = t := fun t ht => by
    obtain ⟨x, -, hx⟩ := h.mem_iff.mp ht
    exact ⟨x, hx⟩
  have hexist : CacheSet.exist s v = (encode fl v.scalar).map fun t =>
      decide (t ∈ s.smembers) && decide (none ≠ some t) := by
    rw [CacheSet.exist]
    exact congrArg (Option.map · _) (funext fun t => by simp [MemberSet.sismember])
  rw [hexist]
  refine Cache.agrees_iff h (fun w => ?_) fun w => ?_
  · rw [CacheSet.get_all, isin_distinct htexts]
    exact h.any_values
  · have hpop : ∀ t ∈ (CacheSet.pop s v).smembers, ∃ x : Element fl, format_input x = t :=
      fun t ht => htexts t (MemberSet.mem_srem.mp ht).1
    rw [CacheSet.get_all, isin_distinct hpop]
    exact h.any_rest fun t => MemberSet.mem_srem

theorem CacheSortedSet.agrees_iff [LinearOrder S] {z : SortedSet Str S} (h : Holds ops z.members)
    (v : Element fl) :
    Agrees num ops v (CacheSortedSet.exist z v) (CacheSortedSet.count z)
        (CacheSortedSet.get_all fl z) (CacheSortedSet.get_all fl (CacheSortedSet.pop z v)) ↔
      Ready num z.lowest ops v := by
  have hexist : CacheSortedSet.exist z v = (encode fl v.scalar).map fun t =>
      decide (t ∈ z.members) && decide (z.lowest ≠ some t) := by
    rw [CacheSortedSet.exist]
    exact congrArg (Option.map · _) (funext fun t => SortedSet.zrank_any.trans (by congr))
  have hcount : CacheSortedSet.count z = z.members.length := by
    rw [CacheSortedSet.count, SortedSet.zcard, SortedSet.members, List.length_map]
  have hget (z : SortedSet Str S) :
      CacheSortedSet.get_all fl z = (z.members.reverse).map (format_return fl) := by
    rw [CacheSortedSet.get_all, CacheSortedSet.get_members, lrange_all]
  rw [hexist, hcount, hget, hget]
  refine Cache.agrees_iff h (fun w => ?_) fun w => ?_
  · rw [isin, List.map_reverse, List.any_reverse]
    exact h.any_values
  · rw [isin, List.map_reverse, List.any_reverse]
    exact h.any_rest fun t => SortedSet.mem_zrem

end

/-- What is read of a set or a sorted set agrees with its contents exactly under the condition. -/
theorem membership_iff [DecidableEq N] [LinearOrder S] {fl : Floats F} (num : Numbers F N)
    {ops : List (Op fl S)} {s : MemberSet Str} {z : SortedSet Str S}
    (rs : Run CacheSet.Step .empty ops s) (rz : Run CacheSortedSet.Step .empty ops z)
    (v : Element fl) :
    (Agrees num ops v (CacheSet.exist s v) (CacheSet.count s) (CacheSet.get_all num fl s)
        (CacheSet.get_all num fl (CacheSet.pop s v)) ↔
      Ready num none ops v) ∧
    (Agrees num ops v (CacheSortedSet.exist z v) (CacheSortedSet.count z)
        (CacheSortedSet.get_all fl z) (CacheSortedSet.get_all fl (CacheSortedSet.pop z v)) ↔
      Ready num z.lowest ops v) := by
  exact ⟨CacheSet.agrees_iff (CacheSet.holds_run rs) v,
    CacheSortedSet.agrees_iff (CacheSortedSet.holds_run rz) v⟩

/-! ### A set of one text -/

/-- The numbers of the floats, of which there is none. -/
def integers : Numbers Unit Int := ⟨fun _ => 0, id, Function.injective_id⟩

def text (s : String) (h : Lib.Json.Proper (str s)) : Element CacheList.sample_floats :=
  ⟨.str (str s), h⟩

def letter : Element CacheList.sample_floats := text "a" (proper_of_ascii (by decide))

def one : Element CacheList.sample_floats := ⟨.int 1, trivial⟩

theorem membership_sample :
    let ops : List (Op CacheList.sample_floats Nat) := [.push (one, 0) []]
    (Agrees integers ops one (CacheSet.exist (CacheSet.push .empty one []) one)
        (CacheSet.count (CacheSet.push .empty one []))
        (CacheSet.get_all integers CacheList.sample_floats (CacheSet.push .empty one []))
        (CacheSet.get_all integers CacheList.sample_floats
          (CacheSet.pop (CacheSet.push .empty one []) one)) ↔
      Ready integers none ops one) ∧
    (Agrees integers ops one (CacheSortedSet.exist (CacheSortedSet.push .empty (one, 0) []) one)
        (CacheSortedSet.count (CacheSortedSet.push .empty (one, 0) []))
        (CacheSortedSet.get_all CacheList.sample_floats (CacheSortedSet.push .empty (one, 0) []))
        (CacheSortedSet.get_all CacheList.sample_floats
          (CacheSortedSet.pop (CacheSortedSet.push .empty (one, 0) []) one)) ↔
      Ready integers (CacheSortedSet.push .empty (one, 0) [] : SortedSet Str Nat).lowest ops one) :=
  membership_iff integers (.one rfl) (.one rfl) one

/-- **What was pushed is not there.** -/
theorem pushed_not_found :
    ¬ ∀ (ops : List (Op CacheList.sample_floats Nat)) (s : MemberSet Str),
      Run CacheSet.Step .empty ops s → ∀ v : Element CacheList.sample_floats,
        Agrees integers ops v (CacheSet.exist s v) (CacheSet.count s)
          (CacheSet.get_all integers CacheList.sample_floats s)
          (CacheSet.get_all integers CacheList.sample_floats (CacheSet.pop s v)) := by
  intro hall
  have hexist := (hall [.push (letter, 0) []] _ (.one rfl) letter).exist
  have hfalse : CacheSet.exist (CacheSet.push .empty letter []) letter = some false := by
    decide +kernel
  have htrue : isin integers letter (CacheSet.get_all integers CacheList.sample_floats
      (CacheSet.push .empty letter [])) = true := by
    decide +kernel
  change CacheSet.exist (CacheSet.push .empty letter []) letter = some (isin integers letter
    (CacheSet.get_all integers CacheList.sample_floats (CacheSet.push .empty letter []))) at hexist
  rw [hfalse, htrue] at hexist
  cases hexist

end InfraHub.Common.Cache
