import InfraHub.Lib.Json
import InfraHub.Lib.Run

/-!
# Common — CacheList

`CacheList`, a list in Redis that is pushed at its head, popped at its tail, and cut to `max_size`.

* `Holds`: the list has the elements of a queue, the newest first.  Every operation keeps it, for
  the queue that drops what comes when it is full (`holds_run`); so the list is bounded (`len_le`).
* `Newest` is what the list should be: the newest elements that are left.  It is that as long as
  nothing is dropped (`newest_of_fits`).

An element is a JSON value whose texts can be written and read (`Element`).
-/

namespace InfraHub.Common.CacheList
open InfraHub.Lib (Run Str str Throughout guarded throughout_of_guarded)
open InfraHub.Lib.Json

variable {F α : Type}

/-! ### Lists of Redis -/

/-- A negative index counts from the end. -/
def index (length : Nat) (i : Int) : Int := if i < 0 then length + i else i

/-- From `start` to `stop`, both of them with. -/
def lrange (l : List α) (start stop : Int) : List α :=
  let first := (index l.length start).toNat
  (l.drop first).take (index l.length stop - first + 1).toNat

def ltrim (l : List α) (start stop : Int) : List α := lrange l start stop

/-- Every value goes to the head. -/
def lpush (l values : List α) : List α := values.foldl (fun l value => value :: l) l

def llen (l : List α) : Nat := l.length

def rpop (l : List α) : Option α × List α := (l.getLast?, l.dropLast)

/-! ### The class -/

/-- What is pushed: its keys differ, and its strings have no surrogates that would be joined. -/
structure Element (F : Type) where
  value : Value F
  proper : value.Of Proper fun _ => True

section
variable (fl : Floats F) (max_size : Nat)

def auto_ltrim (l : List α) : List α :=
  let stop := llen l
  if max_size < stop then
    let start : Int := stop - max_size
    ltrim l start stop
  else l

def push (l : List Str) (json_data : Element F) (args : List (Element F)) : List Str :=
  auto_ltrim max_size (lpush l
    (dumps fl true json_data.value :: args.map fun x => dumps fl true x.value))

/-- An error is only logged. -/
def pop (l : List Str) : Value F × List Str :=
  let (b_data, l) := rpop l
  match b_data with
  | some text => (if text ≠ [] then (loads fl text).getD .null else .null, l)
  | none => (.null, l)

def len (l : List Str) : Nat := llen l

def format_return (data : Str) : Value F := (loads fl data).getD (.str data)

def get_all (l : List Str) : List (Value F) := (lrange l 0 (-1)).map (format_return fl)

end

/-! ### The operations -/

inductive Op (F : Type)
  | push (json_data : Element F) (args : List (Element F))
  | pop

/-- What is pushed, in its order. -/
def Op.pushed : Op F → List (Element F)
  | .push json_data args => json_data :: args
  | .pop => []

def next (fl : Floats F) (max_size : Nat) (l : List Str) : Op F → List Str
  | .push json_data args => push fl max_size l json_data args
  | .pop => (pop fl l).2

def Step (fl : Floats F) (max_size : Nat) (l : List Str) (op : Op F) (l' : List Str) : Prop :=
  next fl max_size l op = l'

/-! ### Queues, the oldest element first -/

/-- The newest `max_size` of a queue. -/
def newest (max_size : Nat) (q : List α) : List α := q.drop (q.length - max_size)

/-- The oldest are dropped. -/
def expected (max_size : Nat) (q : List (Element F)) : Op F → List (Element F)
  | .push json_data args => newest max_size (q ++ json_data :: args)
  | .pop => q.tail

/-- What comes when the queue is full is dropped. -/
def kept (max_size : Nat) (q : List (Element F)) : Op F → List (Element F)
  | .push json_data args => (q ++ json_data :: args).take max_size
  | .pop => q.tail

/-- What remains of what was pushed, if the oldest are dropped. -/
def remaining (max_size : Nat) (ops : List (Op F)) : List (Element F) :=
  ops.foldl (expected max_size) []

/-- The list of a queue. -/
def Holds (fl : Floats F) (q : List (Element F)) (l : List Str) : Prop :=
  l = (q.map fun x => dumps fl true x.value).reverse

/-- The list has the newest elements, and the oldest of them is popped. -/
def Newest (fl : Floats F) (max_size : Nat) (ops : List (Op F)) (l : List Str) : Prop :=
  len l ≤ max_size ∧
    get_all fl l = ((remaining max_size ops).map Element.value).reverse ∧
    (pop fl l).1 = ((remaining max_size ops).head?.map Element.value).getD .null

/-- **The condition**: what is pushed finds room. -/
def Fits (max_size : Nat) (l : List Str) (op : Op F) : Prop :=
  op = .pop ∨ len l + op.pushed.length ≤ max_size

/-! ### What the commands come to -/

theorem lpush_eq (l values : List α) : lpush l values = values.reverse ++ l := by
  induction values generalizing l with
  | nil => rfl
  | cons value values ih =>
      rw [List.reverse_cons, List.append_assoc, List.singleton_append]
      exact ih (value :: l)

theorem lrange_all (l : List α) : lrange l 0 (-1) = l := by
  have hstop : (index l.length (-1) - ((index l.length 0).toNat : Int) + 1).toNat = l.length := by
    simp only [index]
    omega
  rw [lrange, hstop]
  exact List.take_length

/-- **The cut leaves the tail.** -/
theorem auto_ltrim_eq (max_size : Nat) (l : List α) :
    auto_ltrim max_size l = l.drop (l.length - max_size) := by
  rw [auto_ltrim, llen]
  dsimp only
  split
  · next hlt =>
    have hfirst : (index l.length ((l.length : Int) - max_size)).toNat = l.length - max_size := by
      unfold index
      split <;> omega
    have hcount : l.length - (l.length - max_size) ≤
        (index l.length l.length - ((l.length - max_size : Nat) : Int) + 1).toNat := by
      unfold index
      split <;> omega
    rw [ltrim, lrange, hfirst, List.take_of_length_le]
    rwa [List.length_drop]
  · next hge => rw [Nat.sub_eq_zero_of_le (Nat.le_of_not_lt hge), List.drop_zero]

section
variable {fl : Floats F} {max_size : Nat} {q : List (Element F)} {l : List Str}

theorem loads_element (x : Element F) : loads fl (dumps fl true x.value) = some x.value :=
  loads_dumps (x.proper.imp (fun _ h => readable_of_proper fun _ => h) fun _ h => h)

theorem Holds.len (h : Holds fl q l) : len l = q.length := by
  rw [h, CacheList.len, llen, List.length_reverse, List.length_map]

theorem Holds.get_all (h : Holds fl q l) : get_all fl l = (q.map Element.value).reverse := by
  rw [CacheList.get_all, lrange_all, h, List.map_reverse, List.map_map]
  refine congrArg List.reverse (List.map_congr_left fun x _ => ?_)
  rw [Function.comp_apply, format_return, loads_element, Option.getD_some]

/-- **The oldest element is popped.** -/
theorem Holds.pop_eq (h : Holds fl q l) :
    (pop fl l).1 = (q.head?.map Element.value).getD .null ∧ Holds fl q.tail (pop fl l).2 := by
  subst h
  cases q with
  | nil => exact ⟨rfl, rfl⟩
  | cons x q =>
      have hlast : rpop ((x :: q).map fun x => dumps fl true x.value).reverse =
          (some (dumps fl true x.value), (q.map fun x => dumps fl true x.value).reverse) := by
        rw [rpop, List.map_cons, List.reverse_cons, List.getLast?_concat, List.dropLast_concat]
      rw [pop, hlast]
      dsimp only
      rw [if_pos (dumps_ne_nil fl true x.value), loads_element]
      exact ⟨rfl, rfl⟩

/-- **What comes to a full list is dropped.** -/
theorem Holds.push (h : Holds fl q l) (json_data : Element F) (args : List (Element F)) :
    Holds fl ((q ++ json_data :: args).take max_size) (push fl max_size l json_data args) := by
  unfold Holds
  rw [CacheList.push, auto_ltrim_eq, lpush_eq, h, ← List.reverse_append, List.length_reverse,
    ← List.map_cons (f := fun x : Element F => dumps fl true x.value), ← List.map_append,
    List.map_take,
    List.reverse_take, List.length_map]

variable (max_size) in
theorem holds_next (h : Holds fl q l) (op : Op F) :
    Holds fl (kept max_size q op) (next fl max_size l op) := by
  cases op with
  | push json_data args => exact h.push json_data args
  | pop => exact h.pop_eq.2

/-- **What the list has after a run.** -/
theorem holds_run {ops : List (Op F)} {l' : List Str} (h : Holds fl q l)
    (r : Run (Step fl max_size) l ops l') : Holds fl (ops.foldl (kept max_size) q) l' := by
  induction r generalizing q with
  | nil => exact h
  | @cons l m l' op ops hstep _ ih =>
      cases hstep
      exact ih (holds_next max_size h op)

theorem length_kept (h : q.length ≤ max_size) (op : Op F) :
    (kept max_size q op).length ≤ max_size := by
  cases op with
  | push json_data args => exact List.length_take_le _ _
  | pop => exact (List.length_tail.trans_le (Nat.sub_le _ _)).trans h

/-- **The list is bounded**, whatever is pushed. -/
theorem len_le {ops : List (Op F)} (r : Run (Step fl max_size) [] ops l) : len l ≤ max_size := by
  have hbound : ∀ q : List (Element F), q.length ≤ max_size →
      (ops.foldl (kept max_size) q).length ≤ max_size := by
    clear r
    induction ops with
    | nil => exact fun _ h => h
    | cons op ops ih => exact fun q h => ih _ (length_kept h op)
  rw [(holds_run (q := []) rfl r).len]
  exact hbound [] (Nat.zero_le _)

/-- Where there is room, nothing is dropped. -/
theorem kept_eq_expected (h : Holds fl q l) {op : Op F} (hfits : Fits max_size l op) :
    kept max_size q op = expected max_size q op := by
  cases op with
  | pop => rfl
  | push json_data args =>
      have hroom : (q ++ json_data :: args).length ≤ max_size := by
        rw [List.length_append, ← h.len]
        exact hfits.resolve_left (by simp)
      rw [kept, expected, newest, Nat.sub_eq_zero_of_le hroom, List.take_of_length_le hroom,
        List.drop_zero]

/-- **The newest elements are kept**, as long as what is pushed finds room. -/
theorem newest_of_fits {ops : List (Op F)}
    (r : Run (guarded (Step fl max_size) (Fits max_size)) [] ops l) :
    Throughout (Step fl max_size) (Newest fl max_size) [] ops := by
  refine throughout_of_guarded
    (I := fun ops l => Holds fl (remaining max_size ops) l ∧ len l ≤ max_size) ?_ ?_ ?_ r
    ⟨rfl, Nat.zero_le _⟩
  · exact fun _ _ _ _ h h' => h.symm.trans h'
  · rintro ops l op _ ⟨hholds, hlen⟩ ⟨rfl, hfits⟩
    have hnext := holds_next max_size hholds op
    have hbound := length_kept (hholds.len ▸ hlen) op
    rw [← hnext.len] at hbound
    refine ⟨?_, hbound⟩
    rw [kept_eq_expected hholds hfits] at hnext
    rwa [remaining, List.foldl_append]
  · rintro ops l ⟨hholds, hlen⟩
    exact ⟨hlen, hholds.get_all, hholds.pop_eq.1⟩

end

/-! ### A list of one element -/

def sample_floats : Floats Unit := ⟨fun _ => (), fun _ => str "NaN", fun _ => rfl, shape_nan⟩

def number (n : Int) : Element Unit := ⟨.int n, .int n⟩

/-- One is pushed, popped, and another pushed. -/
theorem newest_of_fits_sample :
    Throughout (Step sample_floats 1) (Newest sample_floats 1) []
      [.push (number 1) [], .pop, .push (number 2) []] := by
  refine newest_of_fits (l := next sample_floats 1 [] (.push (number 2) [])) ?_
  have hpop : (pop sample_floats (next sample_floats 1 [] (.push (number 1) []))).2 = [] :=
    (Holds.pop_eq (q := [number 1]) rfl).2
  refine .cons ⟨rfl, .inr (Nat.le_refl 1)⟩
    (.cons ⟨hpop, .inl rfl⟩ (.one ⟨rfl, .inr (Nat.le_refl 1)⟩))

/-- **The newest element is dropped**: the list still has the one before. -/
theorem newest_is_dropped :
    ¬ ∀ (ops : List (Op Unit)) (l : List Str), Run (Step sample_floats 1) [] ops l →
      Newest sample_floats 1 ops l := by
  intro hall
  have hrun : Run (Step sample_floats 1) [] [.push (number 1) [], .push (number 2) []]
      [dumps sample_floats true (.int 1)] := .cons rfl (.one rfl)
  obtain ⟨-, hnewest, -⟩ := hall _ _ hrun
  have hlist : get_all sample_floats [dumps sample_floats true (.int 1)] = [.int 1] :=
    Holds.get_all (q := [number 1]) rfl
  rw [hlist] at hnewest
  change [Value.int 1] = [Value.int 2] at hnewest
  simp at hnewest

end InfraHub.Common.CacheList
