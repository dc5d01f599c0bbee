import InfraHub.Lib.Prog
import Mathlib.Data.List.Count
import Mathlib.Order.WellFounded

/-!
# Common — Pending

`get_pending_result`: a caller enters its key in a list in the cache, and calls `func` again and again
until it returns what is expected, the key is no more in the list, or it was called too often.

The list that an iteration finds is what the other callers leave, which may be none.  The counter is
compared after the call, and what the `except` clause does may raise as well: `bounded_iff`.
-/

namespace InfraHub.Common.Pending
open InfraHub.Lib (Prog)
open InfraHub.Lib.Prog (exec update read raise lift attempt ensuring)

/-! ### The program -/

/-- `Exception` is what `except Exception` catches; `KeyboardInterrupt` and `SystemExit` are not. -/
inductive Raised
  | Exception
  | BaseException
  deriving DecidableEq

/-- The second component of what is returned. -/
inductive Answer (ρ : Type)
  | err_msg (s : String)
  | data (result : ρ)

/-- The arguments of `get_pending_result`.  The functions are given by what they do when they are called
for the `n`-th time. -/
structure Call (κ ρ : Type) where
  func : Nat → Except Raised ρ
  expect_func : Nat → ρ → Except Raised Bool
  loop_count : Nat := 10
  sleep_time : Int := 3
  unique_key : κ
  run_func_count : Int := 2
  pop_first : Bool := true

/-- What the call finds: the list that the others leave before the `n`-th time it is read, and whether
the lock can be had, and can be given back. -/
structure Others (κ : Type) where
  left : Nat → Option (List κ)
  acquired : Bool := true
  released : Bool := true

/-- The cached list, the variable `cache_data`, and the number of calls of `func`. -/
structure State (κ : Type) where
  pending : Option (List κ) := none
  cache_data : Option (List κ) := none
  calls : Nat := 0

section
variable {κ ρ : Type} [DecidableEq κ] (c : Call κ ρ) (o : Others κ)

def Call.cache_timeout : Int := c.loop_count * c.sleep_time * (c.run_func_count + 1)

/-- `RedisCacheBase.set_storage_cache`, of which this is what is cached afterwards: a negative timeout
deletes. -/
def set_storage_cache (value : List κ) (timeout : Int) : Option (List κ) :=
  let timeout := if timeout = 0 then 600 else timeout
  if timeout < 0 then none else some value

/-- `cache_data and isinstance(cache_data, list) and unique_key in cache_data` -/
def listed (unique_key : κ) : Option (List κ) → Bool
  | none => false
  | some cache_data => unique_key ∈ cache_data

/-- What is put in the list at first, and `is_pop`. -/
def Call.enter (cache_data : Option (List κ)) : List κ × Bool :=
  let l := cache_data.getD []
  if l = [] then ([c.unique_key], false)
  else if c.unique_key ∈ l then (l, false)
  else
    let l := l ++ [c.unique_key]
    if c.run_func_count < l.length ∧ 0 < l.length then
      (if c.pop_first then l.tail else l.dropLast, true)
    else (l, false)

def get_storage_cache (n : Nat) : Prog (State κ) Raised (Option (List κ)) := do
  update fun s => { s with pending := o.left n, cache_data := o.left n }
  read State.cache_data

/-- `None` is not iterable. -/
def set_pending_cache : Prog (State κ) Raised Unit := do
  match ← read State.cache_data with
  | none => raise .Exception
  | some cache_data =>
    let cache_data := cache_data.erase c.unique_key
    update fun s => { s with
      cache_data := some cache_data, pending := set_storage_cache cache_data c.cache_timeout }

def call_func (n : Nat) : Prog (State κ) Raised ρ := do
  update fun s => { s with calls := s.calls + 1 }
  lift (c.func n)

/-- A negative number of seconds is refused. -/
def sleep (seconds : Int) : Except Raised Unit := if seconds < 0 then .error .Exception else .ok ()

/-- The `while` loop from the iteration `count` on. -/
def wait (count : Nat) : Prog (State κ) Raised (Bool × Answer ρ) := do
  let cache_data ← get_storage_cache o count
  if listed c.unique_key cache_data then
    let result ← call_func c count
    if ← lift (c.expect_func count result) then
      set_pending_cache c
      return (true, .data result)
    else
      lift (sleep c.sleep_time)
      if c.loop_count < count then
        set_pending_cache c
        return (false, .err_msg "请求超时")
      else wait (count + 1)
  else
    set_pending_cache c
    return (true, .err_msg "请求重复,请稍后再试")
termination_by c.loop_count + 1 - count

def raise_unless (ok : Bool) : Prog (State κ) Raised Unit := if ok then pure () else raise .Exception

def on_exception : Raised → Prog (State κ) Raised (Bool × Answer ρ)
  | .BaseException => raise .BaseException
  | .Exception => do
    set_pending_cache c
    return (false, .err_msg "内部错误")

def get_pending_result : Prog (State κ) Raised (Bool × Answer ρ) := do
  let cache_data ← get_storage_cache o 0
  let entered := c.enter cache_data
  update fun s => { s with
    cache_data := some entered.1, pending := set_storage_cache entered.1 c.cache_timeout }
  if ¬ c.pop_first ∧ entered.1.length = c.run_func_count ∧ entered.2 then
    return (true, .err_msg "请求重复,请稍后再试")
  else
    attempt (do
      raise_unless o.acquired
      ensuring (wait c o 1) (raise_unless o.released)) (on_exception c)

/-! ### An iteration -/

/-- What `func` returns when it is called for the `n`-th time, if it is what is expected. -/
def Call.outcome (n : Nat) : Except Raised (Option ρ) := do
  let result ← c.func n
  if ← c.expect_func n result then return some result
  else
    sleep c.sleep_time
    return none

/-- The state after `set_pending_cache`. -/
def cleaned (cache_data : List κ) (calls : Nat) : State κ :=
  let cache_data := cache_data.erase c.unique_key
  ⟨set_storage_cache cache_data c.cache_timeout, some cache_data, calls⟩

end

/-! The first number from one to `k` that has not `p`. -/

theorem exists_first {p : Nat → Prop} {k : Nat} (h : ¬ ∀ n, 1 ≤ n → n ≤ k → p n) :
    ∃ n, 1 ≤ n ∧ n ≤ k ∧ (∀ m, 1 ≤ m → m < n → p m) ∧ ¬ p n := by
  have hstop : ∃ n, 1 ≤ n ∧ n ≤ k ∧ ¬ p n := by
    by_contra hnone
    refine h fun n hn hle => ?_
    by_contra hp
    exact hnone ⟨n, hn, hle, hp⟩
  obtain ⟨n, ⟨hn, hle, hp⟩, hfirst⟩ := WellFounded.has_min Nat.lt_wfRel.wf _ hstop
  refine ⟨n, hn, hle, fun m hm hlt => ?_, hp⟩
  by_contra hpm
  exact hfirst m ⟨hm, Nat.le_trans (Nat.le_of_lt hlt) hle, hpm⟩ hlt

/-- Only there may `q` hold after numbers that have `p`, when nothing has both. -/
theorem exists_iff_first {p q : Nat → Prop} {k n : Nat} (hq : ∀ m, q m → ¬ p m) (hn : 1 ≤ n)
    (hle : n ≤ k) (hbefore : ∀ m, 1 ≤ m → m < n → p m) (hp : ¬ p n) :
    (∃ m, 1 ≤ m ∧ m ≤ k ∧ (∀ i, 1 ≤ i → i < m → p i) ∧ q m) ↔ q n := by
  constructor
  · rintro ⟨m, hm, -, hbefore', hqm⟩
    rcases Nat.lt_trichotomy m n with hlt | rfl | hlt
    · exact absurd (hbefore m hm hlt) (hq m hqm)
    · exact hqm
    · exact absurd (hbefore' n hn hlt) hp
  · exact fun hqn => ⟨n, hn, hle, hbefore, hqn⟩

section
variable {κ ρ : Type} {c : Call κ ρ} {o : Others κ}

@[simp] theorem exec_get_bind {α : Type} (n : Nat) (f : Option (List κ) → Prog (State κ) Raised α)
    (s : State κ) : exec (get_storage_cache o n >>= f) s =
      exec (f (o.left n)) ⟨o.left n, o.left n, s.calls⟩ :=
  rfl

@[simp] theorem exec_call_bind {α : Type} (n : Nat) (f : ρ → Prog (State κ) Raised α) (s : State κ) :
    exec (call_func c n >>= f) s =
      exec (lift (c.func n) >>= f) ⟨s.pending, s.cache_data, s.calls + 1⟩ :=
  rfl

@[simp] theorem bind_ok {α β : Type} (a : α) (f : α → Except Raised β) : (.ok a >>= f) = f a := rfl

end

section
variable {κ ρ : Type} [DecidableEq κ] {c : Call κ ρ} {o : Others κ} {count : Nat} {l : List κ}

@[simp] theorem exec_set_none_bind {α : Type} (f : Unit → Prog (State κ) Raised α)
    (pending : Option (List κ)) (calls : Nat) :
    exec (set_pending_cache c >>= f) ⟨pending, none, calls⟩ =
      (.error .Exception, ⟨pending, none, calls⟩) :=
  rfl

@[simp] theorem exec_set_some_bind {α : Type} (f : Unit → Prog (State κ) Raised α)
    (pending : Option (List κ)) (calls : Nat) :
    exec (set_pending_cache c >>= f) ⟨pending, some l, calls⟩ = exec (f ()) (cleaned c l calls) :=
  rfl

/-- Where there is no list, `func` is not called. -/
theorem wait_none (h : o.left count = none) (s : State κ) :
    exec (wait c o count) s = (.error .Exception, ⟨none, none, s.calls⟩) := by
  have hlisted : listed c.unique_key none = false := rfl
  rw [wait, exec_get_bind, h, if_neg (Bool.eq_false_iff.mp hlisted), exec_set_none_bind]

theorem wait_not_mem (h : o.left count = some l) (hkey : c.unique_key ∉ l) (s : State κ) :
    exec (wait c o count) s = (.ok (true, .err_msg "请求重复,请稍后再试"), cleaned c l s.calls) := by
  have hlisted : listed c.unique_key (some l) = false := decide_eq_false hkey
  rw [wait, exec_get_bind, h, if_neg (Bool.eq_false_iff.mp hlisted), exec_set_some_bind]
  rfl

/-- An iteration in which `func` is called. -/
theorem wait_mem (h : o.left count = some l) (hkey : c.unique_key ∈ l) (s : State κ) :
    exec (wait c o count) s =
      match c.outcome count with
      | .error e => (.error e, ⟨some l, some l, s.calls + 1⟩)
      | .ok (some result) => (.ok (true, .data result), cleaned c l (s.calls + 1))
      | .ok none =>
        if c.loop_count < count then (.ok (false, .err_msg "请求超时"), cleaned c l (s.calls + 1))
        else exec (wait c o (count + 1)) ⟨some l, some l, s.calls + 1⟩ := by
  have hlisted : listed c.unique_key (some l) = true := decide_eq_true hkey
  rw [wait, exec_get_bind, h, if_pos hlisted, exec_call_bind, Call.outcome]
  -- `func`, `expect_func` and `sleep`, in this order, may raise
  cases c.func count with
  | error e => rfl
  | ok result =>
      rw [Lib.Prog.exec_lift_ok_bind, bind_ok]
      cases c.expect_func count result with
      | error e => rfl
      | ok expected =>
          rw [Lib.Prog.exec_lift_ok_bind, bind_ok]
          cases expected with
          | true => rfl
          | false =>
              rw [if_neg Bool.false_ne_true, if_neg Bool.false_ne_true]
              cases sleep c.sleep_time with
              | error e => rfl
              | ok _ =>
                  rw [Lib.Prog.exec_lift_ok_bind, bind_ok]
                  by_cases hover : c.loop_count < count
                  · rw [if_pos hover, exec_set_some_bind]
                    exact (if_pos hover).symm
                  · rw [if_neg hover]
                    exact (if_neg hover).symm

/-! ### A call -/

/-- `func` is called at most `loop_count` times, a pair is returned, and the key is not in the list. -/
structure Bounded (c : Call κ ρ) (out : Except Raised (Bool × Answer ρ) × State κ) : Prop where
  calls : out.2.calls ≤ c.loop_count
  returns : ∃ a, out.1 = .ok a
  no_trace : ¬ listed c.unique_key out.2.pending

/-- The list is full, and the newest is removed. -/
def TurnedAway (c : Call κ ρ) (o : Others κ) : Prop :=
  c.pop_first = false ∧
    ∃ l, o.left 0 = some l ∧ l ≠ [] ∧ c.unique_key ∉ l ∧ (l.length : Int) = c.run_func_count

/-- In the `n`-th iteration `func` is called, and the wait goes on. -/
def GoesOn (c : Call κ ρ) (o : Others κ) (n : Nat) : Prop :=
  (∃ l, o.left n = some l ∧ c.unique_key ∈ l) ∧ c.outcome n = .ok none

/-- How often the key is removed from the list that was found: the `except` clause does it again when
the lock cannot be given back. -/
def removals (c : Call κ ρ) (o : Others κ) (n : Nat) : Nat :=
  match c.outcome n with
  | .ok _ => if o.released then 1 else 2
  | .error _ => 1

/-- In the `n`-th iteration there is a list, and if the key is in it, `func` is called for no more than
the `loop_count`-th time, the wait is over, and the key is in the list no more often than it is
removed. -/
def EndsWell (c : Call κ ρ) (o : Others κ) (n : Nat) : Prop :=
  ∃ l, o.left n = some l ∧ (c.unique_key ∈ l → n ≤ c.loop_count ∧ c.outcome n ≠ .ok none ∧
    (c.outcome n = .error .BaseException → o.released = false) ∧
    (c.cache_timeout < 0 ∨ l.count c.unique_key ≤ removals c o n))

/-- The caller is turned away, does not get the lock, or waits until an iteration that ends well. -/
def WaitEnds (c : Call κ ρ) (o : Others κ) : Prop :=
  TurnedAway c o ∨
  (o.acquired = false ∧
    (c.cache_timeout < 0 ∨ ∀ l, o.left 0 = some l → l.count c.unique_key ≤ 1)) ∨
  (o.acquired = true ∧ ∃ n, 1 ≤ n ∧ n ≤ c.loop_count + 1 ∧
    (∀ m, 1 ≤ m → m < n → GoesOn c o m) ∧ EndsWell c o n)

theorem not_listed_iff {key : κ} {timeout : Int} :
    ¬ listed key (set_storage_cache l timeout) ↔ timeout < 0 ∨ key ∉ l := by
  rw [set_storage_cache]
  by_cases hzero : timeout = 0
  · simp [hzero, listed]
  · by_cases hneg : timeout < 0 <;> simp [hzero, hneg, listed]

theorem not_mem_erase_iff {key : κ} : key ∉ l.erase key ↔ l.count key ≤ 1 := by
  rw [← List.count_eq_zero, List.count_erase_self]
  omega

theorem bounded_cleaned {a : Bool × Answer ρ} {calls : Nat} :
    Bounded c (.ok a, cleaned c l calls) ↔ calls ≤ c.loop_count ∧
      (c.cache_timeout < 0 ∨ l.count c.unique_key ≤ 1) := by
  constructor
  · rintro ⟨hcalls, -, htrace⟩
    exact ⟨hcalls, (not_listed_iff.mp htrace).imp_right not_mem_erase_iff.mp⟩
  · rintro ⟨hcalls, htrace⟩
    exact ⟨hcalls, ⟨a, rfl⟩, not_listed_iff.mpr (htrace.imp_right not_mem_erase_iff.mpr)⟩

theorem not_bounded_error {e : Raised} {t : State κ} : ¬ Bounded c (.error e, t) := by
  rintro ⟨-, ⟨a, ha⟩, -⟩
  cases ha

/-- What the `with` statement and the `except` clause make of the wait. -/
def give_back (c : Call κ ρ) (o : Others κ) (out : Except Raised (Bool × Answer ρ) × State κ) :
    Except Raised (Bool × Answer ρ) × State κ :=
  if o.released then
    match out.1 with
    | .ok a => (.ok a, out.2)
    | .error e => exec (on_exception c e) out.2
  else exec (on_exception c .Exception) out.2

theorem exec_locked (hacquired : o.acquired = true) (s : State κ) :
    exec (attempt (do raise_unless o.acquired; ensuring (wait c o 1) (raise_unless o.released))
      (on_exception c)) s = give_back c o (exec (wait c o 1) s) := by
  have hgo : exec (do raise_unless o.acquired; ensuring (wait c o 1) (raise_unless o.released)) s =
      exec (ensuring (wait c o 1) (raise_unless o.released)) s := by
    rw [hacquired]
    rfl
  -- where the lock cannot be given back, what the wait returned or raised is lost
  rcases hwait : exec (wait c o 1) s with ⟨r, t⟩
  rw [give_back]
  cases hreleased : o.released with
  | true =>
      have hensure := Lib.Prog.exec_ensuring_of_ok hwait
        (rfl : exec (raise_unless true) t = (.ok (), t))
      rw [hreleased] at hgo
      rw [if_pos rfl]
      cases r with
      | ok a => exact Lib.Prog.exec_attempt_of_ok (hgo.trans hensure)
      | error e => exact Lib.Prog.exec_attempt_of_error (hgo.trans hensure)
  | false =>
      have hensure := Lib.Prog.exec_ensuring_of_error hwait
        (rfl : exec (raise_unless false) t = (.error .Exception, t))
      rw [hreleased] at hgo
      rw [if_neg Bool.false_ne_true]
      exact Lib.Prog.exec_attempt_of_error (hgo.trans hensure)

theorem bounded_handled {pending : Option (List κ)} {calls : Nat} :
    Bounded c (exec (on_exception c .Exception) ⟨pending, some l, calls⟩) ↔
      calls ≤ c.loop_count ∧ (c.cache_timeout < 0 ∨ l.count c.unique_key ≤ 1) :=
  bounded_cleaned

theorem calls_give_back (out : Except Raised (Bool × Answer ρ) × State κ) :
    (give_back c o out).2.calls = out.2.calls := by
  have hhandler (e : Raised) (t : State κ) : (exec (on_exception c e) t).2.calls = t.calls := by
    obtain ⟨pending, cache_data, calls⟩ := t
    cases e with
    | BaseException => rfl
    | Exception => cases cache_data <;> rfl
  obtain ⟨r, t⟩ := out
  rw [give_back]
  by_cases hreleased : o.released
  · rw [if_pos hreleased]
    cases r with
    | ok a => rfl
    | error e => exact hhandler e t
  · rw [if_neg hreleased]
    exact hhandler .Exception t

/-- An iteration in which `func` is not called ends the wait well if there is a list. -/
theorem bounded_unlisted {n calls : Nat} (hcalls : calls ≤ c.loop_count)
    (h : ¬ ∃ l, o.left n = some l ∧ c.unique_key ∈ l) (pending cache_data : Option (List κ)) :
    Bounded c (give_back c o (exec (wait c o n) ⟨pending, cache_data, calls⟩)) ↔ EndsWell c o n := by
  cases hleft : o.left n with
  | none =>
      rw [wait_none hleft, give_back]
      have hraised : ¬ Bounded c (exec (on_exception c .Exception) ⟨none, none, calls⟩) :=
        not_bounded_error
      have hends : ¬ EndsWell c o n := by
        rintro ⟨l, hl, -⟩
        exact Option.some_ne_none l (hl.symm.trans hleft)
      exact iff_of_false (by simpa using hraised) hends
  | some l =>
      have hkey : c.unique_key ∉ l := fun hkey => h ⟨l, hleft, hkey⟩
      have hcount : l.count c.unique_key ≤ 1 := by
        rw [List.count_eq_zero_of_not_mem hkey]
        exact Nat.zero_le 1
      have hcount' : (l.erase c.unique_key).count c.unique_key ≤ 1 :=
        Nat.le_trans (List.erase_sublist.count_le _) hcount
      refine iff_of_true ?_ ⟨l, hleft, fun hmem => absurd hmem hkey⟩
      rw [wait_not_mem hleft hkey, give_back]
      by_cases hreleased : o.released
      · rw [if_pos hreleased]
        exact bounded_cleaned.mpr ⟨hcalls, .inr hcount⟩
      · rw [if_neg hreleased]
        exact bounded_handled.mpr ⟨hcalls, .inr hcount'⟩

/-- An iteration in which `func` is called, and after which there is no other. -/
theorem bounded_listed {n calls : Nat} (hn : n = calls + 1) (hleft : o.left n = some l)
    (hkey : c.unique_key ∈ l) (hover : c.outcome n ≠ .ok none) (pending cache_data : Option (List κ)) :
    Bounded c (give_back c o (exec (wait c o n) ⟨pending, cache_data, calls⟩)) ↔ EndsWell c o n := by
  have hends : EndsWell c o n ↔ n ≤ c.loop_count ∧
      (c.outcome n = .error .BaseException → o.released = false) ∧
      (c.cache_timeout < 0 ∨ l.count c.unique_key ≤ removals c o n) := by
    constructor
    · rintro ⟨l', hl', h⟩
      obtain rfl : l = l' := Option.some.inj (hleft.symm.trans hl')
      obtain ⟨hle, -, hbase, htrace⟩ := h hkey
      exact ⟨hle, hbase, htrace⟩
    · rintro ⟨hle, hbase, htrace⟩
      exact ⟨l, hleft, fun _ => ⟨hle, hover, hbase, htrace⟩⟩
  rw [hends, wait_mem hleft hkey, give_back, removals, hn]
  rw [hn] at hover
  cases hreleased : o.released with
  | true =>
      rw [if_pos rfl]
      cases houtcome : c.outcome (calls + 1) with
      | error e =>
          cases e with
          | BaseException => exact iff_of_false not_bounded_error (by simp)
          | Exception => exact bounded_handled.trans (by simp)
      | ok r =>
          cases r with
          | none => exact absurd houtcome hover
          | some r => exact bounded_cleaned.trans (by simp)
  | false =>
      rw [if_neg Bool.false_ne_true]
      cases houtcome : c.outcome (calls + 1) with
      | error e => exact bounded_handled.trans (by simp)
      | ok r =>
          cases r with
          | none => exact absurd houtcome hover
          | some r =>
              -- the key was already removed once
              exact (bounded_handled (l := l.erase c.unique_key)).trans (by simp)

/-- The iterations that go on, from the first. -/
theorem wait_run {n : Nat} (hn : n ≤ c.loop_count) (h : ∀ m, 1 ≤ m → m < n + 1 → GoesOn c o m)
    (s : State κ) : ∃ pending cache_data,
      exec (wait c o 1) s = exec (wait c o (n + 1)) ⟨pending, cache_data, s.calls + n⟩ := by
  induction n with
  | zero => exact ⟨s.pending, s.cache_data, rfl⟩
  | succ n ih =>
      obtain ⟨pending, cache_data, hrun⟩ := ih (by omega) fun m hm hlt => h m hm (by omega)
      obtain ⟨⟨l, hleft, hkey⟩, houtcome⟩ := h (n + 1) (by omega) (by omega)
      refine ⟨some l, some l, ?_⟩
      rw [hrun, wait_mem hleft hkey, houtcome]
      exact if_neg (by omega)

/-- If all go on, `func` is called once too often. -/
theorem not_bounded_of_goes_on (h : ∀ m, 1 ≤ m → m ≤ c.loop_count + 1 → GoesOn c o m)
    (s : State κ) : ¬ Bounded c (give_back c o (exec (wait c o 1) s)) := by
  obtain ⟨pending, cache_data, hrun⟩ :=
    wait_run (Nat.le_refl c.loop_count) (fun m hm hlt => h m hm (by omega)) s
  obtain ⟨⟨l, hleft, hkey⟩, houtcome⟩ := h (c.loop_count + 1) (by omega) (Nat.le_refl _)
  rintro ⟨hcalls, -, -⟩
  rw [calls_give_back, hrun, wait_mem hleft hkey, houtcome] at hcalls
  simp only [Nat.lt_succ_self, if_true, cleaned] at hcalls
  omega

theorem EndsWell.not_goes_on {n : Nat} (h : EndsWell c o n) : ¬ GoesOn c o n := by
  obtain ⟨l, hleft, hends⟩ := h
  rintro ⟨⟨l', hleft', hkey⟩, houtcome⟩
  obtain rfl : l = l' := Option.some.inj (hleft.symm.trans hleft')
  exact (hends hkey).2.1 houtcome

/-- The first iteration that does not go on decides. -/
theorem bounded_wait_iff (pending cache_data : Option (List κ)) :
    Bounded c (give_back c o (exec (wait c o 1) ⟨pending, cache_data, 0⟩)) ↔
      ∃ n, 1 ≤ n ∧ n ≤ c.loop_count + 1 ∧ (∀ m, 1 ≤ m → m < n → GoesOn c o m) ∧ EndsWell c o n := by
  by_cases hall : ∀ m, 1 ≤ m → m ≤ c.loop_count + 1 → GoesOn c o m
  · refine iff_of_false (not_bounded_of_goes_on hall _) ?_
    rintro ⟨n, hn, hle, -, hends⟩
    exact hends.not_goes_on (hall n hn hle)
  obtain ⟨n, hn, hle, hbefore, hstop⟩ := exists_first hall
  rw [exists_iff_first (fun m => EndsWell.not_goes_on) hn hle hbefore hstop]
  -- `wait_run` counts the iterations that went on
  obtain ⟨k, rfl⟩ : ∃ k, n = k + 1 := ⟨n - 1, by omega⟩
  obtain ⟨pending', cache_data', hrun⟩ := wait_run (by omega) hbefore ⟨pending, cache_data, 0⟩
  rw [hrun, Nat.zero_add]
  by_cases hlisted : ∃ l, o.left (k + 1) = some l ∧ c.unique_key ∈ l
  · obtain ⟨l, hleft, hkey⟩ := hlisted
    exact bounded_listed rfl hleft hkey (fun h => hstop ⟨⟨l, hleft, hkey⟩, h⟩) _ _
  · exact bounded_unlisted (by omega) hlisted _ _

/-! The list that a caller enters its key in. -/

theorem enter_nil {cache_data : Option (List κ)} (h : cache_data.getD [] = []) :
    c.enter cache_data = ([c.unique_key], false) := by
  rw [Call.enter, h]
  exact if_pos rfl

theorem enter_mem (hkey : c.unique_key ∈ l) : c.enter (some l) = (l, false) := by
  rw [Call.enter, Option.getD_some, if_neg (List.ne_nil_of_mem hkey), if_pos hkey]

theorem enter_full (hne : l ≠ []) (hkey : c.unique_key ∉ l) (hfull : c.run_func_count ≤ l.length) :
    c.enter (some l) = (if c.pop_first then (l ++ [c.unique_key]).tail else l, true) := by
  have hlen : c.run_func_count < (l ++ [c.unique_key]).length ∧ 0 < (l ++ [c.unique_key]).length := by
    rw [List.length_append, List.length_singleton]
    omega
  rw [Call.enter, Option.getD_some, if_neg hne, if_neg hkey]
  simp only [if_pos hlen, List.dropLast_concat]

theorem enter_room (hne : l ≠ []) (hkey : c.unique_key ∉ l) (hroom : ¬ c.run_func_count ≤ l.length) :
    c.enter (some l) = (l ++ [c.unique_key], false) := by
  have hlen : ¬ (c.run_func_count < (l ++ [c.unique_key]).length ∧
      0 < (l ++ [c.unique_key]).length) := by
    rw [List.length_append, List.length_singleton]
    omega
  rw [Call.enter, Option.getD_some, if_neg hne, if_neg hkey]
  simp only [if_neg hlen]

theorem turned_away_iff : (¬ c.pop_first ∧ ((c.enter (o.left 0)).1.length : Int) = c.run_func_count ∧
    (c.enter (o.left 0)).2) ↔ TurnedAway c o := by
  by_cases hnil : (o.left 0).getD [] = []
  · rw [enter_nil hnil]
    refine iff_of_false (fun h => Bool.false_ne_true h.2.2) ?_
    rintro ⟨-, l, hleft, hne, -⟩
    rw [hleft] at hnil
    exact hne hnil
  obtain ⟨l, hleft⟩ : ∃ l, o.left 0 = some l := by
    refine Option.ne_none_iff_exists'.mp fun h => hnil ?_
    rw [h]
    rfl
  rw [hleft, Option.getD_some] at hnil
  have haway : TurnedAway c o ↔ c.pop_first = false ∧ c.unique_key ∉ l ∧
      (l.length : Int) = c.run_func_count := by
    constructor
    · rintro ⟨hpop, l', hleft', -, hkey, hlen⟩
      obtain rfl : l = l' := Option.some.inj (hleft.symm.trans hleft')
      exact ⟨hpop, hkey, hlen⟩
    · rintro ⟨hpop, hkey, hlen⟩
      exact ⟨hpop, l, hleft, hnil, hkey, hlen⟩
  rw [haway, hleft]
  by_cases hkey : c.unique_key ∈ l
  · rw [enter_mem hkey]
    exact iff_of_false (fun h => Bool.false_ne_true h.2.2) fun h => h.2.1 hkey
  by_cases hfull : c.run_func_count ≤ l.length
  · rw [enter_full hnil hkey hfull]
    cases hpop : c.pop_first <;> simp [hkey]
  · rw [enter_room hnil hkey hfull]
    exact iff_of_false (fun h => Bool.false_ne_true h.2.2) fun h => hfull (Int.le_of_eq h.2.2.symm)

/-- The key is entered at most once. -/
theorem count_enter : (c.enter (o.left 0)).1.count c.unique_key ≤ 1 ↔
    ∀ l, o.left 0 = some l → l.count c.unique_key ≤ 1 := by
  cases hleft : o.left 0 with
  | none =>
      rw [enter_nil rfl]
      exact iff_of_true (by simp) nofun
  | some l =>
      have hall : (∀ l', some l = some l' → l'.count c.unique_key ≤ 1) ↔
          l.count c.unique_key ≤ 1 := ⟨fun h => h l rfl, fun h l' hl' => Option.some.inj hl' ▸ h⟩
      rw [hall]
      by_cases hkey : c.unique_key ∈ l
      · rw [enter_mem hkey]
      have hcount : l.count c.unique_key = 0 := List.count_eq_zero_of_not_mem hkey
      have happend : (l ++ [c.unique_key]).count c.unique_key = 1 := by
        rw [List.count_append, hcount, List.count_singleton_self]
      refine iff_of_true ?_ (by omega)
      by_cases hne : l = []
      · rw [hne, enter_nil rfl, List.count_singleton_self]
      by_cases hfull : c.run_func_count ≤ l.length
      · rw [enter_full hne hkey hfull]
        cases c.pop_first with
        | true =>
            exact Nat.le_trans ((List.tail_sublist _).count_le _) (Nat.le_of_eq happend)
        | false => exact Nat.le_trans (Nat.le_of_eq hcount) (Nat.zero_le 1)
      · rw [enter_room hne hkey hfull, happend]

/-- **The wait is bounded and leaves no trace if and only if** it ends in one of three ways. -/
theorem bounded_iff (c : Call κ ρ) (o : Others κ) :
    Bounded c (exec (get_pending_result c o) {}) ↔ WaitEnds c o := by
  rw [get_pending_result, exec_get_bind, Lib.Prog.exec_update_bind]
  by_cases haway : ¬ c.pop_first ∧ ((c.enter (o.left 0)).1.length : Int) = c.run_func_count ∧
      (c.enter (o.left 0)).2
  · rw [if_pos haway]
    have hturned := turned_away_iff.mp haway
    refine iff_of_true ?_ (.inl hturned)
    obtain ⟨hpop, l, hleft, hne, hkey, hlen⟩ := hturned
    have hentered : (c.enter (o.left 0)).1 = l := by
      rw [hleft, enter_full hne hkey (Int.le_of_eq hlen.symm), hpop]
      rfl
    rw [hentered]
    exact ⟨Nat.zero_le _, ⟨_, rfl⟩, not_listed_iff.mpr (.inr hkey)⟩
  · rw [if_neg haway]
    have hwaits : ¬ TurnedAway c o := fun h => haway (turned_away_iff.mpr h)
    rw [WaitEnds, or_iff_right hwaits]
    cases hacquired : o.acquired with
    | true =>
        rw [← hacquired, exec_locked hacquired, bounded_wait_iff, hacquired]
        simp only [reduceCtorEq, false_and, false_or, true_and]
    | false =>
        -- the `except` clause removes the key from the list that was written at first
        simp only [true_and, reduceCtorEq, false_and, or_false]
        rw [← count_enter]
        exact bounded_handled.trans (and_iff_right (Nat.zero_le _))

end

/-- `func` never returns what is expected. -/
def hopeless : Call Nat Nat where
  func _ := .ok 0
  expect_func _ _ := .ok false
  loop_count := 1
  unique_key := 7

theorem exec_hopeless (l : Option (List Nat)) (h : l = none ∨ l = some [7]) :
    exec (get_pending_result hopeless { left := fun _ => l }) {} =
      give_back hopeless { left := fun _ => l }
        (exec (wait hopeless { left := fun _ => l } 1) ⟨some [7], some [7], 0⟩) := by
  have hstay : ¬ (¬ hopeless.pop_first ∧ ((hopeless.enter l).1.length : Int) =
      hopeless.run_func_count ∧ (hopeless.enter l).2) := fun h => h.1 rfl
  rw [get_pending_result, exec_get_bind, Lib.Prog.exec_update_bind, if_neg hstay]
  rcases h with rfl | rfl
  · exact exec_locked rfl _
  · exact exec_locked rfl _

/-- With its key in the list `func` is called twice; without a list the `except` clause raises. -/
theorem hopeless_not_bounded :
    ¬ Bounded hopeless (exec (get_pending_result hopeless { left := fun _ => some [7] }) {}) ∧
    ¬ Bounded hopeless (exec (get_pending_result hopeless { left := fun _ => none }) {}) := by
  constructor
  · rw [exec_hopeless (some [7]) (.inr rfl)]
    exact not_bounded_of_goes_on (fun m _ _ => ⟨⟨[7], rfl, List.mem_singleton_self 7⟩, rfl⟩) _
  · rw [exec_hopeless none (.inl rfl), wait_none rfl]
    exact not_bounded_error

end InfraHub.Common.Pending
