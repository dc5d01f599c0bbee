import InfraHub.Lib.Run

/-!
# Magic — Wrapper

The calls of one function decorated with `MagicCacheData.make_cache`, for one cache key, as a
machine: every `get`, `set`, `delete` and lock operation of the cache is one step.

* `Pc`: where a call is in `wrapper`.
* `advance`: the next step of a call.
* `next`: one event, of a call or of the world around it.  The data the function reads is its
  version, the number of writes so far.
-/

namespace InfraHub.Magic

/-- What the decorator is given, and how the cache server matches a pattern. -/
structure Wrapper where
  key : String
  invalid_time : Int
  glob : (pattern key : String) → Bool

def cache_key (key : String) : String := "magic_cache_data_" ++ key

inductive Status
  | ready
  | ok
  deriving DecidableEq, Repr

/-- The cached dictionary; no data is `""`. -/
structure Entry where
  c_time : Int
  data : Option Nat
  status : Status
  deriving DecidableEq, Repr

/-- What a call of `wrapper` does next. -/
inductive Pc
  /-- `res = cache.get(cache_key)` -/
  | get
  /-- the same, in the loop that waits for `ok` -/
  | sleep
  /-- acquire the lock -/
  | lock (res : Option Entry)
  /-- the lock is held: return the data of `res`, or mark the entry `ready` -/
  | check (res : Option Entry)
  /-- `func(*args, **kwargs)` -/
  | func
  /-- mark the entry `ok` -/
  | store (data : Option Nat)
  /-- release the lock -/
  | release (data : Option Nat)
  | returned (data : Option Nat)
  /-- the lock had timed out -/
  | raised
  deriving DecidableEq, Repr

/-- A call; `floor` remembers the version it was started at, where that was invalidated already. -/
structure Call where
  n_time : Int
  cache_time : Int
  floor : Option Nat
  pc : Pc
  deriving DecidableEq, Repr

/-- `clean` remembers whether the last write has been followed by an invalidation. -/
structure State where
  now : Int
  entry : Option Entry
  lock : Option Nat
  version : Nat
  clean : Bool
  calls : List Call
  deriving DecidableEq, Repr

def State.init : State where
  now := 0
  entry := none
  lock := none
  version := 0
  clean := true
  calls := []

/-- `res and n_time - res.get("c_time", n_time) < cache_time - invalid_time`. -/
def Wrapper.is_valid (W : Wrapper) (c : Call) (res : Entry) : Prop :=
  c.n_time - res.c_time < c.cache_time - W.invalid_time

instance (W : Wrapper) (c : Call) (res : Entry) : Decidable (W.is_valid c res) :=
  inferInstanceAs (Decidable (_ < _))

/-- The wait is over once the entry is `ok`. -/
def await (res : Entry) : Pc := if res.status = .ok then .lock (some res) else .sleep

/-- Call `i` goes on at `pc`. -/
def State.goto (s : State) (i : Nat) (c : Call) (pc : Pc) : State :=
  { s with calls := s.calls.set i { c with pc } }

/-- The next step of call `i`, which is `c`; there is none where it waits for the lock or is over. -/
def advance (W : Wrapper) (s : State) (i : Nat) (c : Call) : Option State :=
  match c.pc with
  | .get =>
      match s.entry with
      | none => some (s.goto i c (.lock none))
      | some res => some (s.goto i c (await res))
  | .sleep =>
      match s.entry with
      | none => some (s.goto i c .sleep)
      | some res => some (s.goto i c (await res))
  | .lock res =>
      if s.lock = none then some ({ s with lock := some i }.goto i c (.check res)) else none
  | .check none => some (mark_ready s i c)
  | .check (some res) =>
      if W.is_valid c res then some (s.goto i c (.release res.data)) else some (mark_ready s i c)
  | .func => some (s.goto i c (.store (some s.version)))
  | .store data =>
      some ({ s with entry := some ⟨c.n_time, data, .ok⟩ }.goto i c (.release data))
  | .release data =>
      if s.lock = some i then some ({ s with lock := none }.goto i c (.returned data))
      else some (s.goto i c .raised)
  | .returned _ => none
  | .raised => none
where
  mark_ready (s : State) (i : Nat) (c : Call) : State :=
    { s with entry := some ⟨c.n_time, none, .ready⟩ }.goto i c .func

inductive Event
  /-- `wrapper` is called; `timeout_func` says `cache_time` -/
  | call (cache_time : Int)
  | advance (i : Nat)
  /-- `func` raises; the exception is logged and `""` is cached in its place -/
  | fail (i : Nat)
  | tick
  /-- a write to the underlying data -/
  | write
  | invalid_cache (key : String)
  | invalid_caches (keys : List String)
  /-- the entry times out -/
  | expire
  /-- the lock times out -/
  | lock_expire
  deriving DecidableEq, Repr

/-- The pattern of `invalid_cache(key)` matches the entry. -/
def Wrapper.hits (W : Wrapper) (key : String) : Bool := W.glob (cache_key key) (cache_key W.key)

/-- One event; there is none where a call cannot move. -/
def next (W : Wrapper) (s : State) : Event → Option State
  | .call cache_time =>
      some { s with
        calls := s.calls ++ [⟨s.now, cache_time, if s.clean then some s.version else none, .get⟩] }
  | .advance i => s.calls[i]?.bind (advance W s i)
  | .fail i =>
      s.calls[i]?.bind fun c => if c.pc = .func then some (s.goto i c (.store none)) else none
  | .tick => some { s with now := s.now + 1 }
  | .write => some { s with version := s.version + 1, clean := false }
  | .invalid_cache key =>
      some { s with
        entry := if W.hits key then none else s.entry
        clean := s.clean || W.hits key || key = W.key }
  | .invalid_caches keys =>
      some { s with
        entry := if W.key ∈ keys then none else s.entry
        clean := s.clean || W.key ∈ keys }
  | .expire => some { s with entry := none }
  | .lock_expire => some { s with lock := none }

def Step (W : Wrapper) (s : State) (e : Event) (t : State) : Prop := next W s e = some t

/-- A call that was started after the last write was invalidated has returned data read since that
write. -/
def NothingStale (s : State) : Prop :=
  ∀ c ∈ s.calls, ∀ n data, c.floor = some n → c.pc = .returned data → ∃ v, data = some v ∧ n ≤ v

end InfraHub.Magic
