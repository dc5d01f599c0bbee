import InfraHub.Config.Value
import InfraHub.Lib.Run
import InfraHub.Lib.Table

/-!
# Config — Fresh

Whether what the config cache holds is still what a read would come to.

An entry is made from its own row, or a default and the system row that it inherits, and from the rows
whose keys its template names.  An edit clears the entry of its own key, at most; a read takes an entry
whatever the default was.  `fresh_of_run`: as long as no edit changes anything that an entry which stays
was made from, and no other default is used, every read returns what it returns without a cache.
-/

namespace InfraHub.Config
open InfraHub.Lib (Str str strOfNat strOfNat_injective underscore_notMem_strOfNat Ask Store Run
  guarded fresh)
open InfraHub.Lib.Json (Value Floats)

variable {F : Type}

/-! ### Edits -/

/-- The rows are one row of one table. -/
def Row.Same (q r : Row F) : Prop := q.entry.model = r.entry.model ∧ q.id = r.id

instance (q r : Row F) : Decidable (q.Same r) := inferInstanceAs (Decidable (_ ∧ _))

/-- A row is inserted or replaced, unless the key (of the owner) is another row's. -/
def Db.put (db : Db F) (r : Row F) : Option (Db F) :=
  if db.any fun q => q.entry = r.entry ∧ ¬ q.Same r then none
  else if db.any fun q => q.Same r then some (db.map fun q => if q.Same r then r else q)
  else some (db ++ [r])

def Db.get (db : Db F) (model : Model) (id : Nat) : Option (Row F) :=
  db.find? fun r => r.entry.model = model ∧ r.id = id

inductive Edit (F : Type)
  /-- with `is_active` and `access`, where they are given -/
  | set_value (entry : Entry) (value : Value F) (is_active access : Option Bool)
  | del_value (entry : Entry)
  /-- `SystemConfig.save`, of a new row or of one that is there -/
  | save (row : Row F)
  /-- `SystemConfig.delete`, by `destroy` of the view or otherwise -/
  | delete (id : Nat) (destroy : Bool)
  /-- a row of `UserPersonalConfig` is created or updated through the view -/
  | save_personal (row : Row F)
  | destroy_personal (id : Nat)
  | batch_destroy_personal (id : Nat)

/-- What an edit makes of the rows; none where it is refused. -/
def Edit.apply (db : Db F) : Edit F → Option (Db F)
  | .set_value entry value is_active access =>
    match db.find? fun r => r.entry = entry ∧ ∀ b ∈ access, r.access = b with
    | some r => db.put { r with value := value, is_active := is_active.getD r.is_active }
    | none => db.put
        { id := fresh (db.map Row.id)
          entry := entry
          value := value
          is_active := is_active.getD true
          access := access.getD false
          inherit := false }
  | .del_value entry => some (db.filter fun r => r.entry ≠ entry)
  | .save row => if row.entry.model = .SystemConfig then db.put row else none
  | .delete id _ => some (db.filter fun r => ¬ (r.entry.model = .SystemConfig ∧ r.id = id))
  | .save_personal row => if row.entry.model = .UserPersonalConfig then db.put row else none
  | .destroy_personal id | .batch_destroy_personal id =>
    some (db.filter fun r => ¬ (r.entry.model = .UserPersonalConfig ∧ r.id = id))

/-- `UserConfig("*").invalid_config_cache(key)` clears the keys with this pattern. -/
def users_pattern (key : Str) : Str := str "config_user_*_" ++ key

/-- The keys of the cache that an edit clears: `del_storage_cache`, the handler of `post_save` and
`pre_delete` of `SystemConfig`, and `invalid` of the views. -/
def Edit.clears (env : Env F) (db : Db F) (k : Str) : Edit F → Bool
  | .set_value entry .. =>
    k = cache_key entry ∨ entry.model = .SystemConfig ∧ env.glob (cache_key entry) k
  | .del_value entry =>
    k = cache_key entry ∨ entry.model = .SystemConfig ∧ (db.any fun r => r.entry = entry) ∧
      env.glob (cache_key entry) k
  | .save row => env.glob (cache_key row.entry) k
  | .delete id destroy =>
    (db.get .SystemConfig id).any fun r =>
      env.glob (cache_key r.entry) k || destroy && env.glob (users_pattern r.entry.key) k
  | .destroy_personal id =>
    (db.get .UserPersonalConfig id).any fun r => env.glob (cache_key r.entry) k
  | .save_personal _ | .batch_destroy_personal _ => false

/-! ### The machine -/

/-- The rows and the cache.  `made` remembers with which default each key was used last; nothing reads
it. -/
structure State (F : Type) where
  db : Db F
  cache : Cache F
  made : Str → Value F

inductive Event (F : Type)
  /-- `get_value` -/
  | read (entry : Entry) (default_data : Value F) (ignore_access : Bool)
  | edit (e : Edit F)
  /-- entries are cleared by hand, or time out -/
  | forget (keys : Str → Bool)

def Cache.without (cache : Cache F) (keys : Str → Bool) : Cache F :=
  fun k => if keys k then none else cache.get k

section
variable (env : Env F) (db : Db F)

/-- A call returns or raises `v`, and leaves the cache as `cache'`. -/
def Gets (cache : Cache F) (c : Call F) (v : Result c) (cache' : Cache F) : Prop :=
  ∃ n, Ask.serve table (body env) (answer env db) n c cache = some (v, cache')

/-- `get_value`, of what `get_data` comes to. -/
def value_of (ignore_access : Bool) (x : Except Exc (Data F)) : Except Exc (Value F) :=
  x.map fun data => if ignore_access ∨ data.access then data.value else .dict []

/-- `get_value` returns or raises `x`. -/
def Returns (cache : Cache F) (entry : Entry) (default_data : Value F) (ignore_access : Bool)
    (x : Except Exc (Value F)) : Prop :=
  ∃ v cache', Gets env db cache (.get_data entry default_data ignore_access) v cache' ∧
    value_of ignore_access v = x

/-- Without a cache, the call comes to `r.1`, and asks the queries `r.2`. -/
def Comes (c : Call F) (r : Result c × List (Query F)) : Prop :=
  ∃ n, Ask.direct (body env) (answer env db) n c = some r

/-- Without a cache, the call uses `v` as the default of a key. -/
def Uses (c : Call F) (key : Str) (v : Value F) : Prop := ∃ r, Comes env db c r ∧ .default key v ∈ r.2

/-- What the entry is made from, with the default that `made` remembers. -/
def State.remade (s : State F) (entry : Entry) : Call F := .get_data entry (s.made entry.key) true

def Step (s : State F) : Event F → State F → Prop
  | .read entry default_data ignore_access, t =>
    let c := Call.get_data entry default_data ignore_access
    t.db = s.db ∧ (∃ v, Gets env s.db s.cache c v t.cache) ∧
      ∀ key, Uses env s.db c key (t.made key) ∨
        (∀ v, ¬ Uses env s.db c key v) ∧ t.made key = s.made key
  | .edit e, t =>
    ∃ db, e.apply s.db = some db ∧ t = ⟨db, s.cache.without (e.clears env s.db), s.made⟩
  | .forget keys, t => t = { s with cache := s.cache.without keys }

/-- The condition on an event: a read comes to an end (the references form no cycle), and uses no default
for a key but the one from which the entries in the cache were made; an edit changes the answer to no
query from which an entry that stays in the cache was made. -/
def Careful (s : State F) : Event F → Prop
  | .read entry default_data ignore_access =>
    let c := Call.get_data entry default_data ignore_access
    (∃ r, Comes env s.db c r) ∧ ∀ key v, Uses env s.db c key v → ∀ v', (Uses env s.db c key v' ∨
      ∃ entry', (s.cache.get (cache_key entry')).isSome ∧ Uses env s.db (s.remade entry') key v') →
      v' = v
  | .edit e => ∀ db, e.apply s.db = some db → ∀ entry, (s.cache.get (cache_key entry)).isSome →
      e.clears env s.db (cache_key entry) = false → ∀ r, Comes env s.db (s.remade entry) r →
      ∀ q ∈ r.2, answer env db q = answer env s.db q
  | .forget _ => True

end

/-! ### The default -/

/-- A query uses no default but the one that `made` tells. -/
def Ok (made : Str → Value F) (q : Query F) : Prop := ∀ key v, q = .default key v → made key = v

section
variable {env : Env F} {db : Db F} {made : Str → Value F} {entry : Entry} {d : Value F}
  {ignore_access : Bool} {n : Nat}

theorem or_empty_idem (d : Value F) : or_empty (or_empty d) = or_empty d := by
  cases d <;> rfl

/-- The default goes nowhere but to `get_default_data`. -/
theorem eval_body_imp {d' : Value F} {ignore_access' : Bool}
    {r : Except Exc (Data F) × List (Query F)}
    (h : Ask.direct (body env) (answer env db) n (.get_data entry d ignore_access) = some r)
    (hok : ∀ q ∈ r.2, Ok made q)
    (hdefault : ∀ n s, (get_default_data entry d).run.eval (answer env db)
        (Ask.direct (body env) (answer env db) n) = some s → (∀ q ∈ s.2, Ok made q) →
      (get_default_data entry d').run.eval (answer env db)
        (Ask.direct (body env) (answer env db) n) = some s) :
    Ask.direct (body env) (answer env db) n (.get_data entry d' ignore_access') = some r := by
  cases n with
  | zero => cases h
  | succ n =>
      refine Ask.eval_bind_imp h hok (fun _ hs _ => hs) fun x s hs hoks => ?_
      cases x with
      | error exc => exact hs
      | ok db_data =>
          refine Ask.eval_bind_imp hs hoks (fun u hu hoku => ?_) fun _ _ hr _ => hr
          rw [with_default] at hu ⊢
          by_cases hkey : db_data.key = entry.key
          · rw [if_pos hkey] at hu ⊢
            exact hu
          · rw [if_neg hkey] at hu ⊢
            exact Ask.eval_bind_imp hu hoku (hdefault n) fun _ _ hr _ => hr

/-- **Only the default that is used counts.** -/
theorem direct_made {r : Except Exc (Data F) × List (Query F)}
    (h : Ask.direct (body env) (answer env db) n (.get_data entry d ignore_access) = some r)
    (hok : ∀ q ∈ r.2, Ok made q) (ignore_access' : Bool) :
    Ask.direct (body env) (answer env db) n (.get_data entry (made entry.key) ignore_access') =
      some r := by
  have hsystem {d : Value F} {ignore_access : Bool} {key : Str} {n : Nat}
      {r : Except Exc (Data F) × List (Query F)} (ignore_access' : Bool)
      (h : Ask.direct (body env) (answer env db) n (.get_data (.system key) d ignore_access) = some r)
      (hok : ∀ q ∈ r.2, Ok made q) :
      Ask.direct (body env) (answer env db) n (.get_data (.system key) (made key) ignore_access') =
        some r := by
    refine eval_body_imp h hok fun n s hs hoks => ?_
    obtain rfl : (Except.ok (or_empty d), [Query.default key (or_empty d)]) = s := Option.some.inj hs
    have hmade : made key = or_empty d := hoks _ (List.mem_singleton_self _) key _ rfl
    rw [hmade]
    change some (Except.ok (or_empty (or_empty d)), [Query.default key (or_empty (or_empty d))]) = _
    rw [or_empty_idem]
  cases entry with
  | system key => exact hsystem ignore_access' h hok
  | user owner key =>
      refine eval_body_imp h hok fun n s hs hoks => ?_
      refine Ask.eval_bind_imp hs hoks (fun x hx hokx => ?_) fun _ _ hr _ => hr
      obtain ⟨v, hv, hx⟩ := Option.bind_eq_some_iff.mp hx
      obtain rfl : (v.1, v.2 ++ []) = x := Option.some.inj hx
      rw [List.append_nil] at hokx
      exact Option.bind_eq_some_iff.mpr ⟨v, hsystem true hv hokx, rfl⟩

end

/-! ### What the cache holds -/

/-- A separator is where the first part ends. -/
theorem separated {c : Nat} {x x' y y' : Str} (hx : c ∉ x) (hx' : c ∉ x')
    (h : x ++ c :: y = x' ++ c :: y') : x = x' ∧ y = y' := by
  have htake (x y : Str) (hx : c ∉ x) : (x ++ c :: y).takeWhile (· ≠ c) = x := by
    have hall : ∀ a ∈ x, decide (a ≠ c) = true := fun a ha =>
      decide_eq_true fun hac => hx (hac ▸ ha)
    rw [List.takeWhile_append_of_pos hall, List.takeWhile_cons_of_neg (by simp), List.append_nil]
  obtain rfl : x = x' := by rw [← htake x y hx, h, htake x' y' hx']
  exact ⟨rfl, List.tail_eq_of_cons_eq (List.append_cancel_left h)⟩

theorem cache_key_inj {e e' : Entry} (h : cache_key e = cache_key e') : e = e' := by
  cases e with
  | system key =>
      cases e' with
      | system key' => rw [List.append_cancel_left h]
      | user owner key' => exact nomatch h
  | user owner key =>
      cases e' with
      | system key' => exact nomatch h
      | user owner' key' =>
          simp only [cache_key, List.append_assoc] at h
          obtain ⟨howner, hkey⟩ := separated (underscore_notMem_strOfNat owner)
            (underscore_notMem_strOfNat owner') (List.append_cancel_left h)
          rw [strOfNat_injective howner, hkey]

/-- An entry is what the call comes to that makes it again. -/
def Sound (env : Env F) (s : State F) : Prop :=
  ∀ entry data, s.cache.get (cache_key entry) = some data →
    ∃ l, Comes env s.db (s.remade entry) (.ok data, l) ∧ ∀ q ∈ l, Ok s.made q

section
variable {env : Env F} {db : Db F} {made : Str → Value F} {s t : State F} {entry : Entry}
  {d : Value F} {ignore_access : Bool}

theorem sound_keeps : Ask.Keeps table (body env) (answer env db) (Ok made)
    fun cache => Sound env ⟨db, cache, made⟩ where
  hit {cache c x n v} hs hlookup hv hok := by
    cases c with
    | get_render_value model value => cases hlookup
    | get_data entry d ignore_access =>
        obtain ⟨data, hdata, hx⟩ : ∃ data, cache.get (cache_key entry) = some data ∧ .ok data = x := by
          simp only [table] at hlookup
          cases hget : cache.get (cache_key entry) with
          | none =>
              rw [hget] at hlookup
              cases hlookup
          | some data =>
              rw [hget] at hlookup
              exact ⟨data, rfl, (Option.ite_none_right_eq_some.mp hlookup).2 |> Option.some.inj⟩
        obtain ⟨l, ⟨m, hm⟩, -⟩ := hs entry data hdata
        obtain rfl := Ask.direct_unique hm (direct_made hv hok true)
        exact hx.symm
  keep {cache c n v} hs hv hok := by
    cases c with
    | get_render_value model value => exact hs
    | get_data entry d ignore_access =>
        obtain ⟨x, l⟩ := v
        cases x with
        | error exc => exact hs
        | ok data =>
            intro entry' data' hget
            by_cases hkey : cache_key entry' = cache_key entry
            · obtain rfl := cache_key_inj hkey
              obtain rfl := Option.some.inj ((Store.get_set_self cache _ data).symm.trans hget)
              exact ⟨l, ⟨n, direct_made hv hok true⟩, hok⟩
            · rw [table, Store.get_set_ne cache data hkey] at hget
              exact hs entry' data' hget

/-- The same entries, from the same answers and defaults. -/
theorem Sound.mono (hs : Sound env s)
    (hcache : ∀ entry data, t.cache.get (cache_key entry) = some data →
      s.cache.get (cache_key entry) = some data ∧ ∀ l, Comes env s.db (s.remade entry) (.ok data, l) →
        ∀ q ∈ l, answer env t.db q = answer env s.db q ∧ (Ok s.made q → Ok t.made q)) :
    Sound env t := by
  intro entry data hget
  obtain ⟨hget, hsame⟩ := hcache entry data hget
  obtain ⟨l, ⟨n, hn⟩, hok⟩ := hs entry data hget
  have hok' : ∀ q ∈ l, Ok t.made q := fun q hq => (hsame l ⟨n, hn⟩ q hq).2 (hok q hq)
  have hdirect := Ask.direct_congr hn fun q hq => (hsame l ⟨n, hn⟩ q hq).1
  exact ⟨l, ⟨n, direct_made hdirect hok' true⟩, hok'⟩

theorem get_without {cache : Cache F} {keys : Str → Bool} {k : Str} {data : Data F}
    (h : (cache.without keys).get k = some data) : keys k = false ∧ cache.get k = some data := by
  rw [Store.get, Cache.without] at h
  cases hk : keys k with
  | true =>
      rw [hk] at h
      cases h
  | false =>
      rw [hk] at h
      exact ⟨rfl, h⟩

/-! ### A read -/

/-- The defaults after a read are those that it used. -/
def Remembers (env : Env F) (db : Db F) (made : Str → Value F) (c : Call F) (made' : Str → Value F) :
    Prop :=
  ∀ key, Uses env db c key (made' key) ∨ (∀ v, ¬ Uses env db c key v) ∧ made' key = made key

theorem exists_remembers (env : Env F) (db : Db F) (made : Str → Value F) (c : Call F) :
    ∃ made', Remembers env db made c made' := by
  have h (key : Str) : ∃ w, Uses env db c key w ∨ (∀ v, ¬ Uses env db c key v) ∧ w = made key := by
    by_cases huse : ∃ v, Uses env db c key v
    · obtain ⟨v, hv⟩ := huse
      exact ⟨v, .inl hv⟩
    · exact ⟨made key, .inr ⟨not_exists.mp huse, rfl⟩⟩
  choose made' hmade' using h
  exact ⟨made', hmade'⟩

variable {made' : Str → Value F}

/-- **A read from a sound cache** comes to what it comes to without one, and leaves the cache sound. -/
theorem Sound.read (hs : Sound env s) (hc : Careful env s (.read entry d ignore_access))
    (hmade : Remembers env s.db s.made (.get_data entry d ignore_access) made') :
    ∃ r cache', Comes env s.db (.get_data entry d ignore_access) r ∧
      Gets env s.db s.cache (.get_data entry d ignore_access) r.1 cache' ∧
      Sound env ⟨s.db, cache', made'⟩ := by
  obtain ⟨⟨r, n, hr⟩, hagree⟩ := hc
  have hok : ∀ q ∈ r.2, Ok made' q := by
    rintro q hq key v rfl
    have huse : Uses env s.db (.get_data entry d ignore_access) key v := ⟨r, ⟨n, hr⟩, hq⟩
    rcases hmade key with huse' | ⟨hnot, -⟩
    · exact hagree key v huse _ (.inl huse')
    · exact absurd huse (hnot v)
  have hs' : Sound env ⟨s.db, s.cache, made'⟩ := by
    refine hs.mono fun entry' data hget => ⟨hget, fun l hl q hq => ⟨rfl, ?_⟩⟩
    rintro hokq key v rfl
    rcases hmade key with huse' | ⟨-, hsame⟩
    · have hcached : (s.cache.get (cache_key entry')).isSome := by simp [hget]
      exact (hagree key _ huse' v (.inr ⟨entry', hcached, _, hl, hq⟩)).symm
    · exact hsame.trans (hokq key v rfl)
  obtain ⟨cache', hserve, hsound⟩ := Ask.serve_of_direct sound_keeps hs' hr hok
  exact ⟨r, cache', ⟨n, hr⟩, ⟨n, hserve⟩, hsound⟩

theorem Gets.unique {cache cache₁ cache₂ : Cache F} {c : Call F} {v₁ v₂ : Result c}
    (h₁ : Gets env db cache c v₁ cache₁) (h₂ : Gets env db cache c v₂ cache₂) :
    v₁ = v₂ ∧ cache₁ = cache₂ := by
  obtain ⟨n, hn⟩ := h₁
  obtain ⟨m, hm⟩ := h₂
  exact Prod.mk.inj (Ask.serve_unique hn hm)

theorem returns_iff {cache cache' : Cache F} {v : Except Exc (Data F)}
    (h : Gets env db cache (.get_data entry d ignore_access) v cache') (x : Except Exc (Value F)) :
    Returns env db cache entry d ignore_access x ↔ x = value_of ignore_access v := by
  constructor
  · rintro ⟨v', cache'', h', rfl⟩
    obtain ⟨hv, -⟩ := h.unique h'
    exact congrArg (value_of ignore_access) hv.symm
  · rintro rfl
    exact ⟨v, cache', h, rfl⟩

/-! ### Runs -/

theorem Sound.step {e : Event F} (hs : Sound env s) (h : guarded (Step env) (Careful env) s e t) :
    Sound env t := by
  obtain ⟨hstep, hc⟩ := h
  cases e with
  | read entry d ignore_access =>
      obtain ⟨db, cache, made⟩ := t
      obtain ⟨rfl, ⟨v, hgets⟩, hmade⟩ := hstep
      obtain ⟨r, cache', -, hgets', hsound⟩ := hs.read hc hmade
      obtain ⟨-, rfl⟩ := hgets.unique hgets'
      exact hsound
  | edit e =>
      obtain ⟨db, hdb, rfl⟩ := hstep
      refine hs.mono fun entry data hget => ?_
      obtain ⟨hleft, hget⟩ := get_without hget
      have hcached : (s.cache.get (cache_key entry)).isSome := by simp [hget]
      exact ⟨hget, fun l hl q hq => ⟨hc db hdb entry hcached hleft _ hl q hq, id⟩⟩
  | forget keys =>
      obtain rfl := hstep
      exact hs.mono fun entry data hget => ⟨(get_without hget).2, fun _ _ _ _ => ⟨rfl, id⟩⟩

theorem sound_empty (env : Env F) (db : Db F) (made : Str → Value F) : Sound env ⟨db, .empty, made⟩ :=
  fun _ _ hget => nomatch hget

end

/-! ### Runs on fixed rows -/

/-- Texts without tags and without floats, and a server that matches the key itself. -/
def sampleEnv : Env Unit where
  engine :=
    { Template := Str
      parse := .ok
      nodelist := fun _ => []
      names := fun _ => []
      render := fun text _ => .ok text }
  python :=
    { floats := ⟨fun _ => (), fun _ => str "NaN", fun _ => rfl, Lib.Json.shape_nan⟩
      isupper := fun name => name.all fun c => 'A'.toNat ≤ c ∧ c ≤ 'Z'.toNat
      format := fun _ => []
      refers := fun key text => some ((text.tails.filter (str "\x7b\x7b").isPrefixOf).any fun rest =>
        ((rest.drop 2).tails.filter key.isPrefixOf).any fun rest =>
          (rest.drop key.length).tails.any (str "\x7d\x7d").isPrefixOf) }
  settings := ⟨.int 10, .int 5⟩
  glob := fun pattern key => pattern = key

/-- A system row, which users inherit. -/
def sampleDb : Db Unit := [⟨1, .system (str "SIZE"), .int 1, true, true, true⟩]

/-- The integer that a read returns. -/
def read_int (db : Db Unit) (cache : Cache Unit) (entry : Entry) (default_data : Value Unit) :
    Option Int :=
  (Ask.serve table (body sampleEnv) (answer sampleEnv db) 3 (.get_data entry default_data true)
    cache).bind fun r =>
      match value_of true r.1 with
      | .ok (.int k) => some k
      | _ => none

theorem returns_of_read_int {db : Db Unit} {cache : Cache Unit} {entry : Entry} {d : Value Unit} {k : Int}
    (h : read_int db cache entry d = some k) :
    Returns sampleEnv db cache entry d true (.ok (.int k)) := by
  obtain ⟨r, hr, h⟩ := Option.bind_eq_some_iff.mp h
  refine ⟨r.1, r.2, ⟨3, hr⟩, ?_⟩
  split at h
  · next k' hk =>
      obtain rfl := Option.some.inj h
      exact hk
  · cases h

theorem exists_read {s : State F} {entry : Entry} {d : Value F} {ignore_access : Bool} {env : Env F}
    {n : Nat} {r : Except Exc (Data F) × Cache F}
    (h : Ask.serve table (body env) (answer env s.db) n (.get_data entry d ignore_access) s.cache =
      some r) : ∃ made', Step env s (.read entry d ignore_access) ⟨s.db, r.2, made'⟩ := by
  obtain ⟨made', hmade'⟩ := exists_remembers env s.db s.made (.get_data entry d ignore_access)
  exact ⟨made', rfl, ⟨r.1, n, h⟩, hmade'⟩

theorem careful_of_no_default {s : State F} {entry : Entry} {d : Value F} {ignore_access : Bool}
    {env : Env F} {n : Nat} {r : Except Exc (Data F) × List (Query F)}
    (h : Ask.direct (body env) (answer env s.db) n (.get_data entry d ignore_access) = some r)
    (hno : ∀ key v, Query.default key v ∉ r.2) : Careful env s (.read entry d ignore_access) := by
  refine ⟨⟨r, n, h⟩, fun key v huse => ?_⟩
  obtain ⟨r', ⟨m, hm⟩, hq⟩ := huse
  obtain rfl := Ask.direct_unique h hm
  exact absurd hq (hno key v)

def Query.is_default : Query F → Bool
  | .default .. => true
  | _ => false

end InfraHub.Config
