import InfraHub.Auth.Isolation
import InfraHub.Lib.Threads

/-!
# Auth — Lockout

Failed logins of one username from one address at the same time.

`incr_failed_count` reads the counter and writes it back as two commands of the cache, and
`set_block_if_need` does the same for the address.  Requests that read before another has written
count as one failure: `lockout_iff` says when the username is blocked whatever the order, and that no
failure is lost where no request reads between the read and the write of another.
-/

namespace InfraHub.Auth.Lockout
open InfraHub.Lib

/-! ### `login_failed` -/

/-- Where a request is in `login_failed`: before each command on the cache. -/
inductive Pc where
  | get
  | set (count : Nat)
  | block
  | ip_get
  | ip_set (count : Nat)
  | ip_block
  | get_remainder_times
  | done
  deriving DecidableEq

section
variable (env : Env) (username ip : String)

/-- `ip_in_white_list or ip_in_black_list`. -/
def listed : Bool := env.ip_in_white_list ip || env.ip_in_black_list ip

/-- The next command; a counter that is no number raises. -/
def act (c : Cache) : Pc → Option (Cache × Pc)
  | .get =>
    some (c, match asInt (c.get (LoginBlockUtil.limit_key username ip)) with
      | none => .done
      | some n => .set (n + 1))
  | .set count =>
    some (c.set (LoginBlockUtil.limit_key username ip) (.count count),
      if env.settings.SECURITY_LOGIN_LIMIT_COUNT ≤ count then .block else .ip_get)
  | .block => some (c.set (LoginBlockUtil.block_key username) .flag, .ip_get)
  | .ip_get =>
    some (c, if listed env ip then .get_remainder_times
      else match asInt (c.get (LoginIpBlockUtil.limit_key ip)) with
        | none => .done
        | some n => .ip_set (n + 1))
  | .ip_set count =>
    some (c.set (LoginIpBlockUtil.limit_key ip) (.count count),
      if count < env.settings.SECURITY_LOGIN_IP_LIMIT_COUNT then .get_remainder_times else .ip_block)
  | .ip_block => some (c.set (LoginIpBlockUtil.block_key ip) (.str env.isoformat), .get_remainder_times)
  | .get_remainder_times => some (c, .done)
  | .done => none

abbrev State := Threads Cache Pc

abbrev Step : State → Nat → State → Prop := Threads.Step (act env username ip)

/-- `k` requests at the same time. -/
def start (c : Cache) (k : Nat) : State := Threads.start c k .get

def Finished (s : State) : Prop := s.AllAt .done

/-- A request reads the counter only while none is between the read and the write. -/
def Alone (s : State) (i : Nat) : Prop := s.pcs[i]? = some .get → ∀ count, .set count ∉ s.pcs

/-- Whatever the order, the username is blocked when all are done. -/
def Blocks (c : Cache) (k : Nat) : Prop :=
  ∀ l t, Run (Step env username ip) (start c k) l t → Finished t →
    blocked t.shared (LoginBlockUtil.block_key username)

/-- One failure more is enough: of the username, or of the address, if its flag is the one of the
username. -/
def OneMore (c : Cache) : Prop :=
  (∃ n, asInt (c.get (LoginBlockUtil.limit_key username ip)) = some n ∧
    env.settings.SECURITY_LOGIN_LIMIT_COUNT ≤ n + 1) ∨
  username = "IP_" ++ ip ∧ listed env ip = false ∧
    ∃ n, asInt (c.get (LoginIpBlockUtil.limit_key ip)) = some n ∧
      env.settings.SECURITY_LOGIN_IP_LIMIT_COUNT ≤ n + 1

end

section
variable {env : Env} {username ip : String} {c c' : Cache} {pc pc' : Pc} {k n : Nat}

/-! ### One request alone -/

/-- The handler, without the record and the reply. -/
def login_failed (env : Env) (username ip : String) : Handler Int := do
  LoginBlockUtil.incr_failed_count env username ip
  LoginIpBlockUtil.set_block_if_need env ip
  LoginBlockUtil.get_remainder_times env username ip

theorem one (h : act env username ip c pc = some (c', pc')) :
    Run (Step env username ip) (Threads.start c 1 pc) [0] (Threads.start c' 1 pc') :=
  .one (Threads.step_of rfl h)

variable (env) in
/-- The commands on the counter of the username. -/
theorem solo_incr (hn : asInt (c.get (LoginBlockUtil.limit_key username ip)) = some n) :
    ∃ l, Run (Step env username ip) (Threads.start c 1 .get) l
      (Threads.start (if env.settings.SECURITY_LOGIN_LIMIT_COUNT ≤ n + 1 then
          (c.set (LoginBlockUtil.limit_key username ip) (.count (n + 1))).set
            (LoginBlockUtil.block_key username) .flag
        else c.set (LoginBlockUtil.limit_key username ip) (.count (n + 1))) 1 .ip_get) := by
  have hget : act env username ip c .get = some (c, .set (n + 1)) := by rw [act, hn]
  split_ifs with hlimit
  · have hset : act env username ip c (.set (n + 1)) =
        some (c.set (LoginBlockUtil.limit_key username ip) (.count (n + 1)), .block) := by
      rw [act, if_pos hlimit]
    exact ⟨_, (one hget).append ((one hset).append (one rfl))⟩
  · have hset : act env username ip c (.set (n + 1)) =
        some (c.set (LoginBlockUtil.limit_key username ip) (.count (n + 1)), .ip_get) := by
      rw [act, if_neg hlimit]
    exact ⟨_, (one hget).append (one hset)⟩

variable (env username ip) in
/-- The commands on the counter of the address. -/
theorem solo_set_block (w : World) : ∃ l, Run (Step env username ip) (Threads.start w.cache 1 .ip_get) l
    (Threads.start (Prog.exec (LoginIpBlockUtil.set_block_if_need env ip) w).2.cache 1 .done) := by
  by_cases hlisted : listed env ip
  · have hget : act env username ip w.cache .ip_get = some (w.cache, .get_remainder_times) := by
      rw [act, if_pos hlisted]
    rw [exec_set_block_listed ip hlisted]
    exact ⟨_, (one hget).append (one rfl)⟩
  · obtain ⟨hwhite, hblack⟩ := Bool.or_eq_false_iff.mp (Bool.eq_false_iff.mpr hlisted)
    rw [exec_set_block ip hwhite hblack]
    cases hn : asInt (w.cache.get (LoginIpBlockUtil.limit_key ip)) with
    | none =>
        have hget : act env username ip w.cache .ip_get = some (w.cache, .done) := by
          rw [act, if_neg hlisted, hn]
        exact ⟨_, one hget⟩
    | some n =>
        have hget : act env username ip w.cache .ip_get = some (w.cache, .ip_set (n + 1)) := by
          rw [act, if_neg hlisted, hn]
        dsimp only
        split_ifs with hlimit
        · have hset : act env username ip w.cache (.ip_set (n + 1)) =
              some (w.cache.set (LoginIpBlockUtil.limit_key ip) (.count (n + 1)),
                .get_remainder_times) := by
            rw [act, if_pos hlimit]
          exact ⟨_, (one hget).append ((one hset).append (one rfl))⟩
        · have hset : act env username ip w.cache (.ip_set (n + 1)) =
              some (w.cache.set (LoginIpBlockUtil.limit_key ip) (.count (n + 1)), .ip_block) := by
            rw [act, if_neg hlimit]
          exact ⟨_, (one hget).append ((one hset).append ((one rfl).append (one rfl)))⟩

theorem exec_get_remainder_times (w : World) :
    (Prog.exec (LoginBlockUtil.get_remainder_times env username ip) w).2 = w := by
  unfold BlockUtil.get_remainder_times BlockUtil.get_failed_count cacheGet
  rw [Prog.exec_bind, Prog.exec_read_bind]
  cases asInt (w.cache.get (LoginBlockUtil.limit_key username ip)) <;> rfl

/-- What follows the flag of the address reads only. -/
theorem exec_set_block_get (w : World) :
    (Prog.exec (do
      LoginIpBlockUtil.set_block_if_need env ip
      LoginBlockUtil.get_remainder_times env username ip) w).2 =
      (Prog.exec (LoginIpBlockUtil.set_block_if_need env ip) w).2 := by
  rw [Prog.exec_bind]
  rcases Prog.exec (LoginIpBlockUtil.set_block_if_need env ip) w with ⟨_ | _, w'⟩
  · rfl
  · exact exec_get_remainder_times w'

/-- A request alone leaves the cache that the handler leaves. -/
theorem solo (env : Env) (username ip : String) (w : World) :
    ∃ l, Run (Step env username ip) (start w.cache 1) l
    (Threads.start (Prog.exec (login_failed env username ip) w).2.cache 1 .done) := by
  have hincr := @exec_incr env w LoginBlockUtil username ip
  cases hn : asInt (w.cache.get (LoginBlockUtil.limit_key username ip)) with
  | none =>
      rw [hn] at hincr
      have hget : act env username ip w.cache .get = some (w.cache, .done) := by rw [act, hn]
      rw [login_failed, Prog.exec_bind_of_error hincr]
      exact ⟨_, one hget⟩
  | some n =>
      rw [hn] at hincr
      obtain ⟨l, hl⟩ := solo_incr env hn
      rw [login_failed, Prog.exec_bind_of_ok hincr]
      rw [exec_set_block_get]
      obtain ⟨l', hl'⟩ := solo_set_block env username ip { w with cache := _ }
      exact ⟨l ++ l', hl.append hl'⟩

/-! ### Keys -/

theorem limit_key_ne_ip : LoginIpBlockUtil.limit_key ip ≠ LoginBlockUtil.limit_key username ip := by
  intro h
  have hlength := congrArg (fun key => key.toList.length) h
  simp [BlockUtil.limit_key, LoginIpBlockUtil.limit_key_eq, LoginBlockUtil] at hlength
  omega

theorem block_key_eq_ip :
    LoginIpBlockUtil.block_key ip = LoginBlockUtil.block_key username ↔ username = "IP_" ++ ip := by
  have hkey : LoginIpBlockUtil.block_key ip = LoginBlockUtil.block_key ("IP_" ++ ip) := by
    refine String.toList_inj.mp ?_
    simp [BlockUtil.block_key, LoginBlockUtil, LoginIpBlockUtil.block_key_eq]
  rw [hkey]
  exact ⟨fun h => (block_key_inj h).symm, fun h => h ▸ rfl⟩

/-! ### What a command keeps -/

/-- No command takes a flag away. -/
theorem blocked_act (hiso : env.isoformat ≠ "") (h : act env username ip c pc = some (c', pc'))
    (hb : blocked c (LoginBlockUtil.block_key username)) :
    blocked c' (LoginBlockUtil.block_key username) := by
  have hlimit {x : String} {v : CacheValue} :
      blocked (c.set ("_LOGIN_LIMIT_" ++ x) v) (LoginBlockUtil.block_key username) :=
    (blocked_congr (Store.get_set_ne _ _ (limit_ne_block _ _).symm)).trans hb
  cases pc with
  | get | ip_get | get_remainder_times =>
      obtain ⟨rfl, -⟩ := Prod.mk.inj (Option.some.inj h)
      exact hb
  | set count | ip_set count =>
      obtain ⟨rfl, -⟩ := Prod.mk.inj (Option.some.inj h)
      exact hlimit
  | block =>
      obtain ⟨rfl, -⟩ := Prod.mk.inj (Option.some.inj h)
      exact blocked_set _ _ rfl
  | ip_block =>
      obtain ⟨rfl, -⟩ := Prod.mk.inj (Option.some.inj h)
      by_cases hkey : LoginBlockUtil.block_key username = LoginIpBlockUtil.block_key ip
      · rw [hkey]
        exact blocked_set _ _ (by simpa [truthy] using hiso)
      · exact (blocked_congr (Store.get_set_ne _ _ hkey)).trans hb
  | done => exact absurd h (by simp [act])

/-- A counter is written at two places. -/
theorem get_count_act {x : String} (h : act env username ip c pc = some (c', pc'))
    (hset : ∀ count, pc = .set count → "_LOGIN_LIMIT_" ++ x ≠ LoginBlockUtil.limit_key username ip)
    (hip : ∀ count, pc = .ip_set count → "_LOGIN_LIMIT_" ++ x ≠ LoginIpBlockUtil.limit_key ip) :
    c'.get ("_LOGIN_LIMIT_" ++ x) = c.get ("_LOGIN_LIMIT_" ++ x) := by
  cases pc with
  | get | ip_get | get_remainder_times =>
      obtain ⟨rfl, -⟩ := Prod.mk.inj (Option.some.inj h)
      rfl
  | set count =>
      obtain ⟨rfl, -⟩ := Prod.mk.inj (Option.some.inj h)
      exact Store.get_set_ne _ _ (hset count rfl)
  | ip_set count =>
      obtain ⟨rfl, -⟩ := Prod.mk.inj (Option.some.inj h)
      exact Store.get_set_ne _ _ (hip count rfl)
  | block =>
      obtain ⟨rfl, -⟩ := Prod.mk.inj (Option.some.inj h)
      exact Store.get_set_ne _ _ (limit_ne_block _ _)
  | ip_block =>
      obtain ⟨rfl, -⟩ := Prod.mk.inj (Option.some.inj h)
      exact Store.get_set_ne _ _ (limit_ne_block_ip _ _)
  | done => exact absurd h (by simp [act])

theorem get_limit_act (h : act env username ip c pc = some (c', pc'))
    (hset : ∀ count, pc ≠ .set count) :
    c'.get (LoginBlockUtil.limit_key username ip) = c.get (LoginBlockUtil.limit_key username ip) :=
  get_count_act h (fun count heq => absurd heq (hset count)) fun _ _ => limit_key_ne_ip.symm

theorem get_ip_limit_act (h : act env username ip c pc = some (c', pc'))
    (hset : ∀ count, pc ≠ .ip_set count) :
    c'.get (LoginIpBlockUtil.limit_key ip) = c.get (LoginIpBlockUtil.limit_key ip) :=
  get_count_act h (fun _ _ => limit_key_ne_ip) fun count heq => absurd heq (hset count)

/-! ### Whatever the order -/

/-- A request that is done is there, as there is a request. -/
theorem done_mem {s : State} {l : List Nat} (hk : 0 < k)
    (r : Run (Step env username ip) (start c k) l s) (hdone : Finished s) : .done ∈ s.pcs := by
  have hlength : s.pcs.length = k := (Threads.length_pcs r).trans List.length_replicate
  obtain ⟨pc, hpc⟩ := List.exists_mem_of_length_pos (hlength ▸ hk)
  exact hdone pc hpc ▸ hpc

theorem forall_start {K : Pc → Prop} (h : K .get) : ∀ pc ∈ (start c k).pcs, K pc :=
  fun _ hpc => (List.eq_of_mem_replicate hpc) ▸ h

theorem blocks_of_blocked (hiso : env.isoformat ≠ "")
    (hb : blocked c (LoginBlockUtil.block_key username)) : Blocks env username ip c k := by
  intro l t r _
  exact (Threads.invariant (J := fun c => blocked c (LoginBlockUtil.block_key username))
    (K := fun _ _ => True) (fun _ _ _ _ hb _ h => ⟨blocked_act hiso h hb, trivial⟩)
    (fun _ _ _ _ _ _ _ _ _ => trivial) r hb fun _ _ => trivial).1

/-- A request past the counter has set the flag. -/
def AfterCount (n : Nat) (username : String) (c : Cache) : Pc → Prop
  | .get | .block => True
  | .set count => n < count
  | .ip_get | .ip_set _ | .ip_block | .get_remainder_times | .done =>
    blocked c (LoginBlockUtil.block_key username)

/-- The counter is not below the one at the start. -/
def AtLeast (n : Nat) (key : String) (c : Cache) : Prop := ∃ m, asInt (c.get key) = some m ∧ n ≤ m

theorem AtLeast.congr {key : String} (h : c'.get key = c.get key) (hc : AtLeast n key c) :
    AtLeast n key c' := by
  rw [AtLeast, h]
  exact hc

theorem atLeast_set {key : String} {count : Nat} (h : n ≤ count) :
    AtLeast n key (c.set key (.count count)) := ⟨count, by rw [Store.get_set_self, asInt], h⟩

theorem afterCount_keep (hiso : env.isoformat ≠ "") {p : Pc}
    (h : act env username ip c pc = some (c', pc')) (hp : AfterCount n username c p) :
    AfterCount n username c' p := by
  cases p with
  | get | block | set _ => exact hp
  | ip_get | ip_set _ | ip_block | get_remainder_times | done => exact blocked_act hiso h hp

theorem blocks_of_count (hiso : env.isoformat ≠ "") (hk : 0 < k)
    (hn : asInt (c.get (LoginBlockUtil.limit_key username ip)) = some n)
    (hlimit : env.settings.SECURITY_LOGIN_LIMIT_COUNT ≤ n + 1) : Blocks env username ip c k := by
  intro l t r hdone
  refine (Threads.invariant (J := AtLeast n (LoginBlockUtil.limit_key username ip))
    (K := AfterCount n username) ?_ (fun _ _ _ _ _ _ _ h => afterCount_keep hiso h) r
    ⟨n, hn, Nat.le_refl n⟩ (forall_start trivial)).2 .done (done_mem hk r hdone)
  intro c pc c' pc' hc hpc h
  have hkeep (hset : ∀ count, pc ≠ .set count) := hc.congr (get_limit_act h hset)
  have hblocked := blocked_act hiso h
  cases pc with
  | get =>
      obtain ⟨m, hm, hle⟩ := hc
      rw [act, hm] at h
      obtain ⟨rfl, rfl⟩ := Prod.mk.inj (Option.some.inj h)
      exact ⟨⟨m, hm, hle⟩, Nat.lt_succ_of_le hle⟩
  | set count =>
      have hcount : n < count := hpc
      rw [act, if_pos (Nat.le_trans hlimit hcount)] at h
      obtain ⟨rfl, rfl⟩ := Prod.mk.inj (Option.some.inj h)
      exact ⟨atLeast_set (Nat.le_of_lt hcount), trivial⟩
  | block =>
      obtain ⟨rfl, rfl⟩ := Prod.mk.inj (Option.some.inj h)
      exact ⟨hkeep (by simp), blocked_set _ _ rfl⟩
  | ip_get =>
      refine ⟨hkeep (by simp), ?_⟩
      obtain ⟨rfl, rfl⟩ := Prod.mk.inj (Option.some.inj h)
      split_ifs
      · exact hpc
      · split <;> exact hpc
  | ip_set count =>
      refine ⟨hkeep (by simp), ?_⟩
      obtain ⟨rfl, rfl⟩ := Prod.mk.inj (Option.some.inj h)
      split_ifs <;> exact hblocked hpc
  | ip_block | get_remainder_times =>
      refine ⟨hkeep (by simp), ?_⟩
      obtain ⟨rfl, rfl⟩ := Prod.mk.inj (Option.some.inj h)
      exact hblocked hpc
  | done => exact absurd h (by simp [act])

/-- The username is a name for the address, and a request past the counter of the address has set
the flag. -/
def AfterAddress (n : Nat) (username : String) (c : Cache) : Pc → Prop
  | .get | .set _ | .block | .ip_get | .ip_block => True
  | .ip_set count => n < count
  | .get_remainder_times | .done => blocked c (LoginBlockUtil.block_key username)

theorem afterAddress_keep (hiso : env.isoformat ≠ "") {p : Pc}
    (h : act env username ip c pc = some (c', pc')) (hp : AfterAddress n username c p) :
    AfterAddress n username c' p := by
  cases p with
  | get | set _ | block | ip_get | ip_block | ip_set _ => exact hp
  | get_remainder_times | done => exact blocked_act hiso h hp

theorem blocks_of_address (hiso : env.isoformat ≠ "") (hk : 0 < k)
    (hcount : AtLeast 0 (LoginBlockUtil.limit_key username ip) c) (hname : username = "IP_" ++ ip)
    (hlisted : listed env ip = false)
    (hn : asInt (c.get (LoginIpBlockUtil.limit_key ip)) = some n)
    (hlimit : env.settings.SECURITY_LOGIN_IP_LIMIT_COUNT ≤ n + 1) : Blocks env username ip c k := by
  intro l t r hdone
  refine (Threads.invariant (J := fun c => AtLeast 0 (LoginBlockUtil.limit_key username ip) c ∧
      AtLeast n (LoginIpBlockUtil.limit_key ip) c)
    (K := AfterAddress n username) ?_ (fun _ _ _ _ _ _ _ h => afterAddress_keep hiso h) r
    ⟨hcount, n, hn, Nat.le_refl n⟩ (forall_start trivial)).2 .done (done_mem hk r hdone)
  rintro c pc c' pc' ⟨hc, hip⟩ hpc h
  have hkeep (hset : ∀ count, pc ≠ .set count) := hc.congr (get_limit_act h hset)
  have hkeep_ip (hset : ∀ count, pc ≠ .ip_set count) := hip.congr (get_ip_limit_act h hset)
  have hblocked := blocked_act hiso h
  cases pc with
  | get =>
      obtain ⟨m, hm, hle⟩ := hc
      rw [act, hm] at h
      obtain ⟨rfl, rfl⟩ := Prod.mk.inj (Option.some.inj h)
      exact ⟨⟨⟨m, hm, hle⟩, hip⟩, trivial⟩
  | set count =>
      refine ⟨⟨?_, hkeep_ip (by simp)⟩, ?_⟩
      · obtain ⟨rfl, -⟩ := Prod.mk.inj (Option.some.inj h)
        exact atLeast_set (Nat.zero_le count)
      · obtain ⟨-, rfl⟩ := Prod.mk.inj (Option.some.inj h)
        split_ifs <;> trivial
  | block =>
      refine ⟨⟨hkeep (by simp), hkeep_ip (by simp)⟩, ?_⟩
      obtain ⟨-, rfl⟩ := Prod.mk.inj (Option.some.inj h)
      trivial
  | ip_get =>
      obtain ⟨m, hm, hle⟩ := hip
      rw [act, if_neg (Bool.eq_false_iff.mp hlisted), hm] at h
      obtain ⟨rfl, rfl⟩ := Prod.mk.inj (Option.some.inj h)
      exact ⟨⟨hc, m, hm, hle⟩, Nat.lt_succ_of_le hle⟩
  | ip_set count =>
      have hle : n < count := hpc
      rw [act, if_neg (Nat.not_lt.mpr (Nat.le_trans hlimit hle))] at h
      refine ⟨⟨hkeep (by simp), ?_⟩, ?_⟩
      · obtain ⟨rfl, -⟩ := Prod.mk.inj (Option.some.inj h)
        exact atLeast_set (Nat.le_of_lt hle)
      · obtain ⟨-, rfl⟩ := Prod.mk.inj (Option.some.inj h)
        trivial
  | ip_block =>
      refine ⟨⟨hkeep (by simp), hkeep_ip (by simp)⟩, ?_⟩
      obtain ⟨rfl, rfl⟩ := Prod.mk.inj (Option.some.inj h)
      rw [AfterAddress, ← block_key_eq_ip.mpr hname]
      exact blocked_set _ _ (by simpa [truthy] using hiso)
  | get_remainder_times =>
      refine ⟨⟨hkeep (by simp), hkeep_ip (by simp)⟩, ?_⟩
      obtain ⟨rfl, rfl⟩ := Prod.mk.inj (Option.some.inj h)
      exact hpc
  | done => exact absurd h (by simp [act])

/-! ### All read before one writes -/

/-- A command that all requests do after one another. -/
theorem all (hk : 0 < k) (h : act env username ip c pc = some (c', pc'))
    (hagain : act env username ip c' pc = some (c', pc')) :
    Run (Step env username ip) (Threads.start c k pc) (List.range k) (Threads.start c' k pc') :=
  Threads.round h hagain hk

/-- All count one failure of the username. -/
theorem all_count (hk : 0 < k) (hn : asInt (c.get (LoginBlockUtil.limit_key username ip)) = some n)
    (hlimit : ¬ env.settings.SECURITY_LOGIN_LIMIT_COUNT ≤ n + 1) :
    Run (Step env username ip) (start c k) (List.range k ++ List.range k)
      (Threads.start (c.set (LoginBlockUtil.limit_key username ip) (.count (n + 1))) k .ip_get) := by
  have hget : act env username ip c .get = some (c, .set (n + 1)) := by rw [act, hn]
  have hset (c : Cache) : act env username ip c (.set (n + 1)) =
      some (c.set (LoginBlockUtil.limit_key username ip) (.count (n + 1)), .ip_get) := by
    rw [act, if_neg hlimit]
  have hagain := hset (c.set (LoginBlockUtil.limit_key username ip) (.count (n + 1)))
  rw [Store.set_set] at hagain
  exact (all hk hget hget).append (all hk (hset c) hagain)

variable (env username ip) in
/-- All count one failure of the address; the flag of the username stays as it is, unless it is the
one of the address. -/
theorem all_address (hk : 0 < k) (hnot : ¬ (username = "IP_" ++ ip ∧ listed env ip = false ∧
      ∃ n, asInt (c.get (LoginIpBlockUtil.limit_key ip)) = some n ∧
        env.settings.SECURITY_LOGIN_IP_LIMIT_COUNT ≤ n + 1)) :
    ∃ l c', Run (Step env username ip) (Threads.start c k .ip_get) l (Threads.start c' k .done) ∧
      blocked c' (LoginBlockUtil.block_key username) = blocked c (LoginBlockUtil.block_key username) := by
  have hend (c : Cache) : act env username ip c .get_remainder_times = some (c, .done) := rfl
  by_cases hlisted : listed env ip
  · have hget : act env username ip c .ip_get = some (c, .get_remainder_times) := by
      rw [act, if_pos hlisted]
    exact ⟨_, c, (all hk hget hget).append (all hk (hend c) (hend c)), rfl⟩
  cases hn : asInt (c.get (LoginIpBlockUtil.limit_key ip)) with
  | none =>
      have hget : act env username ip c .ip_get = some (c, .done) := by
        rw [act, if_neg hlisted, hn]
      exact ⟨_, c, all hk hget hget, rfl⟩
  | some n =>
      have hget : act env username ip c .ip_get = some (c, .ip_set (n + 1)) := by
        rw [act, if_neg hlisted, hn]
      have hflag : blocked (c.set (LoginIpBlockUtil.limit_key ip) (.count (n + 1)))
          (LoginBlockUtil.block_key username) = blocked c (LoginBlockUtil.block_key username) :=
        blocked_congr (Store.get_set_ne _ _ (limit_ne_block _ _).symm)
      by_cases hlimit : n + 1 < env.settings.SECURITY_LOGIN_IP_LIMIT_COUNT
      · have hset (c : Cache) : act env username ip c (.ip_set (n + 1)) =
            some (c.set (LoginIpBlockUtil.limit_key ip) (.count (n + 1)), .get_remainder_times) := by
          rw [act, if_pos hlimit]
        have hagain := hset (c.set (LoginIpBlockUtil.limit_key ip) (.count (n + 1)))
        rw [Store.set_set] at hagain
        exact ⟨_, _, (all hk hget hget).append ((all hk (hset c) hagain).append
          (all hk (hend _) (hend _))), hflag⟩
      · have hset (c : Cache) : act env username ip c (.ip_set (n + 1)) =
            some (c.set (LoginIpBlockUtil.limit_key ip) (.count (n + 1)), .ip_block) := by
          rw [act, if_neg hlimit]
        have hagain := hset (c.set (LoginIpBlockUtil.limit_key ip) (.count (n + 1)))
        rw [Store.set_set] at hagain
        have hblock (c : Cache) : act env username ip c .ip_block =
            some (c.set (LoginIpBlockUtil.block_key ip) (.str env.isoformat), .get_remainder_times) := rfl
        have hblock_again := hblock ((c.set (LoginIpBlockUtil.limit_key ip) (.count (n + 1))).set
          (LoginIpBlockUtil.block_key ip) (.str env.isoformat))
        rw [Store.set_set] at hblock_again
        refine ⟨_, _, (all hk hget hget).append ((all hk (hset c) hagain).append
          ((all hk (hblock _) hblock_again).append (all hk (hend _) (hend _)))), ?_⟩
        have hkey : LoginBlockUtil.block_key username ≠ LoginIpBlockUtil.block_key ip := fun heq =>
          hnot ⟨block_key_eq_ip.mp heq.symm, Bool.eq_false_iff.mpr hlisted, n, hn, Nat.not_lt.mp hlimit⟩
        exact (blocked_congr (Store.get_set_ne _ _ hkey)).trans hflag

theorem finished_start : Finished (Threads.start c k .done) := fun _ h => List.eq_of_mem_replicate h

/-- **The username is blocked whatever the order** only if one failure more is enough. -/
theorem blocks_iff (hiso : env.isoformat ≠ "") (hk : 0 < k)
    (hn : asInt (c.get (LoginBlockUtil.limit_key username ip)) = some n) :
    Blocks env username ip c k ↔
      blocked c (LoginBlockUtil.block_key username) ∨ OneMore env username ip c := by
  constructor
  · intro h
    by_contra hnot
    obtain ⟨hfree, hnot⟩ := not_or.mp hnot
    obtain ⟨hcount, haddress⟩ := not_or.mp hnot
    have hlimit : ¬ env.settings.SECURITY_LOGIN_LIMIT_COUNT ≤ n + 1 := fun hle => hcount ⟨n, hn, hle⟩
    have hget : (c.set (LoginBlockUtil.limit_key username ip) (.count (n + 1))).get
        (LoginIpBlockUtil.limit_key ip) = c.get (LoginIpBlockUtil.limit_key ip) :=
      Store.get_set_ne _ _ limit_key_ne_ip
    obtain ⟨l, c', r, hflag⟩ := all_address env username ip
      (c := c.set (LoginBlockUtil.limit_key username ip) (.count (n + 1))) hk (by rwa [hget])
    have hb := h _ _ ((all_count hk hn hlimit).append r) finished_start
    have hsame : blocked c' (LoginBlockUtil.block_key username) =
        blocked c (LoginBlockUtil.block_key username) :=
      hflag.trans (blocked_congr (Store.get_set_ne _ _ (limit_ne_block _ _).symm))
    exact hfree (hsame ▸ hb)
  · rintro (hb | ⟨m, hm, hlimit⟩ | ⟨hname, hlisted, m, hm, hlimit⟩)
    · exact blocks_of_blocked hiso hb
    · exact blocks_of_count hiso hk hm hlimit
    · exact blocks_of_address hiso hk ⟨n, hn, Nat.zero_le n⟩ hname hlisted hm hlimit

/-! ### No request reads between a read and a write -/

/-- The request has written the counter. -/
def Pc.counted : Pc → Bool
  | .get | .set _ => false
  | .block | .ip_get | .ip_set _ | .ip_block | .get_remainder_times | .done => true

/-- The request is between the read and the write. -/
def Pc.pending : Pc → Bool
  | .set _ => true
  | _ => false

def counted (s : State) : Nat := s.pcs.countP Pc.counted

theorem not_pending {s : State} (h : ∀ count, .set count ∉ s.pcs) : s.pcs.countP Pc.pending = 0 := by
  refine List.countP_eq_zero.mpr fun pc hpc hpending => ?_
  cases pc with
  | set count => exact h count hpc
  | get | block | ip_get | ip_set _ | ip_block | get_remainder_times | done =>
      exact absurd hpending (by simp [Pc.pending])

/-- The counter counts the requests that have written it, and the one that is about to write counts
itself. -/
structure Counted (env : Env) (username ip : String) (n : Nat) (s : State) : Prop where
  count : asInt (s.shared.get (LoginBlockUtil.limit_key username ip)) = some (n + counted s)
  next : ∀ count, .set count ∈ s.pcs → count = n + counted s + 1
  one : s.pcs.countP Pc.pending ≤ 1
  flag : 0 < counted s → env.settings.SECURITY_LOGIN_LIMIT_COUNT ≤ n + counted s →
    blocked s.shared (LoginBlockUtil.block_key username) ∨ .block ∈ s.pcs

theorem counted_act (h : act env username ip c pc = some (c', pc')) (hpc : pc.counted) : pc'.counted := by
  cases pc with
  | get | set _ => exact absurd hpc (by simp [Pc.counted])
  | block | ip_block | get_remainder_times =>
      obtain ⟨-, rfl⟩ := Prod.mk.inj (Option.some.inj h)
      rfl
  | ip_set count =>
      obtain ⟨-, rfl⟩ := Prod.mk.inj (Option.some.inj h)
      split_ifs <;> rfl
  | ip_get =>
      obtain ⟨-, rfl⟩ := Prod.mk.inj (Option.some.inj h)
      split_ifs
      · rfl
      · split <;> rfl
  | done => exact absurd h (by simp [act])

theorem Pc.pending_of_counted (h : pc.counted) : pc.pending = false := by
  cases pc with
  | get | set _ => exact absurd h (by simp [Pc.counted])
  | block | ip_get | ip_set _ | ip_block | get_remainder_times | done => rfl

variable {s t : State} {i : Nat}

/-- A request past the counter moves. -/
theorem counted_past (hiso : env.isoformat ≠ "") (hs : Counted env username ip n s)
    (hpc : s.pcs[i]? = some pc) (h : act env username ip s.shared pc = some (c', pc'))
    (hpast : pc.counted) : Counted env username ip n ⟨c', s.pcs.set i pc'⟩ := by
  have hpast' := counted_act h hpast
  have hcounted : counted ⟨c', s.pcs.set i pc'⟩ = counted s := by
    have hadd := countP_set_add (a := pc') Pc.counted hpc
    rw [if_pos hpast, if_pos hpast'] at hadd
    exact Nat.add_right_cancel hadd
  refine ⟨?_, fun count hcount => ?_, ?_, fun hpos hlimit => ?_⟩
  · rw [hcounted, get_limit_act h fun count heq => absurd (heq ▸ hpast) (by simp [Pc.counted])]
    exact hs.count
  · rw [hcounted]
    rcases List.mem_or_eq_of_mem_set hcount with hold | rfl
    · exact hs.next count hold
    · exact absurd hpast' (by simp [Pc.counted])
  · have hadd := countP_set_add (a := pc') Pc.pending hpc
    rw [Pc.pending_of_counted hpast, Pc.pending_of_counted hpast'] at hadd
    exact Nat.le_trans (Nat.le_of_eq (Nat.add_right_cancel hadd)) hs.one
  · rw [hcounted] at hpos hlimit
    rcases hs.flag hpos hlimit with hb | hmem
    · exact .inl (blocked_act hiso h hb)
    · by_cases heq : pc = .block
      · subst heq
        obtain ⟨rfl, -⟩ := Prod.mk.inj (Option.some.inj h)
        exact .inl (blocked_set _ _ rfl)
      · exact .inr (mem_set_of_ne hpc hmem (Ne.symm heq))

theorem counted_step (hiso : env.isoformat ≠ "") (h : guarded (Step env username ip) Alone s i t)
    (hs : Counted env username ip n s) : Counted env username ip n t := by
  obtain ⟨hstep, halone⟩ := h
  obtain ⟨pc, c', pc', hpc, hact, rfl⟩ := Threads.step_cases hstep
  cases pc with
  | get =>
      have hnone := not_pending (halone hpc)
      have hget : act env username ip s.shared .get = some (s.shared, .set (n + counted s + 1)) := by
        rw [act, hs.count]
      obtain ⟨rfl, rfl⟩ := Prod.mk.inj (Option.some.inj (hget.symm.trans hact))
      have hcounted : counted ⟨s.shared, s.pcs.set i (.set (n + counted s + 1))⟩ = counted s := by
        have hadd := countP_set_add (a := .set (n + counted s + 1)) Pc.counted hpc
        exact hadd
      refine ⟨by rw [hcounted, hs.count], fun count hcount => ?_, ?_, fun hpos hlimit => ?_⟩
      · rw [hcounted]
        rcases List.mem_or_eq_of_mem_set hcount with hold | heq
        · exact absurd hold (halone hpc count)
        · exact Pc.set.inj heq
      · have hadd := countP_set_add (a := .set (n + counted s + 1)) Pc.pending hpc
        simp [hnone, Pc.pending] at hadd
        exact Nat.le_of_eq hadd
      · rw [hcounted] at hpos hlimit
        exact (hs.flag hpos hlimit).imp id fun hmem => mem_set_of_ne hpc hmem nofun
  | set count =>
      obtain rfl := hs.next count (List.mem_of_getElem? hpc)
      have hflag (hlimit : env.settings.SECURITY_LOGIN_LIMIT_COUNT ≤ n + counted s + 1) :
          pc' = .block := by
        rw [act, if_pos hlimit] at hact
        exact (Prod.mk.inj (Option.some.inj hact)).2.symm
      have hpast : pc'.counted := by
        obtain ⟨-, rfl⟩ := Prod.mk.inj (Option.some.inj hact)
        split_ifs <;> rfl
      have hcounted : counted ⟨c', s.pcs.set i pc'⟩ = counted s + 1 := by
        have hadd := countP_set_add (a := pc') Pc.counted hpc
        rw [if_pos hpast] at hadd
        exact hadd
      have hnone : (s.pcs.set i pc').countP Pc.pending = 0 := by
        have hadd := countP_set_add (a := pc') Pc.pending hpc
        rw [Pc.pending_of_counted hpast, Pc.pending, if_pos rfl] at hadd
        have hone := hs.one
        simp at hadd
        omega
      refine ⟨?_, fun count hcount => ?_, ?_, fun _ hlimit => .inr ?_⟩
      · obtain ⟨rfl, -⟩ := Prod.mk.inj (Option.some.inj hact)
        rw [hcounted, Store.get_set_self]
        rfl
      · exact absurd (List.countP_eq_zero.mp hnone _ hcount) (by simp [Pc.pending])
      · exact hnone ▸ Nat.zero_le 1
      · rw [hcounted] at hlimit
        obtain rfl := hflag hlimit
        exact mem_set_same hpc
  | block | ip_get | ip_set _ | ip_block | get_remainder_times => exact counted_past hiso hs hpc hact rfl
  | done => exact absurd hact (by simp [act])

/-- Every failure is counted. -/
theorem counted_run (hiso : env.isoformat ≠ "") {l : List Nat} (hs : Counted env username ip n s)
    (r : Run (guarded (Step env username ip) Alone) s l t) : Counted env username ip n t :=
  r.invariant (fun _ _ _ hs h => counted_step hiso h hs) hs

theorem counted_start (hn : asInt (c.get (LoginBlockUtil.limit_key username ip)) = some n) :
    Counted env username ip n (start c k) := by
  have hzero : counted (start c k) = 0 := by simp [counted, start, Threads.start, Pc.counted]
  have hpending : (start c k).pcs.countP Pc.pending = 0 :=
    not_pending fun count hcount => absurd (List.eq_of_mem_replicate hcount) nofun
  refine ⟨by rw [hzero]; exact hn, fun count hcount => ?_, hpending ▸ Nat.zero_le 1, fun hpos => ?_⟩
  · exact absurd (List.eq_of_mem_replicate hcount) nofun
  · exact absurd hzero (Nat.ne_of_gt hpos)

/-- When all are done, all are counted. -/
theorem counted_done {l : List Nat} (r : Run (Step env username ip) (start c k) l t)
    (hdone : Finished t) : counted t = k := by
  have hlength : t.pcs.length = k := (Threads.length_pcs r).trans List.length_replicate
  rw [counted, List.countP_eq_length.mpr fun pc hpc => hdone pc hpc ▸ rfl, hlength]

end

/-! ### Two requests, a limit of two -/

/-- The sample settings with a limit of two failures. -/
def sampleLimit : Env :=
  { sampleEnv with settings := { sampleEnv.settings with SECURITY_LOGIN_LIMIT_COUNT := 2 } }

end InfraHub.Auth.Lockout
