import InfraHub.Auth.Endpoints

/-!
# Auth — Isolation

Whose counters and flags the login blocking changes.

The keys of `LoginBlockUtil` and of `LoginIpBlockUtil` begin alike, and what follows is the username
and the address as they are.  The limit keys do not meet, as an address has no underscore; but the
block key of a username that is `IP_` and an address is the one of the address, and the pattern of
`unblock_user` matches other limit keys.  `isolated_iff` says when an operation changes nothing of
anyone else.
-/

namespace InfraHub.Auth
open InfraHub.Lib

/-- An address: IPv4, IPv6, or `unknown`. -/
structure Address where
  text : String
  no_underscore : '_' ∉ text.toList

/-- What `SCAN MATCH` matches: characters that are not special stand for themselves. -/
structure Glob where
  matches_ : String → String → Bool
  literal : ∀ p q key, (∀ c ∈ p.toList, c ∉ ['*', '?', '[', '\\']) → matches_ (p ++ q) key →
    p.toList <+: key.toList

/-! ### The operations -/

/-- `cache.delete_pattern(pattern)`. -/
def cacheDeletePattern (glob : Glob) (pattern : String) : Handler Unit :=
  Prog.update fun w =>
    { w with cache := fun k => if glob.matches_ pattern k then none else w.cache.get k }

namespace BlockUtil

def clean_failed_count (b : BlockUtil) (username ip : String) : Handler Unit := do
  cacheDelete (b.limit_key username ip)
  cacheDelete (b.block_key username)

def unblock_user (glob : Glob) (b : BlockUtil) (username : String) : Handler Unit := do
  cacheDeletePattern glob (b.limit_key username "*")
  cacheDelete (b.block_key username)

end BlockUtil

/-- `clean_block_if_need`. -/
def LoginIpBlockUtil.clean_block_if_need (ip : String) : Handler Unit := do
  cacheDelete (limit_key ip)
  cacheDelete (block_key ip)

/-- What is done for a username, or for an address. -/
inductive BlockOp where
  | incr_failed_count (username : String) (ip : Address)
  | clean_failed_count (username : String) (ip : Address)
  | unblock_user (username : String)
  | set_block_if_need (ip : Address)
  | clean_block_if_need (ip : Address)

def BlockOp.run (env : Env) (glob : Glob) : BlockOp → Handler Unit
  | incr_failed_count username ip => LoginBlockUtil.incr_failed_count env username ip.text
  | clean_failed_count username ip => LoginBlockUtil.clean_failed_count username ip.text
  | unblock_user username => LoginBlockUtil.unblock_user glob username
  | set_block_if_need ip => LoginIpBlockUtil.set_block_if_need env ip.text
  | clean_block_if_need ip => LoginIpBlockUtil.clean_block_if_need ip.text

/-! ### What the others see -/

/-- `cache.get(limit_key, 0)`. -/
def failed (c : Cache) (limit_key : String) : CacheValue := (c.get limit_key).getD (.count 0)

/-- `bool(cache.get(block_key))`. -/
def blocked (c : Cache) (block_key : String) : Bool := truthy (c.get block_key)

/-- The counters and the flag of a username. -/
def SameUser (c c' : Cache) (u : String) : Prop :=
  (∀ ip : Address,
    failed c' (LoginBlockUtil.limit_key u ip.text) = failed c (LoginBlockUtil.limit_key u ip.text)) ∧
    blocked c' (LoginBlockUtil.block_key u) = blocked c (LoginBlockUtil.block_key u)

/-- The counter and the flag of an address. -/
def SameAddress (c c' : Cache) (a : Address) : Prop :=
  failed c' (LoginIpBlockUtil.limit_key a.text) = failed c (LoginIpBlockUtil.limit_key a.text) ∧
    blocked c' (LoginIpBlockUtil.block_key a.text) = blocked c (LoginIpBlockUtil.block_key a.text)

/-- Nothing of another username changes, and for a username nothing of an address. -/
def BlockOp.Isolated (c c' : Cache) : BlockOp → Prop
  | incr_failed_count username _ | clean_failed_count username _ | unblock_user username =>
    (∀ u, u ≠ username → SameUser c c' u) ∧ ∀ a, SameAddress c c' a
  | set_block_if_need _ | clean_block_if_need _ => ∀ u, SameUser c c' u

/-- The username whose block key is the one of the address. -/
def Address.username (a : Address) : String := "IP_" ++ a.text

/-- When an operation changes nothing of anyone else. -/
def BlockOp.Safe (env : Env) (glob : Glob) (c : Cache) : BlockOp → Prop
  | incr_failed_count username ip =>
      ∀ n, asInt (c.get (LoginBlockUtil.limit_key username ip.text)) = some n →
      env.settings.SECURITY_LOGIN_LIMIT_COUNT ≤ n + 1 → ∀ a : Address, username = a.username →
        blocked c (LoginIpBlockUtil.block_key a.text)
  | clean_failed_count username _ => ∀ a : Address, username = a.username →
      ¬ blocked c (LoginIpBlockUtil.block_key a.text)
  | unblock_user username =>
      (∀ a : Address, username = a.username → ¬ blocked c (LoginIpBlockUtil.block_key a.text)) ∧
      (∀ u (ip : Address), u ≠ username → glob.matches_ (LoginBlockUtil.limit_key username "*")
        (LoginBlockUtil.limit_key u ip.text) → failed c (LoginBlockUtil.limit_key u ip.text) = .count 0) ∧
      ∀ a : Address,
        glob.matches_ (LoginBlockUtil.limit_key username "*") (LoginIpBlockUtil.limit_key a.text) →
        failed c (LoginIpBlockUtil.limit_key a.text) = .count 0
  | set_block_if_need ip => env.ip_in_white_list ip.text = false → env.ip_in_black_list ip.text = false →
      ∀ n, asInt (c.get (LoginIpBlockUtil.limit_key ip.text)) = some n →
        env.settings.SECURITY_LOGIN_IP_LIMIT_COUNT ≤ n + 1 →
        blocked c (LoginBlockUtil.block_key ip.username)
  | clean_block_if_need ip => ¬ blocked c (LoginBlockUtil.block_key ip.username)

/-! ### Keys -/

section
variable {u u' : String} {ip ip' a a' : Address}

/-- The first place of a separator is the end of what comes before it. -/
theorem append_separator_inj {α : Type} {c : α} {x x' z z' : List α} (hx : c ∉ x) (hx' : c ∉ x')
    (h : x ++ c :: z = x' ++ c :: z') : z = z' := by
  induction x generalizing x' with
  | nil =>
      cases x' with
      | nil => exact (List.cons.inj h).2
      | cons d x' => exact absurd (List.mem_cons.mpr (.inl (List.cons.inj h).1)) hx'
  | cons d x ih =>
      cases x' with
      | nil => exact absurd (List.mem_cons.mpr (.inl (List.cons.inj h).1.symm)) hx
      | cons d' x' =>
          exact ih (fun hmem => hx (List.mem_cons_of_mem d hmem))
            (fun hmem => hx' (List.mem_cons_of_mem d' hmem)) (List.cons.inj h).2

theorem limit_key_inj (h : LoginBlockUtil.limit_key u ip.text = LoginBlockUtil.limit_key u' ip'.text) :
    u = u' := by
  have htext := congrArg String.toList h
  simp only [BlockUtil.limit_key, String.toList_append] at htext
  have hreverse := congrArg List.reverse (List.append_cancel_left htext)
  simp only [List.append_assoc, List.reverse_append] at hreverse
  have hsplit : ip.text.toList.reverse ++ '_' :: u.toList.reverse =
      ip'.text.toList.reverse ++ '_' :: u'.toList.reverse := by simpa using hreverse
  have hname := append_separator_inj (by simpa using ip.no_underscore)
    (by simpa using ip'.no_underscore) hsplit
  exact String.toList_inj.mp (List.reverse_injective hname)

theorem limit_key_ne_address : LoginBlockUtil.limit_key u ip.text ≠ LoginIpBlockUtil.limit_key a.text := by
  intro h
  have htext := congrArg String.toList h
  simp only [BlockUtil.limit_key, LoginIpBlockUtil.limit_key_eq, LoginBlockUtil,
    String.toList_append] at htext
  refine a.no_underscore (List.append_cancel_left htext ▸ ?_)
  simp

theorem block_key_inj (h : LoginBlockUtil.block_key u = LoginBlockUtil.block_key u') : u = u' := by
  have htext := congrArg String.toList h
  simp only [BlockUtil.block_key, String.toList_append] at htext
  exact String.toList_inj.mp (List.append_cancel_left htext)

theorem block_key_username (a : Address) :
    LoginBlockUtil.block_key a.username = LoginIpBlockUtil.block_key a.text := by
  refine String.toList_inj.mp ?_
  simp [BlockUtil.block_key, LoginBlockUtil, LoginIpBlockUtil.block_key_eq, Address.username]

theorem block_key_eq_address :
    LoginIpBlockUtil.block_key a.text = LoginBlockUtil.block_key u ↔ u = a.username := by
  rw [← block_key_username]
  exact ⟨fun h => (block_key_inj h).symm, fun h => h ▸ rfl⟩

/-- A limit key and a block key. -/
theorem limit_ne_block (x y : String) : "_LOGIN_LIMIT_" ++ x ≠ "_LOGIN_BLOCK_" ++ y :=
  append_ne_append (by decide) (by decide) x y

theorem limit_ne_block_ip (x y : String) : "_LOGIN_LIMIT_" ++ x ≠ "_LOGIN_BLOCK_IP_" ++ y :=
  append_ne_append (by decide) (by decide) x y

end

/-! ### What changes -/

section
variable {c c' : Cache} {u : String} {ip a : Address} {k : String}

theorem failed_congr (h : c'.get k = c.get k) : failed c' k = failed c k := by rw [failed, failed, h]

theorem blocked_congr (h : c'.get k = c.get k) : blocked c' k = blocked c k := by rw [blocked, blocked, h]

/-- A change of the keys of one username and address reaches no one else but by the block key. -/
theorem isolated_username
    (h : ∀ k, k ≠ LoginBlockUtil.limit_key u ip.text → k ≠ LoginBlockUtil.block_key u →
      c'.get k = c.get k) :
    ((∀ u', u' ≠ u → SameUser c c' u') ∧ ∀ a, SameAddress c c' a) ↔ ∀ a : Address, u = a.username →
      blocked c' (LoginIpBlockUtil.block_key a.text) = blocked c (LoginIpBlockUtil.block_key a.text) := by
  refine ⟨fun hall a _ => (hall.2 a).2, fun hblock => ⟨fun u' hne => ⟨fun ip' => ?_, ?_⟩, fun a => ⟨?_, ?_⟩⟩⟩
  · exact failed_congr (h _ (fun heq => hne (limit_key_inj heq)) (limit_ne_block _ _))
  · exact blocked_congr (h _ (limit_ne_block _ _).symm fun heq => hne (block_key_inj heq))
  · exact failed_congr (h _ limit_key_ne_address.symm (limit_ne_block _ _))
  · by_cases hu : u = a.username
    · exact hblock a hu
    · exact blocked_congr (h _ (limit_ne_block_ip _ _).symm fun heq => hu (block_key_eq_address.mp heq))

/-- A change of the keys of one address reaches no username but by the block key. -/
theorem isolated_address
    (h : ∀ k, k ≠ LoginIpBlockUtil.limit_key a.text → k ≠ LoginIpBlockUtil.block_key a.text →
      c'.get k = c.get k) :
    (∀ u, SameUser c c' u) ↔
      blocked c' (LoginBlockUtil.block_key a.username) = blocked c (LoginBlockUtil.block_key a.username) := by
  refine ⟨fun hall => (hall _).2, fun hblock u => ⟨fun ip => ?_, ?_⟩⟩
  · exact failed_congr (h _ limit_key_ne_address (limit_ne_block_ip _ _))
  · by_cases hu : u = a.username
    · exact hu ▸ hblock
    · exact blocked_congr (h _ (limit_ne_block _ _).symm fun heq => hu (block_key_eq_address.mp heq.symm))

end

/-! ### What the operations write -/

section
variable {env : Env} {glob : Glob} {w : World} {u : String} {ip a : Address}

/-- A failure that is counted. -/
theorem exec_incr (b : BlockUtil) (username text : String) :
    Prog.exec (b.incr_failed_count env username text) w =
      match asInt (w.cache.get (b.limit_key username text)) with
      | none => (.error (.python "TypeError"), w)
      | some n =>
        (.ok (), { w with
          cache := if env.settings.SECURITY_LOGIN_LIMIT_COUNT ≤ n + 1 then
            (w.cache.set (b.limit_key username text) (.count (n + 1))).set (b.block_key username) .flag
          else w.cache.set (b.limit_key username text) (.count (n + 1)) }) := by
  unfold BlockUtil.incr_failed_count
  cases h : asInt (w.cache.get (b.limit_key username text)) with
  | none => simp [cacheGet, h, Prog.orRaise, Prog.exec_bind]
  | some n =>
      simp only [cacheGet, Prog.exec_read_bind, h, Prog.orRaise, Prog.exec_pure_bind, cacheSet,
        Prog.exec_update_bind]
      split_ifs <;> rfl

theorem exec_set_block (text : String) (hwhite : env.ip_in_white_list text = false)
    (hblack : env.ip_in_black_list text = false) :
    Prog.exec (LoginIpBlockUtil.set_block_if_need env text) w =
      match asInt (w.cache.get (LoginIpBlockUtil.limit_key text)) with
      | none => (.error (.python "TypeError"), w)
      | some n =>
        (.ok (), { w with
          cache := if n + 1 < env.settings.SECURITY_LOGIN_IP_LIMIT_COUNT then
            w.cache.set (LoginIpBlockUtil.limit_key text) (.count (n + 1))
          else
            (w.cache.set (LoginIpBlockUtil.limit_key text) (.count (n + 1))).set
              (LoginIpBlockUtil.block_key text) (.str env.isoformat) }) := by
  unfold LoginIpBlockUtil.set_block_if_need
  rw [hwhite, hblack]
  cases h : asInt (w.cache.get (LoginIpBlockUtil.limit_key text)) with
  | none => simp [cacheGet, h, Prog.orRaise, Prog.exec_bind]
  | some n =>
      simp only [Bool.or_self, Bool.false_eq_true, if_false, cacheGet, Prog.exec_read_bind, h,
        Prog.orRaise, Prog.exec_pure_bind, cacheSet, Prog.exec_update_bind]
      split_ifs <;> rfl

theorem exec_set_block_listed (text : String)
    (h : (env.ip_in_white_list text || env.ip_in_black_list text) = true) :
    Prog.exec (LoginIpBlockUtil.set_block_if_need env text) w = (.ok (), w) := by
  unfold LoginIpBlockUtil.set_block_if_need
  rw [if_pos h]
  rfl

theorem blocked_set (c : Cache) (k : String) {v : CacheValue} (h : truthy (some v)) :
    blocked (c.set k v) k := by
  rw [blocked, Store.get_set_self]
  exact h

theorem blocked_delete (c : Cache) (k : String) : blocked (c.delete k) k = false := by
  rw [blocked, Store.get_delete_self]
  rfl

/-- A flag that is set tells of the operation, if it was not set before. -/
theorem incr_isolated : (BlockOp.incr_failed_count u ip).Isolated w.cache
    (Prog.exec ((BlockOp.incr_failed_count u ip).run env glob) w).2.cache ↔
      (BlockOp.incr_failed_count u ip).Safe env glob w.cache := by
  simp only [BlockOp.Isolated, BlockOp.run, BlockOp.Safe, exec_incr]
  cases h : asInt (w.cache.get (LoginBlockUtil.limit_key u ip.text)) with
  | none => simp [SameUser, SameAddress]
  | some n =>
      simp only [Option.some.injEq, forall_eq']
      by_cases hlimit : env.settings.SECURITY_LOGIN_LIMIT_COUNT ≤ n + 1
      · rw [if_pos hlimit, isolated_username fun k hk hk' => by
          rw [Store.get_set_ne _ _ hk', Store.get_set_ne _ _ hk]]
        refine Iff.trans (forall_congr' fun a => imp_congr_right fun hu => ?_) (imp_iff_right hlimit).symm
        rw [block_key_eq_address.mpr hu, blocked_set _ _ rfl]
        exact eq_comm
      · rw [if_neg hlimit, isolated_username fun k hk hk' => Store.get_set_ne _ _ hk]
        refine iff_of_true (fun a hu => ?_) fun hle => absurd hle hlimit
        exact blocked_congr (Store.get_set_ne _ _ (limit_ne_block_ip _ _).symm)

theorem clean_isolated : (BlockOp.clean_failed_count u ip).Isolated w.cache
    (Prog.exec ((BlockOp.clean_failed_count u ip).run env glob) w).2.cache ↔
      (BlockOp.clean_failed_count u ip).Safe env glob w.cache := by
  have hcache : (Prog.exec ((BlockOp.clean_failed_count u ip).run env glob) w).2.cache =
      (w.cache.delete (LoginBlockUtil.limit_key u ip.text)).delete (LoginBlockUtil.block_key u) := rfl
  simp only [BlockOp.Isolated, BlockOp.Safe]
  rw [hcache, isolated_username fun k hk hk' => by
    rw [Store.get_delete_ne _ hk', Store.get_delete_ne _ hk]]
  refine forall_congr' fun a => imp_congr_right fun hu => ?_
  rw [block_key_eq_address.mpr hu, blocked_delete, eq_comm, Bool.not_eq_true]

theorem failed_delete_iff {c c' : Cache} {k : String} (h : c'.get k = none) :
    failed c' k = failed c k ↔ failed c k = .count 0 := by
  rw [failed, h, Option.getD_none, eq_comm]

/-- The pattern matches no block key. -/
theorem not_matches_block (glob : Glob) (x y : String) :
    glob.matches_ (LoginBlockUtil.limit_key x "*") (LoginBlockUtil.block_key y) = false := by
  refine Bool.eq_false_iff.mpr fun h => ?_
  have hprefix := glob.literal "_LOGIN_LIMIT_" _ _ (by simp) h
  obtain ⟨rest, hrest⟩ := hprefix
  refine limit_ne_block (String.ofList rest) y (String.toList_inj.mp ?_)
  have htail : (String.ofList rest).toList = rest := String.toList_ofList
  rw [String.toList_append, htail]
  exact hrest

theorem unblock_isolated : (BlockOp.unblock_user u).Isolated w.cache
    (Prog.exec ((BlockOp.unblock_user u).run env glob) w).2.cache ↔
      (BlockOp.unblock_user u).Safe env glob w.cache := by
  have hget (k : String) : (Prog.exec ((BlockOp.unblock_user u).run env glob) w).2.cache.get k =
      if k = LoginBlockUtil.block_key u then none
      else if glob.matches_ (LoginBlockUtil.limit_key u "*") k then none else w.cache.get k := rfl
  generalize (Prog.exec ((BlockOp.unblock_user u).run env glob) w).2.cache = c' at hget
  have hlimit (x : String) (hne : x ≠ LoginBlockUtil.block_key u) : failed c' x = failed w.cache x ↔
      (glob.matches_ (LoginBlockUtil.limit_key u "*") x → failed w.cache x = .count 0) := by
    have hx := hget x
    rw [if_neg hne] at hx
    by_cases hmatch : glob.matches_ (LoginBlockUtil.limit_key u "*") x
    · rw [if_pos hmatch] at hx
      rw [failed_delete_iff hx]
      exact (imp_iff_right hmatch).symm
    · rw [if_neg hmatch] at hx
      exact iff_of_true (failed_congr hx) fun h => absurd h hmatch
  have hblock (y : String) (hne : y ≠ u) :
      blocked c' (LoginBlockUtil.block_key y) = blocked w.cache (LoginBlockUtil.block_key y) := by
    refine blocked_congr ?_
    rw [hget, if_neg fun heq => hne (block_key_inj heq), not_matches_block]
    rfl
  have hself : blocked c' (LoginBlockUtil.block_key u) = false := by
    rw [blocked, hget, if_pos rfl]
    rfl
  simp only [BlockOp.Isolated, BlockOp.Safe]
  constructor
  · rintro ⟨husers, haddresses⟩
    refine ⟨fun a hu => ?_, fun u' ip' hne => ?_, fun a => ?_⟩
    · rw [Bool.not_eq_true, ← (haddresses a).2, block_key_eq_address.mpr hu, hself]
    · exact (hlimit _ (limit_ne_block _ _)).mp ((husers u' hne).1 ip')
    · exact (hlimit _ (limit_ne_block _ _)).mp (haddresses a).1
  · rintro ⟨hblocks, husers, haddresses⟩
    refine ⟨fun u' hne => ⟨fun ip' => ?_, hblock u' hne⟩, fun a => ⟨?_, ?_⟩⟩
    · exact (hlimit _ (limit_ne_block _ _)).mpr (husers u' ip' hne)
    · exact (hlimit _ (limit_ne_block _ _)).mpr (haddresses a)
    · rw [← block_key_username]
      by_cases hu : a.username = u
      · have hfree := hblocks a hu.symm
        rw [← block_key_username, hu, Bool.not_eq_true] at hfree
        rw [hu, hself, hfree]
      · exact hblock _ hu

theorem set_block_isolated (hiso : env.isoformat ≠ "") : (BlockOp.set_block_if_need a).Isolated w.cache
    (Prog.exec ((BlockOp.set_block_if_need a).run env glob) w).2.cache ↔
      (BlockOp.set_block_if_need a).Safe env glob w.cache := by
  simp only [BlockOp.Isolated, BlockOp.run, BlockOp.Safe]
  by_cases hlisted : env.ip_in_white_list a.text = false ∧ env.ip_in_black_list a.text = false
  · obtain ⟨hwhite, hblack⟩ := hlisted
    simp only [exec_set_block a.text hwhite hblack, hwhite, hblack, forall_const]
    cases h : asInt (w.cache.get (LoginIpBlockUtil.limit_key a.text)) with
    | none => simp [SameUser]
    | some n =>
        simp only [Option.some.injEq, forall_eq']
        by_cases hlimit : n + 1 < env.settings.SECURITY_LOGIN_IP_LIMIT_COUNT
        · rw [if_pos hlimit, isolated_address (a := a) fun k hk hk' => Store.get_set_ne _ _ hk]
          refine iff_of_true ?_ fun hle => absurd hlimit (Nat.not_lt.mpr hle)
          exact blocked_congr (Store.get_set_ne _ _ (limit_ne_block _ _).symm)
        · rw [if_neg hlimit, isolated_address (a := a) fun k hk hk' => by
            rw [Store.get_set_ne _ _ hk', Store.get_set_ne _ _ hk]]
          rw [block_key_username, blocked_set _ _ (by simpa [truthy] using hiso)]
          exact eq_comm.trans (imp_iff_right (Nat.not_lt.mp hlimit)).symm
  · have heither : (env.ip_in_white_list a.text || env.ip_in_black_list a.text) = true := by
      by_contra hneither
      exact hlisted (Bool.or_eq_false_iff.mp (Bool.eq_false_iff.mpr hneither))
    rw [exec_set_block_listed a.text heither]
    exact iff_of_true (fun _ => ⟨fun _ => rfl, rfl⟩) fun hwhite hblack => absurd ⟨hwhite, hblack⟩ hlisted

theorem clean_block_isolated : (BlockOp.clean_block_if_need a).Isolated w.cache
    (Prog.exec ((BlockOp.clean_block_if_need a).run env glob) w).2.cache ↔
      (BlockOp.clean_block_if_need a).Safe env glob w.cache := by
  have hcache : (Prog.exec ((BlockOp.clean_block_if_need a).run env glob) w).2.cache =
      (w.cache.delete (LoginIpBlockUtil.limit_key a.text)).delete (LoginIpBlockUtil.block_key a.text) := rfl
  simp only [BlockOp.Isolated, BlockOp.Safe]
  rw [hcache, isolated_address (a := a) fun k hk hk' => by
    rw [Store.get_delete_ne _ hk', Store.get_delete_ne _ hk]]
  rw [block_key_username, blocked_delete, eq_comm, Bool.not_eq_true]

end

/-- **Login blocking is isolated** if and only if the block key is not one of an address whose flag
changes, and the pattern matches no counter of anyone else. -/
theorem isolated_iff (env : Env) (hiso : env.isoformat ≠ "") (glob : Glob) (op : BlockOp) (w : World) :
    op.Isolated w.cache (Prog.exec (op.run env glob) w).2.cache ↔ op.Safe env glob w.cache := by
  cases op with
  | incr_failed_count => exact incr_isolated
  | clean_failed_count => exact clean_isolated
  | unblock_user => exact unblock_isolated
  | set_block_if_need => exact set_block_isolated hiso
  | clean_block_if_need => exact clean_block_isolated

/-! ### Two failed logins -/

/-- A pattern with `*` and `?`. -/
def globMatch : List Char → List Char → Bool
  | [], key => key.isEmpty
  | c :: p, key =>
    if c = '*' then key.tails.any (globMatch p)
    else match key with
      | [] => false
      | k :: key => (c = '?' || c = k) && globMatch p key

theorem prefix_of_globMatch {p q key : List Char} (hp : ∀ c ∈ p, c ∉ ['*', '?', '[', '\\'])
    (h : globMatch (p ++ q) key) : p <+: key := by
  induction p generalizing key with
  | nil => exact List.nil_prefix
  | cons c p ih =>
      have hc := hp c List.mem_cons_self
      have hstar : c ≠ '*' := fun heq => hc (heq ▸ List.mem_cons_self)
      have hquestion : c ≠ '?' := fun heq => hc (heq ▸ by simp)
      rw [List.cons_append, globMatch.eq_def] at h
      simp only [if_neg hstar] at h
      cases key with
      | nil => exact absurd h (by simp)
      | cons k key =>
          dsimp only at h
          obtain ⟨hk, hrest⟩ := Bool.and_eq_true_iff.mp h
          obtain rfl : c = k := by simpa [hquestion] using hk
          exact (List.prefix_cons_inj c).mpr (ih (fun d hd => hp d (List.mem_cons_of_mem c hd)) hrest)

def sampleGlob : Glob where
  matches_ pattern key := globMatch pattern.toList key.toList
  literal p q key hp h := prefix_of_globMatch hp (by simpa using h)

def sampleAddress : Address := ⟨"10.0.0.1", by decide⟩

/-- One failure less than the limit is counted for `username` at `sampleAddress`. -/
def sampleFailures (username : String) : World :=
  { sampleWorld with
    cache := Store.empty.set (LoginBlockUtil.limit_key username sampleAddress.text) (.count 6) }

/-- The seventh failure of `admin` blocks `admin` alone. -/
theorem isolated_admin :
    (BlockOp.incr_failed_count "admin" sampleAddress).Isolated (sampleFailures "admin").cache
    (Prog.exec ((BlockOp.incr_failed_count "admin" sampleAddress).run sampleEnv sampleGlob)
      (sampleFailures "admin")).2.cache := by
  refine (isolated_iff sampleEnv (by decide +kernel) sampleGlob _ _).mpr ?_
  rintro n - - a ha
  -- `admin` does not begin with `IP_`
  have hhead := congrArg (fun u : String => u.toList.head?) ha
  simp [Address.username] at hhead

/-- The seventh failure of a username `IP_10.0.0.1` blocks the address. -/
theorem not_isolated : ¬ (BlockOp.incr_failed_count sampleAddress.username sampleAddress).Isolated
    (sampleFailures sampleAddress.username).cache
    (Prog.exec ((BlockOp.incr_failed_count sampleAddress.username sampleAddress).run sampleEnv sampleGlob)
      (sampleFailures sampleAddress.username)).2.cache := by
  intro h
  exact absurd (h.2 sampleAddress).2 (by decide +kernel)

end InfraHub.Auth
