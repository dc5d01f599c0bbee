import InfraHub.Auth.Isolation
import InfraHub.Common.IpList
import InfraHub.Lib.Gather
import Mathlib.Algebra.Group.Int.Defs
import Mathlib.Data.List.Dedup

/-!
# Settings — BlockIp

The addresses that `LoginIpBlockUtil` has blocked, and `SecurityBlockIpViewSet`, which lists and
releases them.

* A request is blocked by its address, which is any text (`get_request_ip`).
* The view gets the addresses from the keys of the cache.  It shows an address with its number,
  which `inet_aton` reads from it, and releases the address of the number.

**Releasing** (`releasable_iff`).  In every state of the blocking, the list can be shown and its
addresses released if and only if each of them is the text of its number.
-/

namespace InfraHub.Settings.BlockIp
open InfraHub.Lib
open InfraHub.Lib.Prog (orRaise forEach read Keeps)
open InfraHub.Auth
open InfraHub.Common.IpList (contains_ip)

/-! ### Requests -/

/-- What is not there is empty. -/
structure Request where
  x_forwarded_for : String
  REMOTE_ADDR : String
  request_ip : Option String

def get_request_ip (request : Request) : String :=
  let x_forwarded_for := request.x_forwarded_for.toList.splitOn ','
  let login_ip := x_forwarded_for.headD []
  if login_ip ≠ [] then
    -- an address with a port
    if login_ip.count ':' = 1 then String.ofList ((login_ip.splitOn ':').headD [])
    else String.ofList login_ip
  else
    let ip := if request.REMOTE_ADDR ≠ "" then request.REMOTE_ADDR else request.request_ip.getD ""
    if ip ≠ "" then ip else "unknown"

/-! ### Blocking -/

/-- The lists of the settings. -/
structure Lists where
  SECURITY_LOGIN_IP_WHITE_LIST : List String
  SECURITY_LOGIN_IP_BLACK_LIST : List String

/-- `contains_ip(ip, ip_group)`. -/
def listed (ip_group : List String) (ip : String) : Handler Bool :=
  orRaise (.python "ValueError") (contains_ip (str ip) (ip_group.map str))

/-- `set_block_if_need`, which first looks into the lists. -/
def set_block_if_need (env : Env) (lists : Lists) (ip : String) : Handler Unit := do
  let white ← listed lists.SECURITY_LOGIN_IP_WHITE_LIST ip
  let black ← if white then pure false else listed lists.SECURITY_LOGIN_IP_BLACK_LIST ip
  LoginIpBlockUtil.set_block_if_need
    { env with ip_in_white_list := fun _ => white, ip_in_black_list := fun _ => black } ip

/-- The text of the time, or `N/A`. -/
def get_block_info (c : Cache) (ip : String) : String :=
  let data := c.get (LoginIpBlockUtil.block_key ip)
  match data with
  | some (.str s) => if s ≠ "" then s else "N/A"
  | _ => "N/A"

/-! ### Addresses and numbers -/

/-- `socket.inet_ntoa` of the four bytes. -/
def inet_ntoa (n : Nat) : String :=
  toString (n / 2 ^ 24) ++ "." ++ toString (n / 2 ^ 16 % 2 ^ 8) ++ "." ++
  toString (n / 2 ^ 8 % 2 ^ 8) ++ "." ++
    toString (n % 2 ^ 8)

/-- `socket.inet_aton`, which is the one of the platform: the number of four bytes, or nothing if it
raises. The text of a number is valid; which others are is left to the platform. -/
structure Socket where
  inet_aton : String → Option Nat
  inet_aton_ntoa : ∀ n < 2 ^ 32, inet_aton (inet_ntoa n) = some n

def ip_to_int (sock : Socket) (ip : String) : Option String := (sock.inet_aton ip).map toString

def int_to_ip (pk : String) : Except Fault String :=
  match signedInt (str pk) with
  | none => .error (.python "ValueError")
  | some n =>
    if 0 ≤ n ∧ n < 2 ^ 32 then .ok (inet_ntoa n.toNat)
    else .error (.python "struct.error")

/-! ### The view -/

/-- `text.replace(old, "")`, where `skip` characters of `old` are still to be passed over. -/
def removed (old : List Char) : Nat → List Char → List Char
  | _, [] => []
  | skip + 1, _ :: text => removed old skip text
  | 0, c :: text =>
    if old.isPrefixOf (c :: text) then removed old (old.length - 1) text
    else c :: removed old 0 text

/-- `LoginIpBlockUtil.BLOCK_KEY_TMPL` without its braces. -/
def BLOCK_KEY : String := "_LOGIN_BLOCK_IP_"

/-- `key.replace(BLOCK_KEY, "")`. -/
def ip_of_key (key : String) : String := String.ofList (removed BLOCK_KEY.toList 0 key.toList)

/-- What `cache.keys(BLOCK_KEY + "*")` returns. -/
def Keys (c : Cache) (keys : List String) : Prop :=
  ∀ key, key ∈ keys ↔ c.get key ≠ none ∧ BLOCK_KEY.toList <+: key.toList

/-- The order in which a set is iterated. -/
structure Hashing where
  order : List String → List String
  perm : ∀ l, (order l).Perm l

section
variable (sock : Socket) (hash : Hashing) (white_list keys : List String)

def get_queryset : List String :=
  let ips := keys.map ip_of_key
  let ips := hash.order (ips.dedup.filter fun ip => ip ∉ white_list)
  ips.filter fun ip => ip ≠ "*"

/-- `FilterIps.filter`, of the list that `filter_queryset` makes. -/
def FilterIps.filter (ips pk__in : List String) : Option (List String) :=
  (ips.mapM fun ip => (ip_to_int sock ip).map fun pk => (ip, pk)).map fun objs =>
    (objs.filter fun obj => obj.2 ∈ pk__in).map Prod.fst

structure Row where
  pk : String
  ip : String
  created_time : String

/-- All pages of `list`; nothing if it raises. -/
def list (c : Cache) (ips : List String) : Option (List Row) :=
  ips.mapM fun ip => (ip_to_int sock ip).map fun pk => ⟨pk, ip, get_block_info c ip⟩

def get_object (pk : String) : Handler String := Prog.lift (int_to_ip pk)

def perform_destroy (ip : String) : Handler Unit := LoginIpBlockUtil.clean_block_if_need ip

def destroy (pk : String) : Handler Unit := do
  let instance_ ← get_object pk
  perform_destroy instance_

/-- The number of what is deleted. -/
def batch_destroy (pks : List String) : Handler Nat := do
  let instances ← orRaise (.python "OSError")
    (FilterIps.filter sock (get_queryset hash white_list keys) pks)
  forEach perform_destroy instances
  return instances.length

end

/-! ### Runs of the blocking -/

inductive Op
  | set_block_if_need (env : Env) (lists : Lists) (request : Request)
  | clean_block_if_need (request : Request)
  | destroy (pk : String)
  | cache_timeout (key : String)

def next (w : World) : Op → World
  | .set_block_if_need env lists request =>
      (Prog.exec (set_block_if_need env lists (get_request_ip request)) w).2
  | .clean_block_if_need request =>
      (Prog.exec (LoginIpBlockUtil.clean_block_if_need (get_request_ip request)) w).2
  | .destroy pk => (Prog.exec (destroy pk) w).2
  | .cache_timeout key => { w with cache := w.cache.delete key }

/-- The text of a time is not empty. -/
def Op.Timed : Op → Prop
  | .set_block_if_need env .. => env.isoformat ≠ ""
  | _ => True

def Step (w : World) (op : Op) (w' : World) : Prop := op.Timed ∧ next w op = w'

/-- From an empty cache. -/
def Reachable (w : World) : Prop := ∃ w₀ ops, w₀.cache = Store.empty ∧ Run Step w₀ ops w

/-! ### What releasing means -/

def Blocked (w : World) (ip : String) : Prop := blocked w.cache (LoginIpBlockUtil.block_key ip)

/-- It returns, and of the blocked addresses this one is no more. -/
def Releases {α : Type} (m : Handler α) (w : World) (ip : String) : Prop :=
  ∃ a w', Prog.exec m w = (.ok a, w') ∧ ∀ ip', Blocked w' ip' ↔ Blocked w ip' ∧ ip' ≠ ip

/-- The list is shown, has each address once, with a number of its own, and releases it by the
number. -/
def Releasable (sock : Socket) (white_list : List String) (w : World) : Prop :=
  ∀ (hash : Hashing) (keys : List String), Keys w.cache keys →
    ∃ rows, list sock w.cache (get_queryset hash white_list keys) = some rows ∧
      (∀ ip, Blocked w ip → ip ∉ white_list → (rows.map Row.ip).count ip = 1) ∧
      (rows.map Row.pk).Nodup ∧
      ∀ row ∈ rows, int_to_ip row.pk = .ok row.ip ∧ Releases (destroy row.pk) w row.ip ∧
        Releases (batch_destroy sock hash white_list keys [row.pk]) w row.ip

/-- The text of a number of 32 bits. -/
def Dotted (ip : String) : Prop := ∃ n < 2 ^ 32, ip = inet_ntoa n

/-- An address of the white list is not shown, but what is left of it without the fixed part of the
key may be. -/
def Plain (white_list : List String) (ip : String) : Prop :=
  if ip ∈ white_list then ip_of_key ip ∈ white_list ∨ ip_of_key ip = "*" ∨ Dotted (ip_of_key ip)
  else Dotted ip

/-! ### Texts -/

section
variable {c : Char} {old text : List Char} {ip key : String} {n : Nat}

theorem removed_skip (skip : List Char) :
    removed old skip.length (skip ++ text) = removed old 0 text := by
  induction skip with
  | nil => rfl
  | cons c skip ih => simpa [removed] using ih

/-- The text that starts with it. -/
theorem removed_append : removed (c :: old) 0 (c :: old ++ text) = removed (c :: old) 0 text := by
  rw [List.cons_append, removed, if_pos (by simp)]
  exact removed_skip old

theorem removed_of_notMem (h : c ∉ text) : removed (c :: old) 0 text = text := by
  induction text with
  | nil => rfl
  | cons d text ih =>
      obtain ⟨hne, htext⟩ := not_or.mp (mt List.mem_cons.mpr h)
      rw [removed, if_neg (by simp [hne]), ih htext]

theorem toList_BLOCK_KEY : BLOCK_KEY.toList = '_' :: "LOGIN_BLOCK_IP_".toList := by decide +kernel

theorem toList_block_key (ip : String) :
    (LoginIpBlockUtil.block_key ip).toList = BLOCK_KEY.toList ++ ip.toList := String.toList_append

theorem ip_of_block_key (ip : String) :
    ip_of_key (LoginIpBlockUtil.block_key ip) = ip_of_key ip := by
  rw [ip_of_key, ip_of_key, toList_block_key, toList_BLOCK_KEY, removed_append]

theorem ip_key_inj {ip ip' : String}
    (h : LoginIpBlockUtil.block_key ip = LoginIpBlockUtil.block_key ip') :
    ip = ip' := by
  have htext := congrArg String.toList h
  rw [toList_block_key, toList_block_key] at htext
  exact String.toList_inj.mp (List.append_cancel_left htext)

/-- A key with the fixed part is one of an address. -/
theorem exists_block_key (h : BLOCK_KEY.toList <+: key.toList) :
    ∃ ip, key = LoginIpBlockUtil.block_key ip := by
  obtain ⟨rest, hrest⟩ := h
  refine ⟨String.ofList rest, String.toList_inj.mp ?_⟩
  rw [toList_block_key, String.toList_ofList, hrest]

theorem block_key_starts (ip : String) :
    BLOCK_KEY.toList <+: (LoginIpBlockUtil.block_key ip).toList :=
  ⟨ip.toList, (toList_block_key ip).symm⟩

/-- Digits and points. -/
theorem mem_inet_ntoa (h : c ∈ (inet_ntoa n).toList) : c.isDigit ∨ c = '.' := by
  have hpoint : ".".toList = ['.'] := by decide +kernel
  simp only [inet_ntoa, String.toList_append, hpoint, List.mem_append, List.mem_singleton] at h
  rcases h with (((((h | h) | h) | h) | h) | h) | h
  · exact .inl (isDigit_of_mem_toString h)
  · exact .inr h
  · exact .inl (isDigit_of_mem_toString h)
  · exact .inr h
  · exact .inl (isDigit_of_mem_toString h)
  · exact .inr h
  · exact .inl (isDigit_of_mem_toString h)

theorem ip_of_dotted (h : Dotted ip) : ip_of_key ip = ip := by
  obtain ⟨n, -, rfl⟩ := h
  have hno : '_' ∉ (inet_ntoa n).toList := fun hmem => by simpa using mem_inet_ntoa hmem
  rw [ip_of_key, toList_BLOCK_KEY, removed_of_notMem hno, String.ofList_toList]

theorem dotted_ne_star (h : Dotted ip) : ip ≠ "*" := by
  obtain ⟨n, -, rfl⟩ := h
  intro hstar
  have hmem : '*' ∈ (inet_ntoa n).toList := by rw [hstar]; decide +kernel
  simpa using mem_inet_ntoa hmem

end

/-! ### Numbers -/

section
variable {ip pk : String}

theorem int_to_ip_toString {n : Nat} (h : n < 2 ^ 32) :
    int_to_ip (toString n) = .ok (inet_ntoa n) := by
  have hint : signedInt (str (toString n)) = some (Int.ofNat n) := by
    rw [str_toString, signedInt_strOfNat]
  have hlt : (n : Int) < 2 ^ 32 := by exact_mod_cast h
  have hbound : (0 : Int) ≤ Int.ofNat n ∧ Int.ofNat n < 2 ^ 32 := ⟨Int.natCast_nonneg n, hlt⟩
  simp only [int_to_ip, hint, if_pos hbound]
  rfl

/-- Whatever is released is the text of a number. -/
theorem dotted_of_int_to_ip (h : int_to_ip pk = .ok ip) : Dotted ip := by
  unfold int_to_ip at h
  split at h
  · cases h
  · rename_i n _
    by_cases hbound : 0 ≤ n ∧ n < 2 ^ 32
    · rw [if_pos hbound] at h
      refine ⟨n.toNat, by omega, (Except.ok.inj h).symm⟩
    · rw [if_neg hbound] at h
      cases h

/-- The number of an address gives it back. -/
theorem ip_to_int_of_dotted (sock : Socket) (h : Dotted ip) :
    ∃ pk, ip_to_int sock ip = some pk ∧ int_to_ip pk = .ok ip := by
  obtain ⟨n, hn, rfl⟩ := h
  exact ⟨toString n, by rw [ip_to_int, sock.inet_aton_ntoa n hn, Option.map_some],
    int_to_ip_toString hn⟩

end

/-! ### What the blocking keeps -/

/-- The block keys have texts, and are of addresses with `P`; there are finitely many keys. -/
structure Kept (P : String → Prop) (c : Cache) : Prop where
  texts : ∀ ip v, c.get (LoginIpBlockUtil.block_key ip) = some v → truthy (some v) ∧ P ip
  finite : ∃ keys : List String, ∀ key, c.get key ≠ none → key ∈ keys

namespace Kept

variable {P : String → Prop} {c : Cache} {key : String} {v : CacheValue}

theorem empty : Kept P Store.empty := by
  refine ⟨fun ip v hget => ?_, [], fun key hget => absurd rfl hget⟩
  exact absurd (show (none : Option CacheValue) = some v from hget) (by simp)

theorem set (h : Kept P c)
    (hv : ∀ ip, LoginIpBlockUtil.block_key ip = key → truthy (some v) ∧ P ip) :
    Kept P (c.set key v) := by
  obtain ⟨keys, hkeys⟩ := h.finite
  refine ⟨fun ip v' hget => ?_, key :: keys, fun key' hget => ?_⟩
  · by_cases heq : LoginIpBlockUtil.block_key ip = key
    · rw [heq, Store.get_set_self] at hget
      exact Option.some.inj hget ▸ hv ip heq
    · exact h.texts ip v' (Store.get_set_ne c v heq ▸ hget)
  · by_cases heq : key' = key
    · exact List.mem_cons.mpr (.inl heq)
    · exact List.mem_cons_of_mem _ (hkeys key' (Store.get_set_ne c v heq ▸ hget))

theorem delete (h : Kept P c) (key : String) : Kept P (c.delete key) := by
  obtain ⟨keys, hkeys⟩ := h.finite
  have hsome : ∀ key' v', (c.delete key).get key' = some v' → c.get key' = some v' := by
    intro key' v' hget
    by_cases heq : key' = key
    · rw [heq, Store.get_delete_self] at hget
      cases hget
    · exact Store.get_delete_ne c heq ▸ hget
  refine ⟨fun ip v' hget => h.texts ip v' (hsome _ v' hget), keys, fun key' hget => ?_⟩
  obtain ⟨v', hv'⟩ := Option.ne_none_iff_exists'.mp hget
  exact hkeys key' (by simp [hsome key' v' hv'])

end Kept

def Keeping (P : String → Prop) (w w' : World) : Prop := Kept P w.cache → Kept P w'.cache

instance (P : String → Prop) : IsPreorder World (Keeping P) where
  refl _ := id
  trans _ _ _ h h' := h' ∘ h

section
variable {P : String → Prop} {env : Env} {lists : Lists} {ip : String}

theorem ip_set_block_keeps (hiso : env.isoformat ≠ "") (hip : P ip) :
    Keeps (Keeping P) (LoginIpBlockUtil.set_block_if_need env ip) := by
  have htime : truthy (some (.str env.isoformat)) := by simpa [truthy] using hiso
  have hset {key : String} {v : CacheValue}
      (hv : ∀ ip, LoginIpBlockUtil.block_key ip = key → truthy (some v) ∧ P ip) :
      Keeps (Keeping P) (cacheSet key v) := Keeps.update fun _ h => h.set hv
  refine Keeps.ite (Keeps.ret _) (Keeps.bind (Keeps.read _) fun _ => ?_)
  refine Keeps.bind (Keeps.orRaise _ _) fun _ => ?_
  refine (hset fun ip' hkey => absurd hkey.symm (limit_ne_block_ip _ _)).bind fun _ => ?_
  exact Keeps.ite (Keeps.ret _) (hset fun ip' hkey => ⟨htime, ip_key_inj hkey ▸ hip⟩)

theorem set_block_if_need_keeps (hiso : env.isoformat ≠ "") (hip : P ip) :
    Keeps (Keeping P) (set_block_if_need env lists ip) := by
  have hlisted (ip_group : List String) : Keeps (Keeping P) (listed ip_group ip) :=
    Keeps.orRaise _ _
  refine (hlisted _).bind fun white => ?_
  cases white with
  | true => exact Keeps.bind (Keeps.ret false) fun _ => ip_set_block_keeps (by exact hiso) hip
  | false => exact (hlisted _).bind fun _ => ip_set_block_keeps (by exact hiso) hip

theorem clean_block_if_need_keeps (ip : String) :
    Keeps (Keeping P) (LoginIpBlockUtil.clean_block_if_need ip) := by
  have hdelete (key : String) : Keeps (Keeping P) (cacheDelete key) :=
    Keeps.update fun _ h => h.delete key
  exact (hdelete _).bind fun _ => hdelete _

theorem destroy_keeps (pk : String) : Keeps (Keeping P) (destroy pk) := by
  have hobject : Keeps (Keeping P) (get_object pk) := Keeps.lift _
  exact hobject.bind clean_block_if_need_keeps

/-- Only addresses with `P` are blocked. -/
def Op.Only (P : String → Prop) : Op → Prop
  | .set_block_if_need _ _ request => P (get_request_ip request)
  | _ => True

theorem kept_step {w w' : World} {op : Op} (hw : Kept P w.cache)
    (h : guarded Step (fun _ op => op.Only P) w op w') : Kept P w'.cache := by
  obtain ⟨⟨htimed, rfl⟩, honly⟩ := h
  cases op with
  | set_block_if_need env lists request => exact set_block_if_need_keeps htimed honly w hw
  | clean_block_if_need request => exact clean_block_if_need_keeps _ w hw
  | destroy pk => exact destroy_keeps pk w hw
  | cache_timeout key => exact hw.delete key

theorem kept_run {w w' : World} {ops : List Op}
    (hrun : Run (guarded Step fun _ op => op.Only P) w ops w')
    (hw : Kept P w.cache) : Kept P w'.cache :=
  hrun.invariant (I := fun w => Kept P w.cache) (fun _ _ _ => kept_step) hw

end

theorem Reachable.kept {w : World} (h : Reachable w) : Kept (fun _ => True) w.cache := by
  obtain ⟨w₀, ops, hempty, hrun⟩ := h
  have hguarded : Run (guarded Step fun _ op => op.Only fun _ => True) w₀ ops w :=
    hrun.mono fun _ op _ hstep => ⟨hstep, by cases op <;> trivial⟩
  exact kept_run hguarded (hempty ▸ Kept.empty)

/-! ### Releasing -/

section
variable {w : World} {ip pk : String}

/-- What is left of the blocked addresses. -/
theorem exec_clean (w : World) (ip : String) :
    ∃ w', Prog.exec (perform_destroy ip) w = (.ok (), w') ∧
    ∀ ip', Blocked w' ip' ↔ Blocked w ip' ∧ ip' ≠ ip := by
  refine ⟨_, rfl, fun ip' => ?_⟩
  have hlimit : LoginIpBlockUtil.block_key ip' ≠ LoginIpBlockUtil.limit_key ip :=
    (limit_ne_block_ip _ _).symm
  rw [Blocked, Blocked]
  by_cases heq : ip' = ip
  · subst heq
    exact iff_of_false (by rw [blocked_delete]; exact Bool.false_ne_true) fun h => h.2 rfl
  · have hkey := mt ip_key_inj heq
    rw [blocked_congr ((Store.get_delete_ne _ hkey).trans (Store.get_delete_ne _ hlimit))]
    exact (and_iff_left heq).symm

theorem destroy_releases (h : int_to_ip pk = .ok ip) : Releases (destroy pk) w ip := by
  obtain ⟨w', hexec, hblocked⟩ := exec_clean w ip
  exact ⟨(), w', by rw [destroy, get_object, h, Prog.exec_lift_ok_bind, hexec], hblocked⟩

theorem exec_clean_all (ips : List String) (w : World) :
    ∃ w', Prog.exec (forEach perform_destroy ips) w = (.ok (), w') ∧
    ∀ ip', Blocked w' ip' ↔ Blocked w ip' ∧ ip' ∉ ips := by
  induction ips generalizing w with
  | nil => exact ⟨w, rfl, by simp⟩
  | cons ip ips ih =>
      obtain ⟨w₁, hfirst, hblocked₁⟩ := exec_clean w ip
      obtain ⟨w₂, hrest, hblocked₂⟩ := ih w₁
      refine ⟨w₂, (Prog.exec_bind_of_ok hfirst).trans hrest, fun ip' => ?_⟩
      rw [hblocked₂, hblocked₁, List.mem_cons]
      tauto

variable {sock : Socket} {hash : Hashing} {white_list keys : List String} {P : String → Prop}

/-- The addresses that are chosen are released. -/
theorem batch_destroy_releases {pks : List String}
    (hchosen : FilterIps.filter sock (get_queryset hash white_list keys) pks = some [ip]) :
    Releases (batch_destroy sock hash white_list keys pks) w ip := by
  obtain ⟨w', hexec, hblocked⟩ := exec_clean_all [ip] w
  have hall : Prog.exec (forEach perform_destroy [ip] >>= fun _ => (pure 1 : Handler Nat)) w =
      (.ok 1, w') :=
    Prog.exec_bind_of_ok hexec
  exact ⟨1, w', by rw [batch_destroy, hchosen]; exact hall, by simpa using hblocked⟩

/-! ### The list -/

theorem nodup_get_queryset : (get_queryset hash white_list keys).Nodup :=
  ((hash.perm _).nodup_iff.mpr ((List.nodup_dedup _).filter _)).filter _

theorem blocked_iff (h : Kept P w.cache) :
    Blocked w ip ↔ w.cache.get (LoginIpBlockUtil.block_key ip) ≠ none := by
  rw [Blocked, blocked]
  cases hget : w.cache.get (LoginIpBlockUtil.block_key ip) with
  | none => simp [truthy]
  | some v => simpa using (h.texts ip v hget).1

/-- What is shown: what the keys leave of the blocked addresses. -/
theorem mem_get_queryset (h : Kept P w.cache) (hkeys : Keys w.cache keys) :
    ip ∈ get_queryset hash white_list keys ↔
      (∃ ip', Blocked w ip' ∧ ip_of_key ip' = ip) ∧ ip ∉ white_list ∧ ip ≠ "*" := by
  have hmem : (∃ key ∈ keys, ip_of_key key = ip) ↔ ∃ ip', Blocked w ip' ∧ ip_of_key ip' = ip := by
    constructor
    · rintro ⟨key, hkey, rfl⟩
      obtain ⟨hget, hstart⟩ := (hkeys key).mp hkey
      obtain ⟨ip', rfl⟩ := exists_block_key hstart
      exact ⟨ip', (blocked_iff h).mpr hget, (ip_of_block_key ip').symm⟩
    · rintro ⟨ip', hblocked, rfl⟩
      have hkey := (hkeys _).mpr ⟨(blocked_iff h).mp hblocked, block_key_starts ip'⟩
      exact ⟨_, hkey, ip_of_block_key ip'⟩
  simp only [get_queryset, List.mem_filter, (hash.perm _).mem_iff, List.mem_dedup, List.mem_map,
    hmem,
    decide_eq_true_eq, and_assoc]

theorem exists_keys (h : Kept P w.cache) : ∃ keys, Keys w.cache keys := by
  obtain ⟨keys, hkeys⟩ := h.finite
  refine ⟨keys.filter fun key => (w.cache.get key).isSome ∧
    BLOCK_KEY.toList <+: key.toList, fun key => ?_⟩
  rw [List.mem_filter, decide_eq_true_eq, Option.isSome_iff_ne_none]
  exact ⟨fun hmem => hmem.2, fun hmem => ⟨hkeys key hmem.1, hmem⟩⟩

end

/-! ### The theorem -/

section
variable {sock : Socket} {hash : Hashing} {white_list keys : List String} {w : World}
  {rows : List Row} {P : String → Prop}

/-- The rows have the addresses, with their numbers. -/
theorem rows_of_list {c : Cache} {ips : List String} (h : list sock c ips = some rows) :
    rows.map Row.ip = ips ∧ ∀ row ∈ rows, ip_to_int sock row.ip = some row.pk := by
  have hall := forall₂_of_mapM h
  clear h
  induction hall with
  | nil => simp
  | @cons ip row ips rows hrow _ ih =>
      obtain ⟨pk, hpk, rfl⟩ := Option.map_eq_some_iff.mp hrow
      exact ⟨congrArg (ip :: ·) ih.1, List.forall_mem_cons.mpr ⟨hpk, ih.2⟩⟩

/-- All that is shown is the text of a number, and so is all that is blocked and not of the white
list. -/
theorem plain_iff (hash : Hashing) (h : Kept P w.cache) (hkeys : Keys w.cache keys) :
    (∀ ip, Blocked w ip → Plain white_list ip) ↔
      (∀ ip ∈ get_queryset hash white_list keys, Dotted ip) ∧ ∀ ip, Blocked w ip → ip ∉ white_list →
      Dotted ip := by
  constructor
  · intro hplain
    have hdotted : ∀ ip, Blocked w ip → ip ∉ white_list → Dotted ip := fun ip hblocked hwhite => by
      simpa [Plain, hwhite] using hplain ip hblocked
    refine ⟨fun ip hmem => ?_, hdotted⟩
    obtain ⟨⟨ip', hblocked, rfl⟩, hwhite, hstar⟩ := (mem_get_queryset h hkeys).mp hmem
    by_cases hlisted : ip' ∈ white_list
    · have hleft := hplain ip' hblocked
      rw [Plain, if_pos hlisted] at hleft
      exact (hleft.resolve_left hwhite).resolve_left hstar
    · have hip := hdotted ip' hblocked hlisted
      exact (ip_of_dotted hip).symm ▸ hip
  · rintro ⟨hshown, hdotted⟩ ip hblocked
    by_cases hlisted : ip ∈ white_list
    · rw [Plain, if_pos hlisted]
      by_contra hneither
      obtain ⟨hwhite, hrest⟩ := not_or.mp hneither
      obtain ⟨hstar, hnot⟩ := not_or.mp hrest
      exact hnot (hshown _ ((mem_get_queryset h hkeys).mpr ⟨⟨ip, hblocked, rfl⟩, hwhite, hstar⟩))
    · rw [Plain, if_neg hlisted]
      exact hdotted ip hblocked hlisted

theorem filter_pk {row : Row} (hpks : (rows.map Row.pk).Nodup) (hrow : row ∈ rows) :
    rows.filter (fun other => other.pk = row.pk) = [row] := by
  induction rows with
  | nil => cases hrow
  | cons first rows ih =>
      obtain ⟨hfirst, hrest⟩ := List.nodup_cons.mp hpks
      rcases List.mem_cons.mp hrow with rfl | hrow
      · have hno : ∀ other ∈ rows, ¬ other.pk = row.pk := fun other hother heq =>
          hfirst (heq ▸ List.mem_map_of_mem hother)
        simpa [List.filter_eq_nil_iff] using hno
      · have hne : first.pk ≠ row.pk := fun heq => hfirst (heq ▸ List.mem_map_of_mem hrow)
        simpa [hne] using ih hrest hrow

/-- A shown number chooses one address. -/
theorem filter_of_row (hlist : list sock w.cache (get_queryset hash white_list keys) = some rows)
    (hpks : (rows.map Row.pk).Nodup) {row : Row} (hrow : row ∈ rows) :
    FilterIps.filter sock (get_queryset hash white_list keys) [row.pk] = some [row.ip] := by
  obtain ⟨hips, hnumbers⟩ := rows_of_list hlist
  have hobjs : (rows.map Row.ip).mapM (fun ip => (ip_to_int sock ip).map fun pk => (ip, pk)) =
      some (rows.map fun other => (other.ip, other.pk)) := by
    rw [List.mapM_map]
    exact mapM_of_forall
      fun other hother => by rw [Function.comp, hnumbers other hother, Option.map_some]
  rw [FilterIps.filter, ← hips, hobjs, Option.map_some, List.filter_map, List.map_map]
  simp only [Function.comp_def, List.mem_singleton, filter_pk hpks hrow, List.map_cons,
    List.map_nil]

theorem plain_of_releasable (hkept : Kept P w.cache) (h : Releasable sock white_list w) :
    ∀ ip, Blocked w ip → Plain white_list ip := by
  obtain ⟨keys, hkeys⟩ := exists_keys hkept
  let hash : Hashing := ⟨id, List.Perm.refl⟩
  obtain ⟨rows, hlist, honce, -, hrows⟩ := h hash keys hkeys
  have hips := (rows_of_list hlist).1
  have hshown : ∀ ip ∈ rows.map Row.ip, Dotted ip := by
    intro ip hip
    obtain ⟨row, hrow, rfl⟩ := List.mem_map.mp hip
    exact dotted_of_int_to_ip (hrows row hrow).1
  refine (plain_iff hash hkept hkeys).mpr ⟨hips ▸ hshown, fun ip hblocked hwhite => hshown ip ?_⟩
  exact List.count_pos_iff.mp (by rw [honce ip hblocked hwhite]; exact Nat.one_pos)

theorem releasable_of_plain (hkept : Kept P w.cache)
    (h : ∀ ip, Blocked w ip → Plain white_list ip) :
    Releasable sock white_list w := by
  intro hash keys hkeys
  obtain ⟨hshown, hdotted⟩ := (plain_iff hash hkept hkeys).mp h
  obtain ⟨rows, hlist⟩ : ∃ rows, list sock w.cache (get_queryset hash white_list keys) =
      some rows := by
    refine exists_mapM fun ip hip => ?_
    obtain ⟨pk, hpk, -⟩ := ip_to_int_of_dotted sock (hshown ip hip)
    simp [hpk]
  obtain ⟨hips, hnumbers⟩ := rows_of_list hlist
  have hreturn : ∀ row ∈ rows, int_to_ip row.pk = .ok row.ip := by
    intro row hrow
    have hip : row.ip ∈ get_queryset hash white_list keys := hips ▸ List.mem_map_of_mem hrow
    obtain ⟨pk, hpk, hreturn⟩ := ip_to_int_of_dotted sock (hshown _ hip)
    obtain rfl : row.pk = pk := Option.some.inj ((hnumbers row hrow).symm.trans hpk)
    exact hreturn
  have hpks : (rows.map Row.pk).Nodup := by
    refine List.Nodup.of_map int_to_ip ?_
    have hmap : (rows.map Row.pk).map int_to_ip = (rows.map Row.ip).map Except.ok := by
      rw [List.map_map, List.map_map]
      exact List.map_congr_left hreturn
    rw [hmap, hips]
    exact nodup_get_queryset.map fun _ _ => Except.ok.inj
  refine ⟨rows, hlist, fun ip hblocked hwhite => ?_, hpks, fun row hrow => ?_⟩
  · have hip := hdotted ip hblocked hwhite
    have hmem : ip ∈ get_queryset hash white_list keys := (mem_get_queryset hkept hkeys).mpr
      ⟨⟨ip, hblocked, ip_of_dotted hip⟩, hwhite, dotted_ne_star hip⟩
    rw [hips]
    exact List.count_eq_one_of_mem nodup_get_queryset hmem
  · exact ⟨hreturn row hrow, destroy_releases (hreturn row hrow),
      batch_destroy_releases (filter_of_row hlist hpks hrow)⟩

end

/-- **Releasing.**  In every state of the blocking, all that is blocked is shown once, with numbers
that release it, if and only if it is the text of a number, the white list apart. -/
theorem releasable_iff (sock : Socket) (white_list : List String) {w : World} (h : Reachable w) :
    Releasable sock white_list w ↔ ∀ ip, Blocked w ip → Plain white_list ip :=
  ⟨plain_of_releasable h.kept, releasable_of_plain h.kept⟩

/-- What has no number hides all that is blocked. -/
theorem list_raises {sock : Socket} {hash : Hashing} {white_list keys : List String} {w : World}
    {ip : String}
    (h : Reachable w) (hkeys : Keys w.cache keys) (hblocked : Blocked w ip)
    (hshown : ip_of_key ip ∉ white_list ∧ ip_of_key ip ≠ "*")
    (hnumber : sock.inet_aton (ip_of_key ip) = none) :
    list sock w.cache (get_queryset hash white_list keys) = none := by
  by_contra hsome
  obtain ⟨rows, hlist⟩ := Option.ne_none_iff_exists'.mp hsome
  have hmem : ip_of_key ip ∈ get_queryset hash white_list keys :=
    (mem_get_queryset h.kept hkeys).mpr ⟨⟨ip, hblocked, rfl⟩, hshown⟩
  obtain ⟨row, -, hrow⟩ := exists_result_of_mem hlist hmem
  simp [ip_to_int, hnumber] at hrow

/-- In a run that blocks only texts of numbers, everything can be released. -/
theorem releasable_of_run (sock : Socket) (white_list : List String) {w₀ w : World} {ops : List Op}
    (hempty : w₀.cache = Store.empty)
    (hrun : Run (guarded Step fun _ op => op.Only Dotted) w₀ ops w) :
    Releasable sock white_list w := by
  have hkept := kept_run hrun (hempty ▸ Kept.empty)
  refine releasable_of_plain hkept fun ip hblocked => ?_
  obtain ⟨v, hget⟩ := Option.ne_none_iff_exists'.mp ((blocked_iff hkept).mp hblocked)
  have hdotted : Dotted ip := (hkept.texts ip v hget).2
  rw [Plain, ip_of_dotted hdotted]
  split
  · exact .inl ‹_›
  · exact hdotted

/-! ### A request that is blocked at once -/

/-- The addresses of four numbers, without leading zeros. -/
def strict : Socket where
  inet_aton ip := Ip.ipv4_int (str ip)
  inet_aton_ntoa n hn := by
    have htext : str (inet_ntoa n) = Ip.dotted n := by
      have happend (s t : String) : str (s ++ t) = str s ++ str t := by simp [str]
      simp only [inet_ntoa, happend, str_toString, Ip.dotted]
      simp [str, List.intercalate]
    rw [htext, Ip.ipv4_int_dotted hn]

def sampleBlock (ip : String) : Op :=
  .set_block_if_need
    { sampleEnv with settings := { sampleEnv.settings with SECURITY_LOGIN_IP_LIMIT_COUNT := 1 } }
    ⟨[], []⟩ ⟨"", ip, none⟩

theorem reachable_sampleBlock (ip : String) : Reachable (next sampleWorld (sampleBlock ip)) := by
  have htimed : sampleEnv.isoformat ≠ "" := by decide +kernel
  exact ⟨sampleWorld, [sampleBlock ip], rfl, .one ⟨htimed, rfl⟩⟩

theorem blocked_sampleBlock {ip ip' : String} (hrequest : get_request_ip ⟨"", ip, none⟩ = ip) :
    Blocked (next sampleWorld (sampleBlock ip)) ip' ↔ ip' = ip := by
  have hcache : (next sampleWorld (sampleBlock ip)).cache =
      (Store.empty.set (LoginIpBlockUtil.limit_key (get_request_ip ⟨"", ip, none⟩)) (.count 1)).set
        (LoginIpBlockUtil.block_key (get_request_ip ⟨"", ip, none⟩)) (.str sampleEnv.isoformat) :=
          rfl
  rw [hrequest] at hcache
  rw [Blocked, hcache]
  by_cases heq : ip' = ip
  · subst heq
    exact iff_of_true (blocked_set _ _ (by decide +kernel)) rfl
  · have hlimit : LoginIpBlockUtil.block_key ip' ≠ LoginIpBlockUtil.limit_key ip :=
      (limit_ne_block_ip _ _).symm
    refine iff_of_false ?_ heq
    rw [blocked_congr ((Store.get_set_ne _ _ (mt ip_key_inj heq)).trans
      (Store.get_set_ne _ _ hlimit))]
    exact Bool.false_ne_true

/-- An address of version 4. -/
theorem releasable_dotted : Releasable strict [] (next sampleWorld (sampleBlock "10.0.0.7")) := by
  refine (releasable_iff strict [] (reachable_sampleBlock _)).mpr fun ip hblocked => ?_
  obtain rfl := (blocked_sampleBlock (by decide +kernel)).mp hblocked
  have hdotted : Dotted "10.0.0.7" := ⟨0x0a000007, by decide, by decide +kernel⟩
  simpa [Plain] using hdotted

/-- One of version 6 has no number, and the list is not shown. -/
theorem not_releasable :
    ¬ ∀ (sock : Socket) (white_list : List String) (w : World), Reachable w →
    Releasable sock white_list w := by
  intro h
  have hreachable := reachable_sampleBlock "2001:db8::1"
  have hblocked : Blocked (next sampleWorld (sampleBlock "2001:db8::1")) "2001:db8::1" :=
    (blocked_sampleBlock (by decide +kernel)).mpr rfl
  have hplain := plain_of_releasable hreachable.kept (h strict [] _ hreachable) _ hblocked
  obtain ⟨n, -, hn⟩ : Dotted "2001:db8::1" := by simpa [Plain] using hplain
  have hmem : ':' ∈ (inet_ntoa n).toList := by rw [← hn]; decide +kernel
  simpa using mem_inet_ntoa hmem

end InfraHub.Settings.BlockIp
