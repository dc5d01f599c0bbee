import InfraHub.Lib.Prog
import InfraHub.Lib.Run

/-!
# Virt — Client

The sessions of a `VSphereClient`, in a run of `with client:`.

* `Replies`: how vCenter answers, request by request.
* `VSphereClient`: the handle that the client stores, and the sessions as vCenter knows them.
* `with_client`: the run, with any sequence of calls in its body.

The client stores one session.  Connecting again replaces it without a `Disconnect`, as every access does
whose liveness probe fails; `closed_iff`: no session is left open if and only if this never happens to a
session of the run.
-/

namespace InfraHub.Virt.Client
open InfraHub.Lib (Run guarded Prog)
open InfraHub.Lib.Prog (raise attempt update read lift exec)

abbrev Fault := String

/-- A session of vCenter: one from before, or one of this run by its number. -/
inductive Session
  | earlier
  | opened (n : Nat)
  deriving DecidableEq, Repr

/-- What `SmartConnect` comes to. -/
inductive Connected
  | session
  /-- a value that is false -/
  | nothing
  | raises (e : Fault)
  deriving DecidableEq, Repr

/-- How vCenter answers the requests, by their numbers. -/
structure Replies where
  smart_connect : Nat → Connected
  /-- `CurrentTime` answers -/
  current_time : Nat → Bool
  /-- any other request -/
  request : Nat → Except Fault Unit

/-! ### The state -/

/-- The stored handle, how many sessions were opened, and which were passed to `Disconnect`. -/
structure VSphereClient where
  _service_instance : Option Session
  sessions : Nat
  closed : List Session
  deriving DecidableEq, Repr

/-- What changes it. -/
inductive Event
  /-- `SmartConnect` returns a session, which is stored -/
  | connected
  /-- `SmartConnect` returns nothing, which is stored -/
  | nothing
  /-- `Disconnect` of what is stored -/
  | disconnected
  deriving DecidableEq, Repr

def VSphereClient.next (c : VSphereClient) : Event → VSphereClient
  | .connected => { c with _service_instance := some (.opened c.sessions), sessions := c.sessions + 1 }
  | .nothing => { c with _service_instance := none }
  | .disconnected => { c with _service_instance := none, closed := c.closed ++ c._service_instance.toList }

def Step (c : VSphereClient) (e : Event) (c' : VSphereClient) : Prop := c' = c.next e

/-- The client, how many requests were sent, and what happened. -/
structure World extends VSphereClient where
  clock : Nat
  log : List Event
  deriving DecidableEq, Repr

abbrev Call (α : Type) := Prog World Fault α

def emit (e : Event) : Call Unit :=
  update fun w => { w with toVSphereClient := w.toVSphereClient.next e, log := w.log ++ [e] }

/-- Send a request. -/
def ask {α : Type} (reply : Nat → α) : Call α := do
  let n ← read (·.clock)
  update fun w => { w with clock := w.clock + 1 }
  return reply n

/-! ### `utils/vsphere_client.py` -/

section
variable (r : Replies)

/-- A request that may raise. -/
def request : Call Unit := do lift (← ask r.request)

def connect : Call Unit := do
  match ← ask r.smart_connect with
  | .raises e => raise e
  | .nothing =>
    emit .nothing
    raise "无法连接到 vSphere"
  | .session =>
    emit .connected
    -- `content.sessionManager`
    request r

/-- Whatever `Disconnect` comes to, the handle is dropped. -/
def disconnect : Call Unit := do
  match ← read (·._service_instance) with
  | none => pure ()
  | some _ => emit .disconnected

def is_connected : Call Bool := do
  match ← read (·._service_instance) with
  | none => return false
  | some _ => ask r.current_time

def service_instance : Call Unit := do
  if !(← is_connected r) then connect r else pure ()

/-- `service_instance.RetrieveContent()` -/
def content : Call Unit := do
  service_instance r
  request r

def get_about_info : Call Unit := content r

/-- The view of the objects below the folder of a data center, or below the root folder. -/
def container_view (datacenter : Bool) : Call Unit := do
  if datacenter then request r
  else do
    content r
    request r
  -- `viewManager`, `CreateContainerView`, `view`, `Destroy`
  content r
  request r
  request r
  request r
  request r

/-- The calls that a body can make. -/
inductive Method
  | get_about_info
  | get_datacenters
  | get_clusters (datacenter : Bool)
  | get_hosts (datacenter : Bool)
  | get_vms (datacenter : Bool)
  | get_datastores (datacenter : Bool)
  | get_networks (datacenter : Bool)
  | content
  | service_instance
  | is_connected
  | connect
  | disconnect
  deriving DecidableEq, Repr

def Method.call : Method → Call Unit
  | .get_about_info => Client.get_about_info r
  | .get_datacenters => container_view r false
  | .get_clusters datacenter | .get_hosts datacenter | .get_vms datacenter | .get_datastores datacenter
  | .get_networks datacenter => container_view r datacenter
  | .content => Client.content r
  | .service_instance => Client.service_instance r
  | .is_connected => do let _ ← Client.is_connected r
  | .connect => Client.connect r
  | .disconnect => Client.disconnect

/-- A body: it makes its calls one by one, and may go on as they come out. -/
inductive Body
  | done
  | raises (e : Fault)
  | call (m : Method) (next : Except Fault Unit → Body)

/-- What a call comes to. -/
def outcome (m : Call Unit) : Call (Except Fault Unit) :=
  attempt (do m; return .ok ()) fun e => return .error e

def Body.run : Body → Call Unit
  | .done => pure ()
  | .raises e => raise e
  | .call m next => do
    let result ← outcome (m.call r)
    (next result).run

/-- `__enter__` -/
def enter : Call Unit := connect r

/-- `__exit__` -/
def exit : Call Unit := disconnect

/-- `with client: …` -/
def with_client (body : Body) : Call Unit := do
  enter r
  let result ← outcome (body.run r)
  exit
  lift result

end

/-- Before the run; the client may be connected already. -/
def World.start (connected : Bool) : World where
  _service_instance := if connected then some .earlier else none
  sessions := 0
  closed := []
  clock := 0
  log := []

/-! ### The statement -/

/-- Every session of the run was passed to `Disconnect`. -/
def VSphereClient.Closed (c : VSphereClient) : Prop := ∀ n < c.sessions, .opened n ∈ c.closed

/-- **The condition on a step**: what `SmartConnect` returns does not replace a session of the run. -/
def Spares (c : VSphereClient) (e : Event) : Prop :=
  e ≠ .disconnected → ∀ n, c._service_instance ≠ some (.opened n)

/-! ### What a program does -/

/-- The client takes the steps of the log. -/
def Logs (w w' : World) : Prop := ∃ l, w'.log = w.log ++ l ∧ Run Step w.toVSphereClient l w'.toVSphereClient

instance : IsPreorder World Logs where
  refl w := ⟨[], (List.append_nil _).symm, .nil _⟩
  trans _ _ _ h h' := by
    obtain ⟨l, hl, hrun⟩ := h
    obtain ⟨l', hl', hrun'⟩ := h'
    exact ⟨l ++ l', by rw [hl', hl, List.append_assoc], hrun.append hrun'⟩

section
variable {r : Replies}

theorem emit_logs (e : Event) : Prog.Keeps Logs (emit e) :=
  Prog.Keeps.update fun _ => ⟨[e], rfl, .one rfl⟩

theorem ask_logs {α : Type} (reply : Nat → α) : Prog.Keeps Logs (ask reply) :=
  (Prog.Keeps.read _).bind fun _ =>
    Prog.Keeps.bind (Prog.Keeps.update fun _ => ⟨[], (List.append_nil _).symm, .nil _⟩) fun _ =>
      Prog.Keeps.ret _

theorem request_logs : Prog.Keeps Logs (request r) := (ask_logs _).bind fun _ => Prog.Keeps.lift _

theorem connect_logs : Prog.Keeps Logs (connect r) := by
  refine (ask_logs _).bind fun connected => ?_
  cases connected with
  | raises e => exact Prog.Keeps.raise e
  | nothing => exact (emit_logs _).bind fun _ => Prog.Keeps.raise _
  | session => exact (emit_logs _).bind fun _ => request_logs

theorem disconnect_logs : Prog.Keeps Logs disconnect := by
  refine (Prog.Keeps.read _).bind fun handle => ?_
  cases handle with
  | none => exact Prog.Keeps.ret ()
  | some s => exact emit_logs _

theorem is_connected_logs : Prog.Keeps Logs (is_connected r) := by
  refine (Prog.Keeps.read _).bind fun handle => ?_
  cases handle with
  | none => exact Prog.Keeps.ret false
  | some s => exact ask_logs _

theorem content_logs : Prog.Keeps Logs (content r) := by
  refine Prog.Keeps.bind ?_ fun _ => request_logs
  exact is_connected_logs.bind fun _ => Prog.Keeps.ite connect_logs (Prog.Keeps.ret ())

theorem container_view_logs (datacenter : Bool) : Prog.Keeps Logs (container_view r datacenter) := by
  have hrest : Prog.Keeps Logs (do content r; request r; request r; request r; request r) :=
    content_logs.bind fun _ => request_logs.bind fun _ => request_logs.bind fun _ => request_logs.bind fun _ =>
      request_logs
  cases datacenter with
  | true => exact request_logs.bind fun _ => hrest
  | false => exact content_logs.bind fun _ => request_logs.bind fun _ => hrest

theorem call_logs (m : Method) : Prog.Keeps Logs (m.call r) := by
  cases m with
  | get_about_info | content => exact content_logs
  | get_datacenters => exact container_view_logs false
  | get_clusters d | get_hosts d | get_vms d | get_datastores d | get_networks d => exact container_view_logs d
  | service_instance => exact is_connected_logs.bind fun _ => Prog.Keeps.ite connect_logs (Prog.Keeps.ret ())
  | is_connected => exact is_connected_logs.bind fun _ => Prog.Keeps.ret ()
  | connect => exact connect_logs
  | disconnect => exact disconnect_logs

theorem outcome_logs {m : Call Unit} (h : Prog.Keeps Logs m) : Prog.Keeps Logs (outcome m) :=
  Prog.Keeps.attempt (h.bind fun _ => Prog.Keeps.ret _) fun _ => Prog.Keeps.ret _

theorem body_logs (body : Body) : Prog.Keeps Logs (body.run r) := by
  induction body with
  | done => exact Prog.Keeps.ret ()
  | raises e => exact Prog.Keeps.raise e
  | call m next ih => exact (outcome_logs (call_logs m)).bind fun result => ih result

theorem with_client_logs (body : Body) : Prog.Keeps Logs (with_client r body) :=
  connect_logs.bind fun _ => (outcome_logs (body_logs body)).bind fun _ => disconnect_logs.bind fun _ =>
    Prog.Keeps.lift _

end

/-! ### What a step keeps -/

section
variable {c c' : VSphereClient} {e : Event} {n : Nat}

/-- The sessions are known, and the stored one is open. -/
structure Sound (c : VSphereClient) : Prop where
  stored : ∀ n, c._service_instance = some (.opened n) → n < c.sessions ∧ .opened n ∉ c.closed
  closed : ∀ n, .opened n ∈ c.closed → n < c.sessions

/-- The session can be closed no more. -/
def Lost (n : Nat) (c : VSphereClient) : Prop :=
  n < c.sessions ∧ .opened n ∉ c.closed ∧ c._service_instance ≠ some (.opened n)

/-- Every session of the run is closed or stored. -/
def Held (c : VSphereClient) : Prop :=
  ∀ n < c.sessions, .opened n ∈ c.closed ∨ c._service_instance = some (.opened n)

theorem mem_closed_next : .opened n ∈ (c.next .disconnected).closed ↔
    .opened n ∈ c.closed ∨ c._service_instance = some (.opened n) := by
  rw [VSphereClient.next, List.mem_append, Option.mem_toList]

theorem Sound.step (h : Sound c) (hstep : Step c e c') : Sound c' := by
  subst hstep
  cases e with
  | connected =>
      refine ⟨fun n hn => ?_, fun n hn => Nat.lt_succ_of_lt (h.closed n hn)⟩
      obtain rfl : c.sessions = n := Session.opened.inj (Option.some.inj hn)
      exact ⟨Nat.lt_succ_self _, fun hmem => Nat.lt_irrefl _ (h.closed _ hmem)⟩
  | nothing => exact ⟨nofun, h.closed⟩
  | disconnected =>
      refine ⟨nofun, fun n hn => ?_⟩
      rcases mem_closed_next.mp hn with hn | hn
      · exact h.closed n hn
      · exact (h.stored n hn).1

theorem Lost.step (h : Lost n c) (hstep : Step c e c') : Lost n c' := by
  subst hstep
  obtain ⟨hlt, hopen, hstored⟩ := h
  cases e with
  | connected =>
      refine ⟨Nat.lt_succ_of_lt hlt, hopen, fun hn => ?_⟩
      exact Nat.ne_of_gt hlt (Session.opened.inj (Option.some.inj hn))
  | nothing => exact ⟨hlt, hopen, nofun⟩
  | disconnected => exact ⟨hlt, fun hmem => (mem_closed_next.mp hmem).elim hopen hstored, nofun⟩

/-- **A step that replaces a session of the run loses it.** -/
theorem lost_of_not_spares (h : Sound c) (hstep : Step c e c') (hspares : ¬ Spares c e) : ∃ n, Lost n c' := by
  subst hstep
  simp only [Spares, Classical.not_imp, not_forall, not_not] at hspares
  obtain ⟨he, n, hn⟩ := hspares
  obtain ⟨hlt, hopen⟩ := h.stored n hn
  refine ⟨n, ?_⟩
  cases e with
  | connected =>
      refine ⟨Nat.lt_succ_of_lt hlt, hopen, fun hn' => ?_⟩
      exact Nat.ne_of_gt hlt (Session.opened.inj (Option.some.inj hn'))
  | nothing => exact ⟨hlt, hopen, nofun⟩
  | disconnected => exact absurd rfl he

theorem Held.step (h : Held c) (hstep : guarded Step Spares c e c') : Held c' := by
  obtain ⟨rfl, hspares⟩ := hstep
  cases e with
  | connected =>
      intro n hn
      rcases Nat.lt_succ_iff_lt_or_eq.mp hn with hn | rfl
      · exact .inl ((h n hn).resolve_right (hspares nofun n))
      · exact .inr rfl
  | nothing => exact fun n hn => .inl ((h n hn).resolve_right (hspares nofun n))
  | disconnected => exact fun n hn => .inl (mem_closed_next.mpr (h n hn))

end

/-! ### The end of the run -/

section
variable {r : Replies} {body : Body}

theorem disconnect_stored (w : World) : (exec disconnect w).2._service_instance = none := by
  rcases hstored : w._service_instance with _ | s
  · simp [disconnect, hstored]
  · simp [disconnect, hstored, emit, VSphereClient.next]

theorem exec_outcome (m : Call Unit) (w : World) : exec (outcome m) w = (.ok (exec m w).1, (exec m w).2) := by
  rcases hm : exec m w with ⟨_ | _, t⟩
  · simp [outcome, Prog.exec_attempt, Prog.exec_bind, hm]
  · simp [outcome, Prog.exec_attempt, Prog.exec_bind, hm]

/-- When `__exit__` returns, nothing is stored. -/
theorem with_client_stored {w : World} (hentered : (exec (enter r) w).1 = .ok ()) :
    (exec (with_client r body) w).2._service_instance = none := by
  obtain ⟨t, ht⟩ : ∃ t, exec (enter r) w = (.ok (), t) := ⟨_, Prod.ext hentered rfl⟩
  have hlift (result : Except Fault Unit) (v : World) : (exec (lift result : Call Unit) v).2 = v := by
    cases result <;> rfl
  have hexit (v : World) : ∃ v', exec exit v = (.ok (), v') ∧ v'._service_instance = none := by
    refine ⟨(exec disconnect v).2, Prod.ext ?_ rfl, disconnect_stored v⟩
    rcases hstored : v._service_instance with _ | s
    · simp [exit, disconnect, hstored]
    · simp [exit, disconnect, hstored, emit]
  obtain ⟨v, hv, hnone⟩ := hexit (exec (body.run r) t).2
  rw [with_client, Prog.exec_bind_of_ok ht, Prog.exec_bind_of_ok (exec_outcome (body.run r) t),
    Prog.exec_bind_of_ok hv, hlift]
  exact hnone

/-- **No session leaks** from a `with` whose `__exit__` returns, if and only if no session of the run is
replaced. -/
theorem closed_iff {connected : Bool} (hentered : (exec (enter r) (World.start connected)).1 = .ok ()) :
    (exec (with_client r body) (World.start connected)).2.Closed ↔
      Run (guarded Step Spares) (World.start connected).toVSphereClient
        (exec (with_client r body) (World.start connected)).2.log
        (exec (with_client r body) (World.start connected)).2.toVSphereClient := by
  have hnone : (exec (with_client r body) (World.start connected)).2._service_instance = none :=
    with_client_stored hentered
  obtain ⟨l, hlog, hrun⟩ := with_client_logs (r := r) body (World.start connected)
  generalize (exec (with_client r body) (World.start connected)).2 = w at hnone hlog hrun
  obtain rfl : w.log = l := hlog
  have hsound : Sound (World.start connected).toVSphereClient := by
    refine ⟨fun n hn => ?_, nofun⟩
    cases connected with
    | true => cases hn
    | false => cases hn
  constructor
  · intro hclosed
    have hnot : ¬ ∃ n, Lost n w.toVSphereClient := by
      rintro ⟨n, hlt, hopen, -⟩
      exact hopen (hclosed n hlt)
    have hkeep : ∀ c e c', Sound c → Step c e c' → (∃ n, Lost n c) → ∃ n, Lost n c' := by
      rintro c e c' - hs ⟨n, hn⟩
      exact ⟨n, hn.step hs⟩
    have hlose : ∀ c e c', Sound c → Step c e c' → ¬ Spares c e → ∃ n, Lost n c' :=
      fun _ _ _ h hs => lost_of_not_spares h hs
    exact hrun.guarded_of_not_marked (fun _ _ _ h hs => h.step hs) hkeep hlose hsound hnot
  · intro hguarded
    have hheld : Held w.toVSphereClient := hguarded.invariant (fun _ _ _ h hs => h.step hs) nofun
    intro n hn
    exact (hheld n hn).resolve_right (by rw [hnone]; exact nofun)

end

/-! ### Two runs -/

/-- vCenter answers, and `CurrentTime` fails so often. -/
def sampleReplies (failing : Nat → Bool) : Replies where
  smart_connect _ := .session
  current_time n := !failing n
  request _ := .ok ()

/-- One `get_hosts()`. -/
def sampleBody : Body := .call (.get_hosts false) fun _ => .done

theorem closed_iff_alive :
    (exec (with_client (sampleReplies fun _ => false) sampleBody) (World.start false)).2.Closed := by
  refine (closed_iff rfl).mpr (.cons ⟨rfl, nofun⟩ (.cons ⟨rfl, ?_⟩ (.nil _)))
  exact fun h => absurd rfl h

/-- **A probe that fails once leaks a session**: `get_hosts()` connects again, and the first session is never
closed. -/
theorem reconnect_leaks :
    (exec (enter (sampleReplies (· == 2))) (World.start false)).1 = .ok () ∧
    ((exec (with_client (sampleReplies (· == 2)) sampleBody) (World.start false)).2.sessions,
      (exec (with_client (sampleReplies (· == 2)) sampleBody) (World.start false)).2.closed) =
        (2, [.opened 1]) ∧
    ¬ (exec (with_client (sampleReplies (· == 2)) sampleBody) (World.start false)).2.Closed := by
  refine ⟨rfl, rfl, fun h => ?_⟩
  exact absurd (h 0 (by decide)) (by decide)

end InfraHub.Virt.Client
