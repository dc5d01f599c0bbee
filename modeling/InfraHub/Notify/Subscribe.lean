import InfraHub.Lib.Table

/-!
# Notify — Subscribe

`create_system_messages`: after a migration, the message classes of an application get their
subscriptions.  It returns at the first class that has one already: `subscribed_iff`.
-/

namespace InfraHub.Notify.Subscribe
open InfraHub.Lib (Table)

/-! ### Classes and subscriptions -/

structure SystemMsgSubscription where
  message_type : String
  users : List Nat
  receive_backends : List String
  max_length : message_type.length ≤ 128
  deriving DecidableEq

abbrev Subscriptions := Table String SystemMsgSubscription SystemMsgSubscription.message_type

/-- A class; `post_insert_to_db` may raise after what it does to the columns. -/
structure Class where
  /-- `get_message_type()` -/
  message_type : String
  /-- `issubclass(obj, SystemMessage)` -/
  system : Bool
  /-- the names of `__dict__` -/
  attrs : List String
  post_insert_to_db : List Nat × List String → List Nat × List String

inductive Obj
  | cls (c : Class)
  | other

/-- The subscriptions, and the types that `post_insert_to_db` was run for. -/
structure State where
  subscriptions : Subscriptions
  inserted : List String

/-! ### `create_system_messages` -/

/-- The subscription may be too long for its column. -/
def get_or_create (t : Subscriptions) (message_type : String) : Option (Subscriptions × Bool) :=
  if (t.get message_type).isSome then some (t, false)
  else if h : message_type.length ≤ 128 then some (t.insert ⟨message_type, [], [], h⟩, true)
  else none

/-- What `post_insert_to_db` leaves in a row. -/
def Class.settle (c : Class) (sub : SystemMsgSubscription) : SystemMsgSubscription :=
  let (users, receive_backends) := c.post_insert_to_db (sub.users, sub.receive_backends)
  { sub with users, receive_backends }

def run_post_insert (c : Class) (s : State) (t : Subscriptions) : State :=
  ⟨t.modify c.message_type c.settle fun _ => rfl, s.inserted ++ [c.message_type]⟩

/-- The class that the checks of the loop let through. -/
def message_class : String × Obj → Option Class
  | (_, .other) => none
  | (name, .cls c) =>
    if name.startsWith "_" then none
    else if ¬ c.system then none
    else if "message_type_label" ∉ c.attrs then none
    else if "category" ∉ c.attrs then none
    else if "category_label" ∉ c.attrs then none
    else some c

/-- The loop; an error of the table is not handled. -/
def visit : List (String × Obj) → State → Except Unit Unit × State
  | [], s => (.ok (), s)
  | item :: items, s =>
    match message_class item with
    | none => visit items s
    | some c =>
      match get_or_create s.subscriptions c.message_type with
      | none => (.error (), s)
      | some (t, created) => if ¬ created then (.ok (), s) else visit items (run_post_insert c s t)

/-- The module is not there if `ModuleNotFoundError` is raised. -/
def create_system_messages (notifications_module : Option (List (String × Obj)))
    (t : Subscriptions) : Except Unit Unit × State :=
  match notifications_module with
  | some items => visit items ⟨t, []⟩
  | none => (.ok (), ⟨t, []⟩)

/-- `publish` fails without it. -/
def objects_get (t : Subscriptions) (message_type : String) : Option SystemMsgSubscription :=
  t.get message_type

/-! ### What it is for -/

/-- The eligible classes, in the order of the module. -/
def eligible (items : List (String × Obj)) : List Class := items.filterMap message_class

/-- Each class has its subscription, `post_insert_to_db` was run once for what is new, and what was
there is unchanged. -/
structure Subscribed (cs : List Class) (t : Subscriptions) (s : State) : Prop where
  each : ∀ c ∈ cs, (objects_get s.subscriptions c.message_type).isSome
  once : s.inserted.Nodup
  created : ∀ k, k ∈ s.inserted ↔
    objects_get t k = none ∧ (objects_get s.subscriptions k).isSome
  unchanged : ∀ k sub, objects_get t k = some sub → objects_get s.subscriptions k = some sub

/-- The type has a subscription, or comes among the first classes. -/
def Known (t : Subscriptions) (first : List Class) (message_type : String) : Prop :=
  (objects_get t message_type).isSome ∨ message_type ∈ first.map Class.message_type

/-- **The condition**: after a class that is known already, all are. -/
def NoneBehind (t : Subscriptions) (cs : List Class) : Prop :=
  ∀ first c rest, cs = first ++ c :: rest → Known t first c.message_type →
    ∀ d ∈ rest, Known t first d.message_type

/-! ### The loop -/

section
variable {t : Subscriptions} {s : State} {c : Class} {cs : List Class} {k : String}
  {items : List (String × Obj)}

/-- The loop over the eligible classes only. -/
def subscribe : List Class → State → Except Unit Unit × State
  | [], s => (.ok (), s)
  | c :: cs, s =>
    match get_or_create s.subscriptions c.message_type with
    | none => (.error (), s)
    | some (t, created) => if ¬ created then (.ok (), s) else subscribe cs (run_post_insert c s t)

theorem visit_eq : visit items s = subscribe (eligible items) s := by
  induction items generalizing s with
  | nil => rfl
  | cons item items ih =>
      cases h : message_class item with
      | none => rw [visit, h, ih, eligible, eligible, List.filterMap_cons_none h]
      | some c =>
          rw [visit, eligible, List.filterMap_cons_some h, subscribe]
          simp only [h, ih, eligible]

/-- A class that is there, one that is too long, and one that is created. -/
theorem subscribe_cons_cases (c : Class) (cs : List Class) (s : State) :
    ((objects_get s.subscriptions c.message_type).isSome ∧ subscribe (c :: cs) s = (.ok (), s)) ∨
    (128 < c.message_type.length ∧ subscribe (c :: cs) s = (.error (), s)) ∨
    ∃ h : c.message_type.length ≤ 128, objects_get s.subscriptions c.message_type = none ∧
      subscribe (c :: cs) s = subscribe cs
        (run_post_insert c s (s.subscriptions.insert ⟨c.message_type, [], [], h⟩)) := by
  rw [subscribe, get_or_create]
  by_cases hthere : (s.subscriptions.get c.message_type).isSome
  · exact .inl ⟨hthere, by simp [hthere]⟩
  · have hnone : s.subscriptions.get c.message_type = none := by simpa using hthere
    by_cases h : c.message_type.length ≤ 128
    · exact .inr (.inr ⟨h, hnone, by simp [hnone, h]⟩)
    · exact .inr (.inl ⟨not_le.mp h, by simp [hnone, h]⟩)

theorem get_run_post_insert {h : c.message_type.length ≤ 128}
    (hnone : objects_get s.subscriptions c.message_type = none) :
    objects_get (run_post_insert c s
      (s.subscriptions.insert ⟨c.message_type, [], [], h⟩)).subscriptions k =
      if k = c.message_type then some (c.settle ⟨c.message_type, [], [], h⟩)
      else objects_get s.subscriptions k := by
  by_cases hk : k = c.message_type
  · subst hk
    rw [if_pos rfl]
    have hin : (s.subscriptions.insert ⟨c.message_type, [], [], h⟩).get c.message_type =
        some ⟨c.message_type, [], [], h⟩ := Table.get_insert_self hnone
    exact Table.get_modify_self hin c.settle fun _ => rfl
  · rw [if_neg hk]
    exact (Table.get_modify_ne _ c.settle (fun _ => rfl) hk).trans (Table.get_insert_ne _ hk)

/-- What the loop has done: it has created the subscriptions of the first classes, and stands before
one that is known or too long. -/
structure Done (first rest : List Class) (s s' : State) : Prop where
  inserted : s'.inserted = s.inserted ++ first.map Class.message_type
  distinct : (first.map Class.message_type).Nodup
  new : ∀ c ∈ first, objects_get s.subscriptions c.message_type = none
  there : ∀ k, (objects_get s'.subscriptions k).isSome ↔ Known s.subscriptions first k
  unchanged : ∀ k sub, objects_get s.subscriptions k = some sub →
    objects_get s'.subscriptions k = some sub
  stopped : ∀ c rest', rest = c :: rest' →
    Known s.subscriptions first c.message_type ∨ 128 < c.message_type.length

theorem subscribe_done (cs : List Class) (s : State) :
    ∃ first rest, cs = first ++ rest ∧ Done first rest s (subscribe cs s).2 := by
  induction cs generalizing s with
  | nil => exact ⟨[], [], rfl, by simp [subscribe], .nil, nofun, by simp [subscribe, Known],
      fun _ _ h => h, nofun⟩
  | cons c cs ih =>
      have hstop (h : Known s.subscriptions [] c.message_type ∨ 128 < c.message_type.length) :
          Done [] (c :: cs) s s :=
        ⟨by simp, .nil, nofun, by simp [Known], fun _ _ h => h, fun d rest' e => by
          cases e
          exact h⟩
      rcases subscribe_cons_cases c cs s with ⟨hthere, he⟩ | ⟨hlong, he⟩ | ⟨hle, hnone, he⟩
      · exact ⟨[], c :: cs, rfl, he ▸ hstop (.inl (.inl hthere))⟩
      · exact ⟨[], c :: cs, rfl, he ▸ hstop (.inr hlong)⟩
      · obtain ⟨first, rest, rfl, hd⟩ :=
          ih (run_post_insert c s (s.subscriptions.insert ⟨c.message_type, [], [], hle⟩))
        have hget := fun k => get_run_post_insert (k := k) (h := hle) hnone
        have hknown (k : String) : Known (run_post_insert c s
            (s.subscriptions.insert ⟨c.message_type, [], [], hle⟩)).subscriptions first k ↔
            Known s.subscriptions (c :: first) k := by
          rw [Known, Known, hget, List.map_cons, List.mem_cons]
          by_cases hk : k = c.message_type
          · simp [hk]
          · simp [hk]
        have hne : ∀ d ∈ first, d.message_type ≠ c.message_type := by
          intro d hd' e
          have hnew := hd.new d hd'
          rw [hget, if_pos e] at hnew
          cases hnew
        refine ⟨c :: first, rest, rfl, ?_, ?_, ?_, ?_, ?_, ?_⟩
        · rw [he, hd.inserted]
          simp [run_post_insert]
        · rw [List.map_cons, List.nodup_cons]
          refine ⟨fun hmem => ?_, hd.distinct⟩
          obtain ⟨d, hd', e⟩ := List.mem_map.mp hmem
          exact hne d hd' e
        · intro d hmem
          rcases List.mem_cons.mp hmem with rfl | hmem
          · exact hnone
          · have hnew := hd.new d hmem
            rwa [hget, if_neg (hne d hmem)] at hnew
        · intro k
          rw [he, hd.there, hknown]
        · intro k sub hk
          have hkc : k ≠ c.message_type := by
            rintro rfl
            rw [hnone] at hk
            cases hk
          rw [he]
          exact hd.unchanged k sub (by rw [hget, if_neg hkc, hk])
        · intro d rest' e
          rw [← hknown]
          exact hd.stopped d rest' e

/-! ### When every class is subscribed -/

/-- A class that was subscribed has a text that fits. -/
theorem length_of_get {sub : SystemMsgSubscription} (h : objects_get t k = some sub) :
    k.length ≤ 128 := by
  have hkey : sub.message_type = k := Table.key_of_get h
  exact hkey ▸ sub.max_length

theorem known_append {first more : List Class} (h : Known t first k) : Known t (first ++ more) k := by
  rcases h with h | h
  · exact .inl h
  · exact .inr (by simp [List.mem_map.mp h])

theorem known_of_subscribed {first rest : List Class} (hd : Done first rest ⟨t, []⟩ s)
    (h : Subscribed (first ++ rest) t s) : ∀ c ∈ first ++ rest, Known t first c.message_type :=
  fun c hc => (hd.there _).mp (h.each c hc)

theorem length_of_subscribed (h : Subscribed cs t s) : ∀ c ∈ cs, c.message_type.length ≤ 128 := by
  intro c hc
  obtain ⟨sub, hsub⟩ := Option.isSome_iff_exists.mp (h.each c hc)
  exact length_of_get hsub

theorem noneBehind_of_subscribed {first rest : List Class} (hd : Done first rest ⟨t, []⟩ s)
    (h : Subscribed (first ++ rest) t s) : NoneBehind t (first ++ rest) := by
  intro before c after he hc d hmem
  have hall := known_of_subscribed hd h
  have hd' : Known t first d.message_type := hall d (by rw [he]; simp [hmem])
  rcases List.append_eq_append_iff.mp he with ⟨more, rfl, -⟩ | ⟨more, rfl, hafter⟩
  · exact known_append hd'
  · cases more with
    | nil => simpa using hd'
    | cons b more =>
        -- `c` is one of the first, but those were new and differ
        obtain rfl : b = c := (List.cons.inj hafter).1.symm
        rcases hc with hc | hc
        · have hnew := hd.new b (by simp)
          rw [hnew] at hc
          cases hc
        · have hdistinct := hd.distinct
          rw [List.map_append, List.nodup_append] at hdistinct
          exact absurd rfl (hdistinct.2.2 _ hc _ (by simp))

theorem subscribed_of_noneBehind {first rest : List Class} (hd : Done first rest ⟨t, []⟩ s)
    (hfits : ∀ c ∈ first ++ rest, c.message_type.length ≤ 128) (hn : NoneBehind t (first ++ rest)) :
    Subscribed (first ++ rest) t s := by
  have hrest : ∀ c ∈ rest, Known t first c.message_type := by
    intro d hmem
    cases rest with
    | nil => cases hmem
    | cons c rest =>
        have hc : Known t first c.message_type :=
          (hd.stopped c rest rfl).resolve_right (not_lt.mpr (hfits c (by simp)))
        rcases List.mem_cons.mp hmem with rfl | hmem
        · exact hc
        · exact hn first c rest rfl hc d hmem
  have hinserted : s.inserted = first.map Class.message_type := by simpa using hd.inserted
  refine ⟨fun c hc => ?_, hinserted ▸ hd.distinct, fun k => ?_, hd.unchanged⟩
  · rcases List.mem_append.mp hc with hc | hc
    · exact (hd.there _).mpr (.inr (List.mem_map_of_mem hc))
    · exact (hd.there _).mpr (hrest c hc)
  · rw [hinserted, hd.there]
    constructor
    · intro hk
      obtain ⟨c, hc, rfl⟩ := List.mem_map.mp hk
      exact ⟨hd.new c hc, .inr hk⟩
    · rintro ⟨hnone, hk | hk⟩
      · rw [hnone] at hk
        cases hk
      · exact hk

end

/-- Every class is subscribed exactly if their names fit and none that is to be created stands
behind one that is known. -/
theorem subscribed_iff (items : List (String × Obj)) (t : Subscriptions) :
    Subscribed (eligible items) t (create_system_messages (some items) t).2 ↔
      (∀ c ∈ eligible items, c.message_type.length ≤ 128) ∧ NoneBehind t (eligible items) := by
  rw [create_system_messages, visit_eq]
  obtain ⟨first, rest, he, hd⟩ := subscribe_done (eligible items) ⟨t, []⟩
  rw [he] at hd ⊢
  constructor
  · intro h
    exact ⟨length_of_subscribed h, noneBehind_of_subscribed hd h⟩
  · rintro ⟨hfits, hn⟩
    exact subscribed_of_noneBehind hd hfits hn

/-! ### An upgrade that adds a class -/

def labels : List String := ["message_type_label", "category", "category_label"]

/-- `virt_center.notifications` with the classes of the names. -/
def virt_center (names : List String) : List (String × Obj) :=
  ("render_to_string", .other) :: names.map fun name =>
    (name, .cls ⟨name, true, labels, fun columns => (columns.1 ++ [1], ["site_msg"])⟩)

def before_upgrade : Subscriptions :=
  (create_system_messages (some (virt_center ["PlatformSyncSuccessMessage"]))
    Table.empty).2.subscriptions

/-- The second class gets none. -/
theorem added_class_not_subscribed :
    ¬ Subscribed (eligible (virt_center ["PlatformSyncSuccessMessage", "PlatformSyncFailedMessage"]))
      before_upgrade (create_system_messages
        (some (virt_center ["PlatformSyncSuccessMessage", "PlatformSyncFailedMessage"]))
        before_upgrade).2 := by
  intro h
  have heach := h.each
  revert heach
  decide +kernel

end InfraHub.Notify.Subscribe
