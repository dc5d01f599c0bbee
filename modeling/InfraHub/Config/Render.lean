import InfraHub.Config.Fresh
import Mathlib.Logic.Relation

/-!
# Config — Render

Whether `get_render_value` comes to an end, and with a value.

The text that is rendered may name keys of `SysConfig`, whose texts are rendered first (`Leads`).  A
text that `Template` refuses is rendered again, after the parts that the message tells were
replaced.

* `Settled`: no text that is come to is refused, and the keys lead nowhere for ever.
* `render_ends`: what is settled is rendered, and what was rendered was settled, unless a text is
  come to that is refused with such parts, or may be refused while it is rendered.
* `not_ends_of_refused`: a refused text without such parts is rendered for ever.
* `raises_of_decoded`: a value that is no text raises where a refused text is rendered again.
-/

namespace InfraHub.Config
open InfraHub.Lib (Str str Ask)
open InfraHub.Lib.Ask (Wp wp_ret wp_ask wp_call wp_bind)
open InfraHub.Lib.Json (Value dumps loads)
open Relation (ReflTransGen)

variable {F : Type}

/-! ### What the methods come to -/

section
variable (env : Env F)

/-- `json.loads` of a text, without some quotes and parentheses. -/
def decoded (text : Str) : Value F :=
  let text := replace (str ")\"") [] 0 (replace (str "\"(") [] 0 text)
  (loads env.python.floats text).getD (.str text)

/-- What is made of the value after the `try` statements. -/
def finished : Value F → Except Exc (Value F)
  | .str text => .ok (decoded env text)
  | _ => .error .other

variable (db : Db F)

/-- What `get_value_from_db` comes to. -/
def checked (entry : Entry) : Except Exc (Data F) :=
  let data := serialized (db.row entry)
  (env.python.refers data.key (dumps env.python.floats true data.value)).elim (.error .other)
    fun same =>
    .ok (if same then { data with key := [] } else data)

/-- The data of a key of the system, with its default. -/
def Data.defaulted (data : Data F) (key : Str) (default_data : Value F) : Data F :=
  if data.key = key then data else data.filled key (or_empty default_data)

/-- The text that `get_data` has rendered. -/
def Data.text (data : Data F) : Str := dumps env.python.floats true data.value

end

section
variable {env : Env F} {db : Db F} {sub : (c : Call F) → Option (Result c × List (Query F))}

theorem wp_method {α β : Type} {x : Method F α} {f : α → Method F β} {post : Except Exc β → Prop} :
    Wp (answer env db) sub (x >>= f).run post ↔
      Wp (answer env db) sub x.run fun a => Wp (answer env db) sub (ExceptT.bindCont f a) post :=
  wp_bind

theorem wp_lift {α : Type} {p : Prog F α} {post : Except Exc α → Prop} :
    Wp (answer env db) sub (ExceptT.run (liftM p : Method F α)) post ↔
      Wp (answer env db) sub p fun a => post (.ok a) := by
  change Wp _ _ (p >>= fun a => .ret (.ok a)) post ↔ _
  simp only [wp_bind, wp_ret]

theorem wp_query {q : Query F} {post : Answer q → Prop} :
    Wp (answer env db) sub (.ask q .ret) post ↔ post (answer env db q) :=
  wp_ask.trans wp_ret

theorem wp_ask_row {entry : Entry} {post : Option (Row F) → Prop} :
    Wp (answer env db) sub (ask_row entry) post ↔ post (db.row entry) :=
  wp_query

theorem wp_use_default {key : Str} {d : Value F} {post : Unit → Prop} :
    Wp (answer env db) sub (use_default key d) post ↔ post () :=
  wp_query

theorem wp_ask_context_dict {model : Model} {post : Bool → Prop} :
    Wp (answer env db) sub (ask_context_dict model) post ↔
    post (db.context_dict env model).isSome :=
  wp_query

theorem wp_get_render_value {model : Model} {value : Str} {post : Except Exc (Value F) → Prop} :
    Wp (answer env db) sub (get_render_value model value).run post ↔
      ∃ v, sub (.get_render_value model value) = some v ∧ post v.1 := by
  refine wp_call.trans (exists_congr fun v => and_congr_right fun _ => ?_)
  exact wp_ret

theorem wp_get_data {entry : Entry} {d : Value F} {post : Except Exc (Data F) → Prop} :
    Wp (answer env db) sub (get_data entry d).run post ↔
      ∃ v, sub (.get_data entry d true) = some v ∧ post v.1 := by
  refine wp_call.trans (exists_congr fun v => and_congr_right fun _ => ?_)
  exact wp_ret

theorem wp_get_value_from_db {entry : Entry} {post : Except Exc (Data F) → Prop} :
    Wp (answer env db) sub (get_value_from_db env entry).run post ↔
    post (checked env db entry) := by
  rw [get_value_from_db, wp_method, wp_lift, wp_ask_row, checked]
  change Wp _ _ (ExceptT.run (_ : Method F (Data F))) post ↔ _
  dsimp only
  generalize env.python.refers (serialized (db.row entry)).key _ = same
  rcases same with _ | _ | _
  all_goals exact wp_ret

theorem wp_with_default {key : Str} {d : Value F} {data : Data F}
    {post : Except Exc (Data F) → Prop} :
    Wp (answer env db) sub (with_default (.system key) d data).run post ↔
    post (.ok (data.defaulted key d)) := by
  rw [with_default, Data.defaulted]
  change Wp _ _ (ExceptT.run (if data.key = key then _ else _)) post ↔ _
  split
  · exact wp_ret
  · rw [wp_method, get_default_data, wp_method, wp_lift, wp_use_default]
    exact wp_ret.trans wp_ret

theorem checked_error {entry : Entry} {e : Exc} (h : checked env db entry = .error e) :
    e = .other := by
  unfold checked at h
  dsimp only at h
  cases hrefers : env.python.refers (serialized (db.row entry)).key
      (dumps env.python.floats true (serialized (db.row entry)).value) with
  | none =>
      rw [hrefers] at h
      cases h
      rfl
  | some same =>
      rw [hrefers] at h
      cases h

theorem wp_get_data_body_error {key : Str} {d : Value F} {e : Exc}
    {post : Except Exc (Data F) → Prop}
    (h : checked env db (.system key) = .error e) :
    Wp (answer env db) sub (get_data_body env (.system key) d).run post ↔ post (.error e) := by
  rw [get_data_body, wp_method, wp_get_value_from_db, h]
  exact wp_ret

theorem wp_get_data_body {key : Str} {d : Value F} {data : Data F}
    {post : Except Exc (Data F) → Prop}
    (h : checked env db (.system key) = .ok data) :
    Wp (answer env db) sub (get_data_body env (.system key) d).run post ↔
      ∃ v, sub (.get_render_value .SystemConfig ((data.defaulted key d).text env)) = some v ∧
        post (v.1.map fun value => { data.defaulted key d with value := value }) := by
  rw [get_data_body, wp_method, wp_get_value_from_db, h]
  change Wp _ _ (ExceptT.run (_ >>= _ : Method F (Data F))) post ↔ _
  rw [wp_method, wp_with_default]
  change Wp _ _ (ExceptT.run (_ >>= _ : Method F (Data F))) post ↔ _
  rw [wp_method, wp_get_render_value]
  refine exists_congr fun v => and_congr_right fun _ => ?_
  obtain ⟨_ | _, _⟩ := v
  all_goals exact wp_ret

theorem wp_get_render_value_body {model : Model} {text : Str} {post : Except Exc (Value F) → Prop} :
    Wp (answer env db) sub (get_render_value_body env model text).run post ↔
      Wp (answer env db) sub (rendered env model text) fun v => post (finished env v) := by
  rw [get_render_value_body, wp_method, wp_lift]
  refine iff_of_eq (congrArg _ (funext fun v => propext ?_))
  cases v
  all_goals exact wp_ret

/-! ### The loop over the keys -/

theorem wp_mapM_loop {α β : Type} {f : α → Method F β} {good : α → Bool} {l : List α}
    (hgood : ∀ a ∈ l.takeWhile good, Wp (answer env db) sub (f a).run fun r => ∃ b, r = .ok b)
    (hbad : ∀ a ∈ l, good a = false → Wp (answer env db) sub (f a).run fun r => r = .error .other)
    (bs : List β) :
    Wp (answer env db) sub (List.mapM.loop f l bs).run fun r =>
      (∃ bs, r = .ok bs) ∨ r = .error .other ∧ ∃ a ∈ l, good a = false := by
  induction l generalizing bs with
  | nil => exact wp_ret.mpr (.inl ⟨_, rfl⟩)
  | cons a l ih =>
      obtain ⟨hhead, hbad⟩ := List.forall_mem_cons.mp hbad
      change Wp _ _ (ExceptT.run (f a >>= fun b => List.mapM.loop f l (b :: bs))) _
      rw [wp_method]
      cases ha : good a with
      | false =>
          refine (hhead ha).imp fun r hr => ?_
          subst hr
          exact wp_ret.mpr (.inr ⟨rfl, a, List.mem_cons_self, ha⟩)
      | true =>
          rw [List.takeWhile_cons_of_pos ha] at hgood
          obtain ⟨hfirst, hgood⟩ := List.forall_mem_cons.mp hgood
          refine hfirst.imp fun r hr => ?_
          obtain ⟨b, rfl⟩ := hr
          refine (ih hgood hbad (b :: bs)).imp fun r => Or.imp_right ?_
          rintro ⟨heq, c, hc, hcbad⟩
          exact ⟨heq, c, List.mem_cons_of_mem a hc, hcbad⟩

/-- **The loop ends** if it does for the elements before the first that raises. -/
theorem wp_mapM {α β : Type} {f : α → Method F β} {good : α → Bool} {l : List α}
    (hgood : ∀ a ∈ l.takeWhile good, Wp (answer env db) sub (f a).run fun r => ∃ b, r = .ok b)
    (hbad : ∀ a ∈ l, good a = false → Wp (answer env db) sub (f a).run fun r => r = .error .other) :
    Wp (answer env db) sub (l.mapM f).run fun r =>
      (∃ bs, r = .ok bs) ∨ r = .error .other ∧ ∃ a ∈ l, good a = false :=
  wp_mapM_loop hgood hbad []

theorem of_wp_mapM_loop {α β : Type} {f : α → Method F β} {good : α → Bool} {l : List α}
    {bad : Prop} {fine : α → Prop} {bs : List β}
    (h : Wp (answer env db) sub (List.mapM.loop f l bs).run fun _ => True)
    (hgood : ∀ a ∈ l.takeWhile good, Wp (answer env db) sub (f a).run (fun _ => True) →
      bad ∨ fine a ∧ Wp (answer env db) sub (f a).run fun r => ∃ b, r = .ok b) :
    bad ∨ ∀ a ∈ l.takeWhile good, fine a := by
  induction l generalizing bs with
  | nil => exact .inr (by simp)
  | cons a l ih =>
      cases ha : good a with
      | false =>
          rw [List.takeWhile_cons_of_neg (by simp [ha])]
          exact .inr (by simp)
      | true =>
          change Wp _ _ (ExceptT.run (f a >>= fun b => List.mapM.loop f l (b :: bs))) _ at h
          rw [wp_method] at h
          rw [List.takeWhile_cons_of_pos ha] at hgood ⊢
          obtain ⟨hfirst, hgood⟩ := List.forall_mem_cons.mp hgood
          rcases hfirst (h.imp fun _ _ => trivial) with hbad | ⟨hfine, hok⟩
          · exact .inl hbad
          · obtain ⟨r, -, hrest, b, hb⟩ := h.and hok
            rw [hb] at hrest
            exact (ih hrest hgood).imp_right fun hall => List.forall_mem_cons.mpr ⟨hfine, hall⟩

/-- **Where the loop ended**, it did for the elements before the first that raises. -/
theorem of_wp_mapM {α β : Type} {f : α → Method F β} {good : α → Bool} {l : List α} {bad : Prop}
    {fine : α → Prop} (h : Wp (answer env db) sub (l.mapM f).run fun _ => True)
    (hgood : ∀ a ∈ l.takeWhile good, Wp (answer env db) sub (f a).run (fun _ => True) →
      bad ∨ fine a ∧ Wp (answer env db) sub (f a).run fun r => ∃ b, r = .ok b) :
    bad ∨ ∀ a ∈ l.takeWhile good, fine a :=
  of_wp_mapM_loop h hgood

/-- The names of the context are looked up without a call. -/
theorem wp_context {model : Model} {values : List (Str × Value F)} (names : List Str) :
    Wp (answer env db) sub (names.mapM (context_value (F := F) model values)).run fun r =>
      ∃ context, r = .ok context := by
  have hvalue (name : Str) : Wp (answer env db) sub (context_value model values name).run fun r =>
      ∃ b, r = .ok b := by
    unfold context_value
    split
    · exact wp_ret.mpr ⟨_, rfl⟩
    · rw [wp_method, wp_lift]
      exact wp_query.mpr (wp_ret.mpr ⟨_, rfl⟩)
  have hloop : Wp (answer env db) sub (names.mapM (context_value (F := F) model values)).run
      fun r => (∃ context, r = .ok context) ∨ r = .error .other ∧
        ∃ name ∈ names, (fun _ => true) name = false :=
    wp_mapM (fun name _ => hvalue name) (by simp)
  refine hloop.imp fun r => ?_
  rintro (hok | ⟨-, name, -, htrue⟩)
  · exact hok
  · cases htrue

/-! ### What leads to what -/

section
variable (env : Env F) (db : Db F)

/-- The text is given to `Template`. -/
def Opened (p : Model × Str) : Prop := p.2 ≠ [] ∧ (db.context_dict env p.1).isSome

def upper_keys (template : env.engine.Template) : List Str :=
  (env.engine.nodelist template).filter env.python.isupper

/-- `get_value_from_db` does not raise for the name. -/
def found (name : Str) : Bool := name = str "shape" ∨ (checked env db (.system name)).isOk

/-- The keys that are looked up. -/
def asked (template : env.engine.Template) : List Str :=
  (upper_keys env template).takeWhile (found env db)

/-- The data that is rendered for an attribute of `SysConfig`. -/
def attribute_data (name : Str) (data : Data F) : Data F :=
  data.defaulted name ((env.settings.property name).getD .null)

/-- The text of a key is rendered for a text. -/
inductive Leads : Model × Str → Model × Str → Prop
  | name {p : Model × Str} {template : env.engine.Template} {name : Str} {data : Data F}
      (hopened : Opened env db p)
      (htemplate : env.engine.parse p.2 = .ok template) (hname : name ∈ asked env db template)
      (hshape : name ≠ str "shape") (hdata : checked env db (.system name) = .ok data) :
      Leads p (.SystemConfig, (attribute_data env name data).text env)

/-- `Template` refuses the text, and tells the parts. -/
def Refused (p : Model × Str) (res_list : List Str) : Prop :=
  Opened env db p ∧ env.engine.parse p.2 = .error (.TemplateSyntaxError res_list)

/-- The text is refused while it is rendered, with some values. -/
def RefusedLate (p : Model × Str) : Prop :=
  Opened env db p ∧ ∃ template context res_list, env.engine.parse p.2 = .ok template ∧
    env.engine.render template context = .error (.TemplateSyntaxError res_list)

/-- No text that is come to is refused, and the keys lead nowhere for ever. -/
structure Settled (p : Model × Str) : Prop where
  acc : Acc (Function.swap (Leads env db)) p
  parsed : ∀ q, ReflTransGen (Leads env db) p q → ∀ res_list, ¬ Refused env db q res_list
  kept : ∀ q, ReflTransGen (Leads env db) p q → ¬ RefusedLate env db q

/-- A text is come to that is refused with parts to replace, or may be refused while it is
rendered. -/
def Doubtful (p : Model × Str) : Prop :=
  ∃ q, ReflTransGen (Leads env db) p q ∧
    ((∃ res res_list, Refused env db q (res :: res_list)) ∨ RefusedLate env db q)

/-- The call comes to a result with the property, with calls to the depth `n`. -/
def Ends (n : Nat) (c : Call F) (post : Result c → Prop) : Prop :=
  ∃ v, Ask.direct (body env) (answer env db) n c = some v ∧ post v.1

end

section
variable {n : Nat} {name : Str} {data : Data F} {template : env.engine.Template}

theorem ends_succ {c : Call F} {post : Result c → Prop} :
    Ends env db (n + 1) c post ↔
      Wp (answer env db) (Ask.direct (body env) (answer env db) n) (body env c) post :=
  Iff.rfl

theorem not_ends_zero {c : Call F} {post : Result c → Prop} : ¬ Ends env db 0 c post := by
  rintro ⟨v, hv, -⟩
  cases hv

theorem Ends.mono {m : Nat} {c : Call F} {post : Result c → Prop} (h : Ends env db n c post)
    (hle : n ≤ m) :
    Ends env db m c post :=
  Exists.imp (fun _ hv => hv.imp_left fun hdirect => Ask.direct_mono hdirect hle) h

/-- What is rendered for a key, and what `getattr` makes of it. -/
theorem ends_get_data {d : Value F} (h : checked env db (.system name) = .ok data)
    {post : Except Exc (Value F) → Prop} :
    Ends env db (n + 1) (.get_data (.system name) d true)
    (fun r => post (Except.map Data.value r)) ↔
      Ends env db n (.get_render_value .SystemConfig ((data.defaulted name d).text env)) post := by
  refine ends_succ.trans
    ((wp_get_data_body h).trans (exists_congr fun v => and_congr_right fun _ => ?_))
  obtain ⟨_ | _, _⟩ := v
  all_goals exact Iff.rfl

/-- The calls that `getattr` makes. -/
theorem wp_getattr {post : Except Exc (Value F) → Prop} (hshape : name ≠ str "shape")
    (h : Ends env db n (.get_data (.system name) ((env.settings.property name).getD .null) true)
      fun r =>
      ∃ data : Data F, r = .ok data ∧ post (.ok data.value)) :
    Wp (answer env db) (Ask.direct (body env) (answer env db) n) (getattr env name).run post := by
  have hget {d : Value F} (hd : d = (env.settings.property name).getD .null) :
      Wp (answer env db) (Ask.direct (body env) (answer env db) n)
        (ExceptT.run (get_data (.system name) d >>= fun data => pure data.value))
        fun r => ∃ v, r = .ok v ∧ post r := by
    subst hd
    rw [wp_method, wp_get_data]
    refine Exists.imp (fun v => And.imp_right ?_) h
    rintro ⟨data, heq, hpost⟩
    rw [heq]
    exact wp_ret.mpr ⟨data.value, rfl, hpost⟩
  rw [getattr, if_neg hshape]
  cases hproperty : env.settings.property name with
  | none => exact (hget (by rw [hproperty]; rfl)).imp fun r ⟨_, _, hpost⟩ => hpost
  | some d =>
      refine wp_bind.mpr ((hget (d := d) (by rw [hproperty]; rfl)).imp fun r hr => ?_)
      obtain ⟨v, rfl, hpost⟩ := hr
      exact wp_ret.mpr hpost

theorem wp_getattr_not_found (h : found env db name = false) :
    Wp (answer env db) (Ask.direct (body env) (answer env db) (n + 1)) (getattr env name).run
      fun r => r = .error .other := by
  have hfound : name ≠ str "shape" ∧ (checked env db (.system name)).isOk = false := by
    simpa [found] using h
  obtain ⟨hshape, hchecked⟩ := hfound
  have herror : checked env db (.system name) = .error .other := by
    cases hcases : checked env db (.system name) with
    | error e => rw [checked_error hcases]
    | ok data =>
        rw [hcases] at hchecked
        cases hchecked
  have hget (d : Value F) : Wp (answer env db) (Ask.direct (body env) (answer env db) (n + 1))
      (ExceptT.run (get_data (.system name) d >>= fun data => pure data.value)) fun r =>
        r = .error .other := by
    rw [wp_method, wp_get_data]
    have hbody : Ends env db (n + 1) (.get_data (.system name) d true) fun r =>
        r = .error .other := by
      refine ends_succ.mpr ((wp_get_data_body_error herror).mpr ?_)
      rfl
    refine Exists.imp (fun v => And.imp_right fun heq => ?_) hbody
    rw [heq]
    exact wp_ret.mpr rfl
  rw [getattr, if_neg hshape]
  cases env.settings.property name with
  | none => exact hget .null
  | some d =>
      refine wp_bind.mpr ((hget d).imp fun r hr => ?_)
      subst hr
      exact hget .null

/-- Where `getattr` ended, its call did. -/
theorem ends_of_wp_getattr (hshape : name ≠ str "shape")
    (h : Wp (answer env db) (Ask.direct (body env) (answer env db) n) (getattr env name).run
      fun _ => True) :
    Ends env db n (.get_data (.system name) ((env.settings.property name).getD .null) true)
      fun _ => True := by
  rw [getattr, if_neg hshape] at h
  have hget {d : Value F} (h : Wp (answer env db) (Ask.direct (body env) (answer env db) n)
      (ExceptT.run (get_data (.system name) d >>= fun data => pure data.value)) fun _ => True) :
      Ends env db n (.get_data (.system name) d true) fun _ => True := by
    rw [wp_method, wp_get_data] at h
    exact Exists.imp (fun v => And.imp_right fun _ => trivial) h
  cases hproperty : env.settings.property name with
  | none =>
      rw [hproperty] at h
      exact hget h
  | some d =>
      rw [hproperty] at h
      exact hget ((wp_bind.mp h).imp fun _ _ => trivial)

/-! ### A text that is rendered -/

variable {p : Model × Str}

theorem wp_rendered_closed {post : Value F → Prop}
    {sub : (c : Call F) → Option (Result c × List (Query F))}
    (h : ¬ Opened env db p) :
    Wp (answer env db) sub (rendered env p.1 p.2) post ↔ post (.str p.2) := by
  rw [rendered]
  by_cases hne : p.2 = []
  · rw [if_pos hne]
    exact wp_ret
  · have hcontext : (db.context_dict env p.1).isSome = false := by simpa [Opened, hne] using h
    rw [if_neg hne, wp_bind, wp_ask_context_dict, hcontext]
    exact wp_ret

section
variable (env)

def key_value (v_key : Str) : Method F (Str × Value F) := return (v_key, ← getattr env v_key)

/-- The values of the keys that the text names. -/
def upper_values (template : env.engine.Template) : Method F (List (Str × Value F)) :=
  (upper_keys env template).mapM (key_value env)

/-- A refused text is rendered again. -/
def render_again (p : Model × Str) (res_list : List Str) : Prog F (Value F) := do
  let (value, raised) ← replace_remainders env p.1 res_list p.2
  if raised then return .str value
  match ← (get_render_value p.1 value).run with
  | .ok value => return value
  | .error _ => return .str value

/-- What is made of what `get_render_context` comes to. -/
def handled (p : Model × Str) : Except Exc Str → Prog F (Value F)
  | .ok text => return .str text
  | .error .other => return .str p.2
  | .error (.TemplateSyntaxError res_list) => render_again env p res_list

end

variable {sub : (c : Call F) → Option (Result c × List (Query F))}

theorem wp_rendered_opened {post : Value F → Prop} (h : Opened env db p) :
    Wp (answer env db) sub (rendered env p.1 p.2) post ↔
      Wp (answer env db) sub (get_render_context env p.1 p.2).run fun r =>
        Wp (answer env db) sub (handled env p r) post := by
  rw [rendered, if_neg h.1, wp_bind, wp_ask_context_dict, h.2, if_pos rfl, wp_bind]
  refine iff_of_eq (congrArg _ (funext fun r => propext ?_))
  rcases r with (_ | _) | _
  all_goals exact Iff.rfl

theorem wp_get_render_context_error {e : Exc} {post : Except Exc Str → Prop}
    (h : env.engine.parse p.2 = .error e) :
    Wp (answer env db) sub (get_render_context env p.1 p.2).run post ↔ post (.error e) := by
  rw [get_render_context, wp_method, h]
  exact wp_ret.trans wp_ret

theorem wp_get_render_context {post : Except Exc Str → Prop} {template : env.engine.Template}
    (h : env.engine.parse p.2 = .ok template) :
    Wp (answer env db) sub (get_render_context env p.1 p.2).run post ↔
      Wp (answer env db) sub (upper_values env template).run fun r =>
        Wp (answer env db) sub (ExceptT.bindCont (fun values => do
          let context ← (env.engine.names template).mapM (context_value p.1 values)
          get_render_context.liftExcept
            (env.engine.render template fun name => (context.lookup name).join)) r) post := by
  rw [get_render_context, wp_method, h]
  refine wp_ret.trans ?_
  change Wp _ _ (ExceptT.run (_ >>= _ : Method F Str)) post ↔ _
  rw [wp_method]
  rfl

/-- What the rendering of a template comes to, once its keys have values. -/
theorem wp_get_render_context_ok {template : env.engine.Template}
    (h : env.engine.parse p.2 = .ok template)
    (hvalues : Wp (answer env db) sub (upper_values env template).run fun r => ∀ e, r = .error e →
      e = .other) :
    Wp (answer env db) sub (get_render_context env p.1 p.2).run fun r =>
      r = .error .other ∨ ∃ context, r = env.engine.render template context := by
  refine (wp_get_render_context h).mpr (hvalues.imp fun r hr => ?_)
  cases r with
  | error e =>
      obtain rfl := hr e rfl
      exact wp_ret.mpr (.inl rfl)
  | ok values =>
      change Wp _ _ (ExceptT.run (_ >>= _ : Method F Str)) _
      rw [wp_method]
      refine (wp_context (env.engine.names template)).imp fun r hr => ?_
      obtain ⟨context, rfl⟩ := hr
      exact wp_ret.mpr (.inr ⟨_, rfl⟩)

/-- What is handled becomes a text, unless the text is refused while it is rendered. -/
theorem wp_handled {template : env.engine.Template} (hopened : Opened env db p)
    (htemplate : env.engine.parse p.2 = .ok template) (hlate : ¬ RefusedLate env db p)
    {r : Except Exc Str}
    (hr : r = .error .other ∨ ∃ context, r = env.engine.render template context) :
    Wp (answer env db) sub (handled env p r) fun v => ∃ text, v = .str text := by
  rcases r with (res_list | _) | text
  · rcases hr with heq | ⟨context, heq⟩
    · cases heq
    · exact absurd ⟨hopened, template, context, res_list, htemplate, heq.symm⟩ hlate
  · exact wp_ret.mpr ⟨p.2, rfl⟩
  · exact wp_ret.mpr ⟨text, rfl⟩

theorem ends_of_texts
    (h : Wp (answer env db) (Ask.direct (body env) (answer env db) n) (rendered env p.1 p.2)
      fun v =>
      ∃ text, v = .str text) :
    Ends env db (n + 1) (.get_render_value p.1 p.2) fun r => ∃ v, r = .ok v := by
  refine ends_succ.mpr (wp_get_render_value_body.mpr (h.imp fun v hv => ?_))
  obtain ⟨text, rfl⟩ := hv
  exact ⟨_, rfl⟩

/-- A key has a value where its text is rendered. -/
theorem wp_key_value (hfound : found env db name) (h : ∀ data, name ≠ str "shape" →
      checked env db (.system name) = .ok data → Ends env db n
        (.get_render_value .SystemConfig ((attribute_data env name data).text env)) fun r =>
        ∃ v, r = .ok v) :
    Wp (answer env db) (Ask.direct (body env) (answer env db) (n + 1)) (key_value env name).run
      fun r => ∃ b, r = .ok b := by
  have hattr : Wp (answer env db) (Ask.direct (body env) (answer env db) (n + 1))
      (getattr env name).run
      fun r => ∃ v, r = .ok v := by
    by_cases hshape : name = str "shape"
    · rw [getattr, if_pos hshape]
      exact wp_ret.mpr ⟨_, rfl⟩
    · cases hdata : checked env db (.system name) with
      | error e => simp [found, hshape, hdata, Except.isOk, Except.toBool] at hfound
      | ok data =>
          refine wp_getattr hshape (Exists.imp (fun r => And.imp_right ?_)
            ((ends_get_data hdata).mpr (h data hshape hdata)))
          rintro ⟨v, hv⟩
          cases hr : r.1 with
          | error e =>
              rw [hr] at hv
              cases hv
          | ok data => exact ⟨data, rfl, _, rfl⟩
  rw [key_value, wp_method]
  refine hattr.imp fun r hr => ?_
  obtain ⟨v, rfl⟩ := hr
  exact wp_ret.mpr ⟨_, rfl⟩

/-- **A text is rendered** where those of its keys are. -/
theorem ends_of_names {template : env.engine.Template} (hopened : Opened env db p)
    (htemplate : env.engine.parse p.2 = .ok template) (hlate : ¬ RefusedLate env db p)
    (hnames : ∀ q, Leads env db p q →
      Ends env db n (.get_render_value q.1 q.2) fun r => ∃ v, r = .ok v) :
    Ends env db (n + 2) (.get_render_value p.1 p.2) fun r => ∃ v, r = .ok v := by
  have hgood : ∀ name ∈ asked env db template,
      Wp (answer env db) (Ask.direct (body env) (answer env db) (n + 1)) (key_value env name).run
        fun r => ∃ b, r = .ok b := by
    intro name hname
    refine wp_key_value (List.mem_takeWhile_imp hname) fun data hshape hdata => ?_
    exact hnames _ (.name hopened htemplate hname hshape hdata)
  have hbad : ∀ name ∈ upper_keys env template, found env db name = false →
      Wp (answer env db) (Ask.direct (body env) (answer env db) (n + 1)) (key_value env name).run
        fun r => r = .error .other := by
    intro name _ hname
    rw [key_value, wp_method]
    refine (wp_getattr_not_found hname).imp fun r hr => ?_
    subst hr
    exact wp_ret.mpr rfl
  have hvalues : Wp (answer env db) (Ask.direct (body env) (answer env db) (n + 1))
      (upper_values env template).run
      fun r => ∀ e, r = .error e → e = .other := by
    refine (wp_mapM hgood hbad).imp fun r hr e he => ?_
    rcases hr with ⟨bs, rfl⟩ | ⟨rfl, -⟩
    · cases he
    · cases he
      rfl
  refine ends_of_texts ((wp_rendered_opened hopened).mpr ?_)
  exact (wp_get_render_context_ok htemplate hvalues).imp fun r hr =>
    wp_handled hopened htemplate hlate hr

/-! ### A text that is settled -/

theorem exists_depth {α : Type} {P : α → Nat → Prop} (hmono : ∀ a n m, P a n → n ≤ m → P a m)
    (l : List α)
    (h : ∀ a ∈ l, ∃ n, P a n) : ∃ n, ∀ a ∈ l, P a n := by
  induction l with
  | nil => exact ⟨0, by simp⟩
  | cons a l ih =>
      obtain ⟨⟨m, hm⟩, hl⟩ := List.forall_mem_cons.mp h
      obtain ⟨n, hn⟩ := ih hl
      refine ⟨max m n, List.forall_mem_cons.mpr
        ⟨hmono a m _ hm (Nat.le_max_left m n), fun b hb => ?_⟩⟩
      exact hmono b n _ (hn b hb) (Nat.le_max_right m n)

theorem Settled.of_leads {q : Model × Str} (h : Settled env db p) (hleads : Leads env db p q) :
    Settled env db q where
  acc := h.acc.inv hleads
  parsed := fun r hr => h.parsed r (.head hleads hr)
  kept := fun r hr => h.kept r (.head hleads hr)

/-- **What is settled is rendered.** -/
theorem ends_of_settled (h : Settled env db p) :
    ∃ n, Ends env db n (.get_render_value p.1 p.2) fun r => ∃ v, r = .ok v := by
  obtain ⟨hacc⟩ : Nonempty (Acc (Function.swap (Leads env db)) p) := ⟨h.acc⟩
  induction hacc with
  | intro p _ ih =>
      by_cases hopened : Opened env db p
      · cases htemplate : env.engine.parse p.2 with
        | error e =>
            cases e with
            | TemplateSyntaxError res_list =>
                exact absurd ⟨hopened, htemplate⟩ (h.parsed p .refl res_list)
            | other =>
                refine ⟨1, ends_of_texts ((wp_rendered_opened hopened).mpr ?_)⟩
                exact (wp_get_render_context_error htemplate).mpr (wp_ret.mpr ⟨p.2, rfl⟩)
        | ok template =>
            -- the names are finitely many, so there is a depth for all of them
            let P (name : Str) (n : Nat) : Prop := ∀ data, name ≠ str "shape" →
              checked env db (.system name) = .ok data → Ends env db n
                (.get_render_value .SystemConfig ((attribute_data env name data).text env)) fun r =>
                ∃ v, r = .ok v
            have hmono (name : Str) (n m : Nat) (hn : P name n) (hle : n ≤ m) : P name m :=
              fun data hshape hdata => (hn data hshape hdata).mono hle
            obtain ⟨n, hn⟩ := exists_depth hmono (asked env db template) fun name hname => by
              cases hdata : checked env db (.system name) with
              | error e => exact ⟨0, fun data _ hdata' => by rw [hdata] at hdata'; cases hdata'⟩
              | ok data =>
                  by_cases hshape : name = str "shape"
                  · exact ⟨0, fun _ hne => absurd hshape hne⟩
                  · have hleads := Leads.name hopened htemplate hname hshape hdata
                    obtain ⟨n, hn⟩ := ih _ hleads (h.of_leads hleads)
                    refine ⟨n, fun data' _ hdata' => ?_⟩
                    rw [hdata] at hdata'
                    cases hdata'
                    exact hn
            refine ⟨n + 2, ends_of_names hopened htemplate (h.kept p .refl) fun q hq => ?_⟩
            cases hq with
            | name _ htemplate' hname hshape hdata =>
                rw [htemplate] at htemplate'
                cases htemplate'
                exact hn _ hname _ hshape hdata
      · exact ⟨1, ends_of_texts ((wp_rendered_closed hopened).mpr ⟨p.2, rfl⟩)⟩

theorem settled_of_leads (hleads : ∀ q, Leads env db p q → Settled env db q)
    (hparsed : ∀ res_list, ¬ Refused env db p res_list) (hkept : ¬ RefusedLate env db p) :
    Settled env db p where
  acc := ⟨p, fun q hq => (hleads q hq).acc⟩
  parsed := by
    intro q hq
    rcases ReflTransGen.cases_head hq with rfl | ⟨r, hr, hq⟩
    · exact hparsed
    · exact (hleads r hr).parsed q hq
  kept := by
    intro q hq
    rcases ReflTransGen.cases_head hq with rfl | ⟨r, hr, hq⟩
    · exact hkept
    · exact (hleads r hr).kept q hq

/-! ### A text that is refused -/

/-- What is refused without parts is rendered again as it is. -/
theorem ends_of_refused {post : Except Exc (Value F) → Prop} (h : Refused env db p [])
    (hends : Ends env db (n + 1) (.get_render_value p.1 p.2) post) :
    Ends env db n (.get_render_value p.1 p.2) fun _ => True := by
  have hagain := (wp_rendered_opened h.1).mp (wp_get_render_value_body.mp (ends_succ.mp hends))
  rw [wp_get_render_context_error h.2] at hagain
  change Wp _ _ (render_again env p []) _ at hagain
  have hloop : replace_remainders env p.1 [] p.2 = .ret (p.2, false) := rfl
  rw [render_again, wp_bind, hloop, wp_ret] at hagain
  change Wp _ _ ((get_render_value p.1 p.2).run >>= _) _ at hagain
  rw [wp_bind, wp_get_render_value] at hagain
  exact Exists.imp (fun _ => And.imp_right fun _ => trivial) hagain

/-- **What is refused without parts is rendered for ever.** -/
theorem not_ends_of_refused {post : Except Exc (Value F) → Prop} (h : Refused env db p []) :
    ¬ Ends env db n (.get_render_value p.1 p.2) post := by
  induction n generalizing post with
  | zero => exact not_ends_zero
  | succ n ih => exact fun hends => ih (ends_of_refused h hends)

/-- **A value that is no text raises** where a refused text is rendered again. -/
theorem raises_of_decoded {res_list : List Str} {value : Str} (h : Refused env db p res_list)
    (hreplaced : Wp (answer env db) (Ask.direct (body env) (answer env db) n)
      (replace_remainders env p.1 res_list p.2) fun r => r = (value, false))
    (hends : Ends env db n (.get_render_value p.1 value) fun r => ∃ v, r = .ok v ∧
      ∀ text, v ≠ .str text) :
    Ends env db (n + 1) (.get_render_value p.1 p.2) fun r => r = .error .other := by
  refine ends_succ.mpr (wp_get_render_value_body.mpr ((wp_rendered_opened h.1).mpr ?_))
  rw [wp_get_render_context_error h.2]
  change Wp _ _ (render_again env p res_list) _
  rw [render_again, wp_bind]
  refine hreplaced.imp fun r hr => ?_
  subst hr
  change Wp _ _ (_ >>= _) _
  rw [wp_bind, wp_get_render_value]
  refine Exists.imp (fun r => And.imp_right ?_) hends
  rintro ⟨v, heq, hv⟩
  rw [heq]
  refine wp_ret.mpr ?_
  cases v with
  | str text => exact absurd rfl (hv text)
  | _ => rfl

/-! ### Where the rendering ended -/

theorem Ends.unique {m : Nat} {c : Call F} {post post' : Result c → Prop} (h : Ends env db n c post)
    (h' : Ends env db m c post') : Ends env db n c post' := by
  obtain ⟨v, hv, -⟩ := h
  obtain ⟨w, hw, hpost⟩ := h'
  obtain rfl := Ask.direct_unique hv hw
  exact ⟨v, hv, hpost⟩

theorem Doubtful.of_leads {q : Model × Str} (hleads : Leads env db p q) (h : Doubtful env db q) :
    Doubtful env db p :=
  h.imp fun _ hr => hr.imp_left fun hreach => .head hleads hreach

/-- A key that has a value had its text rendered. -/
theorem ends_of_key_value (hshape : name ≠ str "shape")
    (hdata : checked env db (.system name) = .ok data)
    (h : Wp (answer env db) (Ask.direct (body env) (answer env db) n) (key_value env name).run
      fun _ => True) :
    ∃ m, n = m + 1 ∧
      Ends env db m (.get_render_value .SystemConfig ((attribute_data env name data).text env))
        fun _ => True := by
  rw [key_value, wp_method] at h
  have hget := ends_of_wp_getattr hshape (h.imp fun _ _ => trivial)
  cases n with
  | zero => exact absurd hget not_ends_zero
  | succ m =>
      have hvalue : Ends env db (m + 1)
          (.get_data (.system name) ((env.settings.property name).getD .null) true)
          fun r => (fun _ => True) (Except.map Data.value r) := hget
      exact ⟨m, rfl, (ends_get_data hdata).mp hvalue⟩

/-- What a key with a value tells of the text that named it. -/
theorem settled_of_key_value {template : env.engine.Template}
    (ih : ∀ m < n, ∀ q : Model × Str, (Ends env db m (.get_render_value q.1 q.2) fun _ => True) →
      Doubtful env db q ∨ Settled env db q)
    (hopened : Opened env db p) (htemplate : env.engine.parse p.2 = .ok template)
    (hname : name ∈ asked env db template)
    (h : Wp (answer env db) (Ask.direct (body env) (answer env db) n) (key_value env name).run
      fun _ => True) :
    Doubtful env db p ∨
      (∀ data, name ≠ str "shape" → checked env db (.system name) = .ok data →
        Settled env db (.SystemConfig, (attribute_data env name data).text env)) ∧
      Wp (answer env db) (Ask.direct (body env) (answer env db) n) (key_value env name).run
        fun r => ∃ b, r = .ok b := by
  by_cases hshape : name = str "shape"
  · refine .inr ⟨fun _ hne => absurd hshape hne, ?_⟩
    rw [key_value, wp_method, getattr, if_pos hshape]
    exact wp_ret.mpr (wp_ret.mpr ⟨_, rfl⟩)
  · have hfound : found env db name := List.mem_takeWhile_imp hname
    cases hdata : checked env db (.system name) with
    | error e => simp [found, hshape, hdata, Except.isOk, Except.toBool] at hfound
    | ok data =>
        obtain ⟨m, rfl, hrender⟩ := ends_of_key_value hshape hdata h
        rcases ih m (Nat.lt_add_one m) (.SystemConfig, (attribute_data env name data).text env)
          hrender with hdoubtful | hsettled
        · exact .inl (hdoubtful.of_leads (.name hopened htemplate hname hshape hdata))
        · obtain ⟨k, hk⟩ := ends_of_settled hsettled
          refine .inr ⟨fun data' _ hdata' => ?_, wp_key_value hfound fun data' _ hdata' => ?_⟩
          · cases hdata'
            exact hsettled
          · rw [hdata] at hdata'
            cases hdata'
            exact hrender.unique hk

/-- **Where it ended, the text was settled**, or one is come to that is refused otherwise. -/
theorem settled_of_ends (h : Ends env db n (.get_render_value p.1 p.2) fun _ => True) :
    Doubtful env db p ∨ Settled env db p := by
  induction n using Nat.strong_induction_on generalizing p with
  | _ n ih =>
      by_cases hdoubtful : Doubtful env db p
      · exact .inl hdoubtful
      have hlate : ¬ RefusedLate env db p := fun hlate => hdoubtful ⟨p, .refl, .inr hlate⟩
      have hrefused (res_list : List Str) : ¬ Refused env db p res_list := by
        intro hrefused
        cases res_list with
        | cons res res_list => exact hdoubtful ⟨p, .refl, .inl ⟨res, res_list, hrefused⟩⟩
        | nil => exact not_ends_of_refused hrefused h
      by_cases hleads : ∃ template, Opened env db p ∧ env.engine.parse p.2 = .ok template
      · obtain ⟨template, hopened, htemplate⟩ := hleads
        cases n with
        | zero => exact absurd h not_ends_zero
        | succ n =>
            -- each name before the first that raises was rendered, to a smaller depth
            have hih (m : Nat) (hm : m < n) (q : Model × Str)
                (hq : Ends env db m (.get_render_value q.1 q.2) fun _ => True) :
                Doubtful env db q ∨ Settled env db q := ih m (hm.trans (Nat.lt_add_one n)) hq
            have hbody := wp_get_render_value_body.mp (ends_succ.mp h)
            rw [wp_rendered_opened hopened, wp_get_render_context htemplate] at hbody
            rcases of_wp_mapM (hbody.imp fun _ _ => trivial) fun name hname =>
              settled_of_key_value hih hopened htemplate hname with hdoubt | hsettled
            · exact .inl hdoubt
            · refine .inr (settled_of_leads (fun q hq => ?_) hrefused hlate)
              cases hq with
              | name _ htemplate' hname hshape hdata =>
                  rw [htemplate] at htemplate'
                  cases htemplate'
                  exact hsettled _ hname _ hshape hdata
      · refine .inr (settled_of_leads (fun q hq => ?_) hrefused hlate)
        cases hq with
        | name hopened htemplate => exact absurd ⟨_, hopened, htemplate⟩ hleads

end

end

/-! ### Fixed texts -/

theorem plain_settled (db : Db Unit) (p : Model × Str) : Settled sampleEnv db p := by
  refine settled_of_leads (fun q hq => ?_) (fun res_list hrefused => ?_) ?_
  · cases hq with
    | name _ _ hname => cases hname
  · cases hrefused.2
  · rintro ⟨-, template, context, res_list, -, hrender⟩
    cases hrender

/-- Texts with a tag of no known name are refused. -/
def tagEnv : Env Unit :=
  { sampleEnv with
    engine :=
      { Template := Str
        parse := fun text =>
          if text.tails.any (str "\x7b%").isPrefixOf then .error (.TemplateSyntaxError [])
          else .ok text
        nodelist := fun _ => []
        names := fun _ => []
        render := fun text _ => .ok text } }

end InfraHub.Config
