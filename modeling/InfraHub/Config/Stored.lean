import InfraHub.Config.Render
import InfraHub.Lib.Weight

/-!
# Config — Stored

Whether a value that was stored under a key is what the next read of the key returns.

The text of the value loses its quotes next to parentheses before it is read again, and a text
without a quote that it had is the text of no such value (`decoded_dumps_iff`).  With the check of
the key on its own value, this is all that may happen to a text without template syntax
(`set_value_iff`).
-/

namespace InfraHub.Config
open InfraHub.Lib (Str str Ask Store fresh fresh_notMem)
open InfraHub.Lib.Ask (Wp wp_ret serve_of_same)
open InfraHub.Lib.Json
    (Value Proper Printed unicode hexDigit quoted escape escape_of_ge dumps loads loads_dumps
  readable_of_proper weight weight_dumps_le printed_dumps heavy dquote)

variable {F : Type}

/-! ### Replacing -/

section
variable {old : Str}

/-- Where the text starts with `old`, it is passed over. -/
theorem drop_of_start (hne : old ≠ []) {c : Nat} {text rest : Str} (h : old ++ rest = c :: text) :
    text.drop (old.length - 1) = rest := by
  cases old with
  | nil => exact absurd rfl hne
  | cons d old =>
      obtain ⟨rfl, rfl⟩ := List.cons.inj h
      exact List.drop_left

theorem countP_replace_le (P : Nat → Bool) (skip : Nat) (text : Str) :
    (replace old [] skip text).countP P ≤ (text.drop skip).countP P := by
  induction text generalizing skip with
  | nil => simp [replace]
  | cons c text ih =>
      cases skip with
      | succ skip => exact ih skip
      | zero =>
          rw [replace]
          split
          · have hdrop : (text.drop (old.length - 1)).countP P ≤ (c :: text).countP P :=
              ((List.drop_suffix _ text).trans (List.suffix_cons c text)).sublist.countP_le
            exact (ih (old.length - 1)).trans hdrop
          · have hrest : (replace old [] 0 text).countP P ≤ text.countP P := ih 0
            rw [List.countP_cons, List.drop_zero, List.countP_cons]
            omega

/-- A part that is replaced by nothing is gone. -/
theorem countP_replace_of_infix (P : Nat → Bool) (hne : old ≠ []) {text : Str} (h : old <:+: text) :
    (replace old [] 0 text).countP P + old.countP P ≤ text.countP P := by
  induction text with
  | nil => exact absurd (List.infix_nil.mp h) hne
  | cons c text ih =>
      rw [replace]
      split
      · next hstarts =>
        obtain ⟨rest, hrest⟩ := List.isPrefixOf_iff_prefix.mp hstarts
        have hle : (replace old [] (old.length - 1) text).countP P ≤ _ :=
          countP_replace_le P (old.length - 1) text
        rw [drop_of_start hne hrest] at hle
        rw [List.nil_append, ← hrest, List.countP_append]
        omega
      · next hstarts =>
        rcases List.infix_cons_iff.mp h with hstart | hinfix
        · exact absurd (List.isPrefixOf_iff_prefix.mpr hstart) hstarts
        · have hrest := ih hinfix
          rw [List.countP_cons, List.countP_cons]
          omega

theorem replace_eq_self {new : Str} {text : Str} (h : ¬ old <:+: text) :
    replace old new 0 text = text := by
  induction text with
  | nil => rfl
  | cons c text ih =>
      rw [List.infix_cons_iff, not_or] at h
      rw [replace, if_neg fun hstarts => h.1 (List.isPrefixOf_iff_prefix.mp hstarts), ih h.2]

end

/-! ### The text that is read again -/

/-- What is taken from the text. -/
def quote_open : Str := str "\"("

def close_quote : Str := str ")\""

def parens : List Nat := str "()"

theorem countP_unicode {c : Nat} (hc : c ∈ parens) {u : Nat} (hu : u < 0x10000) :
    (unicode u).countP (· = c) = 0 := by
  have hdigit (k : Nat) (hk : k < 0x10) : hexDigit k ∉ parens := by
    have hall : ∀ k < 0x10, hexDigit k ∉ parens := by decide +kernel
    exact hall k hk
  have hnone : ∀ d ∈ unicode u, d ∉ parens := by
    simp only [unicode, List.forall_mem_cons]
    exact ⟨by decide +kernel, by decide +kernel, hdigit _ (by omega), hdigit _ (by omega),
      hdigit _ (by omega),
      hdigit _ (by omega), by simp⟩
  rw [List.countP_eq_zero]
  intro d hd heq
  exact hnone d hd (of_decide_eq_true heq ▸ hc)

/-- A parenthesis is written as it is, and nothing else has one. -/
theorem countP_escape {c : Nat} (hc : c ∈ parens) {d : Nat} (hd : d < 0x110000) :
    (escape true d).countP (· = c) = [d].countP (· = c) := by
  by_cases hplain : d < 0x7f
  · have hall : ∀ d < 0x7f, ∀ c ∈ parens, (escape true d).countP (· = c) = [d].countP (· = c) := by
      decide +kernel
    exact hall d hplain c hc
  · have hlt : ∀ c ∈ parens, c < 0x7f := by decide +kernel
    have hne : d ≠ c := by
      rintro rfl
      exact hplain (hlt d hc)
    have hzero : [d].countP (· = c) = 0 := by simp [hne]
    rw [escape_of_ge (by omega), hzero]
    split_ifs with hbmp
    · exact countP_unicode hc hbmp
    · rw [List.countP_append, countP_unicode hc (by omega), countP_unicode hc (by omega)]

/-- A string has as many parentheses as its text. -/
theorem countP_quoted {c : Nat} (hc : c ∈ parens) {s : Str} (hs : ∀ d ∈ s, d < 0x110000) :
    (quoted true s).countP (· = c) = s.countP (· = c) := by
  have hbody : (s.flatMap (escape true)).countP (· = c) = s.countP (· = c) := by
    induction s with
    | nil => rfl
    | cons d s ih =>
        obtain ⟨hd, hs⟩ := List.forall_mem_cons.mp hs
        rw [List.flatMap_cons, List.countP_append, countP_escape hc hd, ih hs, ← List.countP_append,
          List.singleton_append]
  have hquote : [dquote].countP (· = c) = 0 := by
    have hall : ∀ c ∈ parens, [dquote].countP (· = c) = 0 := by decide +kernel
    exact hall c hc
  rw [quoted, List.countP_append, ← List.singleton_append, List.countP_append, hquote, hbody]
  omega

section
variable {env : Env F} {v : Value F} {P : F → Prop}

/-- What lost a quote and a parenthesis is no text of the value. -/
theorem not_text_of_lost (hv : v.Of Proper P) {c : Nat} (hc : c ∈ parens) {text : Str}
    (hprinted : ∀ d ∈ text, Printed d)
    (hweight : weight text < weight (dumps env.python.floats true v))
    (hcount : text.countP (· = c) < (dumps env.python.floats true v).countP (· = c)) :
    (loads env.python.floats text).getD (.str text) ≠ v := by
  intro heq
  cases hloads : loads env.python.floats text with
  | some w =>
      rw [hloads, Option.getD_some] at heq
      subst heq
      exact absurd (weight_dumps_le hloads hprinted) (Nat.not_le_of_lt hweight)
  | none =>
      rw [hloads, Option.getD_none] at heq
      subst heq
      cases hv with
      | str hs =>
          rw [dumps, countP_quoted hc hs.bound] at hcount
          exact lt_irrefl _ hcount

/-- **A value comes back** if and only if its text has no quote next to a parenthesis. -/
theorem decoded_dumps_iff (hv : v.Of Proper P) :
    decoded env (dumps env.python.floats true v) = v ↔
      ¬ quote_open <:+: dumps env.python.floats true v ∧
      ¬ close_quote <:+: dumps env.python.floats true v := by
  have hopen : quote_open ≠ [] := by decide +kernel
  have hclose : close_quote ≠ [] := by decide +kernel
  have hkept (P : Nat → Bool) (old text : Str) : (replace old [] 0 text).countP P ≤ text.countP P :=
    countP_replace_le P 0 text
  have hdecoded (text : Str) : decoded env text = (loads env.python.floats (replace close_quote [] 0
      (replace quote_open [] 0 text))).getD
        (.str (replace close_quote [] 0 (replace quote_open [] 0 text))) := rfl
  have hprinted (old text : Str) (h : ∀ d ∈ text, Printed d) :
      ∀ d ∈ replace old [] 0 text, Printed d := by
    have hnone : text.countP (fun d => ¬ Printed d) = 0 := by simpa [List.countP_eq_zero] using h
    have hle := hkept (fun d => ¬ Printed d) old text
    rw [hnone, Nat.le_zero, List.countP_eq_zero] at hle
    simpa using hle
  have hdumps : ∀ d ∈ dumps env.python.floats true v, Printed d :=
    printed_dumps (hv.imp (fun s hs => hs.bound) fun _ hx => hx)
  constructor
  · intro heq
    rw [hdecoded] at heq
    have hno : ¬ quote_open <:+: dumps env.python.floats true v := by
      intro hinfix
      have hlost (P : Nat → Bool) := countP_replace_of_infix P hopen hinfix
      refine not_text_of_lost hv (c := '('.toNat) (by decide +kernel)
        (hprinted _ _ (hprinted _ _ hdumps)) ?_ ?_ heq
      · have hone : quote_open.countP heavy = 1 := by decide +kernel
        have hle := hkept heavy close_quote
            (replace quote_open [] 0 (dumps env.python.floats true v))
        have hlt := hlost heavy
        unfold weight
        omega
      · have hone : quote_open.countP (· = '('.toNat) = 1 := by decide +kernel
        have hle := hkept (· = '('.toNat) close_quote
            (replace quote_open [] 0 (dumps env.python.floats true v))
        have hlt := hlost (· = '('.toNat)
        omega
    refine ⟨hno, fun hinfix => ?_⟩
    have hlost (P : Nat → Bool) := countP_replace_of_infix P hclose hinfix
    rw [replace_eq_self hno] at heq
    refine not_text_of_lost hv (c := ')'.toNat) (by decide +kernel) (hprinted _ _ hdumps) ?_ ?_ heq
    · have hone : close_quote.countP heavy = 1 := by decide +kernel
      have hlt := hlost heavy
      unfold weight
      omega
    · have hone : close_quote.countP (· = ')'.toNat) = 1 := by decide +kernel
      have hlt := hlost (· = ')'.toNat)
      omega
  · rintro ⟨hno, hno'⟩
    rw [hdecoded, replace_eq_self hno, replace_eq_self hno', loads_dumps
      (hv.imp (fun s hs => ?_) fun _ hx => hx)]
    · rfl
    · exact readable_of_proper fun _ => hs

end

/-! ### The row that is stored -/

section
variable {db db' : Db F} {entry : Entry} {v : Value F}

theorem find_row {r : Row F} (hunique : ∀ q ∈ db, q.entry = r.entry → q = r) (hmem : r ∈ db)
    (hactive : r.is_active = true) : db.row r.entry = some r := by
  cases hfind : db.row r.entry with
  | none => exact absurd (List.find?_eq_none.mp hfind r hmem) (by simp [hactive])
  | some q =>
      have hq : q.is_active = true ∧ q.entry = r.entry := by simpa using List.find?_some hfind
      rw [hunique q (List.mem_of_find?_eq_some hfind) hq.2]

/-- The row that was put is the only one of its entry. -/
theorem row_of_put {r : Row F} (h : db.put r = some db') (hactive : r.is_active = true) :
    db'.row r.entry = some r := by
  rw [Db.put] at h
  split_ifs at h with hother hsame
  -- the rows of the entry are the row itself
  · have hunique : ∀ q ∈ db', q.entry = r.entry → q = r := by
      cases h
      intro q hq hentry
      obtain ⟨q', hq', heq⟩ := List.mem_map.mp hq
      by_cases hs : q'.Same r
      · rw [if_pos hs] at heq
        exact heq.symm
      · rw [if_neg hs] at heq
        subst heq
        exact absurd (List.any_eq_true.mpr ⟨q', hq', decide_eq_true ⟨hentry, hs⟩⟩) hother
    have hmem : r ∈ db' := by
      cases h
      obtain ⟨q, hq, hs⟩ := List.any_eq_true.mp hsame
      exact List.mem_map.mpr ⟨q, hq, if_pos (of_decide_eq_true hs)⟩
    exact find_row hunique hmem hactive
  · have hunique : ∀ q ∈ db', q.entry = r.entry → q = r := by
      cases h
      intro q hq hentry
      rcases List.mem_append.mp hq with hq | hq
      · have hs : q.Same r := by
          by_contra hs
          exact hother (List.any_eq_true.mpr ⟨q, hq, decide_eq_true ⟨hentry, hs⟩⟩)
        exact absurd (List.any_eq_true.mpr ⟨q, hq, decide_eq_true hs⟩) hsame
      · exact List.mem_singleton.mp hq
    have hmem : r ∈ db' := by
      cases h
      simp
    exact find_row hunique hmem hactive

/-- **What is stored is the row** of the key, and active. -/
theorem row_of_set_value (h : (Edit.set_value entry v (some true) none).apply db = some db') :
    ∃ r, db'.row entry = some r ∧ r.entry = entry ∧ r.value = v := by
  rw [Edit.apply] at h
  split at h
  · next r hr =>
    have hentry : r.entry = entry := by simpa using List.find?_some hr
    subst hentry
    have hput := row_of_put h rfl
    exact ⟨_, hput, rfl, rfl⟩
  · have hput := row_of_put h rfl
    exact ⟨_, hput, rfl, rfl⟩

end

/-! ### The read that comes next -/

/-- No template syntax. -/
def NoSyntax (text : Str) : Prop :=
  ∀ opening ∈ [str "\x7b\x7b", str "\x7b%", str "\x7b#"], ¬ opening <:+: text

/-- A text without template syntax is rendered as it is. -/
def Env.RendersPlain (env : Env F) : Prop :=
  ∀ text, NoSyntax text → ∃ template, env.engine.parse text = .ok template ∧
  env.engine.nodelist template = [] ∧
    ∀ context, env.engine.render template context = .ok text

section
variable {env : Env F} {db : Db F} {text : Str} {model : Model}
  {sub : (c : Call F) → Option (Result c × List (Query F))}

theorem wp_rendered_plain (hengine : env.RendersPlain) (hplain : NoSyntax text) :
    Wp (answer env db) sub (rendered env model text) fun v => v = .str text := by
  by_cases hopened : Opened env db (model, text)
  · obtain ⟨template, htemplate, hnames, hrender⟩ := hengine text hplain
    have hvalues : Wp (answer env db) sub (upper_values env template).run fun r =>
        ∀ e, r = .error e → e = .other := by
      rw [upper_values, upper_keys, hnames]
      exact wp_ret.mpr (by simp)
    refine (wp_rendered_opened hopened).mpr
      ((wp_get_render_context_ok htemplate hvalues).imp fun r hr => ?_)
    rcases hr with rfl | ⟨context, rfl⟩
    · exact wp_ret.mpr rfl
    · rw [hrender]
      exact wp_ret.mpr rfl
  · exact (wp_rendered_closed hopened).mpr rfl

theorem wp_get_render_value_plain (hengine : env.RendersPlain) (hplain : NoSyntax text) :
    Wp (answer env db) sub (get_render_value_body env model text).run fun r =>
      r = .ok (decoded env text) := by
  refine wp_get_render_value_body.mpr ((wp_rendered_plain hengine hplain).imp fun v hv => ?_)
  subst hv
  rfl

/-- The calls that make no others. -/
def leaves (env : Env F) (db : Db F) : (c : Call F) → Option (Result c × List (Query F))
  | .get_data .. => none
  | .get_render_value model value =>
    (body env (.get_render_value model value)).eval (answer env db) fun _ => none

/-- **A read that the cache does not know** and that renders a plain text leaves the rest of the
cache alone. -/
theorem gets_of_leaves {cache : Cache F} {entry : Entry} {d : Value F}
    {post : Except Exc (Data F) → Prop}
    (hcache : cache.get (cache_key entry) = none)
    (h : Wp (answer env db) (leaves env db) (get_data_body env entry d).run post) :
    ∃ v cache', Gets env db cache (.get_data entry d true) v cache' ∧ post v := by
  obtain ⟨r, hr, hpost⟩ := h
  have hlookup : table.lookup cache (Call.get_data entry d true) = none := by
    simp only [table, hcache]
  have hsub (c : Call F) (v : Result c × List (Query F)) (hv : leaves env db c = some v) :
      Ask.serve table (body env) (answer env db) 1 c cache = some (v.1, cache) := by
    cases c with
    | get_data => cases hv
    | get_render_value model value =>
        exact serve_of_same (T := table) rfl (fun _ _ hnone => by cases hnone) hv
  exact ⟨r.1, _, ⟨2, serve_of_same hlookup hsub hr⟩, hpost⟩

end

section
variable {env : Env F} {db : Db F} {v : Value F} {key : Str} {s t : State F}

theorem value_of_true (x : Except Exc (Data F)) : value_of true x = x.map Data.value := by
  cases x with
  | error e => rfl
  | ok data => exact congrArg Except.ok (if_pos (.inl rfl))

/-- What a read returns that finds the data, of a plain text. -/
theorem returns_of_checked {cache : Cache F} {data : Data F} (hengine : env.RendersPlain)
    (hcache : cache.get (cache_key (.system key)) = none)
    (hdata : checked env db (.system key) = .ok data)
    (hplain : NoSyntax ((data.defaulted key .null).text env)) {x : Except Exc (Value F)} :
    Returns env db cache (.system key) .null true x ↔
      x = .ok (decoded env ((data.defaulted key .null).text env)) := by
  have hbody : Wp (answer env db) (leaves env db) (get_data_body env (.system key) .null).run
      fun r =>
      r.map Data.value = .ok (decoded env ((data.defaulted key .null).text env)) := by
    have hrender : Wp (answer env db) (fun _ => none)
        (get_render_value_body env .SystemConfig ((data.defaulted key .null).text env)).run fun r =>
          r = .ok (decoded env ((data.defaulted key .null).text env)) :=
      wp_get_render_value_plain hengine hplain
    obtain ⟨r, hr, hok⟩ := hrender
    refine (wp_get_data_body hdata).mpr ⟨r, hr, ?_⟩
    rw [hok]
    rfl
  obtain ⟨r, cache', hgets, hr⟩ := gets_of_leaves hcache hbody
  have hvalue : value_of true r = .ok (decoded env ((data.defaulted key .null).text env)) :=
    (value_of_true r).trans hr
  exact (returns_iff hgets x).trans (hvalue ▸ Iff.rfl)

/-- A read raises where the check of the key does. -/
theorem not_returns_of_checked {cache : Cache F}
    (hcache : cache.get (cache_key (.system key)) = none)
    (hdata : checked env db (.system key) = .error .other) :
    ¬ Returns env db cache (.system key) .null true (.ok v) := by
  have hbody : Wp (answer env db) (leaves env db) (get_data_body env (.system key) .null).run
      fun r =>
      r = .error .other := by
    refine (wp_get_data_body_error hdata).mpr ?_
    rfl
  obtain ⟨r, cache', hgets, rfl⟩ := gets_of_leaves hcache hbody
  rw [returns_iff hgets]
  intro heq
  cases heq

/-- The check of a key that has a row. -/
theorem checked_of_row {r : Row F} (hr : db.row (.system key) = some r)
    (hentry : r.entry = .system key) :
    checked env db (.system key) =
      (env.python.refers key (dumps env.python.floats true r.value)).elim (.error .other)
      fun same =>
        .ok ⟨if same then [] else key, r.value, r.access, r.inherit⟩ := by
  have hkey : r.entry.key = key := by rw [hentry, Entry.key]
  unfold checked
  rw [hr]
  simp only [serialized, hkey]
  refine congrArg _ (funext fun same => ?_)
  cases same
  all_goals rfl

/-- The check of a key finds nothing in the text of its value, or what is found makes no difference;
and no quote of the text is next to a parenthesis. -/
structure ComesBack (env : Env F) (key : Str) (v : Value F) : Prop where
  check : env.python.refers key (dumps env.python.floats true v) = some false ∨
    env.python.refers key (dumps env.python.floats true v) = some true ∧ (key = [] ∨ v = .dict [])
  opening : ¬ quote_open <:+: dumps env.python.floats true v
  closing : ¬ close_quote <:+: dumps env.python.floats true v

/-- An empty dict comes back. -/
theorem decoded_empty : decoded env (dumps env.python.floats true (.dict [])) = .dict [] := by
  have hof : Value.Of (F := F) Proper (fun _ => True) (.dict []) :=
    .dict List.nodup_nil (by simp) (by simp)
  have hopen : ¬ quote_open <:+: str "\x7b\x7d" := by decide +kernel
  have hclose : ¬ close_quote <:+: str "\x7b\x7d" := by decide +kernel
  exact (decoded_dumps_iff hof).mpr ⟨hopen, hclose⟩

theorem noSyntax_empty : NoSyntax (dumps env.python.floats true (.dict [])) := by
  have hall : ∀ opening ∈ [str "\x7b\x7b", str "\x7b%", str "\x7b#"],
      ¬ opening <:+: str "\x7b\x7d" := by
    decide +kernel
  exact hall

/-- **What a write leaves**: the row, and no entry of the key in the cache. -/
theorem row_of_set (hset : Step env s (.edit (.set_value (.system key) v (some true) none)) t) :
    ∃ r, t.db.row (.system key) = some r ∧ r.entry = .system key ∧ r.value = v ∧
      t.cache.get (cache_key (.system key)) = none := by
  obtain ⟨db, hdb, rfl⟩ := hset
  obtain ⟨r, hr, hentry, hvalue⟩ := row_of_set_value hdb
  refine ⟨r, hr, hentry, hvalue, ?_⟩
  cases hget : (s.cache.without _).get (cache_key (.system key)) with
  | none => rfl
  | some data => exact absurd (get_without hget).1 (by simp [Edit.clears])

/-- The value is read where its own key is not taken from it. -/
theorem returns_of_set (hengine : env.RendersPlain)
    (hplain : NoSyntax (dumps env.python.floats true v))
    (hset : Step env s (.edit (.set_value (.system key) v (some true) none)) t) {same : Bool}
    (hrefers : env.python.refers key (dumps env.python.floats true v) = some same)
    (hown : (if same then [] else key) = key) {x : Except Exc (Value F)} :
    Returns env t.db t.cache (.system key) .null true x ↔
      x = .ok (decoded env (dumps env.python.floats true v)) := by
  obtain ⟨r, hr, hentry, rfl, hcache⟩ := row_of_set hset
  have hdata : checked env t.db (.system key) = _ := checked_of_row hr hentry
  rw [hrefers] at hdata
  have htext : (Data.defaulted ⟨if same then [] else key, r.value, r.access, r.inherit⟩ key
      .null).text env =
      dumps env.python.floats true r.value := by
    rw [Data.defaulted, if_pos hown, Data.text]
  have hreturns := returns_of_checked hengine hcache hdata (htext ▸ hplain) (x := x)
  rwa [htext] at hreturns

/-- An empty dict is read where its own key is taken from it. -/
theorem returns_empty_of_set (hengine : env.RendersPlain)
    (hset : Step env s (.edit (.set_value (.system key) v (some true) none)) t)
    (hrefers : env.python.refers key (dumps env.python.floats true v) = some true) (hkey : key ≠ [])
    {x : Except Exc (Value F)} :
    Returns env t.db t.cache (.system key) .null true x ↔ x = .ok (.dict []) := by
  obtain ⟨r, hr, hentry, rfl, hcache⟩ := row_of_set hset
  have hdata : checked env t.db (.system key) = _ := checked_of_row hr hentry
  rw [hrefers, Option.elim_some, if_pos rfl] at hdata
  have htext : (Data.defaulted ⟨[], r.value, r.access, r.inherit⟩ key .null).text env =
      dumps env.python.floats true (.dict []) := by
    rw [Data.defaulted, if_neg hkey.symm, Data.text]
    rfl
  have hreturns := returns_of_checked hengine hcache hdata (htext ▸ noSyntax_empty) (x := x)
  rwa [htext, decoded_empty] at hreturns

/-- **A value that was stored is read** if and only if it comes back. -/
theorem set_value_iff (hengine : env.RendersPlain) (hv : v.Of Proper fun _ => True)
    (hplain : NoSyntax (dumps env.python.floats true v))
    (hset : Step env s (.edit (.set_value (.system key) v (some true) none)) t) :
    Returns env t.db t.cache (.system key) .null true (.ok v) ↔ ComesBack env key v := by
  have hback : decoded env (dumps env.python.floats true v) = v ↔ _ := decoded_dumps_iff hv
  cases hrefers : env.python.refers key (dumps env.python.floats true v) with
  | none =>
      obtain ⟨r, hr, hentry, rfl, hcache⟩ := row_of_set hset
      have hdata : checked env t.db (.system key) = _ := checked_of_row hr hentry
      rw [hrefers] at hdata
      refine iff_of_false (not_returns_of_checked hcache hdata) fun h => ?_
      rcases h.check with hcheck | ⟨hcheck, -⟩
      · rw [hrefers] at hcheck
        cases hcheck
      · rw [hrefers] at hcheck
        cases hcheck
  | some same =>
      by_cases hown : (if same then [] else key) = key
      · rw [returns_of_set hengine hplain hset hrefers hown, Except.ok.injEq, eq_comm, hback]
        constructor
        · rintro ⟨hopening, hclosing⟩
          refine ⟨?_, hopening, hclosing⟩
          cases same with
          | false => exact .inl hrefers
          | true => exact .inr ⟨hrefers, .inl hown.symm⟩
        · exact fun h => ⟨h.opening, h.closing⟩
      · obtain ⟨rfl, hkey⟩ : same = true ∧ key ≠ [] := by
          cases same with
          | false => exact absurd rfl hown
          | true => exact ⟨rfl, fun hkey => hown hkey.symm⟩
        rw [returns_empty_of_set hengine hset hrefers hkey, Except.ok.injEq]
        constructor
        · intro heq
          obtain ⟨hopening, hclosing⟩ := hback.mp (heq ▸ decoded_empty)
          exact ⟨.inr ⟨hrefers, .inr heq⟩, hopening, hclosing⟩
        · intro h
          rcases h.check with hcheck | ⟨-, hempty | heq⟩
          · rw [hrefers] at hcheck
            cases hcheck
          · exact absurd hempty hkey
          · exact heq

end

/-! ### Fixed values -/

theorem sampleEnv_rendersPlain : sampleEnv.RendersPlain := fun text _ =>
  ⟨text, rfl, rfl, fun _ => rfl⟩

theorem set_value_iff_region :
    ∃ t, Step sampleEnv ⟨[], .empty, fun _ => .null⟩
        (.edit (.set_value (.system (str "REGION")) (.str (str "EU")) (some true) none)) t ∧
      (Returns sampleEnv t.db t.cache (.system (str "REGION")) .null true (.ok (.str (str "EU"))) ↔
        ComesBack sampleEnv (str "REGION") (.str (str "EU"))) := by
  have hplain : NoSyntax (dumps sampleEnv.python.floats true (.str (str "EU"))) := by
    unfold NoSyntax
    decide +kernel
  have hproper : Proper (str "EU") := ⟨by decide +kernel, by decide +kernel⟩
  have hset : Step sampleEnv ⟨[], .empty, fun _ => .null⟩
      (.edit (.set_value (.system (str "REGION")) (.str (str "EU")) (some true) none)) _ :=
        ⟨_, rfl, rfl⟩
  exact ⟨_, hset, set_value_iff sampleEnv_rendersPlain (.str hproper) hplain hset⟩

/-- **A text in parentheses loses them**, and is no text of a string any more. -/
theorem parentheses_are_lost :
    ¬ ∀ (env : Env Unit) (key : Str) (v : Value Unit) (s t : State Unit), env.RendersPlain →
      v.Of Proper (fun _ => True) → NoSyntax (dumps env.python.floats true v) →
      Step env s (.edit (.set_value (.system key) v (some true) none)) t →
        Returns env t.db t.cache (.system key) .null true (.ok v) := by
  intro hall
  let v : Value Unit := .str (str "(EU)")
  have hplain : NoSyntax (dumps sampleEnv.python.floats true v) := by
    unfold NoSyntax
    decide +kernel
  have hproper : v.Of Proper fun _ => True := .str ⟨by decide +kernel, by decide +kernel⟩
  have hset : Step sampleEnv ⟨[], .empty, fun _ => .null⟩
      (.edit (.set_value (.system (str "REGION")) v (some true) none)) _ := ⟨_, rfl, rfl⟩
  have hreturns := hall sampleEnv (str "REGION") v _ _ sampleEnv_rendersPlain hproper hplain hset
  have hrefers : sampleEnv.python.refers (str "REGION") (dumps sampleEnv.python.floats true v) =
      some false := by
    decide +kernel
  have heq := Except.ok.inj
      ((returns_of_set sampleEnv_rendersPlain hplain hset hrefers rfl).mp hreturns)
  have hopening : quote_open <:+: dumps sampleEnv.python.floats true v :=
    ⟨[], str "EU)\"", by decide +kernel⟩
  exact ((decoded_dumps_iff hproper).mp heq.symm).1 hopening

end InfraHub.Config
