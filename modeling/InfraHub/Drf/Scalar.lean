import InfraHub.Drf.Cells

/-!
# Drf — Scalar

Whether a scalar cell survives export and import.

Every quote of a cell becomes a double quote before anything is parsed, also within JSON that was just
dumped; a text in brackets is parsed as JSON and dumped again; and a dash stands for null.
`survives_iff`: a value comes back if and only if none of this can do it harm.
-/

namespace InfraHub.Cells
open InfraHub.Lib (Str str)
open InfraHub.Lib.Json

variable {F : Type}

/-! ### The statement -/

/-- The code points of Python. -/
def Bounded (s : Str) : Prop := ∀ c ∈ s, c < 0x110000

/-- What the field can hold: any text, any JSON value, or null where it is allowed. -/
inductive Holds (fl : Floats F) : Field → Value F → Prop
  | null {field : Field} (h : field.allow_null) : Holds fl field .null
  | boolean (allow_null : Bool) (b : Bool) : Holds fl (.BooleanField allow_null) (.bool b)
  | char (allow_null : Bool) {s : Str} (h : Bounded s) : Holds fl (.CharField allow_null) (.str s)
  | json (allow_null : Bool) {v : Value F} (h : v.Of Proper fl.Finite) (hne : v ≠ .null) :
      Holds fl (.JSONField allow_null) v

/-- **The condition.**  A text is not the dash of a field that may be null, has no quotes but the double
ones, and in brackets is no JSON, or is written as `json.dumps` writes it.  JSON has no apostrophe in a
string or a key. -/
def Kept (fl : Floats F) : Field → Value F → Prop
  | .CharField allow_null, .str s =>
    ¬ (s = str "-" ∧ allow_null) ∧ (∀ c ∈ s, c ∉ quotes) ∧
      (bracketed s → loads fl s = none ∨
        ∃ w : Value F, w.Of Proper (fun _ => True) ∧ s = dumps fl true w)
  | .JSONField _, v => v.Of (apostrophe ∉ ·) fun _ => True
  | _, _ => True

/-! ### Quotes -/

section
variable {s : Str} {c : Nat}

theorem replace_eq_self_iff : replace_chinese_quote s = s ↔ ∀ c ∈ s, c ∉ quotes := by
  have hquote : dquote ∉ quotes := by decide
  constructor
  · intro h c hc hmem
    rw [← h, replace_chinese_quote] at hc
    obtain ⟨d, -, rfl⟩ := List.mem_map.mp hc
    split_ifs at hmem with hd
    · exact hquote hmem
    · exact hd hmem
  · intro h
    refine (List.map_congr_left fun c hc => ?_).trans (List.map_id s)
    exact if_neg (h c hc)

theorem apostrophe_notMem_replace (s : Str) : apostrophe ∉ replace_chinese_quote s := by
  intro hmem
  obtain ⟨c, -, hc⟩ := List.mem_map.mp hmem
  split_ifs at hc with hquote
  · exact absurd hc (by decide)
  · exact hquote (hc ▸ by decide)

theorem replace_append (a b : Str) :
    replace_chinese_quote (a ++ b) = replace_chinese_quote a ++ replace_chinese_quote b :=
  List.map_append

theorem not_quote_of_ascii (h : c < 0x80) (hc : c ≠ apostrophe) : c ∉ quotes := by
  simp only [quotes, List.mem_cons, List.not_mem_nil, or_false]
  omega

theorem not_quotes_of_plain (h : ∀ c ∈ s, Plain c) : ∀ c ∈ s, c ∉ quotes :=
  fun c hc => not_quote_of_ascii (h c hc).1 (h c hc).2.2

theorem clean_replace_escape (hc : c < 0x110000) : Clean (replace_chinese_quote (escape true c)) := by
  by_cases happ : c = apostrophe
  · subst happ
    exact .raw (by decide) (by decide) .nil
  · have hsame : replace_chinese_quote (escape true c) = escape true c := by
      refine replace_eq_self_iff.mpr fun d hd => ?_
      rcases mem_escape (fun _ => hc) hd with ⟨rfl, hlt⟩ | ⟨hlt, hne⟩
      · exact not_quote_of_ascii (hlt rfl) happ
      · exact not_quote_of_ascii hlt hne
    rw [hsame]
    exact clean_escape happ fun _ => hc

theorem clean_replace_flatMap (h : Bounded s) :
    Clean (replace_chinese_quote (s.flatMap (escape true))) := by
  induction s with
  | nil => exact .nil
  | cons c s ih =>
      obtain ⟨hc, hs⟩ := List.forall_mem_cons.mp h
      rw [List.flatMap_cons, replace_append]
      exact (clean_replace_escape hc).append (ih hs)

variable {fl : Floats F} {v w : Value F} {P : F → Prop}

variable (fl)

/-- **Dumped JSON is clean when its quotes are replaced**: no apostrophe is read from it. -/
theorem clean_replace_dumps (h : v.Of Bounded P) : Clean (replace_chinese_quote (dumps fl true v)) := by
  refine dumps_built (I := fun s => Clean (replace_chinese_quote s)) (fun s hs => ?_) (fun a b ha hb => ?_)
    (h.imp (fun s hs => ?_) fun _ hx => hx)
  · rw [replace_eq_self_iff.mpr (not_quotes_of_plain fun c hc => (hs c hc).1)]
    exact clean_of_notMem (fun hmem => (hs _ hmem).1.2.1 rfl) fun hmem => (hs _ hmem).1.2.2 rfl
  · rw [replace_append]
    exact ha.append hb
  · have hquote : Clean (replace_chinese_quote [dquote]) := .raw (by decide) (by decide) .nil
    rw [quoted, ← List.singleton_append, replace_append, replace_append]
    exact (hquote.append (clean_replace_flatMap hs)).append hquote

theorem ascii_dumps (h : v.Of Bounded P) : ∀ c ∈ dumps fl true v, c < 0x80 := by
  refine mem_dumps (fun _ hc _ => hc) (h.imp (fun s hs c hc => ?_) fun _ hx => hx)
  exact ⟨fun _ => hs c hc, fun hlt => hlt rfl⟩

theorem replace_dumps (h : v.Of Bounded P) (happ : v.Of (apostrophe ∉ ·) fun _ => True) :
    replace_chinese_quote (dumps fl true v) = dumps fl true v := by
  refine replace_eq_self_iff.mpr (mem_dumps (fun _ => not_quote_of_ascii)
    ((h.and happ).imp (fun s hs c hc => ?_) fun _ hx => hx))
  refine ⟨fun _ => hs.1 c hc, fun hlt => not_quote_of_ascii (hlt rfl) fun heq => ?_⟩
  exact hs.2 (heq ▸ hc)

end

/-! ### A cell -/

section
variable {py : Python F} {fl : Floats F} {field : Field} {v w : Value F} {s : Str} {Q : Str → Prop}

theorem read_back_of_render (h : render_value py field v = some s) :
    read_back py field v = parse_value py field (load_col py s) := by
  simp [read_back, h, load_row]

theorem finite_of (h : v.Of Q fl.Finite) : finite fl v = true := by
  induction h with
  | null | bool | int | str => rfl
  | float hx => exact decide_eq_true hx
  | list _ ih =>
      rw [finite, finiteItems_eq]
      exact List.all_eq_true.mpr ih
  | dict _ _ _ ih =>
      rw [finite, finitePairs_eq]
      exact List.all_eq_true.mpr ih

theorem render_json (allow_null : Bool) (h : v.Of Q py.floats.Finite) (hne : v ≠ .null) :
    render_value py (.JSONField allow_null) v = some (dumps py.floats true v) := by
  have hrender : render_value py (.JSONField allow_null) v = strict_dumps py.floats true v := by
    cases v with
    | null => exact absurd rfl hne
    | _ => rfl
  rw [hrender, strict_dumps, if_pos (finite_of h)]

/-- **What is loaded**: JSON in brackets, or the text with its quotes replaced. -/
theorem load_col_cases (py : Python F) (s : Str) :
    (bracketed (replace_chinese_quote s) ∧
      loads py.floats (replace_chinese_quote s) = some (load_col py s)) ∨
    (bracketed (replace_chinese_quote s) → loads py.floats (replace_chinese_quote s) = none) ∧
      load_col py s = .str (replace_chinese_quote s) := by
  rw [load_col]
  by_cases hs : bracketed (replace_chinese_quote s)
  · cases hloads : loads py.floats (replace_chinese_quote s) with
    | none => exact .inr ⟨fun _ => rfl, by simp [hs]⟩
    | some w => exact .inl ⟨hs, by simp [hs]⟩
  · exact .inr ⟨fun h => absurd h hs, by simp [hs]⟩

/-- JSON in brackets is a list or a dict. -/
theorem container_of_loads (hs : bracketed s) (h : loads fl s = some w) :
    (∃ items, w = .list items) ∨ ∃ items, w = .dict items := by
  obtain ⟨⟨w', rest⟩, hscan, hw⟩ := Option.bind_eq_some_iff.mp h
  obtain ⟨-, hw⟩ := Option.ite_none_right_eq_some.mp hw
  obtain rfl : w' = w := Option.some.inj hw
  simp only [bracketed, decide_eq_true_eq] at hs
  cases s with
  | nil => simp at hs
  | cons c t =>
      rcases hs with ⟨hc, -⟩ | ⟨hc, -⟩
      · obtain rfl : c = '['.toNat := Option.some.inj hc
        rw [skip_cons rfl, scan_once, if_neg (by decide), if_pos rfl] at hscan
        obtain ⟨p, -, hp⟩ := Option.map_eq_some_iff.mp hscan
        exact .inl ⟨p.1, (congrArg Prod.fst hp).symm⟩
      · obtain rfl : c = '{'.toNat := Option.some.inj hc
        rw [skip_cons rfl, scan_once, if_neg (by decide), if_neg (by decide), if_pos rfl] at hscan
        obtain ⟨p, -, hp⟩ := Option.map_eq_some_iff.mp hscan
        exact .inr ⟨_, (congrArg Prod.fst hp).symm⟩

theorem parse_container {allow_null : Bool} (h : (∃ items, w = .list items) ∨ ∃ items, w = .dict items) :
    parse_value py (.JSONField allow_null) w = some w ∧
      parse_value py (.CharField allow_null) w = some (.str (dumps py.floats true w)) := by
  rcases h with ⟨items, rfl⟩ | ⟨items, rfl⟩
  · exact ⟨rfl, rfl⟩
  · exact ⟨rfl, rfl⟩

theorem parse_char (allow_null : Bool) (s : Str) : parse_value py (.CharField allow_null) (.str s) =
    some (if s = str "-" ∧ allow_null then .null else .str s) := by
  by_cases h : s = str "-" ∧ allow_null = true
  · rw [if_pos h, parse_value, if_pos ⟨decide_eq_true h.1, h.2⟩]
  · rw [if_neg h, parse_value, if_neg fun hdash => h ⟨of_decide_eq_true hdash.1, hdash.2⟩]

/-- The words that mean something else are no JSON. -/
theorem loads_word (h : s = str "-" ∨ lower s = str "yes" ∨ lower s = str "no") : loads fl s = none := by
  have hletter {c d : Nat} (hc : (if 'A'.toNat ≤ c ∧ c ≤ 'Z'.toNat then c + 0x20 else c) = d + 0x20) :
      c = d + 0x20 ∨ c = d := by
    split_ifs at hc <;> omega
  rcases h with rfl | h | h
  · rfl
  · have hyes : str "yes" = [0x59 + 0x20, 0x45 + 0x20, 0x53 + 0x20] := by decide +kernel
    rw [hyes, lower] at h
    obtain ⟨a, s, rfl, ha, h⟩ := List.map_eq_cons_iff.mp h
    obtain ⟨b, s, rfl, hb, h⟩ := List.map_eq_cons_iff.mp h
    obtain ⟨c, s, rfl, hc, h⟩ := List.map_eq_cons_iff.mp h
    obtain rfl := List.map_eq_nil_iff.mp h
    rcases hletter ha with rfl | rfl <;> rcases hletter hb with rfl | rfl <;>
      rcases hletter hc with rfl | rfl <;> rfl
  · have hno : str "no" = [0x4e + 0x20, 0x4f + 0x20] := by decide +kernel
    rw [hno, lower] at h
    obtain ⟨a, s, rfl, ha, h⟩ := List.map_eq_cons_iff.mp h
    obtain ⟨b, s, rfl, hb, h⟩ := List.map_eq_cons_iff.mp h
    obtain rfl := List.map_eq_nil_iff.mp h
    rcases hletter ha with rfl | rfl <;> rcases hletter hb with rfl | rfl <;> rfl

variable (py) in
/-- A text that is left is parsed as JSON, unless it is one of the words. -/
theorem parse_json (allow_null : Bool) (s : Str) :
    (∃ b : Bool, parse_value py (.JSONField allow_null) (.str s) = some (.bool b)) ∧
        loads py.floats s = none ∨
      parse_value py (.JSONField allow_null) (.str s) = some .null ∧ loads py.floats s = none ∨
      parse_value py (.JSONField allow_null) (.str s) = some ((loads py.floats s).getD (.str s)) := by
  rw [parse_value]
  by_cases hdash : is_text (str "-") (.str s : Value F) ∧ (Field.JSONField allow_null).allow_null
  · exact .inr (.inl ⟨if_pos hdash, loads_word (.inl (of_decide_eq_true hdash.1))⟩)
  · rw [if_neg hdash]
    by_cases hyes : lower s = str "yes"
    · exact .inl ⟨⟨true, if_pos hyes⟩, loads_word (.inr (.inl hyes))⟩
    · rw [if_neg hyes]
      by_cases hno : lower s = str "no"
      · exact .inl ⟨⟨false, if_pos hno⟩, loads_word (.inr (.inr hno))⟩
      · exact .inr (.inr (if_neg hno))

theorem render_null (field : Field) : render_value py field .null = some (str "-") := by
  cases field <;> rfl

/-- **JSON survives** without apostrophes. -/
theorem json_survives_iff (allow_null : Bool) (h : v.Of Proper py.floats.Finite) (hne : v ≠ .null) :
    read_back py (.JSONField allow_null) v = some v ↔ v.Of (apostrophe ∉ ·) fun _ => True := by
  have hbound := h.imp (fun _ hs => hs.bound) fun _ hx => hx
  rw [read_back_of_render (render_json allow_null h hne)]
  constructor
  · intro hread
    have hclean := clean_replace_dumps py.floats hbound
    rcases load_col_cases py (dumps py.floats true v) with ⟨hs, hloads⟩ | ⟨-, hload⟩
    · rw [(parse_container (container_of_loads hs hloads)).1] at hread
      exact Option.some.inj hread ▸ loads_of known_clean hloads hclean
    · rw [hload] at hread
      rcases parse_json py allow_null (replace_chinese_quote (dumps py.floats true v)) with
        ⟨⟨b, hparse⟩, -⟩ | ⟨hparse, -⟩ | hparse
      · rw [hparse] at hread
        exact Option.some.inj hread ▸ .bool b
      · rw [hparse] at hread
        exact Option.some.inj hread ▸ .null
      · rw [hparse] at hread
        cases hloads : loads py.floats (replace_chinese_quote (dumps py.floats true v)) with
        | none =>
            rw [hloads] at hread
            exact Option.some.inj hread ▸ .str (apostrophe_notMem_replace _)
        | some w =>
            rw [hloads] at hread
            exact Option.some.inj hread ▸ loads_of known_clean hloads hclean
  · intro happ
    have hsame := replace_dumps py.floats hbound happ
    have hread : loads py.floats (dumps py.floats true v) = some v :=
      loads_dumps (h.imp (fun _ hs => readable_of_proper fun _ => hs) fun _ hx => hx)
    rcases load_col_cases py (dumps py.floats true v) with ⟨hs, hloads⟩ | ⟨-, hload⟩
    · rw [hsame] at hs hloads
      rw [Option.some.inj (hloads.symm.trans hread)]
      exact (parse_container (container_of_loads hs hread)).1
    · rw [hload, hsame]
      rcases parse_json py allow_null (dumps py.floats true v) with
        ⟨-, hnone⟩ | ⟨-, hnone⟩ | hparse
      · exact nomatch hnone.symm.trans hread
      · exact nomatch hnone.symm.trans hread
      · rw [hparse, hread]
        rfl

/-- **A text survives** where nothing is replaced and nothing is dumped in another way. -/
theorem char_survives_iff (allow_null : Bool) (h : Bounded s) :
    read_back py (.CharField allow_null) (.str s) = some (.str s) ↔
      Kept py.floats (.CharField allow_null) (.str s) := by
  have hrender : render_value py (.CharField allow_null) (.str s) = some s := rfl
  rw [read_back_of_render hrender]
  rcases load_col_cases py s with ⟨hs, hloads⟩ | ⟨hnone, hload⟩
  · rw [(parse_container (container_of_loads hs hloads)).2, Option.some.injEq, Value.str.injEq]
    constructor
    · intro hdumps
      have hreplaced : Bounded (replace_chinese_quote s) := by
        refine List.forall_mem_map.mpr fun c hc => ?_
        split_ifs
        · decide
        · exact h c hc
      have hbound := loads_of known_bound hloads hreplaced
      have hclean := clean_replace_dumps py.floats hbound
      rw [hdumps] at hclean
      have hsame := replace_dumps py.floats hbound (loads_of known_clean hloads hclean)
      have hascii := ascii_dumps py.floats hbound
      rw [hdumps] at hsame hascii
      rw [hsame] at hs hloads
      refine ⟨?_, replace_eq_self_iff.mp hsame, fun _ => .inr ⟨_, loads_of known_ascii hloads hascii, hdumps.symm⟩⟩
      rintro ⟨rfl, -⟩
      exact absurd hs (by decide)
    · rintro ⟨-, hquotes, hjson⟩
      rw [replace_eq_self_iff.mpr hquotes] at hs hloads
      rcases hjson hs with hnone | ⟨w, hw, hdumps⟩
      · exact nomatch hnone.symm.trans hloads
      · have hread : loads py.floats (dumps py.floats true w) = some w :=
          loads_dumps (hw.imp (fun _ hs => readable_of_proper fun _ => hs) fun _ hx => hx)
        rw [← hdumps] at hread
        rw [Option.some.inj (hloads.symm.trans hread), ← hdumps]
  · rw [hload, parse_char, Option.some.injEq]
    constructor
    · intro hread
      split_ifs at hread with hdash
      have hsame : replace_chinese_quote s = s := Value.str.inj hread
      rw [hsame] at hdash hnone
      exact ⟨hdash, replace_eq_self_iff.mp hsame, fun hs => .inl (hnone hs)⟩
    · rintro ⟨hdash, hquotes, -⟩
      rw [replace_eq_self_iff.mpr hquotes, if_neg hdash]

/-- **A scalar cell survives export and import if and only if nothing in it is taken for something
else.** -/
theorem survives_iff (h : Holds py.floats field v) :
    read_back py field v = some v ↔ Kept py.floats field v := by
  cases h with
  | null hnull =>
      have hkept : Kept py.floats field .null := by
        cases field with
        | JSONField => exact .null
        | _ => trivial
      have hdash : load_col py (str "-") = .str (str "-") := rfl
      have hsame : is_text (str "-") (.str (str "-") : Value F) := by simp [is_text]
      rw [read_back_of_render (render_null field), hdash, parse_value.eq_def, if_pos ⟨hsame, hnull⟩]
      exact iff_of_true rfl hkept
  | boolean allow_null b =>
      refine iff_of_true ?_ trivial
      cases b <;> rfl
  | char allow_null hbound => exact char_survives_iff allow_null hbound
  | json allow_null hjson hne => exact json_survives_iff allow_null hjson hne

end

/-! ### Cells that are lost -/

/-- Floats without numbers. -/
def samplePython : Python Unit where
  floats := ⟨fun _ => (), fun _ => str "NaN", fun _ => rfl, Lib.Json.shape_nan⟩
  nonzero := fun _ => true
  repr := fun _ => []

def sampleJson : Value Unit := .dict [(str "ports", .list [.int 22, .str (str "a \"b\"")])]

theorem survives_iff_json : read_back samplePython (.JSONField true) sampleJson = some sampleJson := by
  have hstrings {Q : Str → Prop} {P : Unit → Prop} (hkey : Q (str "ports")) (htext : Q (str "a \"b\"")) :
      sampleJson.Of Q P := by
    have hlist : (Value.list [.int 22, .str (str "a \"b\"")] : Value Unit).Of Q P := by
      refine .list fun v hv => ?_
      simp only [List.mem_cons, List.not_mem_nil, or_false] at hv
      rcases hv with rfl | rfl
      · exact .int 22
      · exact .str htext
    exact .dict (by decide) (by simpa using hkey) (by simpa using hlist)
  have hproper := hstrings (P := samplePython.floats.Finite) (Q := Proper)
    ⟨by decide +kernel, by decide +kernel⟩ ⟨by decide +kernel, by decide +kernel⟩
  exact (survives_iff (.json true hproper nofun)).mpr (hstrings (by decide +kernel) (by decide +kernel))

theorem eq_of_is_text {v : Value F} {s : Str} (h : is_text s v) : v = .str s := by
  cases v with
  | str t => rw [of_decide_eq_true h]
  | _ => cases h

/-- **An apostrophe is lost**, and so is a list that is written without spaces. -/
theorem text_is_lost :
    (Holds samplePython.floats (.CharField false) (.str (str "it\x27s")) ∧
      read_back samplePython (.CharField false) (.str (str "it\x27s")) = some (.str (str "it\"s")) ∧
      str "it\"s" ≠ str "it\x27s") ∧
    Holds samplePython.floats (.CharField false) (.str (str "[1,2]")) ∧
      read_back samplePython (.CharField false) (.str (str "[1,2]")) = some (.str (str "[1, 2]")) ∧
      str "[1, 2]" ≠ str "[1,2]" := by
  have hread : (read_back samplePython (.CharField false) (.str (str "it\x27s"))).any
        (is_text (str "it\"s")) ∧
      (read_back samplePython (.CharField false) (.str (str "[1,2]"))).any (is_text (str "[1, 2]")) := by
    decide +kernel
  obtain ⟨v, hv, htext⟩ := (Option.any_eq_true _ _).mp hread.1
  obtain ⟨w, hw, htext'⟩ := (Option.any_eq_true _ _).mp hread.2
  have hbound : (∀ c ∈ str "it\x27s", c < 0x110000) ∧ ∀ c ∈ str "[1,2]", c < 0x110000 := by
    decide +kernel
  exact ⟨⟨.char false hbound.1, eq_of_is_text htext ▸ hv, by decide +kernel⟩, .char false hbound.2,
    eq_of_is_text htext' ▸ hw, by decide +kernel⟩

end InfraHub.Cells
