import InfraHub.Lib.Dict
import InfraHub.Lib.Token

/-!
# Library — Json

JSON values and their texts, as Python's `json.dumps` writes and `json.loads` reads them.

* `Value` keeps the order of a dictionary's keys; `Value.Of Q P` says that the keys are distinct, that `Q`
  holds of all strings and `P` of all floats.
* `Floats` is what a type of floating-point numbers has to offer: its texts are numbers, and they are read back.
* `loads_dumps`: what was written is read.  `loads_of`: what is read from ASCII is `Proper`, and has no
  apostrophe if the text has none.  `scan_once_fuel`: the length of the text is enough fuel.
-/

namespace InfraHub.Lib.Json

inductive Value (F : Type) where
  | null
  | bool (b : Bool)
  | int (n : Int)
  | float (x : F)
  | str (s : Str)
  | list (items : List (Value F))
  | dict (items : List (Str × Value F))

/-- The names of the floats that are not finite. -/
def nonfinite : List Str := [str "NaN", str "Infinity", str "-Infinity"]

/-- `float(text)`, and the text that is written for a float. -/
structure Floats (F : Type) where
  float : Str → F
  repr : F → Str
  float_repr : ∀ x, float (repr x) = x
  shape : ∀ x, repr x ∈ nonfinite ∨ number (repr x) = some (.float (repr x), [])

/-- One that is always written `NaN`. -/
theorem shape_nan (_ : Unit) :
    str "NaN" ∈ nonfinite ∨ number (str "NaN") = some (.float (str "NaN"), []) := .inl (by decide)

def Floats.Finite {F : Type} (fl : Floats F) (x : F) : Prop := fl.repr x ∉ nonfinite

variable {F : Type}

/-- The strings and the floats of a value; its keys are distinct. -/
inductive Value.Of (Q : Str → Prop) (P : F → Prop) : Value F → Prop
  | null : Value.Of Q P .null
  | bool (b : Bool) : Value.Of Q P (.bool b)
  | int (n : Int) : Value.Of Q P (.int n)
  | float {x : F} (h : P x) : Value.Of Q P (.float x)
  | str {s : Str} (h : Q s) : Value.Of Q P (.str s)
  | list {items : List (Value F)} (h : ∀ v ∈ items, Value.Of Q P v) : Value.Of Q P (.list items)
  | dict {items : List (Str × Value F)} (hkeys : (items.map Prod.fst).Nodup) (hnames : ∀ item ∈ items, Q item.1)
      (h : ∀ item ∈ items, Value.Of Q P item.2) : Value.Of Q P (.dict items)

theorem Value.Of.imp {Q Q' : Str → Prop} {P P' : F → Prop} {v : Value F} (h : v.Of Q P)
    (hQ : ∀ s, Q s → Q' s) (hP : ∀ x, P x → P' x) : v.Of Q' P' := by
  induction h with
  | null => exact .null
  | bool b => exact .bool b
  | int n => exact .int n
  | float h => exact .float (hP _ h)
  | str h => exact .str (hQ _ h)
  | list _ ih => exact .list ih
  | dict hkeys hnames _ ih => exact .dict hkeys (fun item hitem => hQ _ (hnames item hitem)) ih

/-! ### Writing -/

/-- Texts with a comma and a space between them. -/
def listed (texts : List Str) : Str := (str ", ").intercalate texts

mutual

/-- `json.dumps(v, ensure_ascii=ascii)`. -/
def dumps (fl : Floats F) (ascii : Bool) : Value F → Str
  | .null => str "null"
  | .bool true => str "true"
  | .bool false => str "false"
  | .int n => strOfInt n
  | .float x => fl.repr x
  | .str s => quoted ascii s
  | .list items => '['.toNat :: listed (dumpsItems fl ascii items) ++ [']'.toNat]
  | .dict items => '{'.toNat :: listed (dumpsPairs fl ascii items) ++ ['}'.toNat]

def dumpsItems (fl : Floats F) (ascii : Bool) : List (Value F) → List Str
  | [] => []
  | v :: items => dumps fl ascii v :: dumpsItems fl ascii items

def dumpsPairs (fl : Floats F) (ascii : Bool) : List (Str × Value F) → List Str
  | [] => []
  | (key, v) :: items => (quoted ascii key ++ str ": " ++ dumps fl ascii v) :: dumpsPairs fl ascii items

end

theorem dumpsItems_eq (fl : Floats F) (ascii : Bool) (items : List (Value F)) :
    dumpsItems fl ascii items = items.map (dumps fl ascii) := by
  induction items with
  | nil => rfl
  | cons v items ih => rw [dumpsItems, ih, List.map_cons]

/-- A key and its value. -/
def dumpsPair (fl : Floats F) (ascii : Bool) (item : Str × Value F) : Str :=
  quoted ascii item.1 ++ str ": " ++ dumps fl ascii item.2

theorem dumpsPairs_eq (fl : Floats F) (ascii : Bool) (items : List (Str × Value F)) :
    dumpsPairs fl ascii items = items.map (dumpsPair fl ascii) := by
  induction items with
  | nil => rfl
  | cons item items ih => rw [dumpsPairs, ih, List.map_cons, dumpsPair]

/-! ### Reading -/

def ws (c : Nat) : Bool := c = 0x20 ∨ c = 0x9 ∨ c = 0xa ∨ c = 0xd

def skip (s : Str) : Str := s.dropWhile ws

/-- The text after a character that is due, maybe after spaces. -/
def eat (c : Nat) (s : Str) : Option Str :=
  match skip s with
  | d :: s => if d = c then some s else none
  | [] => none

section
variable {α : Type} (item : Str → Option (α × Str)) (close : Nat)

/-- Items with commas between them, and the closing bracket. -/
def elements : Nat → Str → Option (List α × Str)
  | 0, _ => none
  | n + 1, s =>
    (item s).bind fun (x, s) =>
      match eat close s with
      | some s => some ([x], s)
      | none => (eat ','.toNat s).bind fun s => (elements n (skip s)).map fun (xs, s) => (x :: xs, s)

/-- What comes after an opening bracket. -/
def enclosed (n : Nat) (s : Str) : Option (List α × Str) :=
  match eat close s with
  | some s => some ([], s)
  | none => elements item close n (skip s)

/-- A key and what belongs to it. -/
def member : Str → Option ((Str × α) × Str)
  | c :: s =>
    if c = dquote then
      (string s).bind fun (key, s) =>
        (eat ':'.toNat s).bind fun s => (item (skip s)).map fun (x, s) => ((key, x), s)
    else none
  | [] => none

end

def constants (fl : Floats F) : List (Str × Value F) :=
  [(str "null", .null), (str "true", .bool true), (str "false", .bool false)] ++
    nonfinite.map fun name => (name, .float (fl.float name))

def Number.value (fl : Floats F) : Number → Value F
  | .int n => .int n
  | .float text => .float (fl.float text)

/-- A number or a constant. -/
def atom (fl : Floats F) (s : Str) : Option (Value F × Str) :=
  match number s with
  | some (x, rest) => some (x.value fl, rest)
  | none => ((constants fl).find? fun p => p.1.isPrefixOf s).map fun p => (p.2, s.drop p.1.length)

/-- A value at the beginning of a text.  A dictionary keeps the last value of a key. -/
def scan_once (fl : Floats F) : Nat → Str → Option (Value F × Str)
  | 0, _ => none
  | _ + 1, [] => none
  | n + 1, c :: s =>
    if c = dquote then (string s).map fun (t, s) => (.str t, s)
    else if c = '['.toNat then
      (enclosed (scan_once fl n) ']'.toNat n s).map fun (items, s) => (.list items, s)
    else if c = '{'.toNat then
      (enclosed (member (scan_once fl n)) '}'.toNat n s).map fun (items, s) => (.dict (Dict.ofList items).items, s)
    else atom fl (c :: s)

/-- `json.loads(s)`, or nothing if it raises. -/
def loads (fl : Floats F) (s : Str) : Option (Value F) :=
  (scan_once fl (s.length + 1) (skip s)).bind fun (v, rest) => if skip rest = [] then some v else none

/-! ### What was written is read -/

/-- A text that starts with a value: neither with a space nor with a closing bracket. -/
def Starts (s : Str) : Prop := ∃ c t, s = c :: t ∧ ws c = false ∧ c ≠ ']'.toNat ∧ c ≠ '}'.toNat

section
variable {α : Type} {item : Str → Option (α × Str)} {close : Nat} {s rest : Str}

theorem skip_cons {c : Nat} (h : ws c = false) : skip (c :: s) = c :: s :=
  List.dropWhile_cons_of_neg (by simp [h])

theorem Starts.skip (h : Starts s) (rest : Str) : skip (s ++ rest) = s ++ rest := by
  obtain ⟨c, t, rfl, hc, -⟩ := h
  exact skip_cons hc

theorem eat_cons {c d : Nat} (h : ws d = false) :
    eat c (d :: s) = if d = c then some s else none := by
  rw [eat, skip_cons h]

theorem Starts.append (h : Starts s) (rest : Str) : Starts (s ++ rest) := by
  obtain ⟨c, t, rfl, hc⟩ := h
  exact ⟨c, t ++ rest, rfl, hc⟩

theorem colon_eq : str ": " = [':'.toNat, ' '.toNat] := by decide +kernel

theorem listed_cons (text text' : Str) (texts : List Str) :
    listed (text :: text' :: texts) = text ++ ','.toNat :: ' '.toNat :: listed (text' :: texts) := by
  have hcomma : str ", " = [','.toNat, ' '.toNat] := by decide +kernel
  rw [listed, listed, List.intercalate_cons_cons, List.append_assoc, hcomma]
  rfl

theorem starts_listed {text : Str} (h : Starts text) (texts : List Str) :
    Starts (listed (text :: texts)) := by
  cases texts with
  | nil => simpa [listed] using h
  | cons text' texts =>
      rw [listed_cons]
      exact h.append _

theorem stop_cons {c : Nat} (h : c = ','.toNat ∨ c = ']'.toNat ∨ c = '}'.toNat) (rest : Str) :
    Stop (c :: rest) := by
  intro d hd
  obtain rfl : c = d := Option.some.inj hd
  exact h

/-- The item of a text is read before anything that may come after it. -/
def Gives (item : Str → Option (α × Str)) (text : Str) (x : α) : Prop :=
  Starts text ∧ ∀ rest, Stop rest → item (text ++ rest) = some (x, rest)

/-- **Items are read**, with the bracket that closes them. -/
theorem elements_read {texts : List Str} {xs : List α} (hclose : close = ']'.toNat ∨ close = '}'.toNat)
    (h : List.Forall₂ (Gives item) texts xs) (hne : texts ≠ []) {n : Nat} (hn : texts.length ≤ n) :
    elements item close n (listed texts ++ close :: rest) = some (xs, rest) := by
  have hws : ws close = false := by rcases hclose with rfl | rfl <;> rfl
  induction h generalizing n with
  | nil => exact absurd rfl hne
  | @cons text x texts xs hx hrest ih =>
      cases n with
      | zero => cases hn
      | succ n =>
          cases hrest with
          | nil =>
              rw [listed, List.intercalate_singleton, elements, hx.2 _ (stop_cons (.inr hclose) rest),
                Option.bind_some]
              dsimp only
              rw [eat_cons hws, if_pos rfl]
          | @cons text' x' texts xs hx' hxs =>
              have hmore := ih (List.cons_ne_nil _ _) (Nat.le_of_succ_le_succ hn)
              have hnot : ','.toNat ≠ close := by rcases hclose with rfl | rfl <;> decide
              have hblank : ws ' '.toNat := by decide
              rw [listed_cons, List.append_assoc, List.cons_append, List.cons_append, elements,
                hx.2 _ (stop_cons (.inl rfl) _), Option.bind_some]
              dsimp only
              rw [eat_cons rfl, if_neg hnot, eat_cons rfl, if_pos rfl]
              dsimp only
              rw [Option.bind_some, skip, List.dropWhile_cons_of_pos hblank]
              have hskip := (starts_listed hx'.1 texts).skip (close :: rest)
              rw [skip] at hskip
              rw [hskip, hmore, Option.map_some]

/-- **What is in brackets is read.** -/
theorem enclosed_read {texts : List Str} {xs : List α} (hclose : close = ']'.toNat ∨ close = '}'.toNat)
    (h : List.Forall₂ (Gives item) texts xs) {n : Nat} (hn : texts.length ≤ n) :
    enclosed item close n (listed texts ++ close :: rest) = some (xs, rest) := by
  have hws : ws close = false := by rcases hclose with rfl | rfl <;> rfl
  cases h with
  | nil =>
      rw [listed, List.intercalate_nil, List.nil_append, enclosed, eat_cons hws, if_pos rfl]
  | @cons text x texts xs hx hrest =>
      have hread : elements item close n (listed (text :: texts) ++ close :: rest) = some (x :: xs, rest) :=
        elements_read hclose (.cons hx hrest) (List.cons_ne_nil _ _) hn
      have hstarts := starts_listed hx.1 texts
      have hskip := hstarts.skip (close :: rest)
      have heat : eat close (listed (text :: texts) ++ close :: rest) = none := by
        obtain ⟨c, t, heq, hc, hbracket, hbrace⟩ := hstarts
        rw [heq, List.cons_append, eat_cons hc, if_neg]
        rcases hclose with rfl | rfl
        · exact hbracket
        · exact hbrace
      rw [enclosed, heat]
      dsimp only
      rw [hskip, hread]

theorem starts_quoted (ascii : Bool) (s : Str) : Starts (quoted ascii s) :=
  ⟨dquote, _, rfl, by decide, by decide, by decide⟩

/-- A key and what belongs to it are read. -/
theorem gives_member {ascii : Bool} {key text : Str} {x : α} (hkey : Readable ascii key)
    (h : Gives item text x) : Gives (member item) (quoted ascii key ++ str ": " ++ text) (key, x) := by
  refine ⟨((starts_quoted ascii key).append _).append _, fun rest hrest => ?_⟩
  have htext : quoted ascii key ++ str ": " ++ text ++ rest =
      dquote :: (key.flatMap (escape ascii) ++ dquote :: ':'.toNat :: ' '.toNat :: (text ++ rest)) := by
    simp [quoted, colon_eq]
  have hskip : skip (' '.toNat :: (text ++ rest)) = text ++ rest := by
    have hblank : ws ' '.toNat := by decide
    rw [skip, List.dropWhile_cons_of_pos hblank]
    exact h.1.skip rest
  rw [htext, member, if_pos rfl, hkey, Option.bind_some]
  dsimp only
  rw [eat_cons rfl, if_pos rfl, Option.bind_some, hskip, h.2 rest hrest, Option.map_some]

/-! Numbers and constants. -/

/-- A number or a constant starts so. -/
def AtomHead (c : Nat) : Prop :=
  c = '-'.toNat ∨ digit c ∨ c ∈ ['n'.toNat, 't'.toNat, 'f'.toNat, 'N'.toNat, 'I'.toNat]

theorem AtomHead.spec {c : Nat} (h : AtomHead c) :
    (ws c = false ∧ c ≠ ']'.toNat ∧ c ≠ '}'.toNat) ∧ c ≠ dquote ∧ c ≠ '['.toNat ∧ c ≠ '{'.toNat := by
  have hnat : ('-'.toNat = 45 ∧ '0'.toNat = 48 ∧ '9'.toNat = 57 ∧ 'n'.toNat = 110 ∧ 't'.toNat = 116) ∧
      ('f'.toNat = 102 ∧ 'N'.toNat = 78 ∧ 'I'.toNat = 73 ∧ ']'.toNat = 93 ∧ '}'.toNat = 125) ∧
      dquote = 34 ∧ '['.toNat = 91 ∧ '{'.toNat = 123 := by decide
  simp only [AtomHead, digit, List.mem_cons, List.not_mem_nil, or_false, decide_eq_true_eq] at h
  simp only [ws, decide_eq_false_iff_not]
  omega

theorem head_number {t : Str} {x : Number} {rest : Str} (h : number t = some (x, rest)) :
    ∃ c t', t = c :: t' ∧ AtomHead c := by
  obtain ⟨part, hwhole, -⟩ := Option.map_eq_some_iff.mp h
  cases t with
  | nil => cases hwhole
  | cons c t =>
      refine ⟨c, t, rfl, ?_⟩
      by_cases hminus : c = '-'.toNat
      · exact .inl hminus
      · have hsame : (minus (c :: t)).2 = c :: t := by
          simp only [minus, optional, List.mem_singleton, if_neg hminus]
        rw [hsame, whole] at hwhole
        split_ifs at hwhole with hzero hdigit
        · exact .inr (.inl (hzero ▸ by decide))
        · exact .inr (.inl hdigit)

theorem number_none {c : Nat} {t : Str} (h : ¬ digit c) (hminus : c ≠ '-'.toNat) :
    number (c :: t) = none := by
  have hsame : (minus (c :: t)).2 = c :: t := by
    simp only [minus, optional, List.mem_singleton, if_neg hminus]
  have hzero : c ≠ '0'.toNat := by
    rintro rfl
    exact h (by decide)
  rw [number, hsame, whole, if_neg hzero, if_neg h, Option.map_none]

/-- A constant is read, whatever comes after it. -/
theorem atom_constant (fl : Floats F) {p : Str × Value F} (h : p ∈ constants fl) (rest : Str) :
    atom fl (p.1 ++ rest) = some (p.2, rest) := by
  have hnull : str "null" = [0x6e, 0x75, 0x6c, 0x6c] := by decide +kernel
  have htrue : str "true" = [0x74, 0x72, 0x75, 0x65] := by decide +kernel
  have hfalse : str "false" = [0x66, 0x61, 0x6c, 0x73, 0x65] := by decide +kernel
  have hnan : str "NaN" = [0x4e, 0x61, 0x4e] := by decide +kernel
  have hinf : str "Infinity" = [0x49, 0x6e, 0x66, 0x69, 0x6e, 0x69, 0x74, 0x79] := by decide +kernel
  have hneg : str "-Infinity" = '-'.toNat :: str "Infinity" := by decide +kernel
  have hinfinity (t : Str) : number ('-'.toNat :: 0x49 :: t) = none := rfl
  simp only [constants, nonfinite, List.map_cons, List.map_nil, List.cons_append, List.nil_append,
    List.mem_cons, List.not_mem_nil, or_false] at h
  rcases h with rfl | rfl | rfl | rfl | rfl | rfl
  · simp [atom, constants, hnull, number_none (c := 0x6e) (by decide) (by decide)]
  · simp [atom, constants, hnull, htrue, number_none (c := 0x74) (by decide) (by decide)]
  · simp [atom, constants, hnull, htrue, hfalse, number_none (c := 0x66) (by decide) (by decide)]
  · simp [atom, constants, nonfinite, hnull, htrue, hfalse, hnan,
      number_none (c := 0x4e) (by decide) (by decide)]
  · simp [atom, constants, nonfinite, hnull, htrue, hfalse, hnan, hinf,
      number_none (c := 0x49) (by decide) (by decide)]
  · have hnum := hinfinity
    simp only [Char.reduceToNat] at hnum
    simp [atom, constants, nonfinite, hnull, htrue, hfalse, hnan, hinf, hneg, hnum]

end

section
variable {fl : Floats F} {ascii : Bool} {P : F → Prop} {v : Value F} {t : Str}

theorem atom_of_number {x : Number} (h : number t = some (x, [])) {rest : Str} (hrest : Stop rest) :
    atom fl (t ++ rest) = some (x.value fl, rest) := by
  rw [atom, number_append hrest, h, Option.map_some]
  rfl

theorem constant_name {p : Str × Value F} (h : p ∈ constants fl) :
    p.1 ∈ [str "null", str "true", str "false"] ++ nonfinite := by
  have hfst : (constants fl).map Prod.fst = [str "null", str "true", str "false"] ++ nonfinite := by
    simp [constants, Function.comp_def]
  exact hfst ▸ List.mem_map_of_mem h

/-- A text that `atom` reads to its end. -/
def IsAtom (fl : Floats F) (t : Str) (v : Value F) : Prop :=
  (∃ c t', t = c :: t' ∧ AtomHead c) ∧ ∀ rest, Stop rest → atom fl (t ++ rest) = some (v, rest)

theorem isAtom_constant {p : Str × Value F} (h : p ∈ constants fl) : IsAtom fl p.1 p.2 := by
  refine ⟨?_, fun rest _ => atom_constant fl h rest⟩
  have hall : ∀ name ∈ [str "null", str "true", str "false"] ++ nonfinite,
      name ≠ [] ∧ ∀ c ∈ name.head?, c ∈ ['-'.toNat, 'n'.toNat, 't'.toNat, 'f'.toNat, 'N'.toNat, 'I'.toNat] := by
    decide +kernel
  obtain ⟨hne, hhead⟩ := hall p.1 (constant_name h)
  obtain ⟨c, t, heq⟩ := List.exists_cons_of_ne_nil hne
  refine ⟨c, t, heq, ?_⟩
  rcases List.mem_cons.mp (hhead c (by rw [heq]; rfl)) with hc | hc
  · exact .inl hc
  · exact .inr (.inr hc)

theorem isAtom_int (n : Int) : IsAtom fl (strOfInt n) (.int n) :=
  ⟨head_number (number_strOfInt n), fun _ hrest => atom_of_number (number_strOfInt n) hrest⟩

theorem isAtom_float (x : F) : IsAtom fl (fl.repr x) (.float x) := by
  rcases fl.shape x with hname | hnumber
  · have hmem : (fl.repr x, Value.float (fl.float (fl.repr x))) ∈ constants fl :=
      List.mem_append_right _ (List.mem_map_of_mem hname)
    have hatom := isAtom_constant hmem
    rwa [fl.float_repr] at hatom
  · refine ⟨head_number hnumber, fun _ hrest => ?_⟩
    rw [atom_of_number hnumber hrest, Number.value, fl.float_repr]

/-- A scalar that is no string is written as an atom. -/
theorem isAtom_dumps (fl : Floats F) (ascii : Bool) (v : Value F) :
    IsAtom fl (dumps fl ascii v) v ∨ (∃ s, v = .str s) ∨ (∃ items, v = .list items) ∨
      ∃ items, v = .dict items := by
  cases v with
  | null => exact .inl (isAtom_constant (p := (str "null", .null)) (by simp [constants]))
  | bool b =>
      cases b with
      | true => exact .inl (isAtom_constant (p := (str "true", .bool true)) (by simp [constants]))
      | false => exact .inl (isAtom_constant (p := (str "false", .bool false)) (by simp [constants]))
  | int n => exact .inl (isAtom_int n)
  | float x => exact .inl (isAtom_float x)
  | str s => exact .inr (.inl ⟨s, rfl⟩)
  | list items => exact .inr (.inr (.inl ⟨items, rfl⟩))
  | dict items => exact .inr (.inr (.inr ⟨items, rfl⟩))

theorem IsAtom.starts (h : IsAtom fl t v) : Starts t := by
  obtain ⟨⟨c, t', rfl, hc⟩, -⟩ := h
  exact ⟨c, t', rfl, hc.spec.1⟩

theorem starts_dumps (fl : Floats F) (ascii : Bool) (v : Value F) : Starts (dumps fl ascii v) := by
  rcases isAtom_dumps fl ascii v with h | ⟨s, rfl⟩ | ⟨items, rfl⟩ | ⟨items, rfl⟩
  · exact h.starts
  · exact starts_quoted ascii s
  · exact ⟨'['.toNat, _, rfl, by decide, by decide, by decide⟩
  · exact ⟨'{'.toNat, _, rfl, by decide, by decide, by decide⟩

theorem dumps_ne_nil (fl : Floats F) (ascii : Bool) (v : Value F) : dumps fl ascii v ≠ [] := by
  obtain ⟨c, t, htext, -⟩ := starts_dumps fl ascii v
  rw [htext]
  exact List.cons_ne_nil c t

theorem scan_once_atom (h : IsAtom fl t v) (n : Nat) {rest : Str} (hrest : Stop rest) :
    scan_once fl (n + 1) (t ++ rest) = some (v, rest) := by
  obtain ⟨⟨c, t', rfl, hc⟩, hread⟩ := h
  obtain ⟨-, hquote, hbracket, hbrace⟩ := hc.spec
  rw [List.cons_append, scan_once, if_neg hquote, if_neg hbracket, if_neg hbrace, ← List.cons_append,
    hread rest hrest]

theorem length_le_listed {texts : List Str} {text : Str} (h : text ∈ texts) :
    text.length ≤ (listed texts).length := by
  induction texts with
  | nil => cases h
  | cons text' texts ih =>
      cases texts with
      | nil =>
          obtain rfl := List.mem_singleton.mp h
          simp [listed]
      | cons text'' texts =>
          rw [listed_cons, List.length_append, List.length_cons, List.length_cons]
          rcases List.mem_cons.mp h with rfl | h
          · omega
          · have hle := ih h
            omega

theorem length_listed (texts : List Str) : texts.length ≤ (listed texts).length + 1 := by
  induction texts with
  | nil => exact Nat.zero_le _
  | cons text texts ih =>
      cases texts with
      | nil => exact Nat.le_add_left _ _
      | cons text' texts =>
          rw [listed_cons, List.length_append, List.length_cons, List.length_cons]
          simp only [List.length_cons] at ih ⊢
          omega

/-- **A value is read**, if the fuel is more than the length of its text. -/
theorem scan_once_read (h : v.Of (Readable ascii) P) {n : Nat} (hn : (dumps fl ascii v).length < n) {rest : Str}
    (hrest : Stop rest) : scan_once fl n (dumps fl ascii v ++ rest) = some (v, rest) := by
  induction h generalizing n rest with
  | null =>
      obtain ⟨n, rfl⟩ : ∃ m, n = m + 1 := ⟨n - 1, by omega⟩
      exact scan_once_atom (isAtom_constant (p := (str "null", .null)) (by simp [constants])) n hrest
  | bool b =>
      obtain ⟨n, rfl⟩ : ∃ m, n = m + 1 := ⟨n - 1, by omega⟩
      cases b with
      | true =>
          exact scan_once_atom (isAtom_constant (p := (str "true", .bool true)) (by simp [constants])) n hrest
      | false =>
          exact scan_once_atom (isAtom_constant (p := (str "false", .bool false)) (by simp [constants])) n
            hrest
  | int k =>
      obtain ⟨n, rfl⟩ : ∃ m, n = m + 1 := ⟨n - 1, by omega⟩
      exact scan_once_atom (isAtom_int k) n hrest
  | @float x _ =>
      obtain ⟨n, rfl⟩ : ∃ m, n = m + 1 := ⟨n - 1, by omega⟩
      exact scan_once_atom (isAtom_float x) n hrest
  | @str s hs =>
      obtain ⟨n, rfl⟩ : ∃ m, n = m + 1 := ⟨n - 1, by omega⟩
      have htext : dumps fl ascii (.str s) ++ rest =
          dquote :: (s.flatMap (escape ascii) ++ dquote :: rest) := by
        simp [dumps, quoted]
      rw [htext, scan_once, if_pos rfl, hs, Option.map_some]
  | @list items _ ih =>
      obtain ⟨n, rfl⟩ : ∃ m, n = m + 1 := ⟨n - 1, by omega⟩
      have htext : dumps fl ascii (.list items) ++ rest =
          '['.toNat :: (listed (items.map (dumps fl ascii)) ++ ']'.toNat :: rest) := by
        simp [dumps, dumpsItems_eq]
      have hlength : (listed (items.map (dumps fl ascii))).length + 1 < n := by
        simpa [dumps, dumpsItems_eq] using hn
      have hgives : List.Forall₂ (Gives (scan_once fl n)) (items.map (dumps fl ascii)) items := by
        refine List.forall₂_map_left_iff.mpr (List.forall₂_same.mpr fun v hv => ?_)
        refine ⟨starts_dumps fl ascii v, fun rest hrest => ih v hv ?_ hrest⟩
        have hle := length_le_listed (List.mem_map_of_mem (f := dumps fl ascii) hv)
        omega
      have hcount := length_listed (items.map (dumps fl ascii))
      rw [htext, scan_once, if_neg (by decide), if_pos rfl, enclosed_read (.inl rfl) hgives (by omega),
        Option.map_some]
  | @dict items hkeys hnames _ ih =>
      obtain ⟨n, rfl⟩ : ∃ m, n = m + 1 := ⟨n - 1, by omega⟩
      have htext : dumps fl ascii (.dict items) ++ rest =
          '{'.toNat :: (listed (items.map (dumpsPair fl ascii)) ++ '}'.toNat :: rest) := by
        simp [dumps, dumpsPairs_eq]
      have hlength : (listed (items.map (dumpsPair fl ascii))).length + 1 < n := by
        simpa [dumps, dumpsPairs_eq] using hn
      have hgives : List.Forall₂ (Gives (member (scan_once fl n))) (items.map (dumpsPair fl ascii)) items := by
        refine List.forall₂_map_left_iff.mpr (List.forall₂_same.mpr fun item hitem => ?_)
        refine gives_member (hnames item hitem) ⟨starts_dumps fl ascii item.2, fun rest hrest =>
          ih item hitem ?_ hrest⟩
        have hle := length_le_listed (List.mem_map_of_mem (f := dumpsPair fl ascii) hitem)
        simp only [dumpsPair, List.length_append] at hle
        omega
      have hcount := length_listed (items.map (dumpsPair fl ascii))
      rw [htext, scan_once, if_neg (by decide), if_neg (by decide), if_pos rfl,
        enclosed_read (.inr rfl) hgives (by omega), Option.map_some]
      dsimp only
      rw [Dict.items_ofList hkeys]

/-- **What `dumps` writes, `loads` reads.** -/
theorem loads_dumps (h : v.Of (Readable ascii) P) : loads fl (dumps fl ascii v) = some v := by
  have hskip := (starts_dumps fl ascii v).skip []
  have hread : scan_once fl ((dumps fl ascii v).length + 1) (dumps fl ascii v ++ []) = some (v, []) :=
    scan_once_read h (Nat.lt_succ_self _) nofun
  rw [List.append_nil] at hskip hread
  rw [loads, hskip, hread]
  rfl

end

/-! ### What is written -/

theorem plain_of_number {t : Str} {x : Number} (h : number t = some (x, [])) : ∀ c ∈ t, Plain c ∧ Printed c := by
  obtain ⟨a, -, heq, hnumeral⟩ := cut_number h
  rw [List.append_nil] at heq
  exact heq ▸ fun c hc => ⟨(hnumeral c hc).plain, (hnumeral c hc).printed⟩

section
variable {fl : Floats F} {ascii : Bool} {P P' : F → Prop} {Q Q' : Str → Prop} {v : Value F} {I : Str → Prop}

theorem Value.Of.and (h : v.Of Q P) (h' : v.Of Q' P') :
    v.Of (fun s => Q s ∧ Q' s) fun x => P x ∧ P' x := by
  induction h with
  | null => exact .null
  | bool b => exact .bool b
  | int n => exact .int n
  | float hx =>
      cases h' with
      | float hx' => exact .float ⟨hx, hx'⟩
  | str hs =>
      cases h' with
      | str hs' => exact .str ⟨hs, hs'⟩
  | list _ ih =>
      cases h' with
      | list hall => exact .list fun v hv => ih v hv (hall v hv)
  | dict hkeys hnames _ ih =>
      cases h' with
      | dict _ hnames' hall =>
          exact .dict hkeys (fun item hitem => ⟨hnames item hitem, hnames' item hitem⟩) fun item hitem =>
            ih item hitem (hall item hitem)

theorem listed_built (hplain : ∀ s, (∀ c ∈ s, Plain c ∧ Printed c) → I s)
    (happend : ∀ a b, I a → I b → I (a ++ b)) {texts : List Str} (h : ∀ text ∈ texts, I text) : I (listed texts) := by
  induction texts with
  | nil => exact hplain [] nofun
  | cons text texts ih =>
      obtain ⟨htext, htexts⟩ := List.forall_mem_cons.mp h
      cases texts with
      | nil => simpa [listed] using htext
      | cons text' texts =>
          rw [listed_cons]
          exact happend text _ htext (happend [','.toNat, ' '.toNat] _ (hplain _ (by decide)) (ih htexts))

/-- **What holds of plain texts, of the strings and of what is put together holds of the whole.** -/
theorem dumps_built (hplain : ∀ s, (∀ c ∈ s, Plain c ∧ Printed c) → I s)
    (happend : ∀ a b, I a → I b → I (a ++ b)) (h : v.Of (fun s => I (quoted ascii s)) P) : I (dumps fl ascii v) := by
  induction h with
  | null => exact hplain (str "null") (by decide +kernel)
  | bool b =>
      cases b with
      | true => exact hplain (str "true") (by decide +kernel)
      | false => exact hplain (str "false") (by decide +kernel)
  | int n => exact hplain _ (plain_of_number (number_strOfInt n))
  | @float x _ =>
      rcases fl.shape x with hname | hnumber
      · have hall : ∀ name ∈ nonfinite, ∀ c ∈ name, Plain c ∧ Printed c := by decide +kernel
        exact hplain _ (hall _ hname)
      · exact hplain _ (plain_of_number hnumber)
  | str hs => exact hs
  | @list items _ ih =>
      have hitems : ∀ text ∈ dumpsItems fl ascii items, I text := by
        rw [dumpsItems_eq]
        exact List.forall_mem_map.mpr ih
      have hopen := happend ['['.toNat] _ (hplain _ (by decide)) (listed_built hplain happend hitems)
      exact happend _ [']'.toNat] hopen (hplain _ (by decide))
  | @dict items _ hnames _ ih =>
      have hitems : ∀ text ∈ dumpsPairs fl ascii items, I text := by
        rw [dumpsPairs_eq]
        refine List.forall_mem_map.mpr fun item hitem => ?_
        have hcolon : I (str ": ") := hplain _ (by decide +kernel)
        exact happend _ _ (happend _ _ (hnames item hitem) hcolon) (ih item hitem)
      have hopen := happend ['{'.toNat] _ (hplain _ (by decide)) (listed_built hplain happend hitems)
      exact happend _ ['}'.toNat] hopen (hplain _ (by decide))

/-- The characters of the text, where those of the strings may be apostrophes or no ASCII. -/
theorem mem_dumps {A : Nat → Prop} (hA : ∀ c, c < 0x80 → c ≠ apostrophe → A c)
    (h : v.Of (fun s => ∀ c ∈ s, (ascii → c < 0x110000) ∧ ((ascii → c < 0x80) → A c)) P) :
    ∀ c ∈ dumps fl ascii v, A c := by
  refine dumps_built (I := fun s => ∀ c ∈ s, A c) (fun s hs c hc => hA c (hs c hc).1.1 (hs c hc).1.2.2)
    (fun a b ha hb => List.forall_mem_append.mpr ⟨ha, hb⟩) (h.imp (fun s hs c hc => ?_) fun _ hx => hx)
  have hquote : A dquote := hA dquote (by decide) (by decide)
  rcases List.mem_append.mp hc with hc | hc
  · rcases List.mem_cons.mp hc with rfl | hc
    · exact hquote
    · obtain ⟨d, hd, hc⟩ := List.mem_flatMap.mp hc
      obtain ⟨hbound, hAd⟩ := hs d hd
      rcases mem_escape hbound hc with ⟨rfl, hascii⟩ | ⟨hlt, hne⟩
      · exact hAd hascii
      · exact hA c hlt hne
  · rw [List.mem_singleton.mp hc]
    exact hquote

end

/-! ### What is read -/

section
variable {α : Type} {I : Str → Prop} {A : α → Prop} {item : Str → Option (α × Str)} {close : Nat}

/-- What is read is as claimed, and the rest of the text is as the text was. -/
def Keeps (I : Str → Prop) (A : α → Prop) (item : Str → Option (α × Str)) : Prop :=
  ∀ s x rest, item s = some (x, rest) → I s → A x ∧ I rest

/-- What is known of a text, wherever the reading is, and of the strings in it. -/
structure Known (I Q : Str → Prop) : Prop where
  drop : ∀ a s, I (a ++ s) → backslash ∉ a → I s
  string : Keeps I Q string

variable {Q : Str → Prop} (hknown : Known I Q)
include hknown

theorem Known.taken {s : Str} {part : Part} (h : Taken s part) (hs : I s) : I part.2 :=
  hknown.drop part.1 part.2 (h.1 ▸ hs) h.notMem

theorem Known.skip {s : Str} (hs : I s) : I (skip s) := by
  have htaken : Taken s (s.takeWhile ws, s.dropWhile ws) := by
    refine ⟨List.takeWhile_append_dropWhile.symm, fun c hc => ?_⟩
    have hws : ws c := List.mem_takeWhile_imp hc
    simp only [ws, decide_eq_true_eq] at hws
    rcases hws with rfl | rfl | rfl | rfl <;> decide
  exact hknown.taken htaken hs

theorem Known.eat {c : Nat} (hc : c ≠ backslash) {s rest : Str} (h : eat c s = some rest) (hs : I s) :
    I rest := by
  have hskip := hknown.skip hs
  rw [InfraHub.Lib.Json.eat] at h
  cases htext : InfraHub.Lib.Json.skip s with
  | nil => simp [htext] at h
  | cons d t =>
      rw [htext] at h hskip
      dsimp only at h
      split_ifs at h with hd
      obtain rfl := Option.some.inj h
      subst hd
      exact hknown.drop [d] t hskip (by simpa using hc.symm)

theorem elements_keeps (hclose : close ≠ backslash) (h : Keeps I A item) (n : Nat) :
    Keeps I (fun xs => ∀ x ∈ xs, A x) (elements item close n) := by
  induction n with
  | zero =>
      intro s xs rest hread
      cases hread
  | succ n ih =>
      intro s xs rest hread hs
      obtain ⟨⟨x, s₁⟩, hx, hread⟩ := Option.bind_eq_some_iff.mp hread
      obtain ⟨hA, hs₁⟩ := h s x s₁ hx hs
      dsimp only at hread
      cases hend : eat close s₁ with
      | some s₂ =>
          rw [hend] at hread
          cases hread
          exact ⟨by simpa using hA, hknown.eat hclose hend hs₁⟩
      | none =>
          rw [hend] at hread
          obtain ⟨s₂, hcomma, hread⟩ := Option.bind_eq_some_iff.mp hread
          obtain ⟨⟨xs', s₃⟩, hmore, heq⟩ := Option.map_eq_some_iff.mp hread
          cases heq
          obtain ⟨hall, hrest⟩ := ih _ _ _ hmore (hknown.skip (hknown.eat (by decide) hcomma hs₁))
          exact ⟨List.forall_mem_cons.mpr ⟨hA, hall⟩, hrest⟩

theorem enclosed_keeps (hclose : close ≠ backslash) (h : Keeps I A item) (n : Nat) :
    Keeps I (fun xs => ∀ x ∈ xs, A x) (enclosed item close n) := by
  intro s xs rest hread hs
  rw [enclosed] at hread
  cases hend : eat close s with
  | some s₁ =>
      rw [hend] at hread
      cases hread
      exact ⟨by simp, hknown.eat hclose hend hs⟩
  | none =>
      rw [hend] at hread
      exact elements_keeps hknown hclose h n _ _ _ hread (hknown.skip hs)

theorem member_keeps (h : Keeps I A item) : Keeps I (fun p => Q p.1 ∧ A p.2) (member item) := by
  intro s p rest hread hs
  cases s with
  | nil => cases hread
  | cons c s =>
      rw [member] at hread
      split_ifs at hread with hc
      obtain ⟨⟨key, s₁⟩, hkey, hread⟩ := Option.bind_eq_some_iff.mp hread
      obtain ⟨s₂, hcolon, hread⟩ := Option.bind_eq_some_iff.mp hread
      obtain ⟨⟨x, s₃⟩, hx, heq⟩ := Option.map_eq_some_iff.mp hread
      cases heq
      have hafter : I s := hknown.drop [c] s hs (by simp [hc]; decide)
      obtain ⟨hQ, hs₁⟩ := hknown.string _ _ _ hkey hafter
      obtain ⟨hA, hrest⟩ := h _ _ _ hx (hknown.skip (hknown.eat (by decide) hcolon hs₁))
      exact ⟨⟨hQ, hA⟩, hrest⟩

theorem atom_keeps (fl : Floats F) : Keeps I (fun v => v.Of Q fun _ => True) (atom fl) := by
  intro s v rest hread hs
  rw [atom] at hread
  cases hnumber : number s with
  | some p =>
      obtain ⟨x, s₁⟩ := p
      rw [hnumber] at hread
      cases hread
      obtain ⟨a, -, htaken⟩ := taken_number hnumber
      refine ⟨?_, hknown.taken htaken hs⟩
      cases x with
      | int n => exact .int n
      | float text => exact .float trivial
  | none =>
      rw [hnumber] at hread
      obtain ⟨p, hfind, heq⟩ := Option.map_eq_some_iff.mp hread
      cases heq
      have hmem := List.mem_of_find?_eq_some hfind
      have hprefix : p.1 <+: s := by simpa using List.find?_some hfind
      obtain ⟨t, rfl⟩ := hprefix
      have hback : ∀ name ∈ [str "null", str "true", str "false"] ++ nonfinite, backslash ∉ name := by
        decide +kernel
      have hof : p.2.Of Q fun _ => True := by
        simp only [constants, nonfinite, List.map_cons, List.map_nil, List.cons_append, List.nil_append,
          List.mem_cons, List.not_mem_nil, or_false] at hmem
        rcases hmem with rfl | rfl | rfl | rfl | rfl | rfl
        · exact .null
        · exact .bool true
        · exact .bool false
        all_goals exact .float trivial
      rw [List.drop_left]
      exact ⟨hof, hknown.drop p.1 t hs (hback p.1 (constant_name hmem))⟩

theorem scan_once_keeps (fl : Floats F) (n : Nat) :
    Keeps I (fun v => v.Of Q fun _ => True) (scan_once fl n) := by
  induction n with
  | zero =>
      intro s v rest hread
      cases hread
  | succ n ih =>
      intro s v rest hread hs
      cases s with
      | nil => cases hread
      | cons c s =>
          have hafter (hc : c ≠ backslash) : I s := hknown.drop [c] s hs (by simpa using hc.symm)
          rw [scan_once] at hread
          split_ifs at hread with hquote hbracket hbrace
          · obtain ⟨⟨t, s₁⟩, ht, heq⟩ := Option.map_eq_some_iff.mp hread
            cases heq
            exact (hknown.string _ _ _ ht (hafter (hquote ▸ by decide))).imp_left .str
          · obtain ⟨⟨items, s₁⟩, hitems, heq⟩ := Option.map_eq_some_iff.mp hread
            cases heq
            exact (enclosed_keeps hknown (by decide) ih n _ _ _ hitems
              (hafter (hbracket ▸ by decide))).imp_left .list
          · obtain ⟨⟨items, s₁⟩, hitems, heq⟩ := Option.map_eq_some_iff.mp hread
            cases heq
            obtain ⟨hall, hrest⟩ := enclosed_keeps hknown (by decide) (member_keeps hknown ih) n _ _ _ hitems
              (hafter (hbrace ▸ by decide))
            have hpairs : ∀ p ∈ (Dict.ofList items).items, Q p.1 ∧ p.2.Of Q fun _ => True :=
              fun p hp => hall p (Dict.mem_of_mem_ofList hp)
            exact ⟨.dict (Dict.ofList items).keys (fun p hp => (hpairs p hp).1) fun p hp => (hpairs p hp).2,
              hrest⟩
          · exact atom_keeps hknown fl _ _ _ hread hs

/-- **What is known of the text is known of the value.** -/
theorem loads_of {fl : Floats F} {s : Str} {v : Value F} (h : loads fl s = some v) (hs : I s) :
    v.Of Q fun _ => True := by
  obtain ⟨⟨w, rest⟩, hread, heq⟩ := Option.bind_eq_some_iff.mp h
  dsimp only at heq
  split_ifs at heq
  cases heq
  exact (scan_once_keeps hknown fl _ _ _ _ hread (hknown.skip hs)).1

end

theorem string_scan {s t rest : Str} (h : string s = some (t, rest)) :
    ∃ ps, Scan s ps rest ∧ ps.map Piece.code = t := by
  obtain ⟨⟨ps, s₁⟩, hscan, heq⟩ := Option.map_eq_some_iff.mp h
  cases heq
  exact ⟨ps, scan_sound hscan, rfl⟩

theorem known_ascii : Known (fun s => ∀ c ∈ s, c < 0x80) Proper where
  drop _ _ h _ := fun c hc => h c (List.mem_append_right _ hc)
  string := by
    intro s t rest h hs
    obtain ⟨ps, hscan, rfl⟩ := string_scan h
    obtain ⟨c, hsuffix⟩ := hscan.suffix
    exact ⟨hscan.proper hs, fun d hd => hs d (hsuffix.subset (List.mem_cons_of_mem c hd))⟩

theorem known_bound : Known (fun s => ∀ c ∈ s, c < 0x110000) fun s => ∀ c ∈ s, c < 0x110000 where
  drop _ _ h _ := fun c hc => h c (List.mem_append_right _ hc)
  string := by
    intro s t rest h hs
    obtain ⟨ps, hscan, rfl⟩ := string_scan h
    obtain ⟨c, hsuffix⟩ := hscan.suffix
    refine ⟨List.forall_mem_map.mpr (hscan.bound hs), fun d hd => ?_⟩
    exact hs d (hsuffix.subset (List.mem_cons_of_mem c hd))

theorem known_clean : Known Clean (apostrophe ∉ ·) where
  drop _ _ h hback := h.of_append hback
  string := by
    intro s t rest h hs
    obtain ⟨ps, hscan, rfl⟩ := string_scan h
    exact hscan.clean hs

/-! ### Fuel -/

theorem known_length (k : Nat) : Known (fun s => s.length ≤ k) fun _ => True where
  drop a s h _ := by
    rw [List.length_append] at h
    omega
  string := by
    intro s t rest h hs
    obtain ⟨ps, hscan, -⟩ := string_scan h
    obtain ⟨c, hsuffix⟩ := hscan.suffix
    have hle := hsuffix.length_le
    rw [List.length_cons] at hle
    exact ⟨trivial, by omega⟩

theorem eat_length {c : Nat} {s rest : Str} (h : eat c s = some rest) : rest.length < s.length := by
  rw [eat] at h
  have hle : (skip s).length ≤ s.length := (List.dropWhile_suffix ws).length_le
  cases htext : skip s with
  | nil => simp [htext] at h
  | cons d t =>
      rw [htext] at h hle
      dsimp only at h
      split_ifs at h
      obtain rfl := Option.some.inj h
      exact Nat.lt_of_succ_le hle

section
variable {α : Type} {item item' : Str → Option (α × Str)} {close : Nat}

/-- More fuel reads nothing else, and other items only if they are read otherwise. -/
theorem elements_congr {A : α → Prop} (hlength : ∀ k, Keeps (fun s => s.length ≤ k) A item) {s : Str}
    (h : ∀ t : Str, t.length ≤ s.length → item t = item' t) {n m : Nat} (hn : s.length < n)
    (hm : s.length < m) : elements item close n s = elements item' close m s := by
  induction n generalizing m s with
  | zero => cases hn
  | succ n ih =>
      obtain ⟨m, rfl⟩ : ∃ k, m = k + 1 := ⟨m - 1, by omega⟩
      rw [elements, elements, h s le_rfl]
      refine Option.bind_congr fun p hp => ?_
      obtain ⟨x, s₁⟩ := p
      have hs₁ : s₁.length ≤ s.length := (hlength s.length s x s₁ ((h s le_rfl).trans hp) le_rfl).2
      dsimp only
      cases hend : eat close s₁ with
      | some s₂ => rfl
      | none =>
          refine Option.bind_congr fun s₂ hs₂ => ?_
          have hlt := eat_length hs₂
          have hle : (skip s₂).length ≤ s₂.length := (List.dropWhile_suffix ws).length_le
          rw [ih (m := m) (fun t ht => h t (by omega)) (by omega) (by omega)]

theorem enclosed_congr {A : α → Prop} (hlength : ∀ k, Keeps (fun s => s.length ≤ k) A item) {s : Str}
    (h : ∀ t : Str, t.length ≤ s.length → item t = item' t) {n m : Nat} (hn : s.length < n)
    (hm : s.length < m) : enclosed item close n s = enclosed item' close m s := by
  have hle : (skip s).length ≤ s.length := (List.dropWhile_suffix ws).length_le
  rw [enclosed, enclosed,
    elements_congr hlength (fun t ht => h t (ht.trans hle)) (hle.trans_lt hn) (hle.trans_lt hm)]

theorem member_congr {s : Str} (h : ∀ t : Str, t.length ≤ s.length → item t = item' t) :
    member item s = member item' s := by
  cases s with
  | nil => rfl
  | cons c s =>
      rw [member, member]
      split_ifs
      · refine Option.bind_congr fun p hp => ?_
        obtain ⟨ps, hscan, -⟩ := string_scan hp
        obtain ⟨d, hsuffix⟩ := hscan.suffix
        have hp₂ := hsuffix.length_le
        refine Option.bind_congr fun s₂ hs₂ => ?_
        have hlt := eat_length hs₂
        have hle : (skip s₂).length ≤ s₂.length := (List.dropWhile_suffix ws).length_le
        simp only [List.length_cons] at h hp₂
        rw [h (skip s₂) (by omega)]
      · rfl

end

/-- **The length of the text is enough fuel.** -/
theorem scan_once_fuel (fl : Floats F) {s : Str} {n m : Nat} (hn : s.length < n) (hm : s.length < m) :
    scan_once fl n s = scan_once fl m s := by
  induction n generalizing m s with
  | zero => cases hn
  | succ n ih =>
      obtain ⟨m, rfl⟩ : ∃ k, m = k + 1 := ⟨m - 1, by omega⟩
      cases s with
      | nil => rfl
      | cons c s =>
          rw [List.length_cons] at hn hm
          have hsame (t : Str) (ht : t.length ≤ s.length) : scan_once fl n t = scan_once fl m t :=
            ih (by omega) (by omega)
          have hlength (k : Nat) := scan_once_keeps (known_length k) fl n
          have hmember (k : Nat) := member_keeps (known_length k) (hlength k)
          have hsame' (t : Str) (ht : t.length ≤ s.length) :
              member (scan_once fl n) t = member (scan_once fl m) t :=
            member_congr fun t' ht' => hsame t' (ht'.trans ht)
          rw [scan_once, scan_once, enclosed_congr (m := m) hlength hsame (by omega) (by omega),
            enclosed_congr (m := m) hmember hsame' (by omega) (by omega)]

end InfraHub.Lib.Json
