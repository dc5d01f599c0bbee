import InfraHub.Lib.Text
import Mathlib.Data.List.Chain

/-!
# Library — Token

The strings and the numbers of JSON texts, as Python's `json` writes and reads them.

* `escape` writes a character between quotes, with or without `ensure_ascii`; `scan` reads up to the
  closing quote.  Two `\u` escapes that are a surrogate pair are read as one character.
* `number` reads an integer, or a number with a fraction or an exponent.
* `readable_of_proper`: what was written is read, if the string has no surrogate pair.  Without
  `ensure_ascii` every string is read (`readable_raw`).
-/

namespace InfraHub.Lib.Json

/-! ### Characters -/

def dquote : Nat := '"'.toNat

def backslash : Nat := '\\'.toNat

def apostrophe : Nat := 0x27

/-- The first and the second half of a surrogate pair. -/
def high (c : Nat) : Bool := 0xd800 ≤ c ∧ c ≤ 0xdbff

def low (c : Nat) : Bool := 0xdc00 ≤ c ∧ c ≤ 0xdfff

/-- The characters with a short escape, and its letter. -/
def shorts : List (Nat × Nat) :=
  [(dquote, dquote), (backslash, backslash), (0xa, 'n'.toNat), (0xd, 'r'.toNat), (0x9, 't'.toNat),
    (0xc, 'f'.toNat), (0x8, 'b'.toNat)]

def hexDigit (k : Nat) : Nat := if k < 10 then '0'.toNat + k else 'a'.toNat + (k - 10)

/-- `\uXXXX`. -/
def unicode (u : Nat) : Str :=
  [backslash, 'u'.toNat, hexDigit (u / 0x1000), hexDigit (u / 0x100 % 0x10), hexDigit (u / 0x10 % 0x10),
    hexDigit (u % 0x10)]

/-- A character between quotes. -/
def escape (ascii : Bool) (c : Nat) : Str :=
  match shorts.find? fun p => p.1 = c with
  | some p => [backslash, p.2]
  | none =>
    if c < 0x20 then unicode c
    else if c < 0x7f ∨ ascii = false then [c]
    else if c < 0x10000 then unicode c
    else unicode (0xd800 + (c - 0x10000) / 0x400) ++ unicode (0xdc00 + (c - 0x10000) % 0x400)

def quoted (ascii : Bool) (s : Str) : Str := dquote :: s.flatMap (escape ascii) ++ [dquote]

/-! ### Reading a string -/

def hexValue (c : Nat) : Option Nat :=
  if '0'.toNat ≤ c ∧ c ≤ '9'.toNat then some (c - '0'.toNat)
  else if 'a'.toNat ≤ c ∧ c ≤ 'f'.toNat then some (c - 'a'.toNat + 10)
  else if 'A'.toNat ≤ c ∧ c ≤ 'F'.toNat then some (c - 'A'.toNat + 10)
  else none

def hex (a b c d : Nat) : Option Nat := do
  return (((← hexValue a) * 0x10 + (← hexValue b)) * 0x10 + (← hexValue c)) * 0x10 + (← hexValue d)

/-- The character of a short escape; a slash has one too. -/
def unshort (e : Nat) : Option Nat :=
  (((('/'.toNat, '/'.toNat)) :: shorts).find? fun p => p.2 = e).map Prod.fst

/-- A character that was read; `esc` if it came as `\uXXXX`. -/
structure Piece where
  code : Nat
  esc : Bool
  deriving DecidableEq

/-- The character before others.  Surrogates that were escaped are put together. -/
def push (p : Piece) : List Piece → List Piece
  | q :: ps =>
    if p.esc ∧ high p.code ∧ q.esc ∧ low q.code then
      ⟨0x10000 + (p.code - 0xd800) * 0x400 + (q.code - 0xdc00), false⟩ :: ps
    else p :: q :: ps
  | [] => [p]

/-- The characters up to the closing quote, and what comes after it. -/
def scan : Str → Option (List Piece × Str)
  | [] => none
  | c :: s =>
    if c = dquote then some ([], s)
    else if c = backslash then
      match s with
      | [] => none
      | e :: s =>
        if e = 'u'.toNat then
          match s with
          | a :: b :: c :: d :: s =>
            (hex a b c d).bind fun u => (scan s).map fun (ps, s) => (push ⟨u, true⟩ ps, s)
          | _ => none
        else (unshort e).bind fun c => (scan s).map fun (ps, s) => (push ⟨c, false⟩ ps, s)
    else if c < 0x20 then none
    else (scan s).map fun (ps, s) => (push ⟨c, false⟩ ps, s)

/-- A string after its opening quote. -/
def string (s : Str) : Option (Str × Str) :=
  (scan s).map fun (ps, s) => (ps.map Piece.code, s)

/-! ### Reading a number -/

def digit (c : Nat) : Bool := '0'.toNat ≤ c ∧ c ≤ '9'.toNat

/-- A part of a text, and the rest. -/
abbrev Part := Str × Str

/-- `[letters]?`. -/
def optional (letters : List Nat) : Str → Part
  | c :: s => if c ∈ letters then ([c], s) else ([], c :: s)
  | [] => ([], [])

def minus (s : Str) : Part := optional ['-'.toNat] s

/-- `0|[1-9]\d*`. -/
def whole : Str → Option Part
  | c :: s =>
    if c = '0'.toNat then some ([c], s)
    else if digit c then some (c :: s.takeWhile digit, s.dropWhile digit)
    else none
  | [] => none

/-- `(\.\d+)?`. -/
def fraction : Str → Part
  | c :: s =>
    if c = '.'.toNat ∧ s.takeWhile digit ≠ [] then (c :: s.takeWhile digit, s.dropWhile digit)
    else ([], c :: s)
  | [] => ([], [])

def sign (s : Str) : Part := optional ['-'.toNat, '+'.toNat] s

/-- `([eE][-+]?\d+)?`. -/
def exponent : Str → Part
  | c :: s =>
    if (c = 'e'.toNat ∨ c = 'E'.toNat) ∧ (sign s).2.takeWhile digit ≠ [] then
      (c :: (sign s).1 ++ (sign s).2.takeWhile digit, (sign s).2.dropWhile digit)
    else ([], c :: s)
  | [] => ([], [])

/-- An integer, or the text of a number with a fraction or an exponent. -/
inductive Number
  | int (n : Int)
  | float (text : Str)
  deriving DecidableEq

def number (s : Str) : Option (Number × Str) :=
  (whole (minus s).2).map fun (digits, s') =>
    let n : Int := (int digits).getD 0
    if (fraction s').1 = [] ∧ (exponent (fraction s').2).1 = [] then
      (.int (if (minus s).1 = [] then n else -n), (exponent (fraction s').2).2)
    else
      (.float ((minus s).1 ++ digits ++ (fraction s').1 ++ (exponent (fraction s').2).1),
        (exponent (fraction s').2).2)

/-- `str(n)`. -/
def strOfInt : Int → Str
  | .ofNat n => strOfNat n
  | .negSucc n => '-'.toNat :: strOfNat (n + 1)

example : number (str "-1.5e3,") = some (.float (str "-1.5e3"), str ",") := by decide +kernel

example : string (str "a\\ud83d\\ude00\" ") = some ([0x61, 0x1f600], str " ") := by decide +kernel

/-! ### What was written is read -/

/-- No surrogate pair, and nothing that is no character. -/
structure Proper (s : Str) : Prop where
  chain : s.IsChain fun a b => ¬ (high a ∧ low b)
  bound : ∀ c ∈ s, c < 0x110000

section
variable {c u : Nat} {s rest : Str} {ps : List Piece}

theorem proper_of_ascii (h : ∀ c ∈ s, c < 0x80) : Proper s := by
  have hpair : s.Pairwise fun a b => ¬ (high a ∧ low b) := by
    refine List.pairwise_of_forall_mem_list fun a ha b _ hab => ?_
    have hlow := h a ha
    simp only [high, decide_eq_true_eq] at hab
    omega
  exact ⟨hpair.isChain, fun c hc => (h c hc).trans (by decide)⟩

theorem hexValue_hexDigit {k : Nat} (h : k < 0x10) : hexValue (hexDigit k) = some k := by
  unfold hexValue hexDigit
  simp only [Char.reduceToNat]
  split_ifs <;> first | omega | (congr 1; omega)

theorem hex_hexDigit (h : u < 0x10000) : hex (hexDigit (u / 0x1000)) (hexDigit (u / 0x100 % 0x10))
    (hexDigit (u / 0x10 % 0x10)) (hexDigit (u % 0x10)) = some u := by
  unfold hex
  rw [hexValue_hexDigit (by omega), hexValue_hexDigit (by omega), hexValue_hexDigit (by omega),
    hexValue_hexDigit (by omega)]
  simp only [Option.bind_eq_bind, Option.bind_some, Option.pure_def, Option.some.injEq]
  omega

theorem scan_unicode (h : u < 0x10000) (hs : scan s = some (ps, rest)) :
    scan (unicode u ++ s) = some (push ⟨u, true⟩ ps, rest) := by
  have hquote : backslash ≠ dquote := by decide
  simp [unicode, scan, hquote, hex_hexDigit h, hs]

theorem scan_short {p : Nat × Nat} (h : p ∈ shorts) (hs : scan s = some (ps, rest)) :
    scan ([backslash, p.2] ++ s) = some (push ⟨p.1, false⟩ ps, rest) := by
  have hquote : backslash ≠ dquote := by decide
  have hletter : ∀ p ∈ shorts, p.2 ≠ 'u'.toNat ∧ unshort p.2 = some p.1 := by decide
  obtain ⟨hu, hunshort⟩ := hletter p h
  rw [List.cons_append, List.singleton_append, scan.eq_def]
  simp only [if_neg hquote, if_true, if_neg hu, hunshort, hs, Option.bind_some, Option.map_some]

theorem scan_raw (hquote : c ≠ dquote) (hback : c ≠ backslash) (hcontrol : ¬ c < 0x20)
    (hs : scan s = some (ps, rest)) : scan (c :: s) = some (push ⟨c, false⟩ ps, rest) := by
  rw [scan.eq_def]
  simp [hquote, hback, hcontrol, hs]

theorem push_of_not {p : Piece} (h : ∀ q ∈ ps.head?, ¬ (p.esc ∧ high p.code ∧ low q.code)) :
    push p ps = p :: ps := by
  cases ps with
  | nil => rfl
  | cons q ps => exact if_neg fun hall => h q rfl ⟨hall.1, hall.2.1, hall.2.2.2⟩

/-- **A character is read**, however it was written. -/
theorem scan_escape {ascii : Bool} (hs : scan s = some (ps, rest))
    (h : ascii → c < 0x110000 ∧ ∀ p ∈ ps.head?, ¬ (high c ∧ low p.code)) :
    ∃ ps', scan (escape ascii c ++ s) = some (ps', rest) ∧
      ps'.map Piece.code = c :: ps.map Piece.code := by
  have hraw : (push ⟨c, false⟩ ps).map Piece.code = c :: ps.map Piece.code := by
    rw [push_of_not fun _ _ hall => Bool.noConfusion hall.1]
    rfl
  unfold escape
  cases hshort : shorts.find? fun p => p.1 = c with
  | some p =>
      obtain rfl : p.1 = c := by simpa using List.find?_some hshort
      exact ⟨_, scan_short (List.mem_of_find?_eq_some hshort) hs, hraw⟩
  | none =>
      have hnone := List.find?_eq_none.mp hshort
      have hquote : c ≠ dquote := by
        rintro rfl
        exact hnone (dquote, dquote) (by decide) (by decide)
      have hback : c ≠ backslash := by
        rintro rfl
        exact hnone (backslash, backslash) (by decide) (by decide)
      dsimp only
      split_ifs with hcontrol hplain hbmp
      · refine ⟨_, scan_unicode (by omega) hs, ?_⟩
        have hnothigh : high c = false := by
          simp only [high, decide_eq_false_iff_not]
          omega
        rw [push_of_not fun _ _ hall => Bool.noConfusion (hnothigh.symm.trans hall.2.1)]
        rfl
      · exact ⟨_, scan_raw hquote hback hcontrol hs, hraw⟩
      · obtain ⟨-, hpair⟩ := h (Bool.of_not_eq_false fun heq => hplain (.inr heq))
        refine ⟨_, scan_unicode hbmp hs, ?_⟩
        rw [push_of_not fun q hq hall => hpair q hq hall.2]
        rfl
      · -- the two halves are put together again
        obtain ⟨hbound, -⟩ := h (Bool.of_not_eq_false fun heq => hplain (.inr heq))
        have hlow := scan_unicode (u := 0xdc00 + (c - 0x10000) % 0x400) (by omega) hs
        have hnothigh : high (0xdc00 + (c - 0x10000) % 0x400) = false := by
          simp only [high, decide_eq_false_iff_not]
          omega
        have hhalf : push ⟨0xdc00 + (c - 0x10000) % 0x400, true⟩ ps =
            ⟨0xdc00 + (c - 0x10000) % 0x400, true⟩ :: ps :=
          push_of_not fun _ _ ⟨_, htrue, _⟩ => absurd htrue (by rw [hnothigh]; decide)
        rw [hhalf] at hlow
        refine ⟨_, List.append_assoc _ _ s ▸ scan_unicode (by omega) hlow, ?_⟩
        have hhigh : high (0xd800 + (c - 0x10000) / 0x400) := by
          simp only [high, decide_eq_true_eq]
          omega
        have hlow' : low (0xdc00 + (c - 0x10000) % 0x400) := by
          simp only [low, decide_eq_true_eq]
          omega
        rw [push, if_pos ⟨rfl, hhigh, rfl, hlow'⟩]
        simp only [List.map_cons, List.cons.injEq, and_true]
        omega

/-- **A string is read.** -/
theorem scan_written {ascii : Bool} (h : ascii → Proper s) (rest : Str) :
    ∃ ps, scan (s.flatMap (escape ascii) ++ dquote :: rest) = some (ps, rest) ∧
      ps.map Piece.code = s := by
  induction s with
  | nil => exact ⟨[], by simp [scan.eq_def], rfl⟩
  | cons c s ih =>
      obtain ⟨ps, hscan, hps⟩ := ih fun hascii =>
        ⟨(h hascii).chain.tail, fun d hd => (h hascii).bound d (List.mem_cons_of_mem c hd)⟩
      have hc (hascii : ascii) : c < 0x110000 ∧ ∀ p ∈ ps.head?, ¬ (high c ∧ low p.code) := by
        obtain ⟨hchain, hbound⟩ := h hascii
        refine ⟨hbound c List.mem_cons_self, fun p hp => (List.isChain_cons.mp hchain).1 p.code ?_⟩
        rw [← hps, List.head?_map]
        exact Option.mem_map_of_mem _ hp
      obtain ⟨ps', hscan', hps'⟩ := scan_escape hscan hc
      refine ⟨ps', ?_, by rw [hps', hps]⟩
      rw [List.flatMap_cons, List.append_assoc, hscan']

/-- What is written between quotes is read, whatever comes after it. -/
def Readable (ascii : Bool) (s : Str) : Prop :=
  ∀ rest, string (s.flatMap (escape ascii) ++ dquote :: rest) = some (s, rest)

theorem readable_of_proper {ascii : Bool} (h : ascii → Proper s) : Readable ascii s := by
  intro rest
  obtain ⟨ps, hscan, hps⟩ := scan_written h rest
  simp [string, hscan, hps]

theorem readable_raw (s : Str) : Readable false s := readable_of_proper nofun

end

/-! ### What is read -/

/-- What `scan` reads, character by character. -/
inductive Scan : Str → List Piece → Str → Prop
  | done {rest : Str} : Scan (dquote :: rest) [] rest
  | raw {c : Nat} {s rest : Str} {ps : List Piece} (hback : c ≠ backslash) (h : Scan s ps rest) :
      Scan (c :: s) (push ⟨c, false⟩ ps) rest
  | short {c e : Nat} {s rest : Str} {ps : List Piece} (hletter : e ≠ 'u'.toNat)
      (hc : unshort e = some c) (h : Scan s ps rest) :
      Scan (backslash :: e :: s) (push ⟨c, false⟩ ps) rest
  | unicode {a b c d u : Nat} {s rest : Str} {ps : List Piece} (hu : hex a b c d = some u)
      (h : Scan s ps rest) :
      Scan (backslash :: 'u'.toNat :: a :: b :: c :: d :: s) (push ⟨u, true⟩ ps) rest

section
variable {s rest : Str} {ps : List Piece}

theorem scan_sound (h : scan s = some (ps, rest)) : Scan s ps rest := by
  fun_induction scan s generalizing ps rest with
  | case1 => cases h
  | case2 s =>
      cases h
      exact .done
  | case3 => cases h
  | case4 a b c d s hquote ih =>
      obtain ⟨u, hu, h⟩ := Option.bind_eq_some_iff.mp h
      obtain ⟨⟨ps', rest'⟩, hscan, heq⟩ := Option.map_eq_some_iff.mp h
      cases heq
      exact .unicode hu (ih hscan)
  | case5 => cases h
  | case6 e s hletter hquote ih =>
      obtain ⟨c, hc, h⟩ := Option.bind_eq_some_iff.mp h
      obtain ⟨⟨ps', rest'⟩, hscan, heq⟩ := Option.map_eq_some_iff.mp h
      cases heq
      exact .short hletter hc (ih hscan)
  | case7 => cases h
  | case8 c s hquote hback hcontrol ih =>
      obtain ⟨⟨ps', rest'⟩, hscan, heq⟩ := Option.map_eq_some_iff.mp h
      cases heq
      exact .raw hback (ih hscan)

/-- The rest is an end of the text, and shorter. -/
theorem Scan.suffix (h : Scan s ps rest) : ∃ c, c :: rest <:+ s := by
  induction h with
  | done => exact ⟨_, List.suffix_rfl⟩
  | raw _ _ ih => exact ih.imp fun _ hsuffix => hsuffix.trans (List.suffix_cons _ _)
  | short _ _ _ ih =>
      exact ih.imp fun _ hsuffix => hsuffix.trans ((List.suffix_cons _ _).trans (List.suffix_cons _ _))
  | @unicode a b c d _ s _ _ _ _ ih =>
      exact ih.imp fun _ hsuffix => hsuffix.trans ⟨[backslash, 'u'.toNat, a, b, c, d], rfl⟩

/-- What is known of a character that was read from ASCII: a surrogate came with an escape. -/
def Piece.Known (p : Piece) : Prop := p.code < 0x110000 ∧ (high p.code ∨ low p.code → p.esc)

/-- The characters have no surrogate pair left. -/
def Joined (ps : List Piece) : Prop :=
  (∀ p ∈ ps, p.Known) ∧ ps.IsChain fun p q => ¬ (high p.code ∧ low q.code)

theorem joined_push {p : Piece} (hp : p.Known) (h : Joined ps) : Joined (push p ps) := by
  obtain ⟨hknown, hchain⟩ := h
  cases ps with
  | nil => exact ⟨by simpa [push] using hp, List.isChain_singleton _⟩
  | cons q ps =>
      obtain ⟨hq, hps⟩ := List.forall_mem_cons.mp hknown
      rw [push]
      split_ifs with hpair
      · obtain ⟨-, hhigh, -, hlow⟩ := hpair
        simp only [high, low, decide_eq_true_eq] at hhigh hlow
        have hplain : ¬ high (0x10000 + (p.code - 0xd800) * 0x400 + (q.code - 0xdc00)) ∧
            ¬ low (0x10000 + (p.code - 0xd800) * 0x400 + (q.code - 0xdc00)) := by
          simp only [high, low, decide_eq_true_eq]
          omega
        refine ⟨List.forall_mem_cons.mpr ⟨⟨?_, fun hor => ?_⟩, hps⟩, ?_⟩
        · dsimp only
          omega
        · exact absurd hor (not_or.mpr hplain)
        · exact hchain.tail.cons fun _ _ hboth => hplain.1 hboth.1
      · refine ⟨List.forall_mem_cons.mpr ⟨hp, hknown⟩, hchain.cons fun q' hq' hboth => hpair ?_⟩
        obtain rfl : q = q' := by simpa using hq'
        exact ⟨hp.2 (.inl hboth.1), hboth.1, hq.2 (.inr hboth.2), hboth.2⟩

theorem hexValue_lt {c k : Nat} (h : hexValue c = some k) : k < 0x10 := by
  unfold hexValue at h
  simp only [Char.reduceToNat] at h
  split_ifs at h
  all_goals
    obtain rfl := Option.some.inj h
    omega

theorem hex_lt {a b c d u : Nat} (h : hex a b c d = some u) : u < 0x10000 := by
  simp only [hex, Option.bind_eq_bind, Option.pure_def, Option.bind_eq_some_iff, Option.some.injEq] at h
  obtain ⟨a', ha, b', hb, c', hc, d', hd, rfl⟩ := h
  have ha := hexValue_lt ha
  have hb := hexValue_lt hb
  have hc := hexValue_lt hc
  have hd := hexValue_lt hd
  omega

theorem unshort_ascii {c e : Nat} (h : unshort e = some c) : c < 0x80 ∧ c ≠ apostrophe := by
  obtain ⟨p, hp, rfl⟩ := Option.map_eq_some_iff.mp h
  have hall : ∀ p ∈ (('/'.toNat, '/'.toNat)) :: shorts, p.1 < 0x80 ∧ p.1 ≠ apostrophe := by decide
  exact hall p (List.mem_of_find?_eq_some hp)

theorem known_of_ascii {c : Nat} (h : c < 0x80) : Piece.Known ⟨c, false⟩ := by
  refine ⟨by dsimp only; omega, fun hor => ?_⟩
  simp only [high, low, decide_eq_true_eq] at hor
  omega

theorem Scan.joined (h : Scan s ps rest) (hs : ∀ c ∈ s, c < 0x80) : Joined ps := by
  induction h with
  | done => exact ⟨by simp, .nil⟩
  | raw _ _ ih =>
      obtain ⟨hc, hs⟩ := List.forall_mem_cons.mp hs
      exact joined_push (known_of_ascii hc) (ih hs)
  | short _ hc _ ih =>
      exact joined_push (known_of_ascii (unshort_ascii hc).1) (ih fun c hmem => hs c (by simp [hmem]))
  | unicode hu _ ih =>
      refine joined_push ⟨?_, fun _ => rfl⟩ (ih fun c hmem => hs c (by simp [hmem]))
      have hlt := hex_lt hu
      dsimp only
      omega

/-- **A string that is read from ASCII is proper.** -/
theorem Scan.proper (h : Scan s ps rest) (hs : ∀ c ∈ s, c < 0x80) : Proper (ps.map Piece.code) := by
  obtain ⟨hknown, hchain⟩ := h.joined hs
  refine ⟨(List.isChain_map _).mpr hchain, fun c hc => ?_⟩
  obtain ⟨p, hp, rfl⟩ := List.mem_map.mp hc
  exact (hknown p hp).1

theorem Scan.bound (h : Scan s ps rest) (hs : ∀ c ∈ s, c < 0x110000) : ∀ p ∈ ps, p.code < 0x110000 := by
  have hpush {p : Piece} {ps : List Piece} (hp : p.code < 0x110000) (hps : ∀ p ∈ ps, p.code < 0x110000) :
      ∀ q ∈ push p ps, q.code < 0x110000 := by
    cases ps with
    | nil => simpa [push] using hp
    | cons q ps =>
        obtain ⟨hq, hps⟩ := List.forall_mem_cons.mp hps
        rw [push]
        split_ifs with hpair
        · obtain ⟨-, hhigh, -, hlow⟩ := hpair
          simp only [high, low, decide_eq_true_eq] at hhigh hlow
          exact List.forall_mem_cons.mpr ⟨by dsimp only; omega, hps⟩
        · exact List.forall_mem_cons.mpr ⟨hp, List.forall_mem_cons.mpr ⟨hq, hps⟩⟩
  induction h with
  | done => exact nofun
  | raw _ _ ih =>
      obtain ⟨hc, hs⟩ := List.forall_mem_cons.mp hs
      exact hpush hc (ih hs)
  | short _ hc _ ih =>
      have hlt := (unshort_ascii hc).1
      exact hpush (by dsimp only; omega) (ih fun c hmem => hs c (by simp [hmem]))
  | unicode hu _ ih =>
      have hlt := hex_lt hu
      exact hpush (by dsimp only; omega) (ih fun c hmem => hs c (by simp [hmem]))

/-- No apostrophe, and no escape for one. -/
inductive Clean : Str → Prop
  | nil : Clean []
  | raw {c : Nat} {s : Str} (hback : c ≠ backslash) (hc : c ≠ apostrophe) (h : Clean s) : Clean (c :: s)
  | short {e : Nat} {s : Str} (hletter : e ≠ 'u'.toNat) (h : Clean s) : Clean (backslash :: e :: s)
  | unicode {a b c d : Nat} {s : Str} (hu : hex a b c d ≠ some apostrophe) (h : Clean s) :
      Clean (backslash :: 'u'.toNat :: a :: b :: c :: d :: s)

theorem apostrophe_push {p : Piece} (hp : p.code ≠ apostrophe) (h : apostrophe ∉ ps.map Piece.code) :
    apostrophe ∉ (push p ps).map Piece.code := by
  cases ps with
  | nil => simpa [push] using hp.symm
  | cons q ps =>
      rw [push]
      split_ifs
      · simp only [List.map_cons, List.mem_cons, not_or] at h ⊢
        refine ⟨?_, h.2⟩
        unfold apostrophe
        omega
      · simpa using ⟨hp.symm, by simpa using h⟩

theorem Clean.cons {c : Nat} (h : Clean (c :: s)) (hback : c ≠ backslash) :
    c ≠ apostrophe ∧ Clean s := by
  cases h with
  | raw _ hc h => exact ⟨hc, h⟩
  | short => exact absurd rfl hback
  | unicode => exact absurd rfl hback

theorem Clean.of_append {a : Str} (h : Clean (a ++ s)) (hback : backslash ∉ a) : Clean s := by
  induction a with
  | nil => exact h
  | cons c a ih =>
      obtain ⟨hc, ha⟩ := List.ne_and_not_mem_of_not_mem_cons hback
      exact ih (h.cons hc.symm).2 ha

theorem Clean.append {a : Str} (ha : Clean a) (hs : Clean s) : Clean (a ++ s) := by
  induction ha with
  | nil => exact hs
  | raw hback hc _ ih => exact .raw hback hc ih
  | short hletter _ ih => exact .short hletter ih
  | unicode hu _ ih => exact .unicode hu ih

theorem clean_of_notMem (hback : backslash ∉ s) (hs : apostrophe ∉ s) : Clean s := by
  induction s with
  | nil => exact .nil
  | cons c s ih =>
      obtain ⟨hcb, hback⟩ := List.ne_and_not_mem_of_not_mem_cons hback
      obtain ⟨hca, hs⟩ := List.ne_and_not_mem_of_not_mem_cons hs
      exact .raw hcb.symm hca.symm (ih hback hs)

theorem clean_unicode {u : Nat} (h : u < 0x10000) (hu : u ≠ apostrophe) : Clean (unicode u) := by
  refine .unicode (fun heq => hu ?_) .nil
  exact Option.some.inj ((hex_hexDigit h).symm.trans heq)

/-- A character is written cleanly, unless it is an apostrophe. -/
theorem clean_escape {ascii : Bool} {c : Nat} (hc : c ≠ apostrophe) (hbound : ascii → c < 0x110000) :
    Clean (escape ascii c) := by
  unfold escape
  cases hshort : shorts.find? fun p => p.1 = c with
  | some p =>
      have hletter : ∀ p ∈ shorts, p.2 ≠ 'u'.toNat := by decide
      exact .short (hletter p (List.mem_of_find?_eq_some hshort)) .nil
  | none =>
      have hback : c ≠ backslash := by
        rintro rfl
        exact List.find?_eq_none.mp hshort (backslash, backslash) (by decide) (by decide)
      dsimp only
      split_ifs with hcontrol hplain hbmp
      · exact clean_unicode (by omega) hc
      · exact .raw hback hc .nil
      · exact clean_unicode hbmp hc
      · have hlt := hbound (Bool.of_not_eq_false fun heq => hplain (.inr heq))
        unfold apostrophe at hc
        exact (clean_unicode (by omega) (by unfold apostrophe; omega)).append
          (clean_unicode (by omega) (by unfold apostrophe; omega))

theorem mem_unicode {u c : Nat} (h : u < 0x10000) (hc : c ∈ unicode u) : c < 0x80 ∧ c ≠ apostrophe := by
  have hdigit (k : Nat) (hk : k < 0x10) : hexDigit k < 0x80 ∧ hexDigit k ≠ apostrophe := by
    unfold hexDigit apostrophe
    simp only [Char.reduceToNat]
    split_ifs <;> omega
  simp only [unicode, List.mem_cons, List.not_mem_nil, or_false] at hc
  rcases hc with rfl | rfl | rfl | rfl | rfl | rfl
  · decide
  · decide
  all_goals exact hdigit _ (by omega)

/-- What is written for a character: itself, or ASCII. -/
theorem mem_escape {ascii : Bool} {c d : Nat} (hbound : ascii → c < 0x110000) (h : d ∈ escape ascii c) :
    d = c ∧ (ascii → c < 0x80) ∨ d < 0x80 ∧ d ≠ apostrophe := by
  unfold escape at h
  cases hshort : shorts.find? fun p => p.1 = c with
  | some p =>
      have hletter : ∀ p ∈ shorts, ∀ d ∈ [backslash, p.2], d < 0x80 ∧ d ≠ apostrophe := by decide
      rw [hshort] at h
      exact .inr (hletter p (List.mem_of_find?_eq_some hshort) d h)
  | none =>
      rw [hshort] at h
      dsimp only at h
      split_ifs at h with hcontrol hplain hbmp
      · exact .inr (mem_unicode (by omega) h)
      · refine .inl ⟨List.mem_singleton.mp h, fun hascii => ?_⟩
        rcases hplain with hlt | hfalse
        · omega
        · exact absurd hascii (by simp [hfalse])
      · exact .inr (mem_unicode hbmp h)
      · have hlt := hbound (Bool.of_not_eq_false fun heq => hplain (.inr heq))
        rcases List.mem_append.mp h with h | h
        · exact .inr (mem_unicode (by omega) h)
        · exact .inr (mem_unicode (by omega) h)

/-- **No apostrophe is read from a clean text.** -/
theorem Scan.clean (h : Scan s ps rest) (hs : Clean s) :
    apostrophe ∉ ps.map Piece.code ∧ Clean rest := by
  induction h with
  | done => exact ⟨by simp, (hs.cons (by decide)).2⟩
  | raw hback _ ih =>
      obtain ⟨hc, hs⟩ := hs.cons hback
      exact (ih hs).imp_left (apostrophe_push hc)
  | short hletter hc _ ih =>
      cases hs with
      | raw hback => exact absurd rfl hback
      | short _ hs => exact (ih hs).imp_left (apostrophe_push (unshort_ascii hc).2)
      | unicode => exact absurd rfl hletter
  | unicode hu _ ih =>
      cases hs with
      | raw hback => exact absurd rfl hback
      | short hletter => exact absurd rfl hletter
      | unicode hne hs => exact (ih hs).imp_left (apostrophe_push fun heq => hne (heq ▸ hu))

end

/-! ### Numbers that were written -/

/-- What may come after a value. -/
def Stop (rest : Str) : Prop := ∀ c ∈ rest.head?, c = ','.toNat ∨ c = ']'.toNat ∨ c = '}'.toNat

section
variable {t rest : Str}

theorem Stop.not_digit (h : Stop rest) {c : Nat} (hc : c ∈ rest.head?) : digit c = false := by
  rcases h c hc with rfl | rfl | rfl
  · rfl
  · rfl
  · rfl

theorem takeWhile_stop (h : Stop rest) (t : Str) :
    (t ++ rest).takeWhile digit = t.takeWhile digit ∧
      (t ++ rest).dropWhile digit = t.dropWhile digit ++ rest := by
  induction t with
  | nil =>
      cases rest with
      | nil => exact ⟨rfl, rfl⟩
      | cons c rest =>
          have hc := h.not_digit rfl
          exact ⟨List.takeWhile_cons_of_neg (by simp [hc]), List.dropWhile_cons_of_neg (by simp [hc])⟩
  | cons c t ih =>
      by_cases hc : digit c
      · simpa [hc] using ih
      · simp [hc]

theorem optional_append {letters : List Nat} (h : Stop rest)
    (hletters : ∀ c ∈ letters, c = '-'.toNat ∨ c = '+'.toNat) (t : Str) :
    optional letters (t ++ rest) = ((optional letters t).1, (optional letters t).2 ++ rest) := by
  cases t with
  | nil =>
      cases rest with
      | nil => rfl
      | cons c rest =>
          refine if_neg fun hmem => ?_
          rcases hletters c hmem with rfl | rfl
          · rcases h _ rfl with heq | heq | heq <;> cases heq
          · rcases h _ rfl with heq | heq | heq <;> cases heq
  | cons c t =>
      simp only [List.cons_append, optional]
      split_ifs <;> rfl

theorem minus_append (h : Stop rest) (t : Str) :
    minus (t ++ rest) = ((minus t).1, (minus t).2 ++ rest) :=
  optional_append h (by simp) t

theorem sign_append (h : Stop rest) (t : Str) :
    sign (t ++ rest) = ((sign t).1, (sign t).2 ++ rest) :=
  optional_append h (by simp) t

theorem whole_append (h : Stop rest) (t : Str) :
    whole (t ++ rest) = (whole t).map fun part => (part.1, part.2 ++ rest) := by
  cases t with
  | nil =>
      cases rest with
      | nil => rfl
      | cons c rest =>
          have hzero : c ≠ '0'.toNat := by
            rcases h c rfl with rfl | rfl | rfl <;> decide
          simp only [List.nil_append, whole, if_neg hzero, h.not_digit rfl]
          rfl
  | cons c t =>
      obtain ⟨htake, hdrop⟩ := takeWhile_stop h t
      simp only [List.cons_append, whole, htake, hdrop]
      split_ifs <;> rfl

theorem fraction_append (h : Stop rest) (t : Str) :
    fraction (t ++ rest) = ((fraction t).1, (fraction t).2 ++ rest) := by
  cases t with
  | nil =>
      cases rest with
      | nil => rfl
      | cons c rest =>
          have hc : c ≠ '.'.toNat := by
            rcases h c rfl with rfl | rfl | rfl <;> decide
          exact if_neg fun hboth => hc hboth.1
  | cons c t =>
      obtain ⟨htake, hdrop⟩ := takeWhile_stop h t
      simp only [List.cons_append, fraction, htake, hdrop]
      split_ifs <;> rfl

theorem exponent_append (h : Stop rest) (t : Str) :
    exponent (t ++ rest) = ((exponent t).1, (exponent t).2 ++ rest) := by
  cases t with
  | nil =>
      cases rest with
      | nil => rfl
      | cons c rest =>
          have hc : ¬ (c = 'e'.toNat ∨ c = 'E'.toNat) := by
            rcases h c rfl with rfl | rfl | rfl <;> decide
          exact if_neg fun hboth => hc hboth.1
  | cons c t =>
      obtain ⟨htake, hdrop⟩ := takeWhile_stop h (sign t).2
      simp only [List.cons_append, exponent, sign_append h, htake, hdrop]
      split_ifs <;> rfl

/-- **A number ends where it ended alone.** -/
theorem number_append (h : Stop rest) (t : Str) :
    number (t ++ rest) = (number t).map fun x => (x.1, x.2 ++ rest) := by
  unfold number
  rw [minus_append h]
  dsimp only
  rw [whole_append h, Option.map_map, Option.map_map]
  congr 1
  ext1 part
  simp only [Function.comp_apply, fraction_append h, exponent_append h]
  split_ifs <;> rfl

theorem head_toDigits {n : Nat} (hn : n ≠ 0) : (Nat.toDigits 10 n).head? ≠ some '0' := by
  induction n using Nat.strongRecOn with
  | ind n ih =>
      rcases Nat.lt_or_ge n 10 with hlt | hge
      · rw [Nat.toDigits_of_lt_base hlt]
        have hall : ∀ n < 10, n ≠ 0 → [Nat.digitChar n].head? ≠ some '0' := by decide
        exact hall n hlt hn
      · have hquot := ih (n / 10) (by omega) (by omega)
        rw [Nat.toDigits_of_base_le (by decide) hge, List.head?_append_of_ne_nil _ Nat.toDigits_ne_nil]
        exact hquot

theorem whole_strOfNat (n : Nat) : whole (strOfNat n) = some (strOfNat n, []) := by
  have hdigits : ∀ c ∈ strOfNat n, digit c := by
    intro c hc
    exact decide_eq_true (digit_of_mem_strOfNat hc)
  by_cases hn : n = 0
  · subst hn
    rfl
  · cases hs : strOfNat n with
    | nil => exact absurd hs (strOfNat_ne_nil n)
    | cons c s =>
        rw [hs] at hdigits
        obtain ⟨hc, hrest⟩ := List.forall_mem_cons.mp hdigits
        have hzero : c ≠ '0'.toNat := by
          rintro rfl
          refine head_toDigits hn ?_
          have hhead := congrArg List.head? hs
          rw [strOfNat, List.head?_map] at hhead
          obtain ⟨a, ha, heq⟩ := Option.map_eq_some_iff.mp hhead
          rwa [← Char.toNat_inj.mp heq]
        simp only [whole, if_neg hzero, if_pos hc, List.takeWhile_eq_self_iff.mpr hrest,
          List.dropWhile_eq_nil_iff.mpr hrest]

/-- **An integer is read.** -/
theorem number_strOfInt (n : Int) : number (strOfInt n) = some (.int n, []) := by
  cases n with
  | ofNat n =>
      have hminus : minus (strOfNat n) = ([], strOfNat n) := by
        cases hs : strOfNat n with
        | nil => rfl
        | cons c s =>
            have hlow := (digit_of_mem_strOfNat (hs ▸ List.mem_cons_self : c ∈ strOfNat n)).1
            refine if_neg fun hmem => ?_
            obtain rfl : c = 0x2d := by simpa using hmem
            omega
      simp [strOfInt, number, hminus, whole_strOfNat, fraction, exponent, int_strOfNat]
  | negSucc n =>
      simp [strOfInt, number, minus, optional, whole_strOfNat, fraction, exponent, int_strOfNat, Int.negSucc_eq]

/-! What a number takes from a text. -/

/-- ASCII, but neither a backslash nor an apostrophe. -/
def Plain (c : Nat) : Prop := c < 0x80 ∧ c ≠ backslash ∧ c ≠ apostrophe

instance (c : Nat) : Decidable (Plain c) := inferInstanceAs (Decidable (_ ∧ _))

/-- Printable ASCII. -/
def Printed (c : Nat) : Prop := 0x20 ≤ c ∧ c < 0x7f

instance (c : Nat) : Decidable (Printed c) := inferInstanceAs (Decidable (_ ∧ _))

theorem plain_of_digit {c : Nat} (h : digit c) : Plain c := by
  simp only [digit, Char.reduceToNat, decide_eq_true_eq] at h
  simp only [Plain, backslash, apostrophe, Char.reduceToNat]
  omega

/-- The part was taken from the text, and is plain. -/
def Taken (s : Str) (part : Part) : Prop := s = part.1 ++ part.2 ∧ ∀ c ∈ part.1, Plain c

theorem Taken.notMem {s : Str} {part : Part} (h : Taken s part) : backslash ∉ part.1 :=
  fun hmem => (h.2 _ hmem).2.1 rfl

/-- A character of a number. -/
def Numeral (c : Nat) : Prop := digit c ∨ c ∈ (str "-+.eE")

theorem Numeral.plain {c : Nat} (h : Numeral c) : Plain c := by
  rcases h with h | h
  · exact plain_of_digit h
  · have hall : ∀ c ∈ str "-+.eE", Plain c := by decide +kernel
    exact hall c h

theorem Numeral.printed {c : Nat} (h : Numeral c) : Printed c := by
  rcases h with h | h
  · simp only [digit, Char.reduceToNat, decide_eq_true_eq] at h
    exact ⟨by omega, by omega⟩
  · have hall : ∀ c ∈ str "-+.eE", Printed c := by decide +kernel
    exact hall c h

/-- The part was taken from the text, and is of a number. -/
def Cut (s : Str) (part : Part) : Prop := s = part.1 ++ part.2 ∧ ∀ c ∈ part.1, Numeral c

theorem cut_none (s : Str) : Cut s ([], s) := ⟨rfl, by simp⟩

theorem cut_digits (s : Str) : Cut s (s.takeWhile digit, s.dropWhile digit) :=
  ⟨List.takeWhile_append_dropWhile.symm, fun _ hc => .inl (List.mem_takeWhile_imp hc)⟩

theorem Cut.cons {c : Nat} {s : Str} {part : Part} (hc : Numeral c) (h : Cut s part) :
    Cut (c :: s) (c :: part.1, part.2) :=
  ⟨by rw [List.cons_append, ← h.1], List.forall_mem_cons.mpr ⟨hc, h.2⟩⟩

theorem Cut.append {s : Str} {part part' : Part} (h : Cut s part) (h' : Cut part.2 part') :
    Cut s (part.1 ++ part'.1, part'.2) := by
  refine ⟨by rw [List.append_assoc, ← h'.1, ← h.1], fun c hmem => ?_⟩
  rcases List.mem_append.mp hmem with hmem | hmem
  · exact h.2 c hmem
  · exact h'.2 c hmem

theorem cut_optional {letters : List Nat} (hletters : ∀ c ∈ letters, c ∈ str "-+.eE") (s : Str) :
    Cut s (optional letters s) := by
  cases s with
  | nil => exact cut_none []
  | cons c s =>
      rw [optional]
      split_ifs with hc
      · exact (cut_none s).cons (.inr (hletters c hc))
      · exact cut_none _

theorem cut_whole {s : Str} {part : Part} (h : whole s = some part) : Cut s part ∧ part.1 ≠ [] := by
  cases s with
  | nil => cases h
  | cons c s =>
      rw [whole] at h
      split_ifs at h with hzero hdigit
      · cases h
        exact ⟨(cut_none s).cons (.inl (hzero ▸ by decide)), List.cons_ne_nil _ _⟩
      · cases h
        exact ⟨(cut_digits s).cons (.inl hdigit), List.cons_ne_nil _ _⟩

theorem cut_fraction (s : Str) : Cut s (fraction s) := by
  cases s with
  | nil => exact cut_none []
  | cons c s =>
      rw [fraction]
      split_ifs with hc
      · exact (cut_digits s).cons (.inr (hc.1 ▸ by decide +kernel))
      · exact cut_none _

theorem cut_exponent (s : Str) : Cut s (exponent s) := by
  cases s with
  | nil => exact cut_none []
  | cons c s =>
      rw [exponent]
      split_ifs with hc
      · refine ((cut_optional (by decide +kernel) s).append (cut_digits (sign s).2)).cons (.inr ?_)
        rcases hc.1 with rfl | rfl <;> decide +kernel
      · exact cut_none _

/-- **A number is a beginning of the text.** -/
theorem cut_number {s : Str} {x : Number} {rest : Str} (h : number s = some (x, rest)) :
    ∃ a, a ≠ [] ∧ Cut s (a, rest) := by
  obtain ⟨part, hwhole, heq⟩ := Option.map_eq_some_iff.mp h
  obtain ⟨hcut, hne⟩ := cut_whole hwhole
  have hall := ((cut_optional (by decide +kernel) s).append hcut).append
    ((cut_fraction part.2).append (cut_exponent _))
  have hrest : (exponent (fraction part.2).2).2 = rest := by
    dsimp only at heq
    split_ifs at heq <;> exact congrArg Prod.snd heq
  refine ⟨_, ?_, hrest ▸ hall⟩
  simp [hne]

theorem taken_number {s : Str} {x : Number} {rest : Str} (h : number s = some (x, rest)) :
    ∃ a, a ≠ [] ∧ Taken s (a, rest) := by
  obtain ⟨a, hne, heq, hnumeral⟩ := cut_number h
  exact ⟨a, hne, heq, fun c hc => (hnumeral c hc).plain⟩

end

end InfraHub.Lib.Json
