import InfraHub.Lib.Text

/-!
# Library — Pattern

Regular expressions with lookaheads, as Python's `re` reads and matches them, over any code points.
What is repeated is one character of a set.

* `ends n r cs`: what may be left of `cs` after `r` has matched a front part of it, in a string of
  length `n`; `re_match` is `re.match`.
* `ends_seq`, `ends_look`, `mem_many`, …: what the parts of a pattern mean.
* `parse` reads literals, escapes, classes, `.`, `\d`, `^`, `$`, `(?=…)`, `*` and `\x7bk,\x7d`.
  Other syntax is not read, nor is a number of `MAXREPEAT`.
* `read_number`: a number is read digit by digit.
-/

namespace InfraHub.Lib

/-- The characters in the ranges, or the others. -/
structure CharSet where
  negated : Bool
  ranges : List (Nat × Nat)
  deriving DecidableEq

def CharSet.admits (s : CharSet) (c : Nat) : Bool :=
  s.negated != s.ranges.any fun p => p.1 ≤ c && c ≤ p.2

inductive Pattern
  | eps
  | set (s : CharSet)
  /-- at least `k` characters -/
  | many (k : Nat) (s : CharSet)
  | seq (r t : Pattern)
  /-- `(?=r)` -/
  | look (r : Pattern)
  | bol
  | eol
  deriving DecidableEq

namespace Pattern

def newline : Nat := '\n'.toNat

/-- `.` -/
def dot : CharSet := ⟨true, [(newline, newline)]⟩

/-- `\d` -/
def digits : List (Nat × Nat) := zeros.map fun z => (z, z + 9)

/-! ### Matching -/

/-- What may be left after some characters of the set. -/
def tails (s : CharSet) : Str → List Str
  | [] => [[]]
  | c :: cs => (c :: cs) :: if s.admits c then tails s cs else []

def ends (n : Nat) : Pattern → Str → List Str
  | .eps, cs => [cs]
  | .set _, [] => []
  | .set s, c :: cs => if s.admits c then [cs] else []
  | .many k s, cs => (tails s cs).filter fun t => k + t.length ≤ cs.length
  | .seq r t, cs => (ends n r cs).flatMap (ends n t)
  | .look r, cs => if ends n r cs = [] then [] else [cs]
  | .bol, cs => if cs.length = n then [cs] else []
  | .eol, cs => if cs = [] ∨ cs = [newline] then [cs] else []

def re_match (r : Pattern) (cs : Str) : Bool := ends cs.length r cs ≠ []

/-! ### Reading -/

/-- `MAXREPEAT` -/
def maxrepeat : Nat := 0xffffffff

/-- What was read last in a class. -/
inductive Last
  | none
  | char (c : Nat)
  | category

/-- A class that is being read; after a dash that makes a range if `dash`. -/
structure Class where
  negated : Bool
  ranges : List (Nat × Nat)
  last : Last
  dash : Bool

/-- Where the reader is. -/
inductive Mode
  | items
  | escape
  /-- after `(`, and after `(?` -/
  | group
  | extension
  /-- after `[` -/
  | opened
  | cls (s : Class)
  | clsEscape (s : Class)
  /-- in the number of a repetition, and after its comma -/
  | lower (number : Str)
  | upper (number : Str)

/-- The last character is one of the class. -/
def Class.flush (s : Class) : List (Nat × Nat) :=
  match s.last with
  | .char c => (c, c) :: s.ranges
  | _ => s.ranges

def Class.char (s : Class) (c : Nat) : Option Class :=
  if s.dash then
    match s.last with
    | .char lo => if lo ≤ c then some ⟨s.negated, (lo, c) :: s.ranges, .none, false⟩ else none
    | _ => none
  else some ⟨s.negated, s.flush, .char c, false⟩

/-- `\d` in a class. -/
def Class.digit (s : Class) : Option Class :=
  if s.dash then none else some ⟨s.negated, digits ++ s.flush, .category, false⟩

def Class.hyphen (s : Class) : Option Class :=
  match s.last with
  | .char _ => if s.dash then s.char '-'.toNat else some { s with dash := true }
  | .none => s.char '-'.toNat
  | .category => none

def Class.close (s : Class) : CharSet :=
  ⟨s.negated, if s.dash then ('-'.toNat, '-'.toNat) :: s.flush else s.flush⟩

/-- Nothing was read yet. -/
def Class.start (s : Class) : Bool :=
  match s.last with
  | .none => s.ranges = []
  | _ => false

def alphanumeric (c : Nat) : Bool :=
  ('0'.toNat ≤ c ∧ c ≤ '9'.toNat) ∨ ('A'.toNat ≤ c ∧ c ≤ 'Z'.toNat) ∨
    ('a'.toNat ≤ c ∧ c ≤ 'z'.toNat)

def literal (c : Nat) : Pattern := .set ⟨false, [(c, c)]⟩

/-- Items of which the last comes first. -/
def seqs (items : List Pattern) : Pattern := items.foldl (fun r i => .seq i r) .eps

/-- The open groups, the inner first. -/
abbrev Levels := List (List Pattern)

def push (r : Pattern) : Levels → Option Levels
  | items :: outer => some ((r :: items) :: outer)
  | [] => none

def repeated (k : Nat) : Levels → Option Levels
  | (.set s :: items) :: outer => some ((.many k s :: items) :: outer)
  | _ => none

def closeGroup : Levels → Option Levels
  | items :: outer => push (.look (seqs items)) outer
  | [] => none

def readItem (levels : Levels) (c : Nat) : Option (Mode × Levels) :=
  if c = '('.toNat then some (.group, levels)
  else if c = ')'.toNat then (closeGroup levels).map (.items, ·)
  else if c = '['.toNat then some (.opened, levels)
  else if c = '\\'.toNat then some (.escape, levels)
  else if c = '{'.toNat then some (.lower [], levels)
  else if c = '*'.toNat then (repeated 0 levels).map (.items, ·)
  else if c = '.'.toNat then (push (.set dot) levels).map (.items, ·)
  else if c = '^'.toNat then (push .bol levels).map (.items, ·)
  else if c = '$'.toNat then (push .eol levels).map (.items, ·)
  else if c ∈ str "+?|" then none
  else (push (literal c) levels).map (.items, ·)

def readClass (s : Class) (levels : Levels) (c : Nat) : Option (Mode × Levels) :=
  if c = ']'.toNat ∧ !s.start then (push (.set s.close) levels).map (.items, ·)
  else if c = '\\'.toNat then some (.clsEscape s, levels)
  else if c = '-'.toNat then s.hyphen.map (.cls ·, levels)
  else (s.char c).map (.cls ·, levels)

def readChar (state : Mode × Levels) (c : Nat) : Option (Mode × Levels) :=
  let levels := state.2
  match state.1 with
  | .items => readItem levels c
  | .escape =>
    if c = 'd'.toNat then (push (.set ⟨false, digits⟩) levels).map (.items, ·)
    else if alphanumeric c then none
    else (push (literal c) levels).map (.items, ·)
  | .group => if c = '?'.toNat then some (.extension, levels) else none
  | .extension => if c = '='.toNat then some (.items, [] :: levels) else none
  | .opened =>
    if c = '^'.toNat then some (.cls ⟨true, [], .none, false⟩, levels)
    else readClass ⟨false, [], .none, false⟩ levels c
  | .cls s => readClass s levels c
  | .clsEscape s =>
    if c = 'd'.toNat then s.digit.map (.cls ·, levels)
    else if alphanumeric c then none
    else (s.char c).map (.cls ·, levels)
  | .lower number =>
    if '0'.toNat ≤ c ∧ c ≤ '9'.toNat then some (.lower (number ++ [c]), levels)
    else if c = ','.toNat ∧ number ≠ [] then some (.upper number, levels)
    else none
  | .upper number =>
    if c = '}'.toNat then
      (int number).bind fun k =>
        if maxrepeat ≤ k then none else (repeated k levels).map (.items, ·)
    else none

/-- `re.compile`. -/
def parse (text : Str) : Option Pattern :=
  (text.foldlM readChar (.items, [[]])).bind fun state =>
    match state with
    | (.items, [items]) => some (seqs items)
    | _ => none

/-! ### What the parts mean -/

section
variable {n k : Nat} {r t : Pattern} {s : CharSet} {cs u : Str} {c : Nat}

theorem ends_seq : ends n (.seq r t) cs ≠ [] ↔ ∃ u ∈ ends n r cs, ends n t u ≠ [] := by
  simp only [ends, ne_eq, List.flatMap_eq_nil_iff, not_forall, exists_prop]

theorem ends_look : ends n (.seq (.look r) t) cs ≠ [] ↔ ends n r cs ≠ [] ∧ ends n t cs ≠ [] := by
  rw [ends_seq]
  by_cases h : ends n r cs = []
  · simp [ends, h]
  · simp [ends, h]

theorem ends_bol : ends cs.length (.seq .bol t) cs ≠ [] ↔ ends cs.length t cs ≠ [] := by
  simp [ends]

theorem ends_set : ends n (.seq (.set s) t) cs ≠ [] ↔
    ∃ c u, cs = c :: u ∧ s.admits c ∧ ends n t u ≠ [] := by
  rw [ends_seq]
  cases cs with
  | nil => simp [ends]
  | cons c cs => by_cases h : s.admits c <;> simp [ends, h]

theorem mem_tails : u ∈ tails s cs ↔ ∃ front, cs = front ++ u ∧ ∀ c ∈ front, s.admits c := by
  induction cs with
  | nil =>
      constructor
      · intro h
        have hu : u = [] := List.mem_singleton.mp h
        exact ⟨[], hu.symm, nofun⟩
      · rintro ⟨front, h, -⟩
        simp [tails, (List.append_eq_nil_iff.mp h.symm).2]
  | cons c cs ih =>
      rw [tails, List.mem_cons]
      constructor
      · rintro (rfl | h)
        · exact ⟨[], rfl, nofun⟩
        · obtain ⟨hc, h⟩ := List.mem_ite_nil_right.mp h
          obtain ⟨front, rfl, hfront⟩ := ih.mp h
          exact ⟨c :: front, rfl, List.forall_mem_cons.mpr ⟨hc, hfront⟩⟩
      · rintro ⟨front, h, hfront⟩
        cases front with
        | nil => exact .inl h.symm
        | cons d front =>
            obtain ⟨rfl, rfl⟩ := List.cons.inj h
            obtain ⟨hc, hfront⟩ := List.forall_mem_cons.mp hfront
            exact .inr (List.mem_ite_nil_right.mpr ⟨hc, ih.mpr ⟨front, rfl, hfront⟩⟩)

theorem mem_many : u ∈ ends n (.many k s) cs ↔
    ∃ front, cs = front ++ u ∧ k ≤ front.length ∧ ∀ c ∈ front, s.admits c := by
  rw [ends, List.mem_filter, mem_tails]
  constructor
  · rintro ⟨⟨front, rfl, hfront⟩, hk⟩
    refine ⟨front, rfl, ?_, hfront⟩
    simp only [List.length_append, decide_eq_true_eq] at hk
    omega
  · rintro ⟨front, rfl, hk, hfront⟩
    refine ⟨⟨front, rfl, hfront⟩, ?_⟩
    simp only [List.length_append, decide_eq_true_eq]
    omega

theorem ends_eol : ends n (.seq .eol .eps) cs ≠ [] ↔ cs = [] ∨ cs = [newline] := by
  rw [ends_seq]
  by_cases h : cs = [] ∨ cs = [newline]
  · simp [ends, h]
  · simp [ends, h]

theorem admits_dot : dot.admits c ↔ c ≠ newline := by
  have hsame : newline ≤ c ∧ c ≤ newline ↔ c = newline := by omega
  simp [CharSet.admits, dot, ← hsame]

theorem admits_digits : CharSet.admits ⟨false, digits⟩ c ↔ (decimal c).isSome := by
  simp only [CharSet.admits, digits, decimal, Bool.false_bne, List.any_map, Option.isSome_map,
    List.find?_isSome, List.any_eq_true, Function.comp_apply, Bool.and_eq_true, decide_eq_true_eq]
  refine exists_congr fun z => and_congr_right fun _ => ?_
  omega

/-! ### Reading a text in parts -/

theorem read_append {a b : Str} {state state' : Mode × Levels}
    (h : a.foldlM readChar state = some state') :
    (a ++ b).foldlM readChar state = b.foldlM readChar state' := by
  rw [List.foldlM_append, h, Option.bind_eq_bind, Option.bind_some]

theorem read_number {levels : Levels} {number more : Str}
    (h : ∀ c ∈ more, '0'.toNat ≤ c ∧ c ≤ '9'.toNat) (rest : Str) :
    (more ++ rest).foldlM readChar (.lower number, levels) =
      rest.foldlM readChar (.lower (number ++ more), levels) := by
  induction more generalizing number with
  | nil => rw [List.nil_append, List.append_nil]
  | cons c more ih =>
      obtain ⟨hc, hmore⟩ := List.forall_mem_cons.mp h
      have hread : readChar (.lower number, levels) c = some (.lower (number ++ [c]), levels) := by
        simp only [readChar]
        exact if_pos hc
      rw [List.cons_append, List.foldlM_cons, hread, Option.bind_eq_bind, Option.bind_some, ih hmore,
        List.append_assoc, List.singleton_append]

end

end Pattern

end InfraHub.Lib
