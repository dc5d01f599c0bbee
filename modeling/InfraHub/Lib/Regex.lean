import Mathlib.Data.List.Basic

/-!
# Library — Regex

Regular expressions over characters, with the two ways Python's `re` matches them.

* `ends r cs`: what may be left of `cs` after `r` has matched a front part of it.
* `Consumes`: the same as a relation, by the shape of the expression; `mem_ends` says they agree.
* `match_start` is `re.match`, `fullmatch` is `re.fullmatch`.
* `parse`: the expressions written with literals, escapes, classes, groups, `|`, `*`, `+`, `?` and
  `$`.  Other syntax is not read.
-/

namespace InfraHub.Lib

inductive Regex
  | eps
  /-- one character in the ranges, or outside them -/
  | set (negated : Bool) (ranges : List (Char × Char))
  | seq (r s : Regex)
  | alt (r s : Regex)
  | star (r : Regex)
  /-- `$`: the end, or before a newline at the end -/
  | eol
  /-- `\Z`: the end -/
  | eos
  deriving DecidableEq, Repr

namespace Regex

def lit (c : Char) : Regex := .set false [(c, c)]

def plus (r : Regex) : Regex := .seq r (.star r)

def opt (r : Regex) : Regex := .alt r .eps

/-- The character is one of the set. -/
def admits (negated : Bool) (ranges : List (Char × Char)) (c : Char) : Bool :=
  negated != ranges.any fun p => p.1 ≤ c && c ≤ p.2

theorem between_self (c d : Char) : (decide (d ≤ c) && decide (c ≤ d)) = decide (c = d) := by
  rw [Bool.eq_iff_iff, Bool.and_eq_true, decide_eq_true_eq, decide_eq_true_eq, decide_eq_true_eq]
  constructor
  · intro h
    exact Char.le_antisymm h.2 h.1
  · rintro rfl
    exact ⟨Char.le_refl c, Char.le_refl c⟩

/-- The rest of the input at which `$` holds. -/
def atEol (cs : List Char) : Bool := cs = [] || cs = ['\n']

/-- Up to `n` rounds of `step`, each of which consumes something. -/
def rounds (step : List Char → List (List Char)) : Nat → List Char → List (List Char)
  | 0, cs => [cs]
  | n + 1, cs => cs :: ((step cs).filter fun t => t.length < cs.length).flatMap (rounds step n)

def ends : Regex → List Char → List (List Char)
  | .eps, cs => [cs]
  | .set _ _, [] => []
  | .set negated ranges, c :: cs => if admits negated ranges c then [cs] else []
  | .seq r s, cs => (r.ends cs).flatMap s.ends
  | .alt r s, cs => r.ends cs ++ s.ends cs
  | .star r, cs => rounds r.ends cs.length cs
  | .eol, cs => if atEol cs then [cs] else []
  | .eos, cs => if cs = [] then [cs] else []

def match_start (r : Regex) (cs : List Char) : Bool := !(r.ends cs).isEmpty

def fullmatch (r : Regex) (cs : List Char) : Bool := [] ∈ r.ends cs

/-- `r` matches a front part of the first list and leaves the second. -/
inductive Consumes : Regex → List Char → List Char → Prop where
  | eps (cs : List Char) : Consumes .eps cs cs
  | set {negated : Bool} {ranges : List (Char × Char)} {c : Char} {cs : List Char}
      (h : admits negated ranges c = true) : Consumes (.set negated ranges) (c :: cs) cs
  | seq {r s : Regex} {cs t u : List Char} (h : Consumes r cs t) (h' : Consumes s t u) :
      Consumes (.seq r s) cs u
  | left {r s : Regex} {cs t : List Char} (h : Consumes r cs t) : Consumes (.alt r s) cs t
  | right {r s : Regex} {cs t : List Char} (h : Consumes s cs t) : Consumes (.alt r s) cs t
  | stop {r : Regex} (cs : List Char) : Consumes (.star r) cs cs
  | more {r : Regex} {cs t u : List Char} (h : Consumes r cs t) (h' : Consumes (.star r) t u) :
      Consumes (.star r) cs u
  | eol {cs : List Char} (h : atEol cs = true) : Consumes .eol cs cs
  | eos : Consumes .eos [] []

/-- What is left is a tail of what was there. -/
theorem Consumes.suffix {r : Regex} {cs t : List Char} (h : Consumes r cs t) : t <:+ cs := by
  induction h with
  | eps | stop | eol _ | eos => exact List.suffix_refl _
  | set _ => exact List.suffix_cons _ _
  | seq _ _ ih ih' | more _ _ ih ih' => exact ih'.trans ih
  | left _ ih | right _ ih => exact ih

theorem consumes_of_mem_rounds {r : Regex} (hr : ∀ {cs t}, t ∈ r.ends cs → Consumes r cs t)
    {n : Nat} {cs t : List Char} (h : t ∈ rounds r.ends n cs) : Consumes (.star r) cs t := by
  induction n generalizing cs with
  | zero =>
      rw [List.mem_singleton.mp h]
      exact .stop cs
  | succ n ih =>
      rcases List.mem_cons.mp h with rfl | h
      · exact .stop t
      · obtain ⟨u, hu, h⟩ := List.mem_flatMap.mp h
        exact .more (hr (List.mem_of_mem_filter hu)) (ih h)

/-- A round that consumes nothing may be left out. -/
theorem mem_rounds_of_consumes {r : Regex} (hr : ∀ {cs t}, Consumes r cs t → t ∈ r.ends cs)
    {n : Nat} {cs t : List Char} (hn : cs.length ≤ n) (h : Consumes (.star r) cs t) :
    t ∈ rounds r.ends n cs := by
  generalize hs : Regex.star r = s at h
  induction h generalizing n with
  | stop cs => cases n <;> simp [rounds]
  | @more _ cs u _ h _ _ ih =>
      cases hs
      by_cases hlt : u.length < cs.length
      · obtain ⟨m, rfl⟩ : ∃ m, n = m + 1 := ⟨n - 1, by omega⟩
        refine List.mem_cons_of_mem _ (List.mem_flatMap.mpr ⟨u, ?_, ih (by omega) rfl⟩)
        simpa using ⟨hr h, hlt⟩
      · have hu : u = cs := h.suffix.eq_of_length_le (by omega)
        subst hu
        exact ih hn rfl
  | _ => cases hs

/-- **The matcher is the relation.** -/
theorem mem_ends {r : Regex} {cs t : List Char} : t ∈ r.ends cs ↔ Consumes r cs t := by
  induction r generalizing cs t with
  | eps =>
      constructor
      · intro h
        rw [List.mem_singleton.mp h]
        exact .eps cs
      · rintro ⟨⟩
        exact List.mem_singleton.mpr rfl
  | set negated ranges =>
      constructor
      · intro h
        cases cs with
        | nil => cases h
        | cons c cs =>
            simp only [ends, List.mem_ite_nil_right, List.mem_singleton] at h
            rw [h.2]
            exact .set h.1
      · rintro ⟨⟩
        simp [ends, *]
  | seq r s ihr ihs =>
      constructor
      · intro h
        obtain ⟨u, hu, h⟩ := List.mem_flatMap.mp h
        exact .seq (ihr.mp hu) (ihs.mp h)
      · intro h
        cases h with
        | seq h h' => exact List.mem_flatMap.mpr ⟨_, ihr.mpr h, ihs.mpr h'⟩
  | alt r s ihr ihs =>
      constructor
      · intro h
        rcases List.mem_append.mp h with h | h
        · exact .left (ihr.mp h)
        · exact .right (ihs.mp h)
      · intro h
        cases h with
        | left h => exact List.mem_append_left _ (ihr.mpr h)
        | right h => exact List.mem_append_right _ (ihs.mpr h)
  | star r ih => exact ⟨consumes_of_mem_rounds ih.mp, mem_rounds_of_consumes ih.mpr (Nat.le_refl _)⟩
  | eol =>
      constructor
      · intro h
        simp only [ends, List.mem_ite_nil_right, List.mem_singleton] at h
        rw [h.2]
        exact .eol h.1
      · rintro ⟨⟩
        simp [ends, *]
  | eos =>
      constructor
      · intro h
        simp only [ends, List.mem_ite_nil_right, List.mem_singleton] at h
        rw [h.2, h.1]
        exact .eos
      · rintro ⟨⟩
        simp [ends]

theorem match_start_iff {r : Regex} {cs : List Char} :
    r.match_start cs = true ↔ ∃ t, Consumes r cs t := by
  simp only [match_start, Bool.not_eq_true', List.isEmpty_eq_false_iff_exists_mem, mem_ends]

theorem fullmatch_iff {r : Regex} {cs : List Char} :
    r.fullmatch cs = true ↔ Consumes r cs [] := by
  simp only [fullmatch, decide_eq_true_eq, mem_ends]

/-! ### Reading an expression -/

/-- A group being read: the alternatives that are complete, and the items of the current one, the
last first. -/
structure Frame where
  alts : List Regex
  items : List Regex

def Frame.empty : Frame := ⟨[], []⟩

def Frame.push (f : Frame) (r : Regex) : Frame := { f with items := r :: f.items }

def Frame.current (f : Frame) : Regex := f.items.foldl (fun r i => .seq i r) .eps

def Frame.close (f : Frame) : Regex := f.alts.foldr .alt f.current

/-- Where the reader is. -/
inductive Mode
  /-- between items; `quantifiable` where an item without a quantifier came last -/
  | items (quantifiable : Bool)
  /-- after a backslash -/
  | escape
  /-- after `(` -/
  | group
  /-- after `(?` -/
  | extension
  /-- after `(?P` -/
  | named
  /-- in the name of a group -/
  | name
  /-- after `[` -/
  | set
  /-- in a class, with the last range first -/
  | ranges (negated : Bool) (ranges : List (Char × Char))
  /-- after a backslash in a class -/
  | setEscape (negated : Bool) (ranges : List (Char × Char))
  /-- after a dash in a class -/
  | dash (negated : Bool) (ranges : List (Char × Char))

/-- A quantifier on the last item. -/
def quantify (q : Regex → Regex) (quantifiable : Bool) :
    List Frame → Option (Mode × List Frame)
  | ⟨alts, r :: items⟩ :: fs =>
      if quantifiable then some (.items false, ⟨alts, q r :: items⟩ :: fs) else none
  | _ => none

def readItem (quantifiable : Bool) (fs : List Frame) (c : Char) : Option (Mode × List Frame) :=
  match fs with
  | [] => none
  | f :: fs =>
      match c with
      | '(' => some (.group, f :: fs)
      | ')' =>
          match fs with
          | [] => none
          | g :: gs => some (.items true, g.push f.close :: gs)
      | '|' => some (.items false, ⟨f.alts ++ [f.current], []⟩ :: fs)
      | '*' => quantify .star quantifiable (f :: fs)
      | '+' => quantify .plus quantifiable (f :: fs)
      | '?' => quantify .opt quantifiable (f :: fs)
      | '.' => some (.items true, f.push (.set true [('\n', '\n')]) :: fs)
      | '$' => some (.items true, f.push .eol :: fs)
      | '\\' => some (.escape, f :: fs)
      | '[' => some (.set, f :: fs)
      | '^' => none
      | '{' => none
      | _ => some (.items true, f.push (lit c) :: fs)

def readEscape (c : Char) : Option Regex :=
  match c with
  | 'Z' => some .eos
  | _ => if c.isAlphanum then none else some (lit c)

def readChar (s : Mode × List Frame) (c : Char) : Option (Mode × List Frame) :=
  match s with
  | (_, []) => none
  | (.items quantifiable, fs) => readItem quantifiable fs c
  | (.escape, f :: fs) => (readEscape c).map fun r => (.items true, f.push r :: fs)
  | (.group, fs) => if c = '?' then some (.extension, fs) else readItem false (.empty :: fs) c
  | (.extension, fs) =>
      if c = ':' then some (.items false, .empty :: fs)
      else if c = 'P' then some (.named, fs)
      else none
  | (.named, fs) => if c = '<' then some (.name, fs) else none
  | (.name, fs) => if c = '>' then some (.items false, .empty :: fs) else some (.name, fs)
  | (.set, fs) =>
      if c = '^' then some (.ranges true [], fs)
      else if c = ']' then none
      else if c = '\\' then some (.setEscape false [], fs)
      else some (.ranges false [(c, c)], fs)
  | (.ranges negated ranges, f :: fs) =>
      if c = ']' then
        if ranges = [] then none else some (.items true, f.push (.set negated ranges) :: fs)
      else if c = '\\' then some (.setEscape negated ranges, f :: fs)
      else if c = '-' && ranges ≠ [] then some (.dash negated ranges, f :: fs)
      else some (.ranges negated ((c, c) :: ranges), f :: fs)
  | (.setEscape negated ranges, fs) =>
      if c.isAlphanum then none else some (.ranges negated ((c, c) :: ranges), fs)
  | (.dash negated ranges, f :: fs) =>
      if c = ']' then some (.items true, f.push (.set negated (('-', '-') :: ranges)) :: fs)
      else
        match ranges with
        | (lo, hi) :: ranges =>
            if lo = hi && lo ≤ c && c ≠ '\\' then some (.ranges negated ((lo, c) :: ranges), f :: fs)
            else none
        | [] => none

/-- A `^` at the front says nothing: both functions match from the start of the input. -/
def dropCaret : List Char → List Char
  | '^' :: cs => cs
  | cs => cs

/-- `re.compile`. -/
def parse (pattern : List Char) : Option Regex :=
  match (dropCaret pattern).foldlM readChar (.items false, [.empty]) with
  | some (.items _, [f]) => some f.close
  | _ => none

end Regex

end InfraHub.Lib
