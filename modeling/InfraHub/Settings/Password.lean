import InfraHub.Lib.Pattern
import InfraHub.Lib.Token

/-!
# Settings — Password

`check_password_rules`: the rules for passwords, as a pattern that is put together from the settings.

`$` holds before a newline at the end, too.  So the pattern means the policy for every text but those
that are a password of the policy and a newline: `check_password_rules_iff`.
-/

namespace InfraHub.Settings.Password
open InfraHub.Lib
open InfraHub.Lib.Json (strOfInt)
open InfraHub.Lib.Pattern

structure PasswordSettings where
  SECURITY_PASSWORD_UPPER_CASE : Bool
  SECURITY_PASSWORD_LOWER_CASE : Bool
  SECURITY_PASSWORD_NUMBER : Bool
  SECURITY_PASSWORD_SPECIAL_CHAR : Bool
  SECURITY_PASSWORD_MIN_LENGTH : Int
  SECURITY_ADMIN_USER_PASSWORD_MIN_LENGTH : Int

def PasswordSettings.min_length (settings : PasswordSettings) (is_super_admin : Bool) : Int :=
  if is_super_admin then settings.SECURITY_ADMIN_USER_PASSWORD_MIN_LENGTH
  else settings.SECURITY_PASSWORD_MIN_LENGTH

/-! ### The pattern -/

def UPPER : Str := str "(?=.*[A-Z])"

def LOWER : Str := str "(?=.*[a-z])"

def NUMBER : Str := str "(?=.*\\d)"

def SPECIAL : Str := str "(?=.*[`~!@#$%^&*()\\-=_+\\[\\]\x7b\x7d|;:\\'\",.<>/?])"

def FIRST : Str :=
  str "[a-zA-Z\\d`~!@#\\$%\\^&\\*\\(\\)-=_\\+\\[\\]\\\x7b\\\x7d\\|;:\\'\\\",\\.<>\\/\\?]"

def pattern (settings : PasswordSettings) (is_super_admin : Bool) : Str :=
  str "^" ++ (if settings.SECURITY_PASSWORD_UPPER_CASE then UPPER else []) ++
    (if settings.SECURITY_PASSWORD_LOWER_CASE then LOWER else []) ++
    (if settings.SECURITY_PASSWORD_NUMBER then NUMBER else []) ++
    (if settings.SECURITY_PASSWORD_SPECIAL_CHAR then SPECIAL else []) ++
    FIRST ++
    (str ".\x7b" ++ strOfInt (settings.min_length is_super_admin - 1) ++ str ",\x7d$")

/-- Nothing if the pattern is refused. -/
def check_password_rules (settings : PasswordSettings) (password : Str) (is_super_admin : Bool) :
    Option Bool :=
  (parse (pattern settings is_super_admin)).map fun r => re_match r password

/-! ### The policy -/

def specials : Str := str "`~!@#$%^&*()-=_+[]\x7b\x7d|;:'\",.<>/?"

def Upper (c : Nat) : Prop := 'A'.toNat ≤ c ∧ c ≤ 'Z'.toNat

def Lower (c : Nat) : Prop := 'a'.toNat ≤ c ∧ c ≤ 'z'.toNat

/-- The set of the first character. -/
def Allowed (c : Nat) : Prop := Upper c ∨ Lower c ∨ (decimal c).isSome ∨ c ∈ specials

structure Policy (settings : PasswordSettings) (is_super_admin : Bool) (p : Str) : Prop where
  length : settings.min_length is_super_admin ≤ p.length
  line : newline ∉ p
  first : ∃ c rest, p = c :: rest ∧ Allowed c
  upper : settings.SECURITY_PASSWORD_UPPER_CASE → ∃ c ∈ p, Upper c
  lower : settings.SECURITY_PASSWORD_LOWER_CASE → ∃ c ∈ p, Lower c
  number : settings.SECURITY_PASSWORD_NUMBER → ∃ c ∈ p, (decimal c).isSome
  special : settings.SECURITY_PASSWORD_SPECIAL_CHAR → ∃ c ∈ p, c ∈ specials

/-- **The condition**: it is no password of the policy with a newline behind it; or, where the
length is too large for a pattern, no password of the policy. -/
def Meant (settings : PasswordSettings) (is_super_admin : Bool) (p : Str) : Prop :=
  if settings.min_length is_super_admin ≤ maxrepeat then
    ¬ ∃ q, p = q ++ [newline] ∧ Policy settings is_super_admin q
  else ¬ Policy settings is_super_admin p

/-! ### The sets -/

def singles (s : Str) : List (Nat × Nat) := (s.map fun c => (c, c)).reverse

def upperSet : CharSet := ⟨false, [('A'.toNat, 'Z'.toNat)]⟩

def lowerSet : CharSet := ⟨false, [('a'.toNat, 'z'.toNat)]⟩

def numberSet : CharSet := ⟨false, digits⟩

def specialSet : CharSet := ⟨false, singles specials⟩

/-- The dash behind the bracket makes a range of the two characters around it. -/
def firstSet : CharSet :=
  ⟨false, singles (str "_+[]{}|;:'\",.<>/?") ++ (')'.toNat, '='.toNat) ::
    singles (str "`~!@#$%^&*(") ++ digits ++ [('A'.toNat, 'Z'.toNat), ('a'.toNat, 'z'.toNat)]⟩

/-- A lookahead for a character of the set. -/
def ahead (s : CharSet) : Pattern := .look (.seq (.many 0 dot) (.seq (.set s) .eps))

/-! ### The pattern is read -/

/-- What comes before the length, the last item first. -/
def front (settings : PasswordSettings) : List Pattern :=
  (if settings.SECURITY_PASSWORD_SPECIAL_CHAR then [ahead specialSet] else []) ++
  ((if settings.SECURITY_PASSWORD_NUMBER then [ahead numberSet] else []) ++
    ((if settings.SECURITY_PASSWORD_LOWER_CASE then [ahead lowerSet] else []) ++
      ((if settings.SECURITY_PASSWORD_UPPER_CASE then [ahead upperSet] else []) ++ [.bol])))

section
variable {items : List Pattern} {outer : Levels}

theorem read_if {b : Bool} {text : Str} {r : Pattern}
    (h : ∀ items : List Pattern, text.foldlM readChar (.items, items :: outer) =
      some (.items, (r :: items) :: outer)) :
    (if b then text else []).foldlM readChar (.items, items :: outer) =
      some (.items, ((if b then [r] else []) ++ items) :: outer) := by
  cases b with
  | false => rfl
  | true => exact h items

theorem read_upper (items : List Pattern) : UPPER.foldlM readChar (.items, items :: outer) =
    some (.items, (ahead upperSet :: items) :: outer) := by
  rfl

theorem read_lower (items : List Pattern) : LOWER.foldlM readChar (.items, items :: outer) =
    some (.items, (ahead lowerSet :: items) :: outer) := by
  rfl

theorem read_number_ahead (items : List Pattern) :
    NUMBER.foldlM readChar (.items, items :: outer) =
      some (.items, (ahead numberSet :: items) :: outer) := by
  rfl

theorem read_special (items : List Pattern) : SPECIAL.foldlM readChar (.items, items :: outer) =
    some (.items, (ahead specialSet :: items) :: outer) := by
  rfl

set_option maxRecDepth 4000 in
theorem read_first : FIRST.foldlM readChar (.items, items :: outer) =
    some (.items, (.set firstSet :: items) :: outer) := by
  rfl

/-- The dot, its repetition, and the end. -/
theorem read_length (k : Nat) :
    (str ".\x7b" ++ strOfNat k ++ str ",\x7d$").foldlM readChar (.items, items :: outer) =
      if maxrepeat ≤ k then none
      else some (.items, (.eol :: .many k dot :: items) :: outer) := by
  have hdot : (str ".\x7b").foldlM readChar (.items, items :: outer) =
      some (.lower [], (.set dot :: items) :: outer) := rfl
  have hcomma : readChar (.lower (strOfNat k), (.set dot :: items) :: outer) ','.toNat =
      some (.upper (strOfNat k), (.set dot :: items) :: outer) := by
    have hnumber : True ∧ strOfNat k ≠ [] := ⟨trivial, strOfNat_ne_nil k⟩
    simp only [readChar]
    rw [if_neg (by decide), if_pos hnumber]
  have hclose : readChar (.upper (strOfNat k), (.set dot :: items) :: outer) '}'.toNat =
      if maxrepeat ≤ k then none else some (.items, (.many k dot :: items) :: outer) := by
    simp only [readChar, int_strOfNat, if_true, Option.bind_some, repeated, Option.map_some]
  have hend : str ",\x7d$" = [','.toNat, '}'.toNat, '$'.toNat] := by decide +kernel
  rw [List.append_assoc, List.foldlM_append, hdot, Option.bind_eq_bind, Option.bind_some,
    read_number fun _ hc => digit_of_mem_strOfNat hc, List.nil_append, hend, List.foldlM_cons, hcomma,
    Option.bind_eq_bind, Option.bind_some, List.foldlM_cons, hclose]
  by_cases h : maxrepeat ≤ k
  · rw [if_pos h, if_pos h, Option.bind_eq_bind, Option.bind_none]
  · have hdollar : [('$'.toNat)].foldlM readChar (.items, (.many k dot :: items) :: outer) =
        some (.items, (.eol :: .many k dot :: items) :: outer) := rfl
    rw [if_neg h, if_neg h, Option.bind_eq_bind, Option.bind_some, hdollar]

end

theorem parse_pattern {settings : PasswordSettings} {is_super_admin : Bool} {k : Nat}
    (h : settings.min_length is_super_admin = k + 1) : parse (pattern settings is_super_admin) =
      if maxrepeat ≤ k then none
      else some (seqs (.eol :: .many k dot :: .set firstSet :: front settings)) := by
  have hlength : strOfInt (settings.min_length is_super_admin - 1) = strOfNat k := by
    rw [h, Int.add_sub_cancel]
    rfl
  have hcaret : (str "^").foldlM readChar (.items, [[]]) = some (.items, [[.bol]]) := rfl
  have hupper := (read_append hcaret).trans
    (read_if (b := settings.SECURITY_PASSWORD_UPPER_CASE) read_upper)
  have hlower := (read_append hupper).trans
    (read_if (b := settings.SECURITY_PASSWORD_LOWER_CASE) read_lower)
  have hnumber := (read_append hlower).trans
    (read_if (b := settings.SECURITY_PASSWORD_NUMBER) read_number_ahead)
  have hspecial := (read_append hnumber).trans
    (read_if (b := settings.SECURITY_PASSWORD_SPECIAL_CHAR) read_special)
  have hfirst := (read_append hspecial).trans read_first
  rw [parse, pattern, hlength, read_append hfirst, read_length]
  by_cases hk : maxrepeat ≤ k
  · rw [if_pos hk, if_pos hk, Option.bind_none]
  · rw [if_neg hk, if_neg hk, Option.bind_some]
    rfl

/-! ### What is matched -/

/-- A character of the set, on the first line. -/
def Sees (s : CharSet) (p : Str) : Prop :=
  ∃ before c after, p = before ++ c :: after ∧ newline ∉ before ∧ s.admits c

/-- The rest of a match: the first character, the others, and the end. -/
def Body (k : Nat) (p : Str) : Prop :=
  ∃ c rest, firstSet.admits c ∧ k ≤ rest.length ∧ newline ∉ rest ∧
    (p = c :: rest ∨ p = c :: rest ++ [newline])

section
variable {n k : Nat} {p q : Str} {s : CharSet} {t : Pattern} {settings : PasswordSettings}
  {is_super_admin : Bool}

theorem forall_dot : (∀ c ∈ p, dot.admits c) ↔ newline ∉ p := by
  simp only [admits_dot]
  exact ⟨fun h hmem => h _ hmem rfl, fun h c hc e => h (e ▸ hc)⟩

theorem ends_ahead : ends n (.seq (.many 0 dot) (.seq (.set s) .eps)) p ≠ [] ↔ Sees s p := by
  rw [ends_seq]
  constructor
  · rintro ⟨u, hu, h⟩
    obtain ⟨before, rfl, -, hbefore⟩ := mem_many.mp hu
    obtain ⟨c, after, rfl, hc, -⟩ := ends_set.mp h
    exact ⟨before, c, after, rfl, forall_dot.mp hbefore, hc⟩
  · rintro ⟨before, c, after, rfl, hbefore, hc⟩
    refine ⟨c :: after, mem_many.mpr ⟨before, rfl, Nat.zero_le _, forall_dot.mpr hbefore⟩, ?_⟩
    exact ends_set.mpr ⟨c, after, rfl, hc, by simp [ends]⟩

theorem ends_body :
    ends n (.seq (.set firstSet) (.seq (.many k dot) (.seq .eol .eps))) p ≠ [] ↔ Body k p := by
  rw [ends_set]
  constructor
  · rintro ⟨c, u, rfl, hc, h⟩
    obtain ⟨v, hv, hend⟩ := ends_seq.mp h
    obtain ⟨rest, rfl, hk, hrest⟩ := mem_many.mp hv
    refine ⟨c, rest, hc, hk, forall_dot.mp hrest, (ends_eol.mp hend).imp (fun e => ?_) fun e => ?_⟩
    · rw [e, List.append_nil]
    · rw [e, List.cons_append]
  · rintro ⟨c, rest, hc, hk, hrest, rfl | rfl⟩
    · refine ⟨c, rest, rfl, hc, ends_seq.mpr ⟨[], mem_many.mpr ⟨rest, by simp, hk, ?_⟩, ?_⟩⟩
      · exact forall_dot.mpr hrest
      · exact ends_eol.mpr (.inl rfl)
    · refine ⟨c, rest ++ [newline], rfl, hc,
        ends_seq.mpr ⟨[newline], mem_many.mpr ⟨rest, rfl, hk, ?_⟩, ?_⟩⟩
      · exact forall_dot.mpr hrest
      · exact ends_eol.mpr (.inr rfl)

/-- A lookahead that the settings may leave out. -/
theorem ends_if_ahead {b : Bool} :
    ends n ((if b then [ahead s] else []).foldl (fun r i => .seq i r) t) p ≠ [] ↔
      (b → Sees s p) ∧ ends n t p ≠ [] := by
  cases b with
  | false => simp
  | true =>
      simp only [if_true, List.foldl_cons, List.foldl_nil, true_imp_iff, ahead, ends_look, ends_ahead]

theorem re_match_iff :
    re_match (seqs (.eol :: .many k dot :: .set firstSet :: front settings)) p = true ↔
      (settings.SECURITY_PASSWORD_UPPER_CASE → Sees upperSet p) ∧
      (settings.SECURITY_PASSWORD_LOWER_CASE → Sees lowerSet p) ∧
      (settings.SECURITY_PASSWORD_NUMBER → Sees numberSet p) ∧
      (settings.SECURITY_PASSWORD_SPECIAL_CHAR → Sees specialSet p) ∧ Body k p := by
  rw [re_match, decide_eq_true_eq, seqs, front]
  simp only [List.foldl_cons, List.foldl_append, List.foldl_nil]
  rw [ends_bol, ends_if_ahead, ends_if_ahead, ends_if_ahead, ends_if_ahead, ends_body]

/-! ### What the sets mean -/

theorem any_singles {c : Nat} :
    (singles p).any (fun r => decide (r.1 ≤ c) && decide (c ≤ r.2)) = true ↔ c ∈ p := by
  simp only [singles, List.any_reverse, List.any_map, List.any_eq_true, Function.comp_apply,
    Bool.and_eq_true, decide_eq_true_eq]
  constructor
  · rintro ⟨d, hd, h⟩
    obtain rfl : d = c := by omega
    exact hd
  · intro h
    exact ⟨c, h, le_refl c, le_refl c⟩

theorem admits_upper {c : Nat} : upperSet.admits c ↔ Upper c := by
  simp [CharSet.admits, upperSet, Upper]

theorem admits_lower {c : Nat} : lowerSet.admits c ↔ Lower c := by
  simp [CharSet.admits, lowerSet, Lower]

theorem admits_special {c : Nat} : specialSet.admits c ↔ c ∈ specials := by
  simp only [CharSet.admits, specialSet, Bool.false_bne, any_singles]

/-- The accidental range holds digits and special characters only. -/
theorem special_of_range {c : Nat} (h : ')'.toNat ≤ c ∧ c ≤ '='.toNat) :
    (decimal c).isSome ∨ c ∈ specials := by
  have hall : ∀ i < 21, (decimal (')'.toNat + i)).isSome ∨ ')'.toNat + i ∈ specials := by
    decide +kernel
  have hrange : 0x29 ≤ c ∧ c ≤ 0x3d := h
  have hsum : ')'.toNat + (c - 0x29) = c := by
    change 0x29 + (c - 0x29) = c
    omega
  exact hsum ▸ hall (c - 0x29) (by omega)

theorem special_cases : ∀ c ∈ specials, c ∈ str "_+[]\x7b\x7d|;:'\",.<>/?" ∨
    (')'.toNat ≤ c ∧ c ≤ '='.toNat) ∨ c ∈ str "`~!@#$%^&*(" := by
  decide +kernel

theorem special_of_single : ∀ c, c ∈ str "_+[]\x7b\x7d|;:'\",.<>/?" ∨ c ∈ str "`~!@#$%^&*(" →
    c ∈ specials := by
  have hall : ∀ c ∈ str "_+[]\x7b\x7d|;:'\",.<>/?" ++ str "`~!@#$%^&*(", c ∈ specials := by
    decide +kernel
  exact fun c hc => hall c (List.mem_append.mpr hc)

theorem admits_first {c : Nat} : firstSet.admits c ↔ Allowed c := by
  have hdigits := admits_digits (c := c)
  simp only [CharSet.admits, Bool.false_bne] at hdigits
  simp only [CharSet.admits, firstSet, Bool.false_bne, List.append_assoc, List.cons_append,
    any_singles, List.any_cons, List.any_append, Bool.or_eq_true, hdigits, Bool.and_eq_true,
    decide_eq_true_eq, List.any_nil, Bool.false_eq_true, or_false]
  constructor
  · rintro (h | h | h | h | h | h)
    · exact .inr (.inr (.inr (special_of_single c (.inl h))))
    · exact .inr (.inr (special_of_range h))
    · exact .inr (.inr (.inr (special_of_single c (.inr h))))
    · exact .inr (.inr (.inl h))
    · exact .inl h
    · exact .inr (.inl h)
  · rintro (h | h | h | h)
    · exact .inr (.inr (.inr (.inr (.inl h))))
    · exact .inr (.inr (.inr (.inr (.inr h))))
    · exact .inr (.inr (.inr (.inl h)))
    · exact (special_cases c h).imp_right fun h => h.imp_right .inl

theorem newline_not_allowed : ¬ Allowed newline := by
  rintro (h | h | h | h)
  · exact absurd h.1 (by decide)
  · exact absurd h.1 (by decide)
  · revert h
    decide +kernel
  · revert h
    decide +kernel

/-! ### The policy -/

/-- A lookahead sees what is in the text, if it looks for no newline. -/
theorem sees_iff (hs : ¬ s.admits newline) (hline : newline ∉ q) {tail : Str}
    (htail : tail = [] ∨ tail = [newline]) : Sees s (q ++ tail) ↔ ∃ c ∈ q, s.admits c := by
  constructor
  · rintro ⟨before, c, after, he, -, hc⟩
    have hmem : c ∈ q ++ tail := he ▸ List.mem_append_right _ List.mem_cons_self
    rcases List.mem_append.mp hmem with hmem | hmem
    · exact ⟨c, hmem, hc⟩
    · rcases htail with rfl | rfl
      · cases hmem
      · exact absurd (List.mem_singleton.mp hmem ▸ hc) hs
  · rintro ⟨c, hmem, hc⟩
    obtain ⟨before, after, rfl⟩ := List.append_of_mem hmem
    exact ⟨before, c, after ++ tail, by simp, fun h => hline (List.mem_append_left _ h), hc⟩

/-- Two ways to end. -/
theorem re_match_policy (h : settings.min_length is_super_admin = k + 1) :
    re_match (seqs (.eol :: .many k dot :: .set firstSet :: front settings)) p = true ↔
      ∃ q, (p = q ∨ p = q ++ [newline]) ∧ Policy settings is_super_admin q := by
  have hupper : ¬ upperSet.admits newline := by decide
  have hlower : ¬ lowerSet.admits newline := by decide
  have hnumber : ¬ numberSet.admits newline := by decide +kernel
  have hspecial : ¬ specialSet.admits newline := by decide +kernel
  have hends {q : Str} : p = q ∨ p = q ++ [newline] ↔
      ∃ tail, (tail = [] ∨ tail = [newline]) ∧ p = q ++ tail := by
    constructor
    · rintro (e | e)
      · exact ⟨[], .inl rfl, by rw [e, List.append_nil]⟩
      · exact ⟨[newline], .inr rfl, e⟩
    · rintro ⟨tail, rfl | rfl, e⟩
      · exact .inl (by rw [e, List.append_nil])
      · exact .inr e
  rw [re_match_iff]
  constructor
  · rintro ⟨hu, hl, hn, hs, c, rest, hc, hk, hrest, hp⟩
    have hallowed := admits_first.mp hc
    have hline : newline ∉ c :: rest := by
      rintro (_ | ⟨_, hmem⟩)
      · exact newline_not_allowed hallowed
      · exact hrest hmem
    obtain ⟨tail, htail, rfl⟩ := hends.mp hp
    refine ⟨c :: rest, hp, ?_, hline, ⟨c, rest, rfl, hallowed⟩, ?_, ?_, ?_, ?_⟩
    · rw [h, List.length_cons]
      omega
    · intro hb
      simpa only [admits_upper] using (sees_iff hupper hline htail).mp (hu hb)
    · intro hb
      simpa only [admits_lower] using (sees_iff hlower hline htail).mp (hl hb)
    · intro hb
      simpa only [numberSet, admits_digits] using (sees_iff hnumber hline htail).mp (hn hb)
    · intro hb
      simpa only [admits_special] using (sees_iff hspecial hline htail).mp (hs hb)
  · rintro ⟨q, hp, hlength, hline, ⟨c, rest, rfl, hallowed⟩, hu, hl, hn, hs⟩
    obtain ⟨tail, htail, rfl⟩ := hends.mp hp
    refine ⟨fun hb => ?_, fun hb => ?_, fun hb => ?_, fun hb => ?_, ?_⟩
    · exact (sees_iff hupper hline htail).mpr (by simpa only [admits_upper] using hu hb)
    · exact (sees_iff hlower hline htail).mpr (by simpa only [admits_lower] using hl hb)
    · exact (sees_iff hnumber hline htail).mpr
        (by simpa only [numberSet, admits_digits] using hn hb)
    · exact (sees_iff hspecial hline htail).mpr (by simpa only [admits_special] using hs hb)
    · refine ⟨c, rest, admits_first.mpr hallowed, ?_, fun hmem => hline (.tail _ hmem), hp⟩
      rw [h, List.length_cons] at hlength
      omega

/-- It is true for a password of the policy, and for one with a newline behind it. -/
theorem check_true_iff (h : settings.min_length is_super_admin = k + 1) :
    check_password_rules settings p is_super_admin = some true ↔
      k < maxrepeat ∧ ∃ q, (p = q ∨ p = q ++ [newline]) ∧ Policy settings is_super_admin q := by
  rw [check_password_rules, parse_pattern h]
  by_cases hk : maxrepeat ≤ k
  · simp [hk]
  · rw [if_neg hk, Option.map_some, Option.some.injEq, re_match_policy h, and_iff_right (not_le.mp hk)]

end

/-- The pattern means the policy. -/
theorem check_password_rules_iff {settings : PasswordSettings} {is_super_admin : Bool}
    (h : 1 ≤ settings.min_length is_super_admin) (p : Str) :
    (check_password_rules settings p is_super_admin = some true ↔
        Policy settings is_super_admin p) ↔ Meant settings is_super_admin p := by
  obtain ⟨k, hk⟩ : ∃ k : Nat, settings.min_length is_super_admin = k + 1 :=
    ⟨(settings.min_length is_super_admin - 1).toNat, by omega⟩
  have hsize : settings.min_length is_super_admin ≤ maxrepeat ↔ k < maxrepeat := by omega
  rw [check_true_iff hk, Meant]
  by_cases hlt : k < maxrepeat
  · rw [if_pos (hsize.mpr hlt), and_iff_right hlt]
    constructor
    · rintro hiff ⟨q, rfl, hq⟩
      have hp := hiff.mp ⟨q, .inr rfl, hq⟩
      exact hp.line (by simp)
    · intro hnot
      constructor
      · rintro ⟨q, rfl | rfl, hq⟩
        · exact hq
        · exact absurd ⟨q, rfl, hq⟩ hnot
      · exact fun hp => ⟨p, .inl rfl, hp⟩
  · rw [if_neg (mt hsize.mp hlt)]
    constructor
    · exact fun hiff hp => hlt (hiff.mpr hp).1
    · exact fun hnot => iff_of_false (fun h => hlt h.1) hnot

/-! ### A newline at the end -/

def sampleSettings : PasswordSettings := ⟨true, true, true, true, 6, 8⟩

theorem check_password_rules_sample : 1 ≤ sampleSettings.min_length false ∧
    ((check_password_rules sampleSettings (str "Abc1!x") false = some true ↔
      Policy sampleSettings false (str "Abc1!x")) ↔ Meant sampleSettings false (str "Abc1!x")) :=
  ⟨by decide, check_password_rules_iff (by decide) _⟩

/-- A line break, and it is accepted. -/
theorem newline_accepted :
    check_password_rules sampleSettings (str "Abc1!x\n") false = some true ∧
      ¬ Policy sampleSettings false (str "Abc1!x\n") := by
  refine ⟨by decide +kernel, fun h => h.line ?_⟩
  decide +kernel

end InfraHub.Settings.Password
