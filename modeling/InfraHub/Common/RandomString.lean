import InfraHub.Lib.Run
import InfraHub.Lib.Text
import Mathlib.Data.Finset.Card
import Mathlib.Order.Interval.Finset.Nat

/-!
# Common — RandomString

`random_string`: one character of each class, then characters of any class, some of which
`random_replace_char` replaces by special characters.

It draws an index until it has one that is not the first and not used.  The bound leaves out the last,
so that a text of `n` characters has `n - 2` such indices: `Replacing.Invariant.exists_admissible`.  Where
four or five characters are asked for, there may be none; `sound_iff` says when.
-/

namespace InfraHub.Common.RandomString
open InfraHub.Lib (Run Str str)

/-! ### The characters -/

def string_punctuation : Str := str "!#$%&()*+,-.:;<=?@[]_~"

def ascii_lowercase : Str := str "abcdefghijklmnopqrstuvwxyz"

def ascii_uppercase : Str := str "ABCDEFGHIJKLMNOPQRSTUVWXYZ"

def digits : Str := str "0123456789"

/-- The arguments of `random_string`.  A negative length is refused like all below four. -/
structure Request where
  length : Nat
  lower : Bool := true
  upper : Bool := true
  digit : Bool := true
  special_char : Bool := false
  exclude_chars : Str := []
  symbols : Str := string_punctuation

def remove_exclude_char (s exclude_chars : Str) : Str :=
  exclude_chars.foldl (fun s i => s.filter (· ≠ i)) s

/-- What a switch adds to `char_list`. -/
def add_chars (enabled : Bool) (s exclude_chars : Str) (message : String) : Except String (List Str) :=
  if enabled then
    let chars := remove_exclude_char s exclude_chars
    if chars = [] then .error message else .ok [chars]
  else .ok []

namespace Request
variable (r : Request)

def char_list : Except String (List Str) :=
  if ¬ (r.lower ∨ r.upper ∨ r.digit) then
    .error "At least one of `lower`, `upper`, `digit` must be `True`"
  else if r.length < 4 then .error "The length of the string must be greater than 3"
  else do
    let lower_chars ← add_chars r.lower ascii_lowercase r.exclude_chars
      "After excluding characters, no lowercase letters are available."
    let upper_chars ← add_chars r.upper ascii_uppercase r.exclude_chars
      "After excluding characters, no uppercase letters are available."
    let digit_chars ← add_chars r.digit digits r.exclude_chars
      "After excluding characters, no digits are available."
    return lower_chars ++ upper_chars ++ digit_chars

/-- Without `special_char` there are none, and nothing is refused. -/
def special_chars : Except String Str :=
  if r.special_char then
    let special_chars := remove_exclude_char r.symbols r.exclude_chars
    if special_chars = [] then
      .error "After excluding characters, no special characters are available."
    else .ok special_chars
  else .ok []

def symbol_num : Nat := r.length / 16 + 1

/-- The number of switches that are on. -/
def enabled : Nat := r.lower.toNat + r.upper.toNat + r.digit.toNat

theorem enabled_le : r.enabled ≤ 3 := by
  have hl := Bool.toNat_le r.lower
  have hu := Bool.toNat_le r.upper
  have hd := Bool.toNat_le r.digit
  rw [enabled]
  omega

end Request

/-! ### `random_replace_char` -/

/-- The loop, with `length` characters still to replace. -/
structure Replacing where
  seq : Str
  using_index : Finset Nat
  length : Nat

/-- What `secrets` returns in an iteration; no character is drawn before `continue`. -/
structure Draw where
  index : Nat
  choice : Nat

namespace Replacing

/-- The bound of `secrets.randbelow`, which raises when it is not positive. -/
def bound (s : Replacing) : Nat := s.seq.length - 1

/-- No index that is drawn again. -/
def Admissible (s : Replacing) (index : Nat) : Prop :=
  index < s.bound ∧ ¬ (index ∈ s.using_index ∨ index = 0)

/-- An iteration; `none` when the loop is over, or for what is not drawn. -/
def next (chars : Str) (s : Replacing) (d : Draw) : Option Replacing :=
  if s.length = 0 ∨ s.bound ≤ d.index then none
  else if d.index ∈ s.using_index ∨ d.index = 0 then some s
  else if d.choice ∈ chars then
    some ⟨s.seq.set d.index d.choice, insert d.index s.using_index, s.length - 1⟩
  else none

def step (chars : Str) (s : Replacing) (d : Draw) (t : Replacing) : Prop := s.next chars d = some t

theorem step_cases {chars : Str} {s t : Replacing} {d : Draw} (h : step chars s d t) :
    0 < s.length ∧ (t = s ∨ s.Admissible d.index ∧ d.choice ∈ chars ∧
      t = ⟨s.seq.set d.index d.choice, insert d.index s.using_index, s.length - 1⟩) := by
  rw [step, next] at h
  obtain ⟨hgo, h⟩ := Option.ite_none_left_eq_some.mp h
  obtain ⟨hlength, hbound⟩ := not_or.mp hgo
  refine ⟨Nat.pos_of_ne_zero hlength, ?_⟩
  by_cases hused : d.index ∈ s.using_index ∨ d.index = 0
  · rw [if_pos hused] at h
    exact .inl (Option.some.inj h).symm
  · rw [if_neg hused] at h
    obtain ⟨hchoice, h⟩ := Option.ite_none_right_eq_some.mp h
    exact .inr ⟨⟨Nat.lt_of_not_le hbound, hused⟩, hchoice, (Option.some.inj h).symm⟩

/-- After `m - s.length` replacements in a text of `n` characters. -/
structure Invariant (chars : Str) (n m : Nat) (s : Replacing) : Prop where
  length_seq : s.seq.length = n
  within : s.using_index ⊆ Finset.Ico 1 (n - 1)
  count : s.using_index.card + s.length = m
  special : s.length = m ∨ ∃ c ∈ s.seq, c ∈ chars

variable {chars : Str} {n m : Nat} {s t : Replacing}

theorem invariant_start (seq : Str) (m : Nat) : Invariant chars seq.length m ⟨seq, ∅, m⟩ where
  length_seq := rfl
  within := Finset.empty_subset _
  count := by rw [Finset.card_empty, Nat.zero_add]
  special := .inl rfl

theorem Invariant.step {d : Draw} (hinv : Invariant chars n m s) (h : step chars s d t) :
    Invariant chars n m t := by
  obtain ⟨hpos, rfl | ⟨⟨hbound, hfresh⟩, hchoice, rfl⟩⟩ := step_cases h
  · exact hinv
  obtain ⟨hunused, hne⟩ := not_or.mp hfresh
  have hlt : d.index < n - 1 := by rw [← hinv.length_seq]; exact hbound
  refine ⟨?_, ?_, ?_, .inr ⟨d.choice, ?_, hchoice⟩⟩
  · rw [List.length_set, hinv.length_seq]
  · refine Finset.insert_subset (Finset.mem_Ico.mpr ⟨?_, hlt⟩) hinv.within
    exact Nat.pos_of_ne_zero hne
  · have hcount := hinv.count
    change (insert d.index s.using_index).card + (s.length - 1) = m
    rw [Finset.card_insert_of_notMem hunused]
    omega
  · refine List.mem_set ?_ d.choice
    rw [hinv.length_seq]
    omega

theorem Invariant.run {draws : List Draw} (r : Run (Replacing.step chars) s draws t)
    (hinv : Invariant chars n m s) : Invariant chars n m t :=
  r.invariant (fun _ _ _ hinv h => hinv.step h) hinv

/-- There are `n - 2` indices to replace at. -/
theorem Invariant.exists_admissible (hinv : Invariant chars n m s) (hpos : 0 < s.length)
    (hroom : m + 2 ≤ n) : ∃ index, s.Admissible index := by
  have hcount := hinv.count
  have hcard : s.using_index.card < (Finset.Ico 1 (n - 1)).card := by
    rw [Nat.card_Ico]
    omega
  obtain ⟨index, hmem, hunused⟩ := Finset.exists_mem_notMem_of_card_lt_card hcard
  obtain ⟨hone, hlt⟩ := Finset.mem_Ico.mp hmem
  refine ⟨index, ?_, not_or.mpr ⟨hunused, Nat.ne_of_gt hone⟩⟩
  rw [bound, hinv.length_seq]
  exact hlt

/-- As many draws as there are characters to replace can end the loop. -/
theorem Invariant.ends (hchars : chars ≠ []) (hroom : m + 2 ≤ n) (hinv : Invariant chars n m s) :
    ∃ draws t, Run (Replacing.step chars) s draws t ∧ t.length = 0 := by
  obtain ⟨c, hc⟩ := List.exists_mem_of_ne_nil chars hchars
  induction hleft : s.length generalizing s with
  | zero => exact ⟨[], s, .nil s, hleft⟩
  | succ left ih =>
      have hpos : 0 < s.length := by omega
      -- an admissible index is drawn, and one character is left less
      obtain ⟨index, hbound, hfresh⟩ := hinv.exists_admissible hpos hroom
      let t : Replacing := ⟨s.seq.set index c, insert index s.using_index, s.length - 1⟩
      have hstep : Replacing.step chars s ⟨index, c⟩ t := by
        have hgo : ¬ (s.length = 0 ∨ s.bound ≤ index) := by omega
        rw [Replacing.step, next, if_neg hgo, if_neg hfresh, if_pos hc]
      have hleft' : t.length = left := by
        change s.length - 1 = left
        omega
      obtain ⟨draws, u, r, hu⟩ := ih (hinv.step hstep) hleft'
      exact ⟨⟨index, c⟩ :: draws, u, .cons hstep r, hu⟩

end Replacing

/-! ### `random_string` -/

/-- What is drawn before anything is replaced. -/
structure Drawn (r : Request) (char_list : List Str) (secret_chars seq : Str) : Prop where
  one_each : List.Forall₂ (fun c chars => c ∈ chars) secret_chars char_list
  length_seq : seq.length = r.length - secret_chars.length
  of_any : ∀ c ∈ seq, c ∈ char_list.flatten

/-- `random_replace_char` may be at `s`. -/
def Reaches (r : Request) (char_list : List Str) (special_chars : Str) (s : Replacing) : Prop :=
  r.special_char = true ∧ ∃ secret_chars seq draws, Drawn r char_list secret_chars seq ∧
    Run (Replacing.step special_chars) ⟨seq, ∅, r.symbol_num⟩ draws s

/-- `random_string` may return `result`: the order is any. -/
def Returns (r : Request) (char_list : List Str) (special_chars result : Str) : Prop :=
  ∃ secret_chars seq seq', Drawn r char_list secret_chars seq ∧
    (if r.special_char then ∃ draws using_index, Run (Replacing.step special_chars)
      ⟨seq, ∅, r.symbol_num⟩ draws ⟨seq', using_index, 0⟩ else seq' = seq) ∧
    result.Perm (secret_chars ++ seq')

/-- The loop can go on and come to its end, and what is returned is what was asked for. -/
structure Sound (r : Request) (char_list : List Str) (special_chars : Str) : Prop where
  progress : ∀ s, Reaches r char_list special_chars s → 0 < s.length →
    0 < s.bound ∧ ∃ index, s.Admissible index
  ends : ∀ s, Reaches r char_list special_chars s →
    ∃ draws t, Run (Replacing.step special_chars) s draws t ∧ t.length = 0
  length_result : ∀ result, Returns r char_list special_chars result → result.length = r.length
  classes : ∀ result, Returns r char_list special_chars result →
    ∀ chars ∈ char_list, ∃ c ∈ result, c ∈ chars
  special : ∀ result, Returns r char_list special_chars result → r.special_char = true →
    ∃ c ∈ result, c ∈ special_chars

theorem add_chars_ok {enabled : Bool} {s exclude_chars : Str} {message : String} {l : List Str}
    (h : add_chars enabled s exclude_chars message = .ok l) :
    l.length = enabled.toNat ∧ ∀ chars ∈ l, chars ≠ [] := by
  cases enabled with
  | false =>
      cases h
      exact ⟨rfl, by simp⟩
  | true =>
      rw [add_chars, if_pos rfl] at h
      by_cases hchars : remove_exclude_char s exclude_chars = []
      · simp only [hchars, if_true] at h
        cases h
      · simp only [hchars, if_false] at h
        cases h
        exact ⟨rfl, List.forall_mem_singleton.mpr hchars⟩

section
variable {r : Request} {char_list : List Str} {special_chars : Str}

theorem bind_ok {α β : Type} {x : Except String α} {f : α → Except String β} {b : β}
    (h : (x >>= f) = .ok b) : ∃ a, x = .ok a ∧ f a = .ok b := by
  cases x with
  | error e => cases h
  | ok a => exact ⟨a, rfl, h⟩

theorem char_list_ok (h : r.char_list = .ok char_list) :
    4 ≤ r.length ∧ char_list.length = r.enabled ∧ 0 < r.enabled ∧ ∀ chars ∈ char_list, chars ≠ [] := by
  rw [Request.char_list] at h
  by_cases hany : r.lower ∨ r.upper ∨ r.digit
  swap
  · rw [if_pos hany] at h
    cases h
  by_cases hshort : r.length < 4
  · rw [if_neg (not_not_intro hany), if_pos hshort] at h
    cases h
  rw [if_neg (not_not_intro hany), if_neg hshort] at h
  obtain ⟨lower_chars, hlower, h⟩ := bind_ok h
  obtain ⟨upper_chars, hupper, h⟩ := bind_ok h
  obtain ⟨digit_chars, hdigit, h⟩ := bind_ok h
  cases h
  obtain ⟨hl, hl'⟩ := add_chars_ok hlower
  obtain ⟨hu, hu'⟩ := add_chars_ok hupper
  obtain ⟨hd, hd'⟩ := add_chars_ok hdigit
  refine ⟨Nat.le_of_not_lt hshort, ?_, ?_, ?_⟩
  · rw [List.length_append, List.length_append, hl, hu, hd, Request.enabled]
  · rw [Request.enabled]
    rcases hany with hon | hon | hon <;> rw [hon, Bool.toNat_true] <;> omega
  · intro chars hmem
    rcases List.mem_append.mp hmem with hmem | hmem
    · rcases List.mem_append.mp hmem with hmem | hmem
      · exact hl' chars hmem
      · exact hu' chars hmem
    · exact hd' chars hmem

theorem special_chars_ok (h : r.special_chars = .ok special_chars) (hon : r.special_char = true) :
    special_chars ≠ [] := by
  rw [Request.special_chars, if_pos hon] at h
  by_cases hchars : remove_exclude_char r.symbols r.exclude_chars = []
  · simp only [hchars, if_true] at h
    cases h
  · simp only [hchars, if_false] at h
    cases h
    exact hchars

theorem exists_one_each (h : ∀ chars ∈ char_list, chars ≠ []) :
    ∃ secret_chars, List.Forall₂ (fun c chars => c ∈ chars) secret_chars char_list := by
  induction char_list with
  | nil => exact ⟨[], .nil⟩
  | cons chars l ih =>
      obtain ⟨hne, hl⟩ := List.forall_mem_cons.mp h
      obtain ⟨c, hc⟩ := List.exists_mem_of_ne_nil chars hne
      obtain ⟨secret_chars, hsecret⟩ := ih hl
      exact ⟨c :: secret_chars, .cons hc hsecret⟩

theorem mem_of_one_each {secret_chars chars : Str} (hmem : chars ∈ char_list)
    (h : List.Forall₂ (fun c chars => c ∈ chars) secret_chars char_list) :
    ∃ c ∈ secret_chars, c ∈ chars := by
  induction h with
  | nil => cases hmem
  | cons hc _ ih =>
      rcases List.mem_cons.mp hmem with rfl | hmem
      · exact ⟨_, List.mem_cons_self, hc⟩
      · obtain ⟨c, hc, hchars⟩ := ih hmem
        exact ⟨c, List.mem_cons_of_mem _ hc, hchars⟩

/-- There is something to draw. -/
theorem exists_drawn (h : r.char_list = .ok char_list) :
    ∃ secret_chars seq, Drawn r char_list secret_chars seq := by
  obtain ⟨-, hlength, hpos, hchars⟩ := char_list_ok h
  obtain ⟨secret_chars, hsecret⟩ := exists_one_each hchars
  obtain ⟨chars, hmem⟩ := List.exists_mem_of_ne_nil char_list
    (List.ne_nil_of_length_pos (by omega))
  obtain ⟨c, hc⟩ := List.exists_mem_of_ne_nil chars (hchars chars hmem)
  refine ⟨secret_chars, List.replicate (r.length - secret_chars.length) c, hsecret,
    List.length_replicate, fun c' hc' => ?_⟩
  rw [List.eq_of_mem_replicate hc']
  exact List.mem_flatten.mpr ⟨chars, hmem, hc⟩

theorem Drawn.length_secret {secret_chars seq : Str} (hdrawn : Drawn r char_list secret_chars seq)
    (h : r.char_list = .ok char_list) : secret_chars.length = r.enabled :=
  hdrawn.one_each.length_eq.trans (char_list_ok h).2.1

/-- There is room for all special characters. -/
theorem room (h : r.char_list = .ok char_list) (hlength : r.enabled + 3 ≤ r.length) :
    r.symbol_num + 2 ≤ r.length - r.enabled := by
  obtain ⟨hfour, -, -, -⟩ := char_list_ok h
  have henabled := r.enabled_le
  rw [Request.symbol_num]
  omega

theorem Reaches.invariant {s : Replacing} (h : r.char_list = .ok char_list)
    (hs : Reaches r char_list special_chars s) :
    s.Invariant special_chars (r.length - r.enabled) r.symbol_num := by
  obtain ⟨-, secret_chars, seq, draws, hdrawn, run⟩ := hs
  rw [← hdrawn.length_secret h, ← hdrawn.length_seq]
  exact (Replacing.invariant_start seq r.symbol_num).run run

/-- What is returned, apart from the order. -/
theorem Returns.parts {result : Str} (h : r.char_list = .ok char_list)
    (hresult : Returns r char_list special_chars result) : ∃ secret_chars seq,
    result.Perm (secret_chars ++ seq) ∧
    List.Forall₂ (fun c chars => c ∈ chars) secret_chars char_list ∧
    seq.length = r.length - r.enabled ∧
    (r.special_char = true → ∃ c ∈ seq, c ∈ special_chars) := by
  obtain ⟨secret_chars, seq, seq', hdrawn, hseq, hperm⟩ := hresult
  have hlength : seq.length = r.length - r.enabled := by
    rw [hdrawn.length_seq, hdrawn.length_secret h]
  refine ⟨secret_chars, seq', hperm, hdrawn.one_each, ?_⟩
  by_cases hon : r.special_char = true
  · rw [if_pos hon] at hseq
    obtain ⟨draws, using_index, run⟩ := hseq
    have hinv := (Replacing.invariant_start seq r.symbol_num).run run
    -- at least one is replaced, so that it is not the text of the start
    refine ⟨hinv.length_seq.trans hlength, fun _ => hinv.special.resolve_left ?_⟩
    exact Nat.ne_of_lt (Nat.succ_pos _)
  · rw [if_neg hon] at hseq
    exact ⟨by rw [hseq, hlength], fun hon' => absurd hon' hon⟩

theorem length_result {result : Str} (h : r.char_list = .ok char_list)
    (hresult : Returns r char_list special_chars result) : result.length = r.length := by
  obtain ⟨hfour, hcount, -, -⟩ := char_list_ok h
  obtain ⟨secret_chars, seq, hperm, hsecret, hseq, -⟩ := hresult.parts h
  have henabled := r.enabled_le
  rw [hperm.length_eq, List.length_append, hsecret.length_eq, hcount, hseq]
  omega

theorem classes_result {result : Str} (h : r.char_list = .ok char_list)
    (hresult : Returns r char_list special_chars result) :
    ∀ chars ∈ char_list, ∃ c ∈ result, c ∈ chars := by
  obtain ⟨secret_chars, seq, hperm, hsecret, -⟩ := hresult.parts h
  intro chars hmem
  obtain ⟨c, hc, hchars⟩ := mem_of_one_each hmem hsecret
  exact ⟨c, hperm.mem_iff.mpr (List.mem_append_left seq hc), hchars⟩

theorem special_result {result : Str} (h : r.char_list = .ok char_list)
    (hresult : Returns r char_list special_chars result) (hon : r.special_char = true) :
    ∃ c ∈ result, c ∈ special_chars := by
  obtain ⟨secret_chars, seq, hperm, -, -, hspecial⟩ := hresult.parts h
  obtain ⟨c, hc, hchars⟩ := hspecial hon
  exact ⟨c, hperm.mem_iff.mpr (List.mem_append_right secret_chars hc), hchars⟩

/-- The first iteration already needs a third character. -/
theorem room_of_sound (h : r.char_list = .ok char_list) (hon : r.special_char = true)
    (hsound : Sound r char_list special_chars) : r.enabled + 3 ≤ r.length := by
  obtain ⟨secret_chars, seq, hdrawn⟩ := exists_drawn h
  have hstart : Reaches r char_list special_chars ⟨seq, ∅, r.symbol_num⟩ :=
    ⟨hon, secret_chars, seq, [], hdrawn, .nil _⟩
  obtain ⟨-, index, hbound, hfresh⟩ := hsound.progress _ hstart (Nat.succ_pos _)
  obtain ⟨-, hne⟩ := not_or.mp hfresh
  have hlength := hdrawn.length_seq
  rw [hdrawn.length_secret h] at hlength
  rw [Replacing.bound, hlength] at hbound
  omega

/-- **A string can be made of what is asked for if and only if** no special character is, or there are
three characters more than classes. -/
theorem sound_iff (h : r.char_list = .ok char_list) (hspecial : r.special_chars = .ok special_chars) :
    Sound r char_list special_chars ↔ (r.special_char = true → r.enabled + 3 ≤ r.length) := by
  constructor
  · exact fun hsound hon => room_of_sound h hon hsound
  · intro hlength
    refine ⟨fun s hs hpos => ?_, fun s hs => ?_, fun _ => length_result h,
      fun _ => classes_result h, fun _ => special_result h⟩
    · have hinv := hs.invariant h
      have hroom := room h (hlength hs.1)
      refine ⟨?_, hinv.exists_admissible hpos hroom⟩
      rw [Replacing.bound, hinv.length_seq]
      omega
    · exact (hs.invariant h).ends (special_chars_ok hspecial hs.1) (room h (hlength hs.1))

end

/-- All three classes and a special character. -/
def with_special (length : Nat) : Request := { length, special_char := true }

theorem with_special_ok : (with_special 6).char_list = .ok [ascii_lowercase, ascii_uppercase, digits] ∧
    (with_special 5).char_list = .ok [ascii_lowercase, ascii_uppercase, digits] ∧
    (with_special 4).char_list = .ok [ascii_lowercase, ascii_uppercase, digits] := by
  decide +kernel

theorem sound_iff_six_five :
    Sound (with_special 6) [ascii_lowercase, ascii_uppercase, digits] string_punctuation ∧
    ¬ Sound (with_special 5) [ascii_lowercase, ascii_uppercase, digits] string_punctuation := by
  obtain ⟨hsix, hfive, -⟩ := with_special_ok
  refine ⟨(sound_iff hsix rfl).mpr fun _ => by decide, fun hsound => ?_⟩
  exact absurd ((sound_iff hfive rfl).mp hsound rfl) (by decide)

/-- With four characters `randbelow` gets the bound zero; with five it returns zero for ever. -/
theorem four_five_not_sound : (with_special 4).special_chars = .ok string_punctuation ∧
    ¬ Sound (with_special 4) [ascii_lowercase, ascii_uppercase, digits] string_punctuation ∧
    (with_special 5).special_chars = .ok string_punctuation ∧
    ¬ Sound (with_special 5) [ascii_lowercase, ascii_uppercase, digits] string_punctuation := by
  have hone : List.Forall₂ (fun c chars => c ∈ chars) (str "aA0")
      [ascii_lowercase, ascii_uppercase, digits] :=
    .cons (by decide +kernel) (.cons (by decide +kernel) (.cons (by decide +kernel) .nil))
  refine ⟨rfl, fun hsound => ?_, rfl, fun hsound => ?_⟩
  · have hdrawn : Drawn (with_special 4) [ascii_lowercase, ascii_uppercase, digits] (str "aA0")
        (str "b") := ⟨hone, rfl, by decide +kernel⟩
    obtain ⟨hbound, -⟩ := hsound.progress ⟨str "b", ∅, 1⟩
      ⟨rfl, str "aA0", str "b", [], hdrawn, .nil _⟩ Nat.one_pos
    exact absurd hbound (by decide +kernel)
  · have hdrawn : Drawn (with_special 5) [ascii_lowercase, ascii_uppercase, digits] (str "aA0")
        (str "bc") := ⟨hone, rfl, by decide +kernel⟩
    obtain ⟨-, index, hbound, hfresh⟩ := hsound.progress ⟨str "bc", ∅, 1⟩
      ⟨rfl, str "aA0", str "bc", [], hdrawn, .nil _⟩ Nat.one_pos
    have hzero : index = 0 := Nat.lt_one_iff.mp hbound
    exact hfresh (.inr hzero)

end InfraHub.Common.RandomString
