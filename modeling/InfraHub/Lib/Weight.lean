import InfraHub.Lib.Json

/-!
# Library — Weight

No ASCII text of a JSON value has fewer quotes and letters `u` than the one that `json.dumps`
writes.

Every string has two quotes, and a character that has to be escaped has a quote or a `u` in each of
its escapes; all that may be left out has neither (`weight_dumps_le`).  So a text of a value that
loses a quote is no text of the value.
-/

namespace InfraHub.Lib.Json

/-! ### Weights -/

/-- A quote or a `u`. -/
def heavy (c : Nat) : Bool := c = dquote ∨ c = 'u'.toNat

def weight (s : Str) : Nat := s.countP heavy

@[simp] theorem weight_nil : weight [] = 0 := rfl

theorem weight_append (s t : Str) : weight (s ++ t) = weight s + weight t := List.countP_append

theorem weight_cons (c : Nat) (s : Str) :
    weight (c :: s) = weight [c] + weight s := weight_append [c] s

theorem weight_eq_zero {s : Str} (h : ∀ c ∈ s, heavy c = false) : weight s = 0 := by
  rw [weight, List.countP_eq_zero]
  exact fun c hc => Bool.eq_false_iff.mp (h c hc)

theorem weight_suffix {s t : Str} (h : s <:+ t) : weight s ≤ weight t := h.sublist.countP_le

/-! ### Strings -/

theorem heavy_hexDigit {k : Nat} (h : k < 0x10) : heavy (hexDigit k) = false := by
  have hall : ∀ k < 0x10, heavy (hexDigit k) = false := by decide
  exact hall k h

theorem weight_unicode {u : Nat} (h : u < 0x10000) : weight (unicode u) = 1 := by
  have hu : heavy 117 = true := by decide
  have hback : heavy backslash = false := rfl
  have hdigit (k : Nat) (hk : k < 0x10) : heavy (hexDigit k) = false := heavy_hexDigit hk
  simp [weight, unicode, hu, hback, hdigit (u / 0x1000) (by omega),
    hdigit (u / 0x100 % 0x10) (by omega), hdigit (u / 0x10 % 0x10) (by omega), hdigit (u % 0x10)
    (by omega)]

/-- A character is not written with more than it is read from. -/
theorem weight_escape_raw {c : Nat} (h : Printed c) : weight (escape true c) ≤ weight [c] := by
  have hall : ∀ c < 0x7f, 0x20 ≤ c → weight (escape true c) ≤ weight [c] := by decide
  exact hall c h.2 h.1

theorem weight_escape_short {c e : Nat} (h : unshort e = some c) :
    weight (escape true c) ≤ weight [backslash, e] := by
  obtain ⟨p, hp, rfl⟩ := Option.map_eq_some_iff.mp h
  have hall : ∀ p ∈ (('/'.toNat, '/'.toNat)) :: shorts, weight (escape true p.1) ≤
      weight [backslash, p.2] := by
    decide
  have he : p.2 = e := by simpa using List.find?_some hp
  exact he ▸ hall p (List.mem_of_find?_eq_some hp)

theorem escape_of_ge {c : Nat} (h : 0x7f ≤ c) : escape true c = if c < 0x10000 then unicode c
    else unicode (0xd800 + (c - 0x10000) / 0x400) ++ unicode (0xdc00 + (c - 0x10000) % 0x400) := by
  have hfind : (shorts.find? fun p => p.1 = c) = none := by
    have hall : ∀ p ∈ shorts, p.1 < 0x7f := by decide
    rw [List.find?_eq_none]
    intro p hp heq
    have hlt := hall p hp
    rw [of_decide_eq_true heq] at hlt
    exact absurd h (Nat.not_le_of_lt hlt)
  have hcontrol : ¬ c < 0x20 := by omega
  have hplain : ¬ (c < 0x7f ∨ true = false) := by simp [h]
  unfold escape
  rw [hfind]
  dsimp only
  rw [if_neg hcontrol, if_neg hplain]

theorem weight_escape_bmp {c : Nat} (h : c < 0x10000) : weight (escape true c) ≤ 1 := by
  by_cases hc : c < 0x7f
  · have hall : ∀ c < 0x7f, weight (escape true c) ≤ 1 := by decide
    exact hall c hc
  · rw [escape_of_ge (by omega), if_pos h, weight_unicode h]

/-- A pair is written as its halves are. -/
theorem weight_escape_pair {a b : Nat} (ha : high a) (hb : low b) :
    weight (escape true (0x10000 + (a - 0xd800) * 0x400 + (b - 0xdc00))) ≤
      weight (escape true a) + weight (escape true b) := by
  simp only [high, low, decide_eq_true_eq] at ha hb
  have hhigh : weight (escape true a) = 1 := by
    rw [escape_of_ge (by omega), if_pos (by omega), weight_unicode (by omega)]
  have hlow : weight (escape true b) = 1 := by
    rw [escape_of_ge (by omega), if_pos (by omega), weight_unicode (by omega)]
  rw [escape_of_ge (by omega), if_neg (by omega), weight_append, weight_unicode (by omega),
    weight_unicode (by omega),
    hhigh, hlow]

/-- The weight of what is written between the quotes. -/
def cost (ps : List Piece) : Nat := weight ((ps.map Piece.code).flatMap (escape true))

theorem cost_cons (p : Piece) (ps : List Piece) :
    cost (p :: ps) = weight (escape true p.code) + cost ps := by
  rw [cost, List.map_cons, List.flatMap_cons, weight_append, cost]

theorem cost_push (p : Piece) (ps : List Piece) :
    cost (push p ps) ≤ weight (escape true p.code) + cost ps := by
  cases ps with
  | nil => exact (cost_cons p []).le
  | cons q ps =>
      rw [push]
      split_ifs with hpair
      · have hle := weight_escape_pair hpair.2.1 hpair.2.2.2
        rw [cost_cons, cost_cons]
        dsimp only
        omega
      · exact (cost_cons p (q :: ps)).le

/-- **A string** costs no more than it was read from. -/
theorem Scan.cost_le {s rest : Str} {ps : List Piece} (h : Scan s ps rest)
    (hs : ∀ c ∈ s, Printed c) :
    cost ps + weight [dquote] + weight rest ≤ weight s := by
  induction h with
  | done => exact (Nat.zero_add _).symm ▸ (weight_cons _ _).ge
  | @raw c s _ ps _ _ ih =>
      obtain ⟨hc, hs⟩ := List.forall_mem_cons.mp hs
      have hweight : weight (c :: s) = weight [c] + weight s := weight_cons c s
      have hpush : cost (push ⟨c, false⟩ ps) ≤ weight (escape true c) + cost ps := cost_push _ ps
      have hraw := weight_escape_raw hc
      have hrest := ih hs
      omega
  | @short c e s _ ps _ hc _ ih =>
      have hweight : weight (backslash :: e :: s) = weight [backslash, e] + weight s :=
        weight_append [backslash, e] s
      have hpush : cost (push ⟨c, false⟩ ps) ≤ weight (escape true c) + cost ps := cost_push _ ps
      have hshort := weight_escape_short hc
      have hrest := ih fun c hmem => hs c (by simp [hmem])
      omega
  | @unicode a b c d u s _ ps hu _ ih =>
      have hweight : weight (backslash :: 'u'.toNat :: a :: b :: c :: d :: s) =
          weight [backslash, 'u'.toNat, a, b, c, d] + weight s :=
            weight_append [backslash, 'u'.toNat, a, b, c, d] s
      have hone : 1 ≤ weight [backslash, 'u'.toNat, a, b, c, d] :=
        List.countP_pos_iff.mpr ⟨'u'.toNat, by simp, by decide⟩
      have hpush : cost (push ⟨u, true⟩ ps) ≤ weight (escape true u) + cost ps := cost_push _ ps
      have hbmp := weight_escape_bmp (hex_lt hu)
      have hrest := ih fun c hmem => hs c (by simp [hmem])
      omega

theorem weight_quoted (s : Str) :
    weight (quoted true s) = 2 + weight (s.flatMap (escape true)) := by
  have hquote : weight [dquote] = 1 := rfl
  rw [quoted, weight_append, weight_cons, hquote]
  omega

/-! ### Values -/

section
variable {α : Type} {item : Str → Option (α × Str)} {price : α → Nat} {close : Nat}

/-- What is read has its price in the text. -/
def Spends (price : α → Nat) (item : Str → Option (α × Str)) : Prop :=
  ∀ s x rest, item s = some (x, rest) → (∀ c ∈ s, Printed c) → rest <:+ s ∧
  price x + weight rest ≤ weight s

theorem eat_suffix {c : Nat} {s rest : Str} (h : eat c s = some rest) : rest <:+ s := by
  rw [eat] at h
  have hskip : skip s <:+ s := List.dropWhile_suffix ws
  cases htext : skip s with
  | nil =>
      rw [htext] at h
      cases h
  | cons d t =>
      rw [htext] at h hskip
      dsimp only at h
      split_ifs at h
      obtain rfl := Option.some.inj h
      exact (List.suffix_cons d t).trans hskip

theorem elements_spends (h : Spends price item) (n : Nat) :
    Spends (fun xs => (xs.map price).sum) (elements item close n) := by
  induction n with
  | zero =>
      intro s xs rest hread
      cases hread
  | succ n ih =>
      intro s xs rest hread hs
      obtain ⟨⟨x, s₁⟩, hx, hread⟩ := Option.bind_eq_some_iff.mp hread
      obtain ⟨hsuffix, hprice⟩ := h s x s₁ hx hs
      dsimp only at hread
      cases hend : eat close s₁ with
      | some s₂ =>
          rw [hend] at hread
          cases hread
          have hrest := weight_suffix (eat_suffix hend)
          refine ⟨(eat_suffix hend).trans hsuffix, ?_⟩
          simp only [List.map_cons, List.map_nil, List.sum_cons, List.sum_nil]
          omega
      | none =>
          rw [hend] at hread
          obtain ⟨s₂, hcomma, hread⟩ := Option.bind_eq_some_iff.mp hread
          obtain ⟨⟨xs', s₃⟩, hmore, heq⟩ := Option.map_eq_some_iff.mp hread
          cases heq
          have hskip : skip s₂ <:+ s₁ := (List.dropWhile_suffix ws).trans (eat_suffix hcomma)
          obtain ⟨hrest, hprices⟩ :=
            ih _ _ _ hmore fun c hc => hs c ((hskip.trans hsuffix).subset hc)
          have hweight := weight_suffix hskip
          refine ⟨hrest.trans (hskip.trans hsuffix), ?_⟩
          simp only [List.map_cons, List.sum_cons]
          dsimp only at hprices
          omega

theorem enclosed_spends (h : Spends price item) (n : Nat) :
    Spends (fun xs => (xs.map price).sum) (enclosed item close n) := by
  intro s xs rest hread hs
  rw [enclosed] at hread
  cases hend : eat close s with
  | some s₁ =>
      rw [hend] at hread
      cases hread
      exact ⟨eat_suffix hend, by simpa using weight_suffix (eat_suffix hend)⟩
  | none =>
      rw [hend] at hread
      have hskip : skip s <:+ s := List.dropWhile_suffix ws
      obtain ⟨hrest, hprices⟩ := elements_spends h n _ _ _ hread fun c hc => hs c (hskip.subset hc)
      exact ⟨hrest.trans hskip, hprices.trans (weight_suffix hskip)⟩

/-- A string after its opening quote. -/
theorem string_spends : Spends (fun t => 1 + weight (t.flatMap (escape true))) string := by
  intro s t rest hread hs
  obtain ⟨ps, hscan, rfl⟩ := string_scan hread
  obtain ⟨c, hsuffix⟩ := hscan.suffix
  have hcost := hscan.cost_le hs
  have hquote : weight [dquote] = 1 := rfl
  rw [cost] at hcost
  exact ⟨(List.suffix_cons c rest).trans hsuffix, by dsimp only; omega⟩

theorem member_spends (h : Spends price item) :
    Spends (fun p => weight (quoted true p.1) + price p.2) (member item) := by
  intro s p rest hread hs
  cases s with
  | nil => cases hread
  | cons c s =>
      rw [member] at hread
      split_ifs at hread with hc
      obtain ⟨⟨key, s₁⟩, hkey, hread⟩ := Option.bind_eq_some_iff.mp hread
      obtain ⟨s₂, hcolon, hread⟩ := Option.bind_eq_some_iff.mp hread
      obtain ⟨⟨x, s₃⟩, hx, heq⟩ := Option.map_eq_some_iff.mp hread
      cases heq
      obtain ⟨hsuffix, hstring⟩ :=
        string_spends _ _ _ hkey fun c hc => hs c (List.mem_cons_of_mem _ hc)
      have hskip : skip s₂ <:+ s₁ := (List.dropWhile_suffix ws).trans (eat_suffix hcolon)
      have hall : skip s₂ <:+ c :: s := (hskip.trans hsuffix).trans (List.suffix_cons c s)
      obtain ⟨hrest, hprice⟩ := h _ _ _ hx fun c hc => hs c (hall.subset hc)
      have hweight := weight_suffix hskip
      have hopen : weight (c :: s) = 1 + weight s := by
        rw [weight_cons, hc]
        rfl
      refine ⟨hrest.trans hall, ?_⟩
      dsimp only at hstring ⊢
      rw [weight_quoted]
      omega

end

/-! ### What is written -/

section
variable {F : Type} {fl : Floats F}

theorem weight_listed (texts : List Str) : weight (listed texts) = (texts.map weight).sum := by
  induction texts with
  | nil => rfl
  | cons text texts ih =>
      cases texts with
      | nil => simp [listed]
      | cons text' texts =>
          have hcomma (s : Str) : weight (','.toNat :: ' '.toNat :: s) = weight s := by
            rw [weight_cons, weight_cons ' '.toNat]
            exact (Nat.zero_add _).trans (Nat.zero_add _)
          rw [listed_cons, weight_append, hcomma, ih]
          rfl

theorem weight_number {t : Str} {x : Number} (h : number t = some (x, [])) : weight t = 0 := by
  obtain ⟨a, -, heq, hnumeral⟩ := cut_number h
  refine weight_eq_zero fun c hc => ?_
  rcases hnumeral c (by simpa [heq] using hc) with hdigit | hsign
  · simp only [digit, Char.reduceToNat, decide_eq_true_eq] at hdigit
    have hne : ¬ (c = 34 ∨ c = 117) := by omega
    exact decide_eq_false hne
  · have hall : ∀ c ∈ str "-+.eE", heavy c = false := by decide +kernel
    exact hall c hsign

theorem weight_repr (x : F) : weight (fl.repr x) = 0 := by
  rcases fl.shape x with hname | hnumber
  · have hall : ∀ name ∈ nonfinite, weight name = 0 := by decide +kernel
    exact hall _ hname
  · exact weight_number hnumber

theorem weight_dumps_list (items : List (Value F)) :
    weight (dumps fl true (.list items)) = (items.map fun v => weight (dumps fl true v)).sum := by
  have hopen : weight ['['.toNat] = 0 := rfl
  have hclose : weight [']'.toNat] = 0 := rfl
  rw [dumps, weight_append, weight_cons, hopen, hclose, weight_listed, dumpsItems_eq, List.map_map]
  simp only [Nat.zero_add, Nat.add_zero, Function.comp_def]

theorem weight_dumps_dict (items : List (Str × Value F)) :
    weight (dumps fl true (.dict items)) =
      (items.map fun p => weight (quoted true p.1) + weight (dumps fl true p.2)).sum := by
  have hopen : weight ['{'.toNat] = 0 := rfl
  have hclose : weight ['}'.toNat] = 0 := rfl
  have hcolon : weight (str ": ") = 0 := by decide +kernel
  rw [dumps, weight_append, weight_cons, hopen, hclose, weight_listed, dumpsPairs_eq, List.map_map]
  simp only [Nat.zero_add, Nat.add_zero, Function.comp_def, dumpsPair, weight_append, hcolon]

theorem printed_unicode {u : Nat} (h : u < 0x10000) : ∀ c ∈ unicode u, Printed c := by
  have hdigit (k : Nat) (hk : k < 0x10) : Printed (hexDigit k) := by
    have hall : ∀ k < 0x10, Printed (hexDigit k) := by decide
    exact hall k hk
  simp only [unicode, List.forall_mem_cons]
  exact ⟨by decide, by decide, hdigit _ (by omega), hdigit _ (by omega), hdigit _ (by omega),
    hdigit _ (by omega),
    by simp⟩

theorem printed_escape {c : Nat} (h : c < 0x110000) : ∀ d ∈ escape true c, Printed d := by
  by_cases hc : c < 0x7f
  · have hall : ∀ c < 0x7f, ∀ d ∈ escape true c, Printed d := by decide
    exact hall c hc
  · rw [escape_of_ge (by omega)]
    split_ifs with hbmp
    · exact printed_unicode hbmp
    · exact List.forall_mem_append.mpr ⟨printed_unicode (by omega), printed_unicode (by omega)⟩

/-- The text is printable ASCII. -/
theorem printed_dumps {P : F → Prop} {v : Value F} (h : v.Of (fun s => ∀ c ∈ s, c < 0x110000) P) :
    ∀ c ∈ dumps fl true v, Printed c := by
  refine dumps_built (I := fun s => ∀ c ∈ s, Printed c) (fun s hs c hc => (hs c hc).2)
    (fun a b ha hb => List.forall_mem_append.mpr ⟨ha, hb⟩) (h.imp (fun s hs => ?_) fun _ hx => hx)
  have hquote : Printed dquote := by decide
  refine List.forall_mem_append.mpr
    ⟨List.forall_mem_cons.mpr ⟨hquote, ?_⟩, List.forall_mem_singleton.mpr hquote⟩
  exact List.forall_mem_flatMap.mpr fun c hc => printed_escape (hs c hc)

/-! ### What is read -/

theorem atom_spends : Spends (fun v => weight (dumps fl true v)) (atom fl) := by
  intro s v rest hread hs
  rw [atom] at hread
  cases hnumber : number s with
  | some p =>
      obtain ⟨x, s₁⟩ := p
      rw [hnumber] at hread
      cases hread
      obtain ⟨a, -, rfl, -⟩ := cut_number hnumber
      refine ⟨List.suffix_append a rest, ?_⟩
      have hzero : weight (dumps fl true (x.value fl)) = 0 := by
        cases x with
        | int n => exact weight_number (number_strOfInt n)
        | float text => exact weight_repr _
      dsimp only
      rw [hzero, Nat.zero_add]
      exact weight_suffix (List.suffix_append a rest)
  | none =>
      rw [hnumber] at hread
      obtain ⟨p, hfind, heq⟩ := Option.map_eq_some_iff.mp hread
      cases heq
      have hmem := List.mem_of_find?_eq_some hfind
      have hprefix : p.1 <+: s := by simpa using List.find?_some hfind
      obtain ⟨t, rfl⟩ := hprefix
      rw [List.drop_left]
      have hle : weight (dumps fl true p.2) ≤ weight p.1 := by
        simp only [constants, nonfinite, List.map_cons, List.map_nil, List.cons_append,
          List.nil_append,
          List.mem_cons, List.not_mem_nil, or_false] at hmem
        rcases hmem with rfl | rfl | rfl | rfl | rfl | rfl
        · exact le_refl _
        · exact le_refl _
        · exact le_refl _
        all_goals exact (weight_repr _).le.trans (Nat.zero_le _)
      refine ⟨List.suffix_append p.1 t, ?_⟩
      dsimp only
      rw [weight_append]
      omega

theorem scan_once_spends (n : Nat) :
    Spends (fun v => weight (dumps fl true v)) (scan_once fl n) := by
  induction n with
  | zero =>
      intro s v rest hread
      cases hread
  | succ n ih =>
      intro s v rest hread hs
      cases s with
      | nil => cases hread
      | cons c s =>
          have hafter : ∀ d ∈ s, Printed d := fun d hd => hs d (List.mem_cons_of_mem c hd)
          have hcons : s <:+ c :: s := List.suffix_cons c s
          have hweight := weight_suffix hcons
          rw [scan_once] at hread
          split_ifs at hread with hquote hbracket hbrace
          · obtain ⟨⟨t, s₁⟩, ht, heq⟩ := Option.map_eq_some_iff.mp hread
            cases heq
            obtain ⟨hrest, hstring⟩ := string_spends _ _ _ ht hafter
            have hopen : weight (c :: s) = 1 + weight s := by
              rw [weight_cons, hquote]
              rfl
            refine ⟨hrest.trans hcons, ?_⟩
            dsimp only at hstring ⊢
            rw [dumps, weight_quoted]
            omega
          · obtain ⟨⟨items, s₁⟩, hitems, heq⟩ := Option.map_eq_some_iff.mp hread
            cases heq
            obtain ⟨hrest, hprices⟩ := enclosed_spends ih n _ _ _ hitems hafter
            refine ⟨hrest.trans hcons, ?_⟩
            dsimp only at hprices ⊢
            rw [weight_dumps_list]
            omega
          · obtain ⟨⟨items, s₁⟩, hitems, heq⟩ := Option.map_eq_some_iff.mp hread
            cases heq
            obtain ⟨hrest, hprices⟩ := enclosed_spends (member_spends ih) n _ _ _ hitems hafter
            have hkept := Dict.sum_ofList_le (fun p : Str × Value F =>
              weight (quoted true p.1) + weight (dumps fl true p.2)) items
            refine ⟨hrest.trans hcons, ?_⟩
            dsimp only at hprices ⊢
            rw [weight_dumps_dict]
            omega
          · exact atom_spends _ _ _ hread hs

/-- **What is written is lightest**: a text of the value is not lighter. -/
theorem weight_dumps_le {s : Str} {v : Value F} (h : loads fl s = some v)
    (hs : ∀ c ∈ s, Printed c) :
    weight (dumps fl true v) ≤ weight s := by
  obtain ⟨⟨w, rest⟩, hread, heq⟩ := Option.bind_eq_some_iff.mp h
  dsimp only at heq
  split_ifs at heq
  cases heq
  have hskip : skip s <:+ s := List.dropWhile_suffix ws
  obtain ⟨-, hspent⟩ := scan_once_spends _ _ _ _ hread fun c hc => hs c (hskip.subset hc)
  have hweight := weight_suffix hskip
  dsimp only at hspent
  omega

end

end InfraHub.Lib.Json
