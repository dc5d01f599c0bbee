import InfraHub.Lib.Ip

/-!
# Common — IpList

`contains_ip`, which looks for an address in a list of texts.

* `entry` is what a text of the list stands for, and `Listed` is when it has the address, or is its
  text.
* `contains_ip` compares an address of the list with the text (`Alias`), compares the ends of a
  segment as numbers of whatever version (`Cross`), and raises at other texts with several `-`
  (`Raises`).

**The list** (`contains_ip_iff`).  The answer is right when nothing raises before it, and when what
is missed and what is hit wrongly makes no difference.
-/

namespace InfraHub.Common.IpList
open InfraHub.Lib (Str str length_splitOn)
open InfraHub.Lib.Ip

def is_ip_address (address : Str) : Bool := (ip_address address).isSome

def is_ip_network (ip : Str) : Bool := (ip_network ip).isSome

/-- `a, b = s.split("-")`; nothing if it raises `ValueError`. -/
def ends (s : Str) : Option (Str × Str) :=
  match s.splitOn '-'.toNat with
  | [a, b] => some (a, b)
  | _ => none

def is_ip_segment (ip : Str) : Option Bool :=
  if '-'.toNat ∈ ip then (ends ip).map fun p => is_ip_address p.1 && is_ip_address p.2
  else some false

/-- `int(ip_address(ip))`. -/
def ip_int (ip : Str) : Option Nat := (ip_address ip).map Address.ip

def in_ip_segment (ip ip_segment : Str) : Option Bool := do
  let p ← ends ip_segment
  let ip1 ← ip_int p.1
  let ip2 ← ip_int p.2
  let ip ← ip_int ip
  return decide (min ip1 ip2 ≤ ip ∧ ip ≤ max ip1 ip2)

/-- What a round of the loop returns, if anything. -/
def matched (ip _ip : Str) : Option Bool :=
  if is_ip_address _ip then some (ip = _ip)
  else if is_ip_network _ip && is_ip_address ip then
    (ip_address ip).bind fun address => (ip_network _ip).map fun network => network.contains address
  else (is_ip_segment _ip).bind fun segment =>
    if segment && is_ip_address ip then in_ip_segment ip _ip else some (ip = _ip)

/-- Nothing if it raises. -/
def contains_ip (ip : Str) (ip_group : List Str) : Option Bool :=
  if str "*" ∈ ip_group then some true else ip_group.anyM (matched ip)

/-! ### What the texts stand for -/

structure Segment where
  first : Address
  last : Address

/-- The numbers of the ends are around it. -/
def Segment.Around (s : Segment) (a : Address) : Prop :=
  min s.first.ip s.last.ip ≤ a.ip ∧ a.ip ≤ max s.first.ip s.last.ip

instance (s : Segment) (a : Address) : Decidable (s.Around a) := inferInstanceAs (Decidable (_ ∧ _))

/-- The ends are of its version. -/
def Segment.Same (s : Segment) (a : Address) : Prop :=
  s.first.version = a.version ∧ s.last.version = a.version

inductive Entry
  | address (a : Address)
  | network (n : Network)
  | segment (s : Segment)
  | other

def segment (e : Str) : Option Segment :=
  (ends e).bind fun p => (ip_address p.1).bind fun first => (ip_address p.2).map fun last =>
    ⟨first, last⟩

def entry (e : Str) : Entry :=
  (ip_address e).elim ((ip_network e).elim ((segment e).elim .other .segment) .network) .address

def Entry.Denotes (a : Address) : Entry → Prop
  | address b => a = b
  | network n => n.contains a
  | segment s => s.Same a ∧ s.Around a
  | other => False

/-- The entry is the star, the text itself, or has the address of the text. -/
def Listed (ip e : Str) : Prop :=
  e = str "*" ∨ e = ip ∨ ∃ a, ip_address ip = some a ∧ (entry e).Denotes a

/-! ### Where the code differs -/

/-- Several `-`, in what is no address, and no network that is looked at. -/
def Raises (ip e : Str) : Prop :=
  ip_address e = none ∧ (ip_network e = none ∨ ip_address ip = none) ∧ 2 ≤ e.count '-'.toNat

/-- Another text of the address. -/
def Alias (ip e : Str) : Prop := e ≠ ip ∧ ∃ a, ip_address ip = some a ∧ ip_address e = some a

/-- A segment whose numbers are around it, and that is not of its version. -/
def Cross (ip e : Str) : Prop :=
  ∃ a s, ip_address ip = some a ∧ entry e = .segment s ∧ s.Around a ∧ ¬ s.Same a

/-- The loop returns here. -/
def Hit (ip e : Str) : Prop := ¬ Raises ip e ∧ ¬ Alias ip e ∧ (Listed ip e ∨ Cross ip e)

/-- A hit before all that raises, a hit if there is another text, and a reason if there is a wrong
segment. -/
def Sound (ip : Str) (entries : List Str) : Prop :=
  (∀ before e after, entries = before ++ e :: after → Raises ip e → ∃ h ∈ before, Hit ip h) ∧
    ((∃ e ∈ entries, Alias ip e) → ∃ e ∈ entries, Hit ip e) ∧
    ((∃ e ∈ entries, Cross ip e) → ∃ e ∈ entries, Listed ip e)

/-! ### A round -/

section
variable {ip e : Str} {a b : Address} {n : Network} {s : Segment}

theorem ends_eq_none (h : 2 ≤ e.count '-'.toNat) : ends e = none := by
  have hlength := length_splitOn '-'.toNat e
  unfold ends
  split
  · rename_i hparts
    rw [hparts] at hlength
    simp only [List.length_cons, List.length_nil] at hlength
    omega
  · rfl

theorem exists_ends (h : e.count '-'.toNat = 1) : ∃ p, ends e = some p := by
  have hlength := length_splitOn '-'.toNat e
  rw [h] at hlength
  obtain ⟨x, y, hparts⟩ := List.length_eq_two.mp hlength
  exact ⟨(x, y), by simp only [ends, hparts]⟩

theorem is_ip_segment_eq_none (h : 2 ≤ e.count '-'.toNat) : is_ip_segment e = none := by
  have hmem : '-'.toNat ∈ e := List.count_pos_iff.mp (by omega)
  rw [is_ip_segment, if_pos hmem, ends_eq_none h, Option.map_none]

theorem is_ip_segment_of_count (h : e.count '-'.toNat ≤ 1) :
    is_ip_segment e = some (segment e).isSome := by
  by_cases hmem : '-'.toNat ∈ e
  · have hpos := List.count_pos_iff.mpr hmem
    obtain ⟨p, hp⟩ := exists_ends (show e.count '-'.toNat = 1 by omega)
    rw [is_ip_segment, if_pos hmem, segment, hp, Option.map_some, Option.bind_some, is_ip_address,
      is_ip_address]
    cases ip_address p.1 with
    | none => rfl
    | some first => cases ip_address p.2 <;> rfl
  · have hends : ends e = none := by rw [ends, List.splitOn_eq_singleton hmem]
    rw [is_ip_segment, if_neg hmem, segment, hends]
    rfl

/-- The ends are there if the segment is. -/
theorem in_ip_segment_eq (hs : segment e = some s) (ha : ip_address ip = some a) :
    in_ip_segment ip e = some (decide (s.Around a)) := by
  obtain ⟨p, hp, hs⟩ := Option.bind_eq_some_iff.mp hs
  obtain ⟨first, hfirst, hs⟩ := Option.bind_eq_some_iff.mp hs
  obtain ⟨last, hlast, rfl⟩ := Option.map_eq_some_iff.mp hs
  simp only [in_ip_segment, ip_int, hp, hfirst, hlast, ha, Option.map_some, Option.bind_eq_bind,
    Option.bind_some]
  rfl

theorem matched_address (he : ip_address e = some b) : matched ip e = some (decide (ip = e)) := by
  simp [matched, is_ip_address, he]

theorem matched_network (he : ip_address e = none) (hn : ip_network e = some n)
    (ha : ip_address ip = some a) :
    matched ip e = some (n.contains a) := by
  simp [matched, is_ip_address, is_ip_network, he, hn, ha]

/-- What is no address, and no network that is looked at. -/
theorem matched_rest (he : ip_address e = none) (hn : ip_network e = none ∨ ip_address ip = none) :
    matched ip e = (is_ip_segment e).bind fun segment =>
      if segment && is_ip_address ip then in_ip_segment ip e else some (decide (ip = e)) := by
  have hnot : (is_ip_network e && is_ip_address ip) = false := by
    rcases hn with hn | ha
    · simp [is_ip_network, hn]
    · simp [is_ip_address, ha]
  rw [matched, is_ip_address, he, hnot]
  rfl

/-! A round for each kind of entry. -/

theorem not_alias (he : ip_address e = none) : ¬ Alias ip e := by
  rintro ⟨-, a, -, ha⟩
  simp [he] at ha

theorem not_alias_of_cross (h : Cross ip e) : ¬ Alias ip e := by
  obtain ⟨a, s, -, hentry, -⟩ := h
  rintro ⟨-, b, -, hb⟩
  simp [entry, hb] at hentry

theorem listed_of_alias (h : Alias ip e) : Listed ip e := by
  obtain ⟨-, a, ha, he⟩ := h
  exact .inr (.inr ⟨a, ha, by simp [entry, he, Entry.Denotes]⟩)

theorem ne_of_none (he : ip_address e = none) (ha : ip_address ip = some a) : e ≠ ip := by
  rintro rfl
  simp [he] at ha

theorem address_hit (he : ip_address e = some b) (hstar : e ≠ str "*") : ip = e ↔ Hit ip e := by
  have hentry : entry e = .address b := by simp [entry, he]
  have hlisted : Listed ip e ↔ e = ip ∨ ip_address ip = some b := by
    simp [Listed, hstar, hentry, Entry.Denotes]
  have hcross : ¬ Cross ip e := by simp [Cross, hentry]
  have halias : Alias ip e ↔ e ≠ ip ∧ ip_address ip = some b := by simp [Alias, he]
  have hraises : ¬ Raises ip e := by simp [Raises, he]
  rw [Hit, hlisted, halias, eq_comm]
  tauto

theorem network_hit (he : ip_address e = none) (hn : ip_network e = some n)
    (ha : ip_address ip = some a)
    (hstar : e ≠ str "*") : n.contains a = true ↔ Hit ip e := by
  have hentry : entry e = .network n := by simp [entry, he, hn]
  have hlisted : Listed ip e ↔ n.contains a = true := by
    simp [Listed, hstar, hentry, Entry.Denotes, ne_of_none he ha, ha]
  have hcross : ¬ Cross ip e := by simp [Cross, hentry]
  have hraises : ¬ Raises ip e := by simp [Raises, hn, ha]
  simp [Hit, hlisted, hcross, hraises, not_alias he]

theorem segment_hit (he : ip_address e = none) (hn : ip_network e = none) (hs : segment e = some s)
    (ha : ip_address ip = some a) (hstar : e ≠ str "*") (hraises : ¬ Raises ip e) :
    s.Around a ↔ Hit ip e := by
  have hentry : entry e = .segment s := by simp [entry, he, hn, hs]
  have hlisted : Listed ip e ↔ s.Same a ∧ s.Around a := by
    simp [Listed, hstar, hentry, Entry.Denotes, ne_of_none he ha, ha]
  have hcross : Cross ip e ↔ s.Around a ∧ ¬ s.Same a := by simp [Cross, hentry, ha]
  have halias : ¬ Alias ip e := not_alias he
  rw [Hit, hlisted, hcross]
  tauto

/-- Only the text is compared. -/
theorem text_hit (he : ip_address e = none) (hs : entry e = .other ∨ ip_address ip = none)
    (hstar : e ≠ str "*") (hraises : ¬ Raises ip e) : ip = e ↔ Hit ip e := by
  have hlisted : Listed ip e ↔ e = ip := by
    rcases hs with hs | hs <;> simp [Listed, hstar, hs, Entry.Denotes]
  have hcross : ¬ Cross ip e := by
    rcases hs with hs | hs <;> simp [Cross, hs]
  simp [Hit, hlisted, hcross, hraises, not_alias he, eq_comm]

/-- **A round** raises, or hits. -/
theorem matched_iff (hstar : e ≠ str "*") :
    (matched ip e = none ↔ Raises ip e) ∧ (matched ip e = some true ↔ Hit ip e) := by
  have of_some {hit : Bool} (hmatched : matched ip e = some hit) (hraises : ¬ Raises ip e)
      (hhit : hit = true ↔ Hit ip e) :
      (matched ip e = none ↔ Raises ip e) ∧ (matched ip e = some true ↔ Hit ip e) := by
    rw [hmatched, Option.some.injEq]
    exact ⟨iff_of_false (by simp) hraises, hhit⟩
  cases he : ip_address e with
  | some b =>
      have hhit : decide (ip = e) = true ↔ Hit ip e := by simpa using address_hit he hstar
      exact of_some (matched_address he) (by simp [Raises, he]) hhit
  | none =>
      by_cases hlook : ip_network e = none ∨ ip_address ip = none
      · have hrest := matched_rest he hlook
        by_cases hcount : 2 ≤ e.count '-'.toNat
        · have hraises : Raises ip e := ⟨he, hlook, hcount⟩
          rw [is_ip_segment_eq_none hcount] at hrest
          rw [hrest]
          exact ⟨iff_of_true rfl hraises, iff_of_false (by simp) fun hhit => hhit.1 hraises⟩
        · have hraises : ¬ Raises ip e := fun h => hcount h.2.2
          rw [is_ip_segment_of_count (by omega), Option.bind_some] at hrest
          cases ha : ip_address ip with
          | none =>
              have hmatched : matched ip e = some (decide (ip = e)) := by
                simpa [is_ip_address, ha] using hrest
              exact of_some hmatched hraises (by simpa using text_hit he (.inr ha) hstar hraises)
          | some a =>
              have hn : ip_network e = none := hlook.resolve_right (by simp [ha])
              cases hs : segment e with
              | none =>
                  have hentry : entry e = .other := by simp [entry, he, hn, hs]
                  have hmatched : matched ip e = some (decide (ip = e)) := by simpa [hs] using hrest
                  exact of_some hmatched hraises
                    (by simpa using text_hit he (.inl hentry) hstar hraises)
              | some s =>
                  have hmatched : matched ip e = some (decide (s.Around a)) := by
                    simpa [hs, is_ip_address, ha, in_ip_segment_eq hs ha] using hrest
                  exact of_some hmatched hraises
                    (by simpa using segment_hit he hn hs ha hstar hraises)
      · obtain ⟨hn, ha⟩ := not_or.mp hlook
        obtain ⟨n, hn⟩ := Option.ne_none_iff_exists'.mp hn
        obtain ⟨a, ha⟩ := Option.ne_none_iff_exists'.mp ha
        exact of_some (matched_network he hn ha) (by simp [Raises, hn, ha])
          (network_hit he hn ha hstar)

end

/-! ### The loop -/

section
variable {α : Type} {p : α → Option Bool} {l : List α}

/-- Every failure comes after a hit. -/
def Covered (p : α → Option Bool) (l : List α) : Prop :=
  ∀ before x after, l = before ++ x :: after → p x = none → ∃ h ∈ before, p h = some true

theorem covered_cons {x : α} :
    Covered p (x :: l) ↔ p x ≠ none ∧ (p x ≠ some true → Covered p l) := by
  constructor
  · intro h
    refine ⟨fun hnone => ?_, fun hno before y after heq hy => ?_⟩
    · obtain ⟨z, hz, -⟩ := h [] x l rfl hnone
      exact absurd hz List.not_mem_nil
    · obtain ⟨z, hz, hhit⟩ := h (x :: before) y after (congrArg (x :: ·) heq) hy
      rcases List.mem_cons.mp hz with rfl | hz
      · exact absurd hhit hno
      · exact ⟨z, hz, hhit⟩
  · rintro ⟨hsome, h⟩ before y after heq hy
    rcases List.cons_eq_append_iff.mp heq with ⟨-, heq⟩ | ⟨rest, rfl, heq⟩
    · obtain ⟨rfl, -⟩ := List.cons_eq_cons.mp heq
      exact absurd hy hsome
    · by_cases hhit : p x = some true
      · exact ⟨x, List.mem_cons_self, hhit⟩
      · obtain ⟨z, hz, hhit⟩ := h hhit rest y after (List.cons_eq_cons.mp heq).2 hy
        exact ⟨z, List.mem_cons_of_mem _ hz, hhit⟩

/-- A search that can fail stops at the first hit. -/
theorem anyM_ne_none_iff : l.anyM p ≠ none ↔ Covered p l := by
  induction l with
  | nil => simp [Covered]
  | cons x l ih =>
      rw [covered_cons, List.anyM_cons]
      cases hx : p x with
      | none => simp
      | some hit =>
          cases hit with
          | true => simp
          | false => simpa using ih

theorem anyM_eq_true_iff {hit : Bool} (h : l.anyM p = some hit) :
    hit = true ↔ ∃ x ∈ l, p x = some true := by
  induction l with
  | nil => simp_all
  | cons y l ih =>
      rw [List.anyM_cons] at h
      cases hy : p y with
      | none => simp [hy] at h
      | some first =>
          rw [hy] at h
          cases first with
          | true =>
              obtain rfl : true = hit := by simpa using h
              simp [hy]
          | false => simpa [hy] using ih (by simpa using h)

end

/-- **The list.**  The answer says whether the address is listed, exactly when all that raises comes
after a hit, and what is missed or hit wrongly makes no difference. -/
theorem contains_ip_iff (ip : Str) (ip_group : List Str) :
    (∃ found, contains_ip ip ip_group = some found ∧ (found = true ↔ ∃ e ∈ ip_group, Listed ip e)) ↔
      str "*" ∈ ip_group ∨ Sound ip ip_group := by
  by_cases hstar : str "*" ∈ ip_group
  · have hlisted : ∃ e ∈ ip_group, Listed ip e := ⟨_, hstar, .inl rfl⟩
    exact iff_of_true ⟨true, by rw [contains_ip, if_pos hstar], iff_of_true rfl hlisted⟩
      (.inl hstar)
  have hround : ∀ e ∈ ip_group, (matched ip e = none ↔ Raises ip e) ∧
      (matched ip e = some true ↔ Hit ip e) :=
    fun e he => matched_iff fun h => hstar (h ▸ he)
  have hhits : (∃ e ∈ ip_group, matched ip e = some true) ↔ ∃ e ∈ ip_group, Hit ip e :=
    exists_congr fun e => and_congr_right fun he => (hround e he).2
  have hcovered : Covered (matched ip) ip_group ↔
      ∀ before e after, ip_group = before ++ e :: after → Raises ip e → ∃ h ∈ before, Hit ip h := by
    refine forall₃_congr fun before e after => forall_congr' fun heq => ?_
    have hbefore : (∃ h ∈ before, matched ip h = some true) ↔ ∃ h ∈ before, Hit ip h :=
      exists_congr fun h => and_congr_right fun hh => (hround h (by simp [heq, hh])).2
    rw [(hround e (by simp [heq])).1, hbefore]
  rw [or_iff_right hstar, contains_ip, if_neg hstar, Sound, ← hcovered, ← anyM_ne_none_iff]
  cases h : ip_group.anyM (matched ip) with
  | none => simp
  | some found =>
      have hfound : found = true ↔ ∃ e ∈ ip_group, Hit ip e := (anyM_eq_true_iff h).trans hhits
      have hraised : ∀ e ∈ ip_group, Raises ip e → ∃ e ∈ ip_group, Hit ip e := by
        intro e he hraises
        obtain ⟨before, after, heq⟩ := List.append_of_mem he
        have hsome : Covered (matched ip) ip_group := anyM_ne_none_iff.mp (by simp [h])
        obtain ⟨x, hx, hhit⟩ := hcovered.mp hsome before e after heq hraises
        exact ⟨x, by simp [heq, hx], hhit⟩
      have hlisted : (∃ e ∈ ip_group, Listed ip e) →
          (∃ e ∈ ip_group, Alias ip e) ∨ ∃ e ∈ ip_group, Hit ip e := by
        rintro ⟨e, he, hlisted⟩
        by_cases halias : Alias ip e
        · exact .inl ⟨e, he, halias⟩
        · by_cases hraises : Raises ip e
          · exact .inr (hraised e he hraises)
          · exact .inr ⟨e, he, hraises, halias, .inl hlisted⟩
      have hcross : (∃ e ∈ ip_group, Cross ip e) → ∃ e ∈ ip_group, Hit ip e := by
        rintro ⟨e, he, hcross⟩
        by_cases hraises : Raises ip e
        · exact hraised e he hraises
        · exact ⟨e, he, hraises, not_alias_of_cross hcross, .inr hcross⟩
      have halias : (∃ e ∈ ip_group, Alias ip e) → ∃ e ∈ ip_group, Listed ip e := by
        rintro ⟨e, he, halias⟩
        exact ⟨e, he, listed_of_alias halias⟩
      have hhit : (∃ e ∈ ip_group, Hit ip e) →
          (∃ e ∈ ip_group, Listed ip e) ∨ ∃ e ∈ ip_group, Cross ip e := by
        rintro ⟨e, he, -, -, hlisted | hcross⟩
        · exact .inl ⟨e, he, hlisted⟩
        · exact .inr ⟨e, he, hcross⟩
      simp only [Option.some.injEq, exists_eq_left', hfound, ne_eq, reduceCtorEq, not_false_eq_true,
        true_and]
      refine ⟨fun hiff => ⟨fun ha => hiff.mpr (halias ha), fun hc => hiff.mp (hcross hc)⟩, ?_⟩
      rintro ⟨hother, hwrong⟩
      exact ⟨fun hh => (hhit hh).elim id hwrong, fun hl => (hlisted hl).elim hother id⟩

example : contains_ip (str "10.0.0.1") [str "a-b-c.example.com", str "10.0.0.1"] = none := by
  decide +kernel

example : contains_ip (str "10.0.0.1") [str "::-::ffff:ffff"] = some true := by decide +kernel

/-- The same address in another spelling is not found. -/
theorem alias_is_missed :
    ¬ ∀ (ip : Str) (ip_group : List Str), ∃ found, contains_ip ip ip_group = some found ∧
      (found = true ↔ ∃ e ∈ ip_group, Listed ip e) := by
  intro h
  obtain ⟨found, hfound, hiff⟩ := h (str "2001:db8::1") [str "2001:0db8::1"]
  have hmissed : contains_ip (str "2001:db8::1") [str "2001:0db8::1"] = some false := by
    decide +kernel
  obtain rfl : false = found := by simpa [hmissed] using hfound
  have haddress : ip_address (str "2001:0db8::1") = ip_address (str "2001:db8::1") := by
    decide +kernel
  obtain ⟨a, ha⟩ := Option.isSome_iff_exists.mp
    (show (ip_address (str "2001:db8::1")).isSome = true by decide +kernel)
  have hlisted : Listed (str "2001:db8::1") (str "2001:0db8::1") :=
    .inr (.inr ⟨a, ha, by simp [entry, haddress, ha, Entry.Denotes]⟩)
  exact Bool.false_ne_true (hiff.mpr ⟨_, List.mem_singleton_self _, hlisted⟩)

end InfraHub.Common.IpList
