import InfraHub.Lib.Calendar
import InfraHub.Lib.Dict
import Mathlib.Data.List.Dedup
import Mathlib.Data.List.Sort
import Mathlib.Algebra.Order.Ring.Int
import Mathlib.Tactic.Linarith

/-!
# Common — the trend of the dashboard

`trend_info`: how many rows were created on each of the last days.

* The database counts by the days of the current time zone; the days that are shown are those of
  UTC, and a count is found by the month and day.
* `shown_eq`: what is shown for a day is the number of rows of the earliest day that has a row in
  the window and the same month and day.
* `trend_iff`: it is a histogram, with the right percent, exactly under `Ready`.

A time is a number of microseconds since the first of January of the year 1.
-/

namespace InfraHub.Common.Trend
open InfraHub.Lib (Str Dict)
open InfraHub.Lib.Calendar (strftime strftime_inj monthDay monthDay_apart)

/-! ### Days -/

/-- The microseconds of a day. -/
def DAY : Nat := 86400000000

/-- A time zone: the local time, which is less than a day away. -/
structure Zone where
  localtime : Nat → Nat
  near : ∀ t, t < localtime t + DAY ∧ localtime t < t + DAY

/-- The day of a time. -/
def day (t : Nat) : Nat := t / DAY

/-- `TruncDay`, in the current time zone. -/
def trunc_day (tz : Zone) (t : Nat) : Nat := day (tz.localtime t)

/-! ### The code -/

structure Entry where
  day : Str
  count : Nat

/-- The days of the rows with their numbers, the last day first. -/
def data_count (tz : Zone) (created : List Nat) : List (Nat × Nat) :=
  (((created.map (trunc_day tz)).dedup).insertionSort (· ≥ ·)).map fun d =>
    (d, created.countP fun t => trunc_day tz t = d)

/-- The change of the last day, as it is written. -/
def percent (results : List Entry) : Int :=
  match results.reverse with
  | last :: y :: _ => if y.count = 0 then 100 * ((last.count : Int) - y.count) else y.count
  | _ => 0

/-- Of a queryset only the times of creation are read; a day before the year 1 is an error. -/
def trend_info (tz : Zone) (now : Nat) (queryset : List Nat) (limit_day : Nat) :
    Option (List Entry × Int × Nat) :=
  if limit_day * DAY + now % DAY ≤ now then
    let limit_days := now - (limit_day * DAY + now % DAY)
    let created := queryset.filter (limit_days ≤ ·)
    let dict_count := Dict.ofList ((data_count tz created).map fun d => (strftime d.1, d.2))
    let results := (List.range (limit_day + 1)).reverse.map fun i =>
      let date := strftime (day (now - i * DAY))
      (⟨date, (dict_count.get date).getD 0⟩ : Entry)
    some (results, percent results, queryset.length)
  else none

/-! ### A histogram -/

/-- The rows of a day. -/
def rows_on (tz : Zone) (queryset : List Nat) (d : Nat) : Nat :=
  queryset.countP fun t => trunc_day tz t = d

/-- `round(n / d)`: to the nearest, and to the even one of two. -/
def round (n : Int) (d : Nat) : Int :=
  let q := n / d
  let r := 2 * (n % d)
  if r < d ∨ r = d ∧ q % 2 = 0 then q else q + 1

/-- The days that end with today, each with its rows, and the change of the last. -/
structure Correct (tz : Zone) (now : Nat) (queryset : List Nat) (limit_day : Nat)
    (result : Option (List Entry × Int × Nat)) : Prop where
  returns : result.isSome
  results : ∀ r ∈ result, r.1 = (List.range (limit_day + 1)).reverse.map fun i =>
    ⟨strftime (trunc_day tz now - i), rows_on tz queryset (trunc_day tz now - i)⟩
  total : ∀ r ∈ result, (r.1.map Entry.count).sum = queryset.countP fun t =>
    trunc_day tz now ≤ trunc_day tz t + limit_day ∧ trunc_day tz t ≤ trunc_day tz now
  percent : ∀ r ∈ result,
    let today := rows_on tz queryset (trunc_day tz now)
    let yesterday := rows_on tz queryset (trunc_day tz now - 1)
    0 < yesterday → r.2.1 = round (100 * ((today : Int) - yesterday)) yesterday

/-! ### The condition -/

/-- The start of the window: midnight in UTC. -/
def start (now limit_day : Nat) : Nat := (day now - limit_day) * DAY

/-- The earliest day with the month and day of `d` that has rows since the start. -/
structure Earliest (tz : Zone) (now : Nat) (queryset : List Nat) (limit_day d e : Nat) : Prop where
  row : ∃ t ∈ queryset, start now limit_day ≤ t ∧ trunc_day tz t = e
  same : monthDay e = monthDay d
  first : ∀ t ∈ queryset, start now limit_day ≤ t → monthDay (trunc_day tz t) = monthDay d →
    e ≤ trunc_day tz t

/-- **The condition.** -/
structure Ready (tz : Zone) (now : Nat) (queryset : List Nat) (limit_day : Nat) : Prop where
  /-- There is a first day. -/
  started : limit_day ≤ day now
  /-- It is the same day here and in UTC. -/
  today : trunc_day tz now = day now
  /-- The rows that stand for a day are as many as its own: those of a day to come, or those of
  the day a year before today, if the window reaches that far. -/
  others : ∀ i ≤ limit_day, ∀ e, Earliest tz now queryset limit_day (day now - i) e →
    (day now < e ∨ e + 365 = day now ∧ limit_day = 364 ∧ i = 0) →
    (queryset.countP fun t => start now limit_day ≤ t ∧ trunc_day tz t = e) =
      rows_on tz queryset (day now - i)
  /-- The first day has no row before midnight in UTC, unless a day to come stands for it. -/
  edge : (∀ e, day now < e → ¬ Earliest tz now queryset limit_day (day now - limit_day) e) →
    ∀ t ∈ queryset, trunc_day tz t = day now - limit_day → start now limit_day ≤ t
  /-- A hundred times the change is the square of the rows of yesterday, or as good as that. -/
  percent :
    let today : Int := rows_on tz queryset (day now)
    let yesterday : Int := rows_on tz queryset (day now - 1)
    let change := 2 * (100 * (today - yesterday) - yesterday * yesterday)
    0 < yesterday → (-yesterday < change ∧ change < yesterday) ∨
      (change = -yesterday ∨ change = yesterday) ∧ yesterday % 2 = 0

/-! ### Rounding -/

/-- When a quotient is rounded to `k`. -/
theorem round_eq_iff {n k : Int} {d : Nat} (hd : 0 < d) :
    round n d = k ↔ (-d < 2 * (n - k * d) ∧ 2 * (n - k * d) < d) ∨
      (2 * (n - k * d) = -d ∨ 2 * (n - k * d) = d) ∧ k % 2 = 0 := by
  have hd' : (0 : Int) < d := Int.natCast_pos.mpr hd
  have hlo := Int.emod_nonneg n hd'.ne'
  have hhi := Int.emod_lt_of_pos n hd'
  have hn : n - k * d = (n / d - k) * d + n % d := by
    have hdiv := Int.ediv_mul_add_emod n d
    rw [Int.sub_mul]
    omega
  rw [round, hn]
  generalize n / (d : Int) = q
  generalize n % (d : Int) = r at hlo hhi ⊢
  -- the quotient is `k`, one less, or too far from it
  rcases lt_trichotomy q (k - 1) with hlt | rfl | hgt
  · have hfar : (q - k) * d ≤ -2 * d := by nlinarith
    split <;> constructor <;> intro h <;> omega
  · have hone : k - 1 - k = -1 := by omega
    rw [hone, neg_one_mul]
    split <;> constructor <;> intro h <;> omega
  · rcases eq_or_lt_of_le (Int.le_of_sub_one_lt hgt) with rfl | hgt
    · rw [sub_self, zero_mul]
      split <;> constructor <;> intro h <;> omega
    · have hfar : (d : Int) ≤ (q - k) * d := by nlinarith
      split <;> constructor <;> intro h <;> omega

/-! ### The numbers of the days -/

section
variable {tz : Zone} {now limit_day i : Nat} {queryset : List Nat}

theorem day_le_iff {t d : Nat} : d ≤ day t ↔ d * DAY ≤ t := Nat.le_div_iff_mul_le (by decide)

/-- Here and in UTC the days are the same or next to one another. -/
theorem day_near (tz : Zone) (t : Nat) :
    day t ≤ trunc_day tz t + 1 ∧ trunc_day tz t ≤ day t + 1 := by
  have hnear := tz.near t
  unfold trunc_day day DAY at *
  omega

theorem day_sub (h : i ≤ day now) : day (now - i * DAY) = day now - i := by
  have hle := day_le_iff.mp h
  unfold day DAY at *
  omega

theorem started_iff : limit_day * DAY + now % DAY ≤ now ↔ limit_day ≤ day now := by
  rw [day_le_iff]
  unfold DAY
  omega

theorem start_eq (h : limit_day ≤ day now) :
    now - (limit_day * DAY + now % DAY) = start now limit_day := by
  have hle := day_le_iff.mp h
  unfold start day DAY at *
  omega

/-- The numbers that are looked up, with the days in descending order: the last of a text is that
of the earliest day. -/
theorem get_descending {days : List Nat} (count : Nat → Nat) (hdays : days.Pairwise (· > ·))
    (d : Nat) :
    (Dict.ofList (days.map fun e => (strftime e, count e))).get (strftime d) =
      ((days.reverse.find? fun e => monthDay e = monthDay d).map count) := by
  induction days using List.reverseRecOn with
  | nil => rfl
  | append_singleton days e ih =>
      have hdays' := (List.pairwise_append.mp hdays).1
      have hset : Dict.ofList ((days ++ [e]).map fun e => (strftime e, count e)) =
          (Dict.ofList (days.map fun e => (strftime e, count e))).set (strftime e) (count e) := by
        rw [Dict.ofList, List.map_append, List.foldl_append]
        rfl
      rw [hset, Dict.get_set, ih hdays', List.reverse_append, List.reverse_singleton,
        List.singleton_append, List.find?_cons]
      by_cases hmd : monthDay e = monthDay d
      · simp [hmd, strftime_inj]
      · have hne : strftime d ≠ strftime e := fun h => hmd (strftime_inj.mp h).symm
        simp [hmd, hne]

/-- The rows since the start. -/
def created (now : Nat) (queryset : List Nat) (limit_day : Nat) : List Nat :=
  queryset.filter (start now limit_day ≤ ·)

/-- What is shown for a day. -/
def shown (tz : Zone) (now : Nat) (queryset : List Nat) (limit_day d : Nat) : Nat :=
  ((Dict.ofList ((data_count tz (created now queryset limit_day)).map
    fun d => (strftime d.1, d.2))).get (strftime d)).getD 0

/-- The days of the rows, the last first. -/
def days (tz : Zone) (created : List Nat) : List Nat :=
  ((created.map (trunc_day tz)).dedup).insertionSort (· ≥ ·)

theorem mem_days {created : List Nat} {e : Nat} :
    e ∈ days tz created ↔ ∃ t ∈ created, trunc_day tz t = e := by
  rw [days, (List.perm_insertionSort _ _).mem_iff, List.mem_dedup, List.mem_map]

theorem days_descending (tz : Zone) (created : List Nat) :
    (days tz created).Pairwise (· > ·) := by
  have hsorted := List.pairwise_insertionSort (· ≥ ·) ((created.map (trunc_day tz)).dedup)
  have hnodup : (days tz created).Nodup :=
    (List.perm_insertionSort _ _).nodup_iff.mpr (List.nodup_dedup _)
  exact (hsorted.and hnodup).imp fun h => lt_of_le_of_ne h.1 h.2.symm

/-- In an ascending list the least is found. -/
theorem find_least {l : List Nat} {p : Nat → Bool} {e : Nat} (hl : l.Pairwise (· < ·)) (he : e ∈ l)
    (hp : p e) (hleast : ∀ x ∈ l, p x → e ≤ x) : l.find? p = some e := by
  cases h : l.find? p with
  | none => exact absurd hp (List.find?_eq_none.mp h e he)
  | some x =>
      obtain ⟨hx, before, after, rfl, hbefore⟩ := List.find?_eq_some_iff_append.mp h
      have hle : e ≤ x := hleast x (by simp) hx
      rcases List.mem_append.mp he with hmem | hmem
      · have hnot := hbefore e hmem
        rw [hp] at hnot
        cases hnot
      · rcases List.mem_cons.mp hmem with rfl | hmem
        · rfl
        · have hlt := List.rel_of_pairwise_cons (List.pairwise_append.mp hl).2.1 hmem
          omega

theorem shown_eq (tz : Zone) (now : Nat) (queryset : List Nat) (limit_day d : Nat) :
    shown tz now queryset limit_day d =
      (((days tz (created now queryset limit_day)).reverse.find? fun e =>
        monthDay e = monthDay d).map fun e =>
          (created now queryset limit_day).countP fun t => trunc_day tz t = e).getD 0 := by
  rw [shown, data_count, List.map_map, ← days]
  exact congrArg (Option.getD · 0) (get_descending _ (days_descending _ _) d)

/-- **What is shown for a day**: the rows of the earliest day with its month and day. -/
theorem shown_of_earliest {d e : Nat} (h : Earliest tz now queryset limit_day d e) :
    shown tz now queryset limit_day d =
      queryset.countP fun t => start now limit_day ≤ t ∧ trunc_day tz t = e := by
  obtain ⟨⟨t, ht, hstart, hday⟩, hsame, hfirst⟩ := h
  have hmem : e ∈ (days tz (created now queryset limit_day)).reverse :=
    List.mem_reverse.mpr (mem_days.mpr ⟨t, List.mem_filter.mpr ⟨ht, decide_eq_true hstart⟩, hday⟩)
  have hfind := find_least (p := fun e => monthDay e = monthDay d)
    (List.pairwise_reverse.mpr (days_descending tz (created now queryset limit_day))) hmem
    (decide_eq_true hsame) fun x hx hmd => by
      obtain ⟨t', ht', rfl⟩ := mem_days.mp (List.mem_reverse.mp hx)
      obtain ⟨hq, hs⟩ := List.mem_filter.mp ht'
      exact hfirst t' hq (of_decide_eq_true hs) (of_decide_eq_true hmd)
  rw [shown_eq, hfind, Option.map_some, Option.getD_some, created, List.countP_filter]
  exact List.countP_congr fun t _ => by simp [and_comm]

/-- There is an earliest day if there is any. -/
theorem exists_earliest {t d : Nat} (ht : t ∈ queryset) (hstart : start now limit_day ≤ t)
    (hmd : monthDay (trunc_day tz t) = monthDay d) :
    ∃ e, Earliest tz now queryset limit_day d e := by
  classical
  have hex : ∃ e, ∃ t ∈ queryset, start now limit_day ≤ t ∧ trunc_day tz t = e ∧
      monthDay e = monthDay d := ⟨_, t, ht, hstart, rfl, hmd⟩
  obtain ⟨t', ht', hstart', hday, hmd'⟩ := Nat.find_spec hex
  exact ⟨Nat.find hex, ⟨t', ht', hstart', hday⟩, hmd',
    fun u hu hs hm => Nat.find_min' hex ⟨u, hu, hs, rfl, hm⟩⟩

theorem shown_of_none {d : Nat} (h : ∀ e, ¬ Earliest tz now queryset limit_day d e) :
    shown tz now queryset limit_day d = 0 := by
  have hnone : (days tz (created now queryset limit_day)).reverse.find?
      (fun e => monthDay e = monthDay d) = none := by
    refine List.find?_eq_none.mpr fun x hx hmd => ?_
    obtain ⟨t, ht, rfl⟩ := mem_days.mp (List.mem_reverse.mp hx)
    obtain ⟨hq, hs⟩ := List.mem_filter.mp ht
    obtain ⟨e, he⟩ := exists_earliest hq (of_decide_eq_true hs) (of_decide_eq_true hmd)
    exact h e he
  rw [shown_eq, hnone, Option.map_none, Option.getD_none]

/-! ### Which day stands for another -/

theorem earliest_unique {d e e' : Nat} (h : Earliest tz now queryset limit_day d e)
    (h' : Earliest tz now queryset limit_day d e') : e = e' := by
  obtain ⟨t, ht, hs, rfl⟩ := h.row
  obtain ⟨t', ht', hs', rfl⟩ := h'.row
  exact le_antisymm (h.first t' ht' hs' h'.same) (h'.first t ht hs h.same)

/-- A row of a day of the window but the first is one since the start. -/
theorem created_of_day {t : Nat} (h : day now - limit_day < trunc_day tz t) :
    start now limit_day ≤ t := by
  refine day_le_iff.mp ?_
  have hnear := (day_near tz t).2
  omega

variable (hstarted : limit_day ≤ day now)
include hstarted

/-- A row since the start is of a day of the window, of the day before it, or of a day to come. -/
theorem day_of_created {t : Nat} (h : start now limit_day ≤ t) :
    day now ≤ trunc_day tz t + 1 + limit_day := by
  have hle : day now - limit_day ≤ day t := day_le_iff.mpr h
  have hnear := (day_near tz t).1
  omega

/-- **Which other day may stand for one of the window.** -/
theorem earliest_cases (hlimit : limit_day < 365) (hi : i ≤ limit_day) {e : Nat}
    (h : Earliest tz now queryset limit_day (day now - i) e) :
    e = day now - i ∨ day now < e ∨ e + 365 = day now ∧ limit_day = 364 ∧ i = 0 := by
  obtain ⟨⟨t, -, hstart, rfl⟩, hsame, -⟩ := h
  have hday : day now ≤ trunc_day tz t + 1 + limit_day := day_of_created hstarted hstart
  rcases lt_trichotomy (trunc_day tz t) (day now - i) with hlt | heq | hgt
  · have hapart := monthDay_apart hsame hlt
    omega
  · exact .inl heq
  · have hapart := monthDay_apart hsame.symm hgt
    omega

omit hstarted in
/-- If as many meet both as meet one, all that meet the one meet the other. -/
theorem of_countP_eq {p q : Nat → Prop} [DecidablePred p] [DecidablePred q] {l : List Nat}
    (h : (l.countP fun t => p t ∧ q t) = l.countP fun t => q t) : ∀ t ∈ l, q t → p t := by
  intro t ht hq
  have hsplit := List.countP_eq_countP_filter_add l (fun t => decide (q t)) fun t => decide (p t)
  rw [List.countP_filter, ← h] at hsplit
  have hboth : (l.countP fun t => decide (q t) && decide (p t)) = l.countP fun t => p t ∧ q t :=
    List.countP_congr fun t _ => by simp [and_comm]
  have hzero : (l.filter fun t => !decide (p t)).countP (fun t => decide (q t)) = 0 := by omega
  by_contra hp
  exact List.countP_eq_zero.mp hzero t (List.mem_filter.mpr ⟨ht, by simp [hp]⟩) (by simp [hq])

variable (tz queryset) in
/-- Every day of the window is shown with its rows. -/
theorem shown_iff (hlimit : limit_day < 365) (hpos : 1 ≤ limit_day) :
    (∀ i ≤ limit_day, shown tz now queryset limit_day (day now - i) =
        rows_on tz queryset (day now - i)) ↔
      (∀ i ≤ limit_day, ∀ e, Earliest tz now queryset limit_day (day now - i) e →
        (day now < e ∨ e + 365 = day now ∧ limit_day = 364 ∧ i = 0) →
        (queryset.countP fun t => start now limit_day ≤ t ∧ trunc_day tz t = e) =
          rows_on tz queryset (day now - i)) ∧
      ((∀ e, day now < e → ¬ Earliest tz now queryset limit_day (day now - limit_day) e) →
        ∀ t ∈ queryset, trunc_day tz t = day now - limit_day → start now limit_day ≤ t) := by
  constructor
  · intro h
    refine ⟨fun i hi e he _ => (shown_of_earliest he).symm.trans (h i hi), ?_⟩
    intro hfuture t ht hday
    have hshown := h limit_day (Nat.le_refl _)
    by_cases hany : ∃ e, Earliest tz now queryset limit_day (day now - limit_day) e
    · obtain ⟨e, he⟩ := hany
      -- the day is shown with its own rows, so none of them is left out
      obtain rfl : e = day now - limit_day := by
        rcases earliest_cases hstarted hlimit (Nat.le_refl _) he with h | h | h
        · exact h
        · exact absurd he (hfuture e h)
        · omega
      rw [shown_of_earliest he, rows_on] at hshown
      exact of_countP_eq hshown t ht hday
    · rw [shown_of_none fun e he => hany ⟨e, he⟩, rows_on, eq_comm, List.countP_eq_zero] at hshown
      exact absurd (decide_eq_true hday) (hshown t ht)
  · rintro ⟨hothers, hedge⟩ i hi
    -- no row of the day is left out, unless a day to come stands for it
    have hcreated (hfuture : ∀ e, day now < e →
        ¬ Earliest tz now queryset limit_day (day now - i) e) :
        ∀ t ∈ queryset, trunc_day tz t = day now - i → start now limit_day ≤ t := by
      intro t ht hday
      rcases Nat.lt_or_eq_of_le hi with hlt | rfl
      · have hlast : day now - limit_day < trunc_day tz t := by omega
        exact created_of_day hlast
      · exact hedge hfuture t ht hday
    by_cases hany : ∃ e, Earliest tz now queryset limit_day (day now - i) e
    · obtain ⟨e, he⟩ := hany
      rcases earliest_cases hstarted hlimit hi he with heq | hother
      · subst heq
        rw [shown_of_earliest he, rows_on]
        refine List.countP_congr fun t ht => ?_
        have hown := hcreated (fun e' hlt he' => by
          have heq := earliest_unique he he'
          omega) t ht
        simpa using hown
      · rw [shown_of_earliest he]
        exact hothers i hi e he hother
    · have hnone : ∀ e, ¬ Earliest tz now queryset limit_day (day now - i) e :=
        fun e he => hany ⟨e, he⟩
      rw [shown_of_none hnone, rows_on, eq_comm, List.countP_eq_zero]
      intro t ht hday
      have hday' := of_decide_eq_true hday
      obtain ⟨e, he⟩ := exists_earliest ht (hcreated (fun e _ => hnone e) t ht hday')
        (congrArg monthDay hday')
      exact hnone e he

/-! ### The results -/

omit hstarted in
/-- The rows of the days of the window are all rows of the window. -/
theorem sum_rows_on (tz : Zone) (queryset : List Nat) {d : Nat} (h : limit_day ≤ d) :
    ((List.range (limit_day + 1)).map fun i => rows_on tz queryset (d - i)).sum =
      queryset.countP fun t => d ≤ trunc_day tz t + limit_day ∧ trunc_day tz t ≤ d := by
  induction limit_day with
  | zero =>
      rw [List.range_one, List.map_singleton, List.sum_singleton]
      exact List.countP_congr fun t _ => by simp; omega
  | succ n ih =>
      rw [List.range_succ, List.map_append, List.sum_append, ih (by omega), List.map_singleton,
        List.sum_singleton, rows_on]
      have hsplit := List.countP_eq_countP_filter_add queryset
        (fun t => decide (d ≤ trunc_day tz t + (n + 1) ∧ trunc_day tz t ≤ d))
        fun t => decide (d ≤ trunc_day tz t + n)
      rw [List.countP_filter, List.countP_filter] at hsplit
      rw [hsplit]
      refine congrArg₂ (· + ·) (List.countP_congr fun t _ => ?_) (List.countP_congr fun t _ => ?_)
      · simp
        omega
      · simp
        omega

omit hstarted in
theorem percent_eq (hpos : 1 ≤ limit_day) (f : Nat → Entry) :
    percent ((List.range (limit_day + 1)).reverse.map f) =
      if (f 1).count = 0 then 100 * (((f 0).count : Int) - (f 1).count) else (f 1).count := by
  obtain ⟨n, rfl⟩ := Nat.exists_eq_add_of_le' hpos
  rw [percent, List.map_reverse, List.reverse_reverse, List.range_succ_eq_map,
    List.range_succ_eq_map]
  rfl

/-- What `trend_info` returns. -/
theorem trend_info_eq (tz : Zone) (queryset : List Nat) :
    trend_info tz now queryset limit_day = some
      ((List.range (limit_day + 1)).reverse.map fun i =>
        ⟨strftime (day now - i), shown tz now queryset limit_day (day now - i)⟩,
      percent ((List.range (limit_day + 1)).reverse.map fun i =>
        ⟨strftime (day now - i), shown tz now queryset limit_day (day now - i)⟩),
      queryset.length) := by
  have hresults : ((List.range (limit_day + 1)).reverse.map fun i =>
      (⟨strftime (day (now - i * DAY)),
        ((Dict.ofList ((data_count tz (created now queryset limit_day)).map
          fun d => (strftime d.1, d.2))).get (strftime (day (now - i * DAY)))).getD 0⟩ : Entry)) =
      (List.range (limit_day + 1)).reverse.map fun i =>
        ⟨strftime (day now - i), shown tz now queryset limit_day (day now - i)⟩ := by
    refine List.map_congr_left fun i hi => ?_
    have hle : i ≤ day now := by
      have hlt := List.mem_range.mp (List.mem_reverse.mp hi)
      omega
    rw [day_sub hle, shown]
  rw [trend_info, if_pos (started_iff.mpr hstarted), start_eq hstarted]
  exact congrArg (fun results => some (results, percent results, queryset.length)) hresults

omit hstarted in
/-- The days with their rows, exactly if it is the same day here and in UTC and every day of the
window is shown with its rows. -/
theorem results_iff :
    ((List.range (limit_day + 1)).reverse.map fun i =>
        (⟨strftime (day now - i), shown tz now queryset limit_day (day now - i)⟩ : Entry)) =
      ((List.range (limit_day + 1)).reverse.map fun i =>
        ⟨strftime (trunc_day tz now - i), rows_on tz queryset (trunc_day tz now - i)⟩) ↔
      trunc_day tz now = day now ∧ ∀ i ≤ limit_day,
        shown tz now queryset limit_day (day now - i) = rows_on tz queryset (day now - i) := by
  have hmem {i : Nat} : i ∈ (List.range (limit_day + 1)).reverse ↔ i ≤ limit_day := by
    rw [List.mem_reverse, List.mem_range, Nat.lt_succ_iff]
  rw [List.map_inj_left]
  simp only [hmem, Entry.mk.injEq]
  constructor
  · intro h
    have hmd : monthDay (day now) = monthDay (trunc_day tz now) :=
      strftime_inj.mp (h 0 (Nat.zero_le _)).1
    have htoday : trunc_day tz now = day now := by
      have hnear := day_near tz now
      rcases Nat.lt_trichotomy (trunc_day tz now) (day now) with hlt | heq | hgt
      · have hapart := monthDay_apart hmd.symm hlt
        omega
      · exact heq
      · have hapart := monthDay_apart hmd hgt
        omega
    refine ⟨htoday, fun i hi => ?_⟩
    rw [(h i hi).2, htoday]
  · rintro ⟨htoday, h⟩ i hi
    rw [htoday]
    exact ⟨rfl, h i hi⟩

end

/-- Without a first day there is an error. -/
theorem trend_info_none {tz : Zone} {now limit_day : Nat} {queryset : List Nat}
    (h : ¬ limit_day ≤ day now) : trend_info tz now queryset limit_day = none :=
  if_neg fun hle => h (started_iff.mp hle)

/-- The percent is right where a hundred times the change is near the square. -/
theorem percent_iff {today yesterday : Nat} (h : 0 < yesterday) :
    (yesterday : Int) = round (100 * ((today : Int) - yesterday)) yesterday ↔
      let change := 2 * (100 * ((today : Int) - yesterday) - yesterday * yesterday)
      (-(yesterday : Int) < change ∧ change < yesterday) ∨
        (change = -yesterday ∨ change = yesterday) ∧ (yesterday : Int) % 2 = 0 :=
  eq_comm.trans (round_eq_iff h)

/-- The trend is a histogram, with the right percent, exactly under the condition. -/
theorem trend_iff (tz : Zone) (now : Nat) (queryset : List Nat) {limit_day : Nat}
    (hpos : 1 ≤ limit_day) (hlimit : limit_day < 365) :
    Correct tz now queryset limit_day (trend_info tz now queryset limit_day) ↔
      Ready tz now queryset limit_day := by
  by_cases hstarted : limit_day ≤ day now
  · rw [trend_info_eq hstarted tz queryset]
    have hshown := shown_iff tz queryset hstarted hlimit hpos
    constructor
    · rintro ⟨-, hresults, -, hpercent⟩
      obtain ⟨htoday, hrows⟩ := results_iff.mp (hresults _ rfl)
      obtain ⟨hothers, hedge⟩ := hshown.mp hrows
      refine ⟨hstarted, htoday, hothers, hedge, fun hy => ?_⟩
      have hy' : 0 < rows_on tz queryset (day now - 1) := Int.natCast_pos.mp hy
      have hround := hpercent _ rfl
      rw [htoday] at hround
      rw [percent_eq hpos, hrows 1 hpos, if_neg hy'.ne'] at hround
      exact (percent_iff hy').mp (hround hy')
    · rintro ⟨-, htoday, hothers, hedge, hpercent⟩
      have hrows := hshown.mpr ⟨hothers, hedge⟩
      have hresults := results_iff.mpr ⟨htoday, hrows⟩
      refine ⟨rfl, ?_, ?_, ?_⟩
      · rintro _ ⟨⟩
        exact hresults
      · rintro _ ⟨⟩
        rw [hresults, List.map_map, List.map_reverse, List.sum_reverse]
        exact sum_rows_on tz queryset (htoday ▸ hstarted)
      · rintro _ ⟨⟩
        rw [htoday]
        intro today yesterday hy
        have hy' : rows_on tz queryset (day now - 1) ≠ 0 := hy.ne'
        rw [percent_eq hpos, hrows 1 hpos, if_neg hy']
        exact (percent_iff hy).mpr (hpercent (Int.natCast_pos.mpr hy))
  · rw [trend_info_none hstarted]
    exact iff_of_false (fun h => Bool.false_ne_true h.returns) fun h => hstarted h.started

/-! ### Two rows a day -/

def utc : Zone := ⟨id, fun _ => by simp [DAY]⟩

/-- Noon of a day. -/
def noon (d : Nat) : Nat := d * DAY + DAY / 2

/-- Two rows yesterday and two today. -/
def sample : List Nat := [noon 738943, noon 738943, noon 738944, noon 738944]

theorem trend_week : (1 ≤ 7 ∧ 7 < 365) ∧
    (Correct utc (noon 738944) sample 7 (trend_info utc (noon 738944) sample 7) ↔
      Ready utc (noon 738944) sample 7) :=
  ⟨by decide, trend_iff utc (noon 738944) sample (by decide) (by decide)⟩

/-- **Nothing changes by two percent.** -/
theorem unchanged_by_two : ¬ Correct utc (noon 738944) sample 7
    (trend_info utc (noon 738944) sample 7) := by
  intro h
  have htwo : ((trend_info utc (noon 738944) sample 7).map fun r => r.2.1) = some 2 := by
    decide +kernel
  have hrows : 0 < rows_on utc sample (trunc_day utc (noon 738944) - 1) := by decide +kernel
  have hzero : round (100 * ((rows_on utc sample (trunc_day utc (noon 738944)) : Int) -
      rows_on utc sample (trunc_day utc (noon 738944) - 1)))
      (rows_on utc sample (trunc_day utc (noon 738944) - 1)) = 0 := by
    decide +kernel
  obtain ⟨r, hr, hpercent⟩ := Option.map_eq_some_iff.mp htwo
  have hround := h.percent r hr hrows
  rw [hpercent, hzero] at hround
  cases hround

end InfraHub.Common.Trend
