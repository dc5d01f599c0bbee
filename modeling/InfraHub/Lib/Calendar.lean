import InfraHub.Lib.Text
import Mathlib.Data.Nat.Find

/-!
# Library — Calendar

Days of the Gregorian calendar, numbered from the first of January of the year 1, which is day 0.

* `year_spec`, `month_spec`: a day lies in its year and in its month.
* `monthDay_apart`: two days with the same month and day are 365 days apart or more.
* `strftime_inj`: the text of month and day tells them.
-/

namespace InfraHub.Lib.Calendar

/-! ### Years -/

/-- Days before the year `y + 1`. -/
def before (y : Nat) : Nat := y * 365 + y / 4 - y / 100 + y / 400

/-- The year `y + 1` is a leap year. -/
def leap (y : Nat) : Bool := (y + 1) % 4 = 0 ∧ ((y + 1) % 100 ≠ 0 ∨ (y + 1) % 400 = 0)

theorem before_succ (y : Nat) : before (y + 1) = before y + 365 + if leap y then 1 else 0 := by
  have hle : y / 100 ≤ y / 4 := Nat.div_le_div_left (by decide) (by decide)
  have hleap : leap y ↔ 4 ∣ y + 1 ∧ (¬ 100 ∣ y + 1 ∨ 400 ∣ y + 1) := by
    simp only [leap, decide_eq_true_eq, Nat.dvd_iff_mod_eq_zero]
  have h100 : 100 ∣ y + 1 → 4 ∣ y + 1 := Nat.dvd_trans (by decide)
  have h400 : 400 ∣ y + 1 → 100 ∣ y + 1 := Nat.dvd_trans (by decide)
  rw [before, before, Nat.succ_div, Nat.succ_div, Nat.succ_div]
  simp only [hleap]
  generalize y / 4 = a at hle ⊢
  generalize y / 100 = b at hle ⊢
  by_cases h₄ : 4 ∣ y + 1
  · by_cases h₁ : 100 ∣ y + 1
    · by_cases h₂ : 400 ∣ y + 1 <;> simp only [h₄, h₁, h₂] <;> simp <;> omega
    · simp only [h₄, h₁, mt h400 h₁]
      simp
      omega
  · simp only [h₄, mt h100 h₄, mt h400 (mt h100 h₄)]
    simp
    omega

theorem le_before (y : Nat) : y * 365 ≤ before y := by
  unfold before
  omega

/-- The years before that of a day. -/
def year (d : Nat) : Nat := Nat.findGreatest (fun y => before y ≤ d) (d / 365)

theorem year_spec (d : Nat) : before (year d) ≤ d ∧ d < before (year d + 1) := by
  refine ⟨Nat.findGreatest_spec (P := fun y => before y ≤ d) (Nat.zero_le _) (Nat.zero_le d), ?_⟩
  by_contra hle
  have hbound : year d + 1 ≤ d / 365 := by
    rw [Nat.le_div_iff_mul_le (by decide)]
    exact (le_before _).trans (Nat.le_of_not_lt hle)
  exact Nat.findGreatest_is_greatest (P := fun y => before y ≤ d) (Nat.lt_succ_self _) hbound
    (Nat.le_of_not_lt hle)

theorem before_mono {y z : Nat} (h : y ≤ z) : before y ≤ before z := by
  induction h with
  | refl => exact Nat.le_refl _
  | step _ ih => exact ih.trans (by rw [before_succ]; omega)

/-- The days of its year before a day. -/
def yearDay (d : Nat) : Nat := d - before (year d)

/-! ### Months -/

/-- Days of the year before a month, in a common year. -/
def months : List Nat := [0, 31, 59, 90, 120, 151, 181, 212, 243, 273, 304, 334]

def beforeMonth (leap : Bool) (m : Nat) : Nat :=
  months.getD m 365 + if 1 < m ∧ leap then 1 else 0

/-- The months before that of a day. -/
def month (d : Nat) : Nat :=
  Nat.findGreatest (fun m => beforeMonth (leap (year d)) m ≤ yearDay d) 11

theorem month_spec (d : Nat) : beforeMonth (leap (year d)) (month d) ≤ yearDay d :=
  Nat.findGreatest_spec (P := fun m => beforeMonth (leap (year d)) m ≤ yearDay d) (Nat.zero_le 11)
    (Nat.zero_le (yearDay d))

def monthDay (d : Nat) : Nat × Nat :=
  (month d + 1, yearDay d - beforeMonth (leap (year d)) (month d) + 1)

/-- **The same month and day come back after a year**, at the earliest. -/
theorem monthDay_apart {d e : Nat} (hmd : monthDay d = monthDay e) (h : d < e) : d + 365 ≤ e := by
  have hm : month d = month e := Nat.succ.inj (congrArg Prod.fst hmd)
  have hday : yearDay d - beforeMonth (leap (year d)) (month d) + 1 =
      yearDay e - beforeMonth (leap (year e)) (month e) + 1 := congrArg Prod.snd hmd
  obtain ⟨hd, hd'⟩ := year_spec d
  obtain ⟨he, he'⟩ := year_spec e
  have hdm := month_spec d
  have hem := month_spec e
  rw [hm] at hdm hday
  unfold yearDay at hdm hem hday
  rcases Nat.lt_trichotomy (year d) (year e) with hlt | heq | hgt
  · -- a leap day counts for the later of the two only if it lies between them
    have hnext : before (year d) + 365 + (if leap (year d) then 1 else 0) ≤ before (year e) :=
      before_succ (year d) ▸ before_mono hlt
    have hleap : beforeMonth (leap (year d)) (month e) ≤
        beforeMonth (leap (year e)) (month e) + if leap (year d) then 1 else 0 := by
      unfold beforeMonth
      split <;> split <;> split <;> simp_all
    omega
  · rw [heq] at hday hdm hd
    omega
  · have hle : before (year e + 1) ≤ before (year d) := before_mono hgt
    omega

/-! ### The text -/

/-- A number below 100, in two digits. -/
def two (n : Nat) : Str := ['0'.toNat + n / 10, '0'.toNat + n % 10]

/-- `strftime("%m-%d")` -/
def strftime (d : Nat) : Str := two (monthDay d).1 ++ '-'.toNat :: two (monthDay d).2

theorem length_two (n : Nat) : (two n).length = 2 := rfl

theorem two_inj {m n : Nat} (h : two m = two n) : m = n := by
  simp only [two, List.cons.injEq, and_true] at h
  omega

theorem strftime_inj {d e : Nat} : strftime d = strftime e ↔ monthDay d = monthDay e := by
  constructor
  · intro h
    obtain ⟨hmonth, hrest⟩ := List.append_inj h ((length_two _).trans (length_two _).symm)
    exact Prod.ext (two_inj hmonth) (two_inj (List.cons.inj hrest).2)
  · intro h
    rw [strftime, h, ← strftime]

example : strftime 738944 = str "02-29" := by decide +kernel

end InfraHub.Lib.Calendar
