import Mathlib.Algebra.Order.Ring.Unbundled.Rat
import Mathlib.Data.List.Dedup
import Mathlib.Data.Rat.Floor
import Mathlib.Tactic.Linarith
import Mathlib.Tactic.NormNum

/-!
# Notify — Performance

`ServerPerformanceCheckUtil`: the averages of the latest samples are compared with thresholds, and
a message lists what is too high.

Over no samples every average is `NULL`.  `check_item` compares numbers, and for what is no number
it goes on to the alarm: `alarm_correct_iff`.
-/

namespace InfraHub.Notify.Performance

/-! ### The aggregate -/

structure Monitor where
  cpu_load : ℚ
  cpu_percent : ℚ
  memory_used : ℚ
  disk_used : ℚ
  created_time : Nat
  deriving DecidableEq

/-- What stands under a name, without the texts. -/
inductive Value
  | none
  | bool (b : Bool)
  | number (q : ℚ)
  deriving DecidableEq

abbrev Term := List (String × Value)

/-- `ROUND(x, 2)`: a nearest number of two decimals. Of two, the databases take different ones. -/
structure Rounding where
  ROUND : ℚ → ℚ
  decimals : ∀ x, ∃ n : Int, ROUND x = n / 100
  near : ∀ x, |ROUND x - x| ≤ 1 / 200

section
variable (db : Rounding)

/-- `Round(Avg(column), 2)`. -/
def average (column : Monitor → ℚ) (rows : List Monitor) : Value :=
  if rows = [] then .none else .number (db.ROUND ((rows.map column).sum / rows.length))

/-- The rows are in the order of `-created_time`. -/
def get_monitor_latest_average_value (ordered : List Monitor) (num : Nat) : Term :=
  let rows := ordered.take num
  [("cpu_load", average db Monitor.cpu_load rows),
    ("cpu_percent", average db Monitor.cpu_percent rows),
    ("memory_used", average db Monitor.memory_used rows),
    ("disk_used", average db Monitor.disk_used rows)]

end

/-! ### The items -/

/-- A part of the text that `msg.format` fills in. -/
inductive Piece
  | text (s : String)
  | max_threshold
  | value

structure ItemData where
  default : Value
  max_threshold : Nat
  alarm_msg_format : List Piece

def items_mapper : List (String × ItemData) :=
  [("disk_used", ⟨.number 0, 80,
      [.text "Disk used more than ", .max_threshold, .text "%: => ", .value]⟩),
    ("memory_used", ⟨.number 0, 85,
      [.text "Memory used more than ", .max_threshold, .text "%: => ", .value]⟩),
    ("cpu_load", ⟨.number 0, 5,
      [.text "CPU load more than ", .max_threshold, .text ": => ", .value]⟩),
    ("cpu_percent", ⟨.number 0, 80,
      [.text "CPU percent more than ", .max_threshold, .text ": => ", .value]⟩)]

/-! ### The check -/

section
variable (str : Value → String)

def format (msg : List Piece) (max_threshold : Nat) (value : Value) : String :=
  msg.foldl (fun s piece => s ++ match piece with
    | .text t => t
    | .max_threshold => toString max_threshold
    | .value => str value) ""

/-- `None` is no error. -/
def check_item (term : Term) (item : String) (data : ItemData) : Option String :=
  let value := (term.lookup item).getD data.default
  let error := format str data.alarm_msg_format data.max_threshold value
  match value with
  | .bool b => if (if b then 1 else 0) ≠ data.max_threshold then none else some error
  | .number q => if q < data.max_threshold then none else some error
  | .none => some error

/-- Neither `None` nor an empty text is appended. -/
def check_terminal (term : Term) : List String :=
  items_mapper.filterMap fun (item, data) => (check_item str term item data).filter (· ≠ "")

def check (terminals : List Term) : List (Term × List String) :=
  terminals.filterMap fun term =>
    let errors := check_terminal str term
    if errors = [] then none else some (term, errors)

/-- The terms of the message that is published, if any is. -/
def publish (terms_with_errors : List (Term × List String)) : Option (List (Term × List String)) :=
  if terms_with_errors = [] then none else some terms_with_errors

def initial_terminals (db : Rounding) (ordered : List Monitor) : List Term :=
  [get_monitor_latest_average_value db ordered 3]

def check_and_publish (db : Rounding) (ordered : List Monitor) : Option (List (Term × List String)) :=
  publish (check str (initial_terminals db ordered))

end

/-! ### What the alarm is for -/

inductive Metric
  | disk_used
  | memory_used
  | cpu_load
  | cpu_percent
  deriving DecidableEq

def metrics : List Metric := [.disk_used, .memory_used, .cpu_load, .cpu_percent]

def Metric.of : Metric → Monitor → ℚ
  | .disk_used => Monitor.disk_used
  | .memory_used => Monitor.memory_used
  | .cpu_load => Monitor.cpu_load
  | .cpu_percent => Monitor.cpu_percent

def Metric.threshold : Metric → Nat
  | .disk_used => 80
  | .memory_used => 85
  | .cpu_load => 5
  | .cpu_percent => 80

/-- The text before the threshold, and between it and the value. -/
def Metric.texts : Metric → String × String
  | .disk_used => ("Disk used more than ", "%: => ")
  | .memory_used => ("Memory used more than ", "%: => ")
  | .cpu_load => ("CPU load more than ", ": => ")
  | .cpu_percent => ("CPU percent more than ", ": => ")

/-- The rounded mean. -/
def mean (db : Rounding) (rows : List Monitor) (m : Metric) : ℚ :=
  db.ROUND ((rows.map m.of).sum / rows.length)

def error (str : Value → String) (db : Rounding) (rows : List Monitor) (m : Metric) : String :=
  m.texts.1 ++ toString m.threshold ++ m.texts.2 ++ str (.number (mean db rows m))

/-- The history, the latest sample first. -/
structure Latest (history ordered : List Monitor) : Prop where
  perm : ordered.Perm history
  sorted : ordered.Pairwise fun a b => b.created_time ≤ a.created_time

/-- It is published if some metric of the latest samples, of which there are some, is too high; and
it lists these metrics. -/
structure Correct (str : Value → String) (db : Rounding) (rows : List Monitor)
    (message : Option (List (Term × List String))) : Prop where
  fires : message.isSome ↔ rows ≠ [] ∧ ∃ m, m.threshold ≤ mean db rows m
  lists : ∀ terms, message = some terms → terms.map Prod.snd =
    [(metrics.filter fun m => m.threshold ≤ mean db rows m).map (error str db rows)]

/-! ### The items are the metrics -/

def Metric.name : Metric → String
  | .disk_used => "disk_used"
  | .memory_used => "memory_used"
  | .cpu_load => "cpu_load"
  | .cpu_percent => "cpu_percent"

def Metric.item (m : Metric) : String × ItemData :=
  (m.name, ⟨.number 0, m.threshold, [.text m.texts.1, .max_threshold, .text m.texts.2, .value]⟩)

theorem items_mapper_eq : items_mapper = metrics.map Metric.item := rfl

theorem mem_metrics (m : Metric) : m ∈ metrics := by
  cases m <;> decide

section
variable {str : Value → String} {db : Rounding} {rows ordered : List Monitor} {m : Metric}

/-- The text of an item with this value. -/
def errorOf (str : Value → String) (m : Metric) (value : Value) : String :=
  m.texts.1 ++ toString m.threshold ++ m.texts.2 ++ str value

theorem format_item (value : Value) :
    format str m.item.2.alarm_msg_format m.item.2.max_threshold value = errorOf str m value := by
  simp [format, errorOf, Metric.item]

theorem errorOf_ne_empty (value : Value) : errorOf str m value ≠ "" := by
  intro h
  have hlength := congrArg String.length h
  cases m <;> simp [errorOf, Metric.texts] at hlength

theorem lookup_item : (get_monitor_latest_average_value db ordered 3).lookup m.item.1 =
    some (average db m.of (ordered.take 3)) := by
  cases m <;> rfl

/-- A number is compared. -/
theorem check_item_number (h : ordered ≠ []) :
    check_item str (get_monitor_latest_average_value db ordered 3) m.item.1 m.item.2 =
      if m.threshold ≤ mean db (ordered.take 3) m then some (error str db (ordered.take 3) m)
      else none := by
  have hrows : ordered.take 3 ≠ [] := by simpa using h
  rw [check_item, lookup_item, Option.getD_some, average, if_neg hrows]
  simp only [format_item]
  by_cases hover : (m.threshold : ℚ) ≤ mean db (ordered.take 3) m
  · exact (if_neg (not_lt.mpr hover)).trans (if_pos hover).symm
  · exact (if_pos (not_le.mp hover)).trans (if_neg hover).symm

/-- What is no number is an error. -/
theorem check_item_none :
    check_item str (get_monitor_latest_average_value db [] 3) m.item.1 m.item.2 =
      some (errorOf str m .none) := by
  rw [check_item, lookup_item, Option.getD_some]
  simp only [format_item]
  rfl

theorem check_terminal_eq (term : Term) : check_terminal str term =
    metrics.filterMap fun m => (check_item str term m.item.1 m.item.2).filter (· ≠ "") := by
  rw [check_terminal, items_mapper_eq, List.filterMap_map]
  rfl

theorem check_terminal_number (h : ordered ≠ []) :
    check_terminal str (get_monitor_latest_average_value db ordered 3) =
      (metrics.filter fun m => m.threshold ≤ mean db (ordered.take 3) m).map
        (error str db (ordered.take 3)) := by
  rw [check_terminal_eq, ← List.filterMap_eq_map, ← List.filterMap_eq_filter,
    List.filterMap_filterMap]
  congr 1
  funext m
  rw [check_item_number h]
  by_cases hover : (m.threshold : ℚ) ≤ mean db (ordered.take 3) m
  · have htext : error str db (ordered.take 3) m ≠ "" := errorOf_ne_empty _
    simp [hover, htext, Option.guard]
  · simp [hover, Option.guard]

theorem check_terminal_none :
    check_terminal str (get_monitor_latest_average_value db [] 3) ≠ [] := by
  intro h
  rw [check_terminal_eq] at h
  have hm := List.filterMap_eq_nil_iff.mp h .disk_used (mem_metrics _)
  rw [check_item_none] at hm
  simp [errorOf_ne_empty] at hm

theorem check_and_publish_eq : check_and_publish str db ordered =
    if check_terminal str (get_monitor_latest_average_value db ordered 3) = [] then none
    else some [(get_monitor_latest_average_value db ordered 3,
      check_terminal str (get_monitor_latest_average_value db ordered 3))] := by
  by_cases h : check_terminal str (get_monitor_latest_average_value db ordered 3) = []
  · simp [check_and_publish, check, publish, initial_terminals, h]
  · simp [check_and_publish, check, publish, initial_terminals, h]

/-! ### When the alarm is correct -/

theorem correct_of_ne_nil (h : ordered ≠ []) :
    Correct str db (ordered.take 3) (check_and_publish str db ordered) := by
  rw [check_and_publish_eq, check_terminal_number h]
  have hrows : ordered.take 3 ≠ [] := by simpa using h
  have hmem : (∃ m : Metric, (m.threshold : ℚ) ≤ mean db (ordered.take 3) m) ↔
      metrics.filter (fun m => m.threshold ≤ mean db (ordered.take 3) m) ≠ [] := by
    simp [List.filter_eq_nil_iff, mem_metrics]
  refine ⟨?_, ?_⟩
  · rw [and_iff_right hrows, hmem]
    by_cases hnil : metrics.filter (fun m => m.threshold ≤ mean db (ordered.take 3) m) = []
    · simp [hnil]
    · simp [hnil]
  · intro terms hterms
    obtain ⟨-, hterms⟩ := Option.ite_none_left_eq_some.mp hterms
    cases hterms
    rfl

/-- Without a sample the message lists every item. -/
theorem not_correct_nil : ¬ Correct str db [] (check_and_publish str db []) := by
  intro h
  have hfires := h.fires.mp (by simp [check_and_publish_eq, check_terminal_none])
  exact hfires.1 rfl

/-- The alarm is correct as soon as there is a sample. -/
theorem alarm_correct_iff (str : Value → String) (db : Rounding) {history ordered : List Monitor}
    (h : Latest history ordered) :
    Correct str db (ordered.take 3) (check_and_publish str db ordered) ↔ history ≠ [] := by
  have hnil : ordered = [] ↔ history = [] :=
    ⟨fun e => (e ▸ h.perm).symm.eq_nil, fun e => (e ▸ h.perm).eq_nil⟩
  constructor
  · rintro hc rfl
    obtain rfl := hnil.mpr rfl
    exact not_correct_nil hc
  · intro hne
    exact correct_of_ne_nil fun e => hne (hnil.mp e)

end

/-! ### On concrete samples -/

/-- The upper of two nearest numbers. -/
def roundUp : Rounding where
  ROUND x := (⌊100 * x + 1 / 2⌋ : Int) / 100
  decimals x := ⟨_, rfl⟩
  near x := by
    have h₁ := Int.floor_le (100 * x + 1 / 2)
    have h₂ := Int.lt_floor_add_one (100 * x + 1 / 2)
    rw [abs_le]
    constructor <;> linarith

/-- Three samples of four, each metric of them as high. -/
def sample : List Monitor := [⟨90, 90, 90, 90, 3⟩, ⟨80, 80, 80, 80, 2⟩, ⟨75, 75, 75, 75, 1⟩,
  ⟨0, 0, 0, 0, 0⟩]

theorem latest_sample : Latest sample.reverse sample := ⟨(List.reverse_perm sample).symm, by decide⟩

theorem alarm_correct_sample : Latest sample.reverse sample ∧
    (Correct (fun _ => "") roundUp (sample.take 3) (check_and_publish (fun _ => "") roundUp sample) ↔
      sample.reverse ≠ []) :=
  ⟨latest_sample, alarm_correct_iff _ _ latest_sample⟩

/-- No sample, and a message that lists all four items. -/
theorem alarm_without_samples : Latest [] [] ∧
    ¬ Correct (fun _ => "None") roundUp [] (check_and_publish (fun _ => "None") roundUp []) ∧
    check_and_publish (fun _ => "None") roundUp [] = some
      [([("cpu_load", .none), ("cpu_percent", .none), ("memory_used", .none), ("disk_used", .none)],
        ["Disk used more than 80%: => None", "Memory used more than 85%: => None",
          "CPU load more than 5: => None", "CPU percent more than 80: => None"])] :=
  ⟨⟨.nil, .nil⟩, not_correct_nil, by decide +kernel⟩

end InfraHub.Notify.Performance
