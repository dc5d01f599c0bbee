import InfraHub.Virt.Datastore
import Mathlib.Algebra.Order.Field.Basic
import Mathlib.Tactic.Linarith

/-!
# Virt — Usage

Whether the usages that the parsers compute are percentages.

The usage of a host is related to one core, not to all of them, and that of a virtual machine to 100 MHz for
each of its processors, without the factor of a percentage.  `usages_iff`: a host is in range if and only if
its usage is at most one core, and a virtual machine up to 10 GHz for each processor; the memory and the data
stores always are, and nothing is divided by zero.
-/

namespace InfraHub.Virt

/-! ### The statement -/

/-- `MinValueValidator(0)` and `MaxValueValidator(100)`. -/
def Percentage (x : ℚ) : Prop := 0 ≤ x ∧ x ≤ 100

section
variable (host : HostSystem) (vm : VirtualMachineObject) (datastore : DatastoreObject) (frequency : ℚ)
  (e : Fault)

/-- The statistics of the host, with what they are related to. -/
structure HostSystem.CpuUsage (usage : Nat) (cpu : CpuInfo) : Prop where
  cpu_eq : host.hardware = .ok (some cpu)
  usage_eq : ∃ summary stats, host.summary = .ok (some summary) ∧ summary.quickStats = some stats ∧
    stats.overallCpuUsage = some usage

structure HostSystem.MemoryUsage (usage : Nat) (hardware : HardwareSummary) : Prop where
  usage_eq : ∃ summary stats, host.summary = .ok (some summary) ∧ summary.hardware = some hardware ∧
    summary.quickStats = some stats ∧ stats.memoryUsage = some usage

/-- The usages, in MHz and MB, are at most what the host has. -/
structure HostSystem.Consistent : Prop where
  cpu : ∀ usage cpu, host.CpuUsage usage cpu → (usage : ℚ) ≤ cpu.numCpuCores * (cpu.hz / 1000000)
  memory : ∀ usage hardware, host.MemoryUsage usage hardware →
    (usage : ℚ) ≤ hardware.memorySize / (1024 * 1024)

/-- **The condition on a host**: it uses at most the frequency of one core. -/
def HostSystem.OneCore : Prop :=
  ∀ usage cpu, host.CpuUsage usage cpu → (usage : ℚ) ≤ cpu.hz / 1000000

/-- Some property of the host cannot be read. -/
def HostSystem.Raises : Prop :=
  host.name = .error e ∨ host.hardware = .error e ∨ host.runtime = .error e ∨ host.summary = .error e ∨
    host.config = .error e ∨ host.parent.cluster_name = .error e ∨ host.parent.datacenter_name = .error e ∨
    host.vm = .error e

/-- The statistics of the virtual machine, with its hardware. -/
structure VirtualMachineObject.Statistics (stats : QuickStats) (hardware : Hardware) : Prop where
  stats_eq : vm.summary = .ok (some stats)
  hardware_eq : ∃ config, vm.config = .ok (some config) ∧ config.hardware = some hardware

/-- The usages are at most what the virtual machine has on a host with cores of this frequency. -/
structure VirtualMachineObject.Consistent : Prop where
  cpu : ∀ stats hardware, vm.Statistics stats hardware → ∀ usage, stats.overallCpuUsage = some usage →
    (usage : ℚ) ≤ hardware.numCPU * frequency
  memory : ∀ stats hardware, vm.Statistics stats hardware → ∀ usage, stats.memoryUsage = some usage →
    usage ≤ hardware.memoryMB

/-- **The condition on a virtual machine**: it uses at most 10 GHz for each processor. -/
def VirtualMachineObject.TenGigahertz : Prop :=
  ∀ stats hardware, vm.Statistics stats hardware → ∀ usage, stats.overallCpuUsage = some usage →
    usage ≤ hardware.numCPU * 10000

/-- Some property of the virtual machine cannot be read. -/
def VirtualMachineObject.Raises : Prop :=
  vm.name = .error e ∨ vm.config = .error e ∨ vm.runtime = .error e ∨ vm.summary = .error e ∨
    vm.guest = .error e ∨ (∃ runtime, vm.runtime = .ok runtime ∧ vm_host runtime = .error e) ∨
    vm.parent.datacenter_name = .error e ∨ vm.snapshot = .error e ∨ vm.resourcePool = .error e ∨
    vm.parent.name = .error e

/-- What is free is at most the capacity. -/
def DatastoreObject.Consistent : Prop :=
  ∀ summary, datastore.summary = .ok (some summary) → summary.freeSpace.getD 0 ≤ summary.capacity.getD 0

/-- Some property of the data store cannot be read. -/
def DatastoreObject.Raises : Prop :=
  datastore.name = .error e ∨ datastore.summary = .error e ∨ datastore.info = .error e ∨
    datastore.vm = .error e ∨ datastore.parent.datacenter_name = .error e ∨ datastore.host = .error e ∨
    ∃ host, datastore.host = .ok host ∧ mounted_names host = .error e

end

/-! ### Ratios -/

section
variable {a b : ℚ}

theorem percentage_zero : Percentage 0 := ⟨le_refl 0, by norm_num⟩

theorem percentage_ratio_iff (ha : 0 ≤ a) (hb : 0 < b) : Percentage (a / b * 100) ↔ a ≤ b := by
  have hnonneg : 0 ≤ a / b * 100 := by positivity
  have hle : a / b * 100 ≤ 100 ↔ a ≤ b := by
    rw [← div_le_one hb]
    constructor
    · intro h
      linarith
    · intro h
      linarith
  exact (and_iff_right hnonneg).trans hle

end

theorem read_bind_error {α β : Type} {x : Read α} {f : α → Read β} {e : Fault} :
    (x >>= f) = .error e ↔ x = .error e ∨ ∃ a, x = .ok a ∧ f a = .error e := by
  cases x with
  | error e' => simp [bind, Except.bind]
  | ok a => simp [bind, Except.bind]

theorem nonzero_some {usage : Nat} (h : usage ≠ 0) : nonzero (some usage) = true := by simp [nonzero, h]

/-! ### Hosts -/

section
variable {host : HostSystem} {d : HostData} {e : Fault} {stats : QuickStats} {usage : Nat}

/-- The usage of a host that has a frequency. -/
theorem host_cpu_usage_some {cpu : CpuInfo} (h : stats.overallCpuUsage = some usage) (husage : usage ≠ 0)
    (hhz : cpu.hz ≠ 0) :
    host_cpu_usage (some stats) (some cpu) = .ok ((usage : ℚ) / (cpu.hz / 1000000) * 100) := by
  have hne : (cpu.hz : ℚ) / 1000000 ≠ 0 := by positivity
  have hnonzero : (nonzero stats.overallCpuUsage && decide (cpu.hz ≠ 0)) = true := by
    rw [h, nonzero_some husage, decide_eq_true hhz]
    rfl
  simp only [host_cpu_usage]
  rw [if_pos hnonzero, divide, if_neg hne, h]
  rfl

theorem host_memory_usage_some {hardware : HardwareSummary} (h : stats.memoryUsage = some usage)
    (husage : usage ≠ 0) (hsize : hardware.memorySize ≠ 0) :
    host_memory_usage (some stats) (some hardware) =
      .ok ((usage : ℚ) / (hardware.memorySize / (1024 * 1024)) * 100) := by
  have hne : (hardware.memorySize : ℚ) / (1024 * 1024) ≠ 0 := by positivity
  have hnonzero : (nonzero stats.memoryUsage && decide (hardware.memorySize ≠ 0)) = true := by
    rw [h, nonzero_some husage, decide_eq_true hsize]
    rfl
  simp only [host_memory_usage]
  rw [if_pos hnonzero, divide, if_neg hne, h]
  rfl

theorem host_cpu_usage_zero {cpu : CpuInfo} (h : nonzero stats.overallCpuUsage = false ∨ cpu.hz = 0) :
    host_cpu_usage (some stats) (some cpu) = .ok 0 := by
  have hzero : (nonzero stats.overallCpuUsage && decide (cpu.hz ≠ 0)) = false := by
    rcases h with h | h
    · rw [h, Bool.false_and]
    · simp [h]
  simp only [host_cpu_usage]
  rw [hzero]
  rfl

theorem host_memory_usage_zero {hardware : HardwareSummary}
    (h : nonzero stats.memoryUsage = false ∨ hardware.memorySize = 0) :
    host_memory_usage (some stats) (some hardware) = .ok 0 := by
  have hzero : (nonzero stats.memoryUsage && decide (hardware.memorySize ≠ 0)) = false := by
    rcases h with h | h
    · rw [h, Bool.false_and]
    · simp [h]
  simp only [host_memory_usage]
  rw [hzero]
  rfl

/-- **The usage of the processors**, where it is at most that of all cores: in range up to one core. -/
theorem host_cpu_usage_iff {stats : Option QuickStats} {cpu : Option CpuInfo}
    (h : ∀ stats' cpu' usage, stats = some stats' → cpu = some cpu' → stats'.overallCpuUsage = some usage →
      (usage : ℚ) ≤ cpu'.numCpuCores * (cpu'.hz / 1000000)) :
    ∃ x, host_cpu_usage stats cpu = .ok x ∧ (Percentage x ↔
      ∀ stats' cpu' usage, stats = some stats' → cpu = some cpu' → stats'.overallCpuUsage = some usage →
        (usage : ℚ) ≤ cpu'.hz / 1000000) := by
  cases stats with
  | none => exact ⟨0, rfl, iff_of_true percentage_zero nofun⟩
  | some stats =>
      cases cpu with
      | none => exact ⟨0, rfl, iff_of_true percentage_zero nofun⟩
      | some cpu =>
          cases husage : stats.overallCpuUsage with
          | none =>
              refine ⟨0, host_cpu_usage_zero (.inl (by rw [husage]; rfl)), iff_of_true percentage_zero ?_⟩
              rintro _ _ usage ⟨⟩ - hsome
              rw [husage] at hsome
              cases hsome
          | some usage =>
              have hone : (∀ stats' cpu' usage', some stats = some stats' → some cpu = some cpu' →
                  stats'.overallCpuUsage = some usage' → (usage' : ℚ) ≤ cpu'.hz / 1000000) ↔
                  (usage : ℚ) ≤ cpu.hz / 1000000 := by
                constructor
                · exact fun hall => hall stats cpu usage rfl rfl husage
                · rintro hle _ _ usage' ⟨⟩ ⟨⟩ hsome
                  obtain rfl := Option.some.inj (husage.symm.trans hsome)
                  exact hle
              rw [hone]
              by_cases hzero : usage = 0
              · subst hzero
                have hnonneg : ((0 : ℕ) : ℚ) ≤ cpu.hz / 1000000 := by positivity
                exact ⟨0, host_cpu_usage_zero (.inl (by rw [husage]; rfl)), iff_of_true percentage_zero hnonneg⟩
              · have hall := h stats cpu usage rfl rfl husage
                have hhz : cpu.hz ≠ 0 := by
                  intro hhz
                  rw [hhz, Nat.cast_zero, zero_div, mul_zero] at hall
                  exact hzero (Nat.cast_eq_zero.mp (le_antisymm hall (Nat.cast_nonneg usage)))
                exact ⟨_, host_cpu_usage_some husage hzero hhz,
                  percentage_ratio_iff (Nat.cast_nonneg usage) (by positivity)⟩

/-- **The usage of the memory** is a percentage. -/
theorem host_memory_usage_percentage {stats : Option QuickStats} {hardware : Option HardwareSummary}
    (h : ∀ stats' hardware' usage, stats = some stats' → hardware = some hardware' →
      stats'.memoryUsage = some usage → (usage : ℚ) ≤ hardware'.memorySize / (1024 * 1024)) :
    ∃ x, host_memory_usage stats hardware = .ok x ∧ Percentage x := by
  cases stats with
  | none => exact ⟨0, rfl, percentage_zero⟩
  | some stats =>
      cases hardware with
      | none => exact ⟨0, rfl, percentage_zero⟩
      | some hardware =>
          by_cases hzero : nonzero stats.memoryUsage = false ∨ hardware.memorySize = 0
          · exact ⟨0, host_memory_usage_zero hzero, percentage_zero⟩
          · obtain ⟨hnonzero, hsize⟩ := not_or.mp hzero
            cases husage : stats.memoryUsage with
            | none => exact absurd (by rw [husage]; rfl) hnonzero
            | some usage =>
                have hne : usage ≠ 0 := by
                  rintro rfl
                  exact hnonzero (by rw [husage]; rfl)
                exact ⟨_, host_memory_usage_some husage hne hsize,
                  (percentage_ratio_iff (Nat.cast_nonneg usage) (by positivity)).mpr
                    (h stats hardware usage rfl rfl husage)⟩

/-- What the usages of a record are computed from. -/
theorem parse_host_info_usage (h : parse_host_info host = .ok d) :
    ∃ hardware summary, host.hardware = .ok hardware ∧ host.summary = .ok summary ∧
      host_cpu_usage (summary.bind (·.quickStats)) hardware = .ok d.columns.cpu_usage ∧
      host_memory_usage (summary.bind (·.quickStats)) (summary.bind (·.hardware)) =
        .ok d.columns.memory_usage :=
  (parse_host_info_read h).usage

/-- Where the parser raises. -/
theorem parse_host_info_error (h : parse_host_info host = .error e) : host.Raises e ∨
    ∃ hardware summary, host.hardware = .ok hardware ∧ host.summary = .ok summary ∧
      (host_cpu_usage (summary.bind (·.quickStats)) hardware = .error e ∨
        host_memory_usage (summary.bind (·.quickStats)) (summary.bind (·.hardware)) = .error e) := by
  unfold parse_host_info at h
  rcases read_bind_error.mp h with h | ⟨_, -, h⟩
  · exact .inl (.inl h)
  rcases read_bind_error.mp h with h | ⟨hardware, hhardware, h⟩
  · exact .inl (.inr (.inl h))
  rcases read_bind_error.mp h with h | ⟨_, -, h⟩
  · exact .inl (.inr (.inr (.inl h)))
  rcases read_bind_error.mp h with h | ⟨summary, hsummary, h⟩
  · exact .inl (.inr (.inr (.inr (.inl h))))
  rcases read_bind_error.mp h with h | ⟨_, -, h⟩
  · exact .inl (.inr (.inr (.inr (.inr (.inl h)))))
  rcases read_bind_error.mp h with h | ⟨_, -, h⟩
  · exact .inl (.inr (.inr (.inr (.inr (.inr (.inl h))))))
  rcases read_bind_error.mp h with h | ⟨_, -, h⟩
  · exact .inl (.inr (.inr (.inr (.inr (.inr (.inr (.inl h)))))))
  rcases read_bind_error.mp h with h | ⟨_, -, h⟩
  · exact .inl (.inr (.inr (.inr (.inr (.inr (.inr (.inr h)))))))
  refine .inr ⟨hardware, summary, hhardware, hsummary, ?_⟩
  rcases read_bind_error.mp h with h | ⟨_, -, h⟩
  · exact .inl h
  rcases read_bind_error.mp h with h | ⟨_, -, h⟩
  · exact .inr h
  cases h

section
variable {hardware : Option CpuInfo} {summary : Option HostSummary}

/-- The two computations, on a host whose properties were read. -/
theorem HostSystem.Consistent.usages (h : host.Consistent) (hhardware : host.hardware = .ok hardware)
    (hsummary : host.summary = .ok summary) :
    (∃ x, host_cpu_usage (summary.bind (·.quickStats)) hardware = .ok x ∧
      (Percentage x ↔ host.OneCore)) ∧
    ∃ x, host_memory_usage (summary.bind (·.quickStats)) (summary.bind (·.hardware)) = .ok x ∧
      Percentage x := by
  have hcpu (usage : Nat) (cpu : CpuInfo) : host.CpuUsage usage cpu ↔
      ∃ stats, summary.bind (·.quickStats) = some stats ∧ hardware = some cpu ∧
        stats.overallCpuUsage = some usage := by
    constructor
    · rintro ⟨hcpu, summary', stats, hsummary', hstats, husage⟩
      obtain rfl := Except.ok.inj (hsummary.symm.trans hsummary')
      exact ⟨stats, hstats, Except.ok.inj (hhardware.symm.trans hcpu), husage⟩
    · rintro ⟨stats, hstats, rfl, husage⟩
      obtain ⟨summary', rfl, hstats⟩ := Option.bind_eq_some_iff.mp hstats
      exact ⟨hhardware, summary', stats, hsummary, hstats, husage⟩
  constructor
  · obtain ⟨x, hx, hiff⟩ := @host_cpu_usage_iff (summary.bind (·.quickStats)) hardware
      fun stats cpu usage hstats hhw husage =>
        h.cpu usage cpu ((hcpu usage cpu).mpr ⟨stats, hstats, hhw, husage⟩)
    refine ⟨x, hx, hiff.trans ?_⟩
    constructor
    · intro hall usage cpu husage
      obtain ⟨stats, hstats, hhw, husage⟩ := (hcpu usage cpu).mp husage
      exact hall stats cpu usage hstats hhw husage
    · intro hall stats cpu usage hstats hhw husage
      exact hall usage cpu ((hcpu usage cpu).mpr ⟨stats, hstats, hhw, husage⟩)
  · refine host_memory_usage_percentage fun stats hw usage hstats hhw husage => h.memory usage hw ?_
    obtain ⟨summary', rfl, hstats⟩ := Option.bind_eq_some_iff.mp hstats
    exact ⟨summary', stats, hsummary, hhw, hstats, husage⟩

end

/-- **Hosts**: nothing is divided by zero, and the usages are in range up to one core. -/
theorem host_usages_iff (h : host.Consistent) :
    (∀ e, parse_host_info host = .error e → host.Raises e) ∧
    ∀ d, parse_host_info host = .ok d →
      (Percentage d.columns.cpu_usage ∧ Percentage d.columns.memory_usage ↔ host.OneCore) := by
  constructor
  · intro e he
    rcases parse_host_info_error he with hraises | ⟨hardware, summary, hhardware, hsummary, hbad⟩
    · exact hraises
    · obtain ⟨⟨x, hx, -⟩, y, hy, -⟩ := h.usages hhardware hsummary
      rcases hbad with hbad | hbad
      · cases hx.symm.trans hbad
      · cases hy.symm.trans hbad
  · intro d hd
    obtain ⟨hardware, summary, hhardware, hsummary, hcpu, hmemory⟩ := parse_host_info_usage hd
    obtain ⟨⟨x, hx, hiff⟩, y, hy, hpercentage⟩ := h.usages hhardware hsummary
    obtain rfl := Except.ok.inj (hcpu.symm.trans hx)
    obtain rfl := Except.ok.inj (hmemory.symm.trans hy)
    exact (and_iff_left hpercentage).trans hiff

end

/-! ### Virtual machines -/

section
variable {vm : VirtualMachineObject} {d : VMData} {e : Fault} {frequency : ℚ} {stats : QuickStats}
  {hardware : Hardware} {usage : Nat}

theorem vm_cpu_usage_some (h : stats.overallCpuUsage = some usage) (husage : usage ≠ 0)
    (hcpu : hardware.numCPU ≠ 0) :
    vm_cpu_usage (some stats) (some hardware) = .ok ((usage : ℚ) / (hardware.numCPU * 100)) := by
  have hne : (hardware.numCPU : ℚ) * 100 ≠ 0 := by positivity
  have hnonzero : nonzero stats.overallCpuUsage = true := by rw [h, nonzero_some husage]
  simp only [vm_cpu_usage]
  rw [if_pos hnonzero, divide, if_neg hne, h]
  rfl

theorem vm_cpu_usage_zero (h : nonzero stats.overallCpuUsage = false) (hardware : Hardware) :
    vm_cpu_usage (some stats) (some hardware) = .ok 0 := by
  simp only [vm_cpu_usage]
  rw [h]
  rfl

theorem vm_memory_usage_some (h : stats.memoryUsage = some usage) (husage : usage ≠ 0)
    (hmemory : hardware.memoryMB ≠ 0) :
    vm_memory_usage (some stats) (some hardware) = .ok ((usage : ℚ) / hardware.memoryMB * 100) := by
  have hne : (hardware.memoryMB : ℚ) ≠ 0 := Nat.cast_ne_zero.mpr hmemory
  have hnonzero : nonzero stats.memoryUsage = true := by rw [h, nonzero_some husage]
  simp only [vm_memory_usage]
  rw [if_pos hnonzero, divide, if_neg hne, h]
  rfl

theorem vm_memory_usage_zero (h : nonzero stats.memoryUsage = false) (hardware : Hardware) :
    vm_memory_usage (some stats) (some hardware) = .ok 0 := by
  simp only [vm_memory_usage]
  rw [h]
  rfl

/-- A ratio of 100 MHz, without the factor of a percentage. -/
theorem percentage_plain_iff {numCPU : Nat} (h : numCPU ≠ 0) :
    Percentage ((usage : ℚ) / (numCPU * 100)) ↔ usage ≤ numCPU * 10000 := by
  have hpos : (0 : ℚ) < numCPU * 100 := by positivity
  have hnonneg : (0 : ℚ) ≤ usage / (numCPU * 100) := by positivity
  have hproduct : (100 : ℚ) * (numCPU * 100) = ((numCPU * 10000 : ℕ) : ℚ) := by
    push_cast
    linarith
  rw [Percentage, and_iff_right hnonneg, div_le_iff₀ hpos, hproduct, Nat.cast_le]

/-- **The usage of the processors**: in range up to 10 GHz for each. -/
theorem vm_cpu_usage_iff (h : ∀ usage, stats.overallCpuUsage = some usage →
      (usage : ℚ) ≤ hardware.numCPU * frequency) :
    ∃ x, vm_cpu_usage (some stats) (some hardware) = .ok x ∧ (Percentage x ↔
      ∀ usage, stats.overallCpuUsage = some usage → usage ≤ hardware.numCPU * 10000) := by
  cases husage : stats.overallCpuUsage with
  | none =>
      exact ⟨0, vm_cpu_usage_zero (by rw [husage]; rfl) hardware, iff_of_true percentage_zero nofun⟩
  | some usage =>
      simp only [Option.some.injEq, forall_eq']
      by_cases hzero : usage = 0
      · subst hzero
        exact ⟨0, vm_cpu_usage_zero (by rw [husage]; rfl) hardware,
          iff_of_true percentage_zero (Nat.zero_le _)⟩
      · have hcpu : hardware.numCPU ≠ 0 := by
          intro hcpu
          have hle := h usage husage
          rw [hcpu, Nat.cast_zero, zero_mul] at hle
          exact hzero (Nat.cast_eq_zero.mp (le_antisymm hle (Nat.cast_nonneg usage)))
        exact ⟨_, vm_cpu_usage_some husage hzero hcpu, percentage_plain_iff hcpu⟩

theorem vm_memory_usage_percentage (h : ∀ usage, stats.memoryUsage = some usage → usage ≤ hardware.memoryMB) :
    ∃ x, vm_memory_usage (some stats) (some hardware) = .ok x ∧ Percentage x := by
  cases husage : stats.memoryUsage with
  | none => exact ⟨0, vm_memory_usage_zero (by rw [husage]; rfl) hardware, percentage_zero⟩
  | some usage =>
      by_cases hzero : usage = 0
      · subst hzero
        exact ⟨0, vm_memory_usage_zero (by rw [husage]; rfl) hardware, percentage_zero⟩
      · have hle := h usage husage
        have hmemory : hardware.memoryMB ≠ 0 := fun hmemory => hzero (Nat.le_zero.mp (hmemory ▸ hle))
        exact ⟨_, vm_memory_usage_some husage hzero hmemory,
          (percentage_ratio_iff (Nat.cast_nonneg usage) (by positivity)).mpr (Nat.cast_le.mpr hle)⟩

/-- What the usages of a record are computed from. -/
theorem parse_vm_info_usage (h : parse_vm_info vm = .ok (some d)) :
    ∃ config stats, vm.config = .ok (some config) ∧ vm.summary = .ok stats ∧
      vm_cpu_usage stats config.hardware = .ok d.columns.cpu_usage_percent ∧
      vm_memory_usage stats config.hardware = .ok d.columns.memory_usage_percent := by
  obtain ⟨config, _, hread⟩ := parse_vm_info_read h
  obtain ⟨stats, hstats, hcpu, hmemory⟩ := hread.usage
  exact ⟨config, stats, hread.of_config, hstats, hcpu, hmemory⟩

/-- Where the parser raises. -/
theorem parse_vm_info_error (h : parse_vm_info vm = .error e) : vm.Raises e ∨
    ∃ config stats, vm.config = .ok (some config) ∧ vm.summary = .ok stats ∧
      (vm_cpu_usage stats config.hardware = .error e ∨ vm_memory_usage stats config.hardware = .error e) := by
  unfold parse_vm_info at h
  rcases read_bind_error.mp h with h | ⟨_, -, h⟩
  · exact .inl (.inl h)
  rcases read_bind_error.mp h with h | ⟨config, hconfig, h⟩
  · exact .inl (.inr (.inl h))
  rcases read_bind_error.mp h with h | ⟨runtime, hruntime, h⟩
  · exact .inl (.inr (.inr (.inl h)))
  rcases read_bind_error.mp h with h | ⟨stats, hstats, h⟩
  · exact .inl (.inr (.inr (.inr (.inl h))))
  rcases read_bind_error.mp h with h | ⟨_, -, h⟩
  · exact .inl (.inr (.inr (.inr (.inr (.inl h)))))
  cases config with
  | none => cases h
  | some config =>
      rcases read_bind_error.mp h with h | ⟨⟨_, _⟩, -, h⟩
      · exact .inl (.inr (.inr (.inr (.inr (.inr (.inl ⟨runtime, hruntime, h⟩))))))
      rcases read_bind_error.mp h with h | ⟨_, -, h⟩
      · exact .inl (.inr (.inr (.inr (.inr (.inr (.inr (.inl h)))))))
      rcases read_bind_error.mp h with h | ⟨_, -, h⟩
      · exact .inl (.inr (.inr (.inr (.inr (.inr (.inr (.inr (.inl h))))))))
      rcases read_bind_error.mp h with h | ⟨_, -, h⟩
      · exact .inl (.inr (.inr (.inr (.inr (.inr (.inr (.inr (.inr (.inl h)))))))))
      rcases read_bind_error.mp h with h | ⟨_, -, h⟩
      · exact .inl (.inr (.inr (.inr (.inr (.inr (.inr (.inr (.inr (.inr h)))))))))
      refine .inr ⟨config, stats, hconfig, hstats, ?_⟩
      rcases read_bind_error.mp h with h | ⟨_, -, h⟩
      · exact .inl h
      rcases read_bind_error.mp h with h | ⟨_, -, h⟩
      · exact .inr h
      cases h

/-- The two computations, on a virtual machine whose properties were read. -/
theorem VirtualMachineObject.Consistent.usages (h : vm.Consistent frequency) {config : VMConfig}
    {stats : Option QuickStats} (hconfig : vm.config = .ok (some config)) (hstats : vm.summary = .ok stats) :
    (∃ x, vm_cpu_usage stats config.hardware = .ok x ∧ (Percentage x ↔ vm.TenGigahertz)) ∧
    ∃ x, vm_memory_usage stats config.hardware = .ok x ∧ Percentage x := by
  have hstatistics (stats' : QuickStats) (hardware : Hardware) : vm.Statistics stats' hardware ↔
      stats = some stats' ∧ config.hardware = some hardware := by
    constructor
    · rintro ⟨hstats', config', hconfig', hhardware⟩
      obtain rfl := Option.some.inj (Except.ok.inj (hconfig.symm.trans hconfig'))
      exact ⟨Except.ok.inj (hstats.symm.trans hstats'), hhardware⟩
    · rintro ⟨rfl, hhardware⟩
      exact ⟨hstats, config, hconfig, hhardware⟩
  have hnone (hno : ∀ stats' hardware, ¬ vm.Statistics stats' hardware) : vm.TenGigahertz :=
    fun stats' hardware hboth => absurd hboth (hno stats' hardware)
  cases stats with
  | none =>
      have hten := hnone fun stats' hardware hboth => nomatch ((hstatistics stats' hardware).mp hboth).1
      exact ⟨⟨0, rfl, iff_of_true percentage_zero hten⟩, 0, rfl, percentage_zero⟩
  | some stats =>
      cases hhardware : config.hardware with
      | none =>
          have hten := hnone fun stats' hardware hboth => by
            have hsome := ((hstatistics stats' hardware).mp hboth).2
            rw [hhardware] at hsome
            cases hsome
          exact ⟨⟨0, rfl, iff_of_true percentage_zero hten⟩, 0, rfl, percentage_zero⟩
      | some hardware =>
          have hboth : vm.Statistics stats hardware := (hstatistics stats hardware).mpr ⟨rfl, hhardware⟩
          obtain ⟨x, hx, hiff⟩ := vm_cpu_usage_iff (h.cpu stats hardware hboth)
          refine ⟨⟨x, hx, hiff.trans ?_⟩, vm_memory_usage_percentage (h.memory stats hardware hboth)⟩
          constructor
          · intro hall stats' hardware' hboth'
            obtain ⟨hstats', hhardware'⟩ := (hstatistics stats' hardware').mp hboth'
            obtain rfl := Option.some.inj hstats'
            obtain rfl := Option.some.inj (hhardware.symm.trans hhardware')
            exact hall
          · exact fun hall => hall stats hardware hboth

/-- **Virtual machines**: nothing is divided by zero, and the usages are in range up to 10 GHz. -/
theorem vm_usages_iff (h : vm.Consistent frequency) :
    (∀ e, parse_vm_info vm = .error e → vm.Raises e) ∧
    ∀ d, parse_vm_info vm = .ok (some d) →
      (Percentage d.columns.cpu_usage_percent ∧ Percentage d.columns.memory_usage_percent ↔
        vm.TenGigahertz) := by
  constructor
  · intro e he
    rcases parse_vm_info_error he with hraises | ⟨config, stats, hconfig, hstats, hbad⟩
    · exact hraises
    · obtain ⟨⟨x, hx, -⟩, y, hy, -⟩ := h.usages hconfig hstats
      rcases hbad with hbad | hbad
      · cases hx.symm.trans hbad
      · cases hy.symm.trans hbad
  · intro d hd
    obtain ⟨config, stats, hconfig, hstats, hcpu, hmemory⟩ := parse_vm_info_usage hd
    obtain ⟨⟨x, hx, hiff⟩, y, hy, hpercentage⟩ := h.usages hconfig hstats
    obtain rfl := Except.ok.inj (hcpu.symm.trans hx)
    obtain rfl := Except.ok.inj (hmemory.symm.trans hy)
    exact (and_iff_left hpercentage).trans hiff

end

/-! ### Data stores -/

section
variable {datastore : DatastoreObject} {ds_data : DataStoreData} {e : Fault}

theorem store_usage_percentage {capacity_gb free_gb : Nat} (h : free_gb ≤ capacity_gb) :
    Percentage (store_usage capacity_gb free_gb) := by
  rw [store_usage]
  split_ifs with hpos
  · have hcapacity : (0 : ℚ) < capacity_gb := Nat.cast_pos.mpr hpos
    have hused : (0 : ℚ) ≤ (capacity_gb : ℚ) - free_gb := sub_nonneg.mpr (Nat.cast_le.mpr h)
    have hnonneg : 0 ≤ ((capacity_gb : ℚ) - free_gb) / capacity_gb * 100 := by positivity
    exact ⟨le_min hnonneg (by norm_num), min_le_right _ _⟩
  · exact percentage_zero

theorem parse_datastore_info_usage (h : parse_datastore_info datastore = .ok ds_data) :
    ∃ summary, datastore.summary = .ok summary ∧ ds_data.columns.usage_percent =
      store_usage (in_gb (summary.bind (·.capacity))) (in_gb (summary.bind (·.freeSpace))) := by
  obtain ⟨summary, _, hread⟩ := parse_datastore_info_read h
  exact ⟨summary, hread.of_summary, hread.usage⟩

theorem parse_datastore_info_error (h : parse_datastore_info datastore = .error e) : datastore.Raises e := by
  unfold parse_datastore_info at h
  rcases read_bind_error.mp h with h | ⟨_, -, h⟩
  · exact .inl h
  rcases read_bind_error.mp h with h | ⟨_, -, h⟩
  · exact .inr (.inl h)
  rcases read_bind_error.mp h with h | ⟨_, -, h⟩
  · exact .inr (.inr (.inl h))
  rcases read_bind_error.mp h with h | ⟨_, -, h⟩
  · exact .inr (.inr (.inr (.inl h)))
  rcases read_bind_error.mp h with h | ⟨_, -, h⟩
  · exact .inr (.inr (.inr (.inr (.inl h))))
  rcases read_bind_error.mp h with h | ⟨host, hhost, h⟩
  · exact .inr (.inr (.inr (.inr (.inr (.inl h)))))
  rcases read_bind_error.mp h with h | ⟨_, -, h⟩
  · exact .inr (.inr (.inr (.inr (.inr (.inr ⟨host, hhost, h⟩)))))
  cases h

/-- **Data stores**: the usage is a percentage. -/
theorem datastore_usage_percentage (h : datastore.Consistent) :
    (∀ e, parse_datastore_info datastore = .error e → datastore.Raises e) ∧
    ∀ d, parse_datastore_info datastore = .ok d → Percentage d.columns.usage_percent := by
  refine ⟨fun e he => parse_datastore_info_error he, fun d hd => ?_⟩
  obtain ⟨summary, hsummary, husage⟩ := parse_datastore_info_usage hd
  rw [husage]
  cases summary with
  | none => exact store_usage_percentage (le_refl _)
  | some summary => exact store_usage_percentage (Nat.div_le_div_right (h summary hsummary))

end

/-! ### The exact condition -/

/-- **The usages are percentages**: those of hosts up to one core, those of virtual machines up to 10 GHz for
each processor, those of data stores always; and no parser raises but where a property cannot be read. -/
theorem usages_iff (host : HostSystem) (frequency : ℚ) (vm : VirtualMachineObject)
    (datastore : DatastoreObject) :
    (host.Consistent →
      (∀ e, parse_host_info host = .error e → host.Raises e) ∧ ∀ d, parse_host_info host = .ok d →
        (Percentage d.columns.cpu_usage ∧ Percentage d.columns.memory_usage ↔ host.OneCore)) ∧
    (vm.Consistent frequency →
      (∀ e, parse_vm_info vm = .error e → vm.Raises e) ∧ ∀ d, parse_vm_info vm = .ok (some d) →
        (Percentage d.columns.cpu_usage_percent ∧ Percentage d.columns.memory_usage_percent ↔
          vm.TenGigahertz)) ∧
    (datastore.Consistent →
      (∀ e, parse_datastore_info datastore = .error e → datastore.Raises e) ∧
      ∀ d, parse_datastore_info datastore = .ok d → Percentage d.columns.usage_percent) :=
  ⟨fun h => host_usages_iff h, fun h => vm_usages_iff h, fun h => datastore_usage_percentage h⟩

/-- A host with two cores of 2 GHz, of which it uses so many MHz. -/
def sampleBusy (usage : Nat) : HostSystem :=
  { sampleHost "host-1" "u1" "esx1" with
    hardware := .ok (some ⟨2, 4, 2000000000⟩)
    summary := .ok (some ⟨some ⟨"u1", "", "", "", 2, 8589934592⟩, some ⟨some usage, some 4096⟩⟩) }

theorem sampleBusy_cpu {usage usage' : Nat} {cpu : CpuInfo} (h : (sampleBusy usage).CpuUsage usage' cpu) :
    usage' = usage ∧ cpu = ⟨2, 4, 2000000000⟩ := by
  obtain ⟨hcpu, summary, stats, hsummary, hstats, husage⟩ := h
  obtain rfl := Option.some.inj (Except.ok.inj hsummary)
  obtain rfl := Option.some.inj hstats
  exact ⟨(Option.some.inj husage).symm, (Option.some.inj (Except.ok.inj hcpu)).symm⟩

theorem sampleBusy_consistent {usage : Nat} (h : usage ≤ 4000) : (sampleBusy usage).Consistent where
  cpu usage' cpu hboth := by
    obtain ⟨rfl, rfl⟩ := sampleBusy_cpu hboth
    have hle : (usage' : ℚ) ≤ (4000 : ℕ) := Nat.cast_le.mpr h
    norm_num at hle ⊢
    exact hle
  memory usage' hardware hboth := by
    obtain ⟨summary, stats, hsummary, hhardware, hstats, husage⟩ := hboth
    obtain rfl := Option.some.inj (Except.ok.inj hsummary)
    obtain rfl := Option.some.inj hhardware
    obtain rfl := Option.some.inj hstats
    obtain rfl := Option.some.inj husage
    norm_num

theorem sampleBusy_parsed {usage : Nat} (h : usage ≤ 4000) (hne : usage ≠ 0) :
    ∃ d, parse_host_info (sampleBusy usage) = .ok d ∧ d.columns.cpu_usage = usage / 2000 * 100 := by
  cases hd : parse_host_info (sampleBusy usage) with
  | error e =>
      rcases (host_usages_iff (sampleBusy_consistent h)).1 e hd with
        he | he | he | he | he | he | he | he <;> cases he
  | ok d =>
      obtain ⟨hardware, summary, hhardware, hsummary, hcpu, -⟩ := parse_host_info_usage hd
      obtain rfl := Except.ok.inj hhardware
      obtain rfl := Except.ok.inj hsummary
      have husage := @host_cpu_usage_some ⟨some usage, some 4096⟩ usage ⟨2, 4, 2000000000⟩ rfl hne (by decide)
      refine ⟨d, rfl, (Except.ok.inj (hcpu.symm.trans husage)).trans ?_⟩
      norm_num

/-- A data store with half of its space free. -/
def sampleHalf : DatastoreObject where
  moId := "datastore-1"
  name := .ok "ds1"
  nameLogged := .ok "ds1"
  summary := .ok (some ⟨some "VMFS", true, some 1000, some 500, none, "", none, none⟩)
  info := .ok .other
  vm := .ok []
  parent := .none
  host := .ok []

/-- A host that uses half a core, a virtual machine that is switched off, and half a data store. -/
theorem usages_iff_idle :
    (∃ d, parse_host_info (sampleBusy 1000) = .ok d ∧
      Percentage d.columns.cpu_usage ∧ Percentage d.columns.memory_usage) ∧
    (∃ d, parse_vm_info (sampleVM "vm-1" "u1" "web") = .ok (some d) ∧
      Percentage d.columns.cpu_usage_percent ∧ Percentage d.columns.memory_usage_percent) ∧
    ∃ d, parse_datastore_info sampleHalf = .ok d ∧ Percentage d.columns.usage_percent := by
  obtain ⟨hhost, hvm, hstore⟩ := usages_iff (sampleBusy 1000) 2000 (sampleVM "vm-1" "u1" "web") sampleHalf
  have hoff (stats : QuickStats) (hardware : Hardware) :
      ¬ (sampleVM "vm-1" "u1" "web").Statistics stats hardware := by
    intro h
    cases h.stats_eq
  refine ⟨?_, ?_, ?_⟩
  · obtain ⟨d, hd, -⟩ := @sampleBusy_parsed 1000 (by decide) (by decide)
    refine ⟨d, hd, ((hhost (sampleBusy_consistent (by decide))).2 d hd).mpr fun usage cpu hboth => ?_⟩
    obtain ⟨rfl, rfl⟩ := sampleBusy_cpu hboth
    norm_num
  · refine ⟨_, rfl, ((hvm ⟨?_, ?_⟩).2 _ rfl).mpr ?_⟩
    · exact fun stats hardware h => absurd h (hoff stats hardware)
    · exact fun stats hardware h => absurd h (hoff stats hardware)
    · exact fun stats hardware h => absurd h (hoff stats hardware)
  · refine ⟨_, rfl, (hstore ?_).2 _ rfl⟩
    rintro summary ⟨⟩
    decide

/-- **Three quarters of two cores** are 150 percent. -/
theorem busy_host_exceeds : (sampleBusy 3000).Consistent ∧
    ∃ d, parse_host_info (sampleBusy 3000) = .ok d ∧ d.columns.cpu_usage = 150 ∧
      ¬ Percentage d.columns.cpu_usage := by
  obtain ⟨d, hd, husage⟩ := @sampleBusy_parsed 3000 (by decide) (by decide)
  have h150 : d.columns.cpu_usage = 150 := by
    rw [husage]
    norm_num
  refine ⟨sampleBusy_consistent (by decide), d, hd, h150, fun h => ?_⟩
  have hle := h.2
  rw [h150] at hle
  norm_num at hle

end InfraHub.Virt
