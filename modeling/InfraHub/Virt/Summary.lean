import InfraHub.Virt.Template
import Mathlib.Algebra.BigOperators.Group.List.Basic
import Mathlib.Algebra.Ring.Nat

/-!
# Virt — Summary

The figures that sum up a virtual machine: its disks and its snapshots.

The sizes of the disks are rounded down one by one, and of the snapshots only the roots are counted.
`summarises_iff`: the figures are the aggregates if and only if what is rounded off comes to less than one
GB, no snapshot has a child, and there is a root if there are snapshots at all.
-/

namespace InfraHub.Virt

/-! ### The statement -/

/-- The capacities of the disks, in KB. -/
def capacities : List Device → List Nat
  | [] => []
  | .disk kb :: devices => kb :: capacities devices
  | .ethernetCard _ :: devices | .other :: devices => capacities devices

mutual

/-- The snapshots of a tree. -/
def SnapshotTree.count : SnapshotTree → Nat
  | .node children => count_all children + 1

/-- The snapshots of a forest. -/
def count_all : List SnapshotTree → Nat
  | [] => 0
  | tree :: trees => tree.count + count_all trees

end

/-- The snapshot has no child. -/
def SnapshotTree.Leaf : SnapshotTree → Prop
  | .node children => children = []

/-- The devices of the virtual machine. -/
def VMConfig.devices (config : VMConfig) : List Device := (config.hardware.map (·.device)).getD []

/-- **The figures are the aggregates** over the disks and over the whole forest of snapshots. -/
structure Summarises (devices : List Device) (forest : List SnapshotTree) (columns : VMColumns) : Prop where
  disk_count : columns.disk_count = (capacities devices).length
  total_disk_gb : columns.total_disk_gb = (capacities devices).sum / 2 ^ 20
  snapshot_count : columns.snapshot_count = count_all forest
  has_snapshots : columns.has_snapshots = true ↔ 0 < columns.snapshot_count

/-- **The condition.** -/
structure Exact (devices : List Device) (snapshot : Option (List SnapshotTree)) : Prop where
  rounded : ((capacities devices).map (· % 2 ^ 20)).sum < 2 ^ 20
  leaves : ∀ tree ∈ snapshot.getD [], tree.Leaf
  roots : snapshot ≠ some []

/-! ### Sums and forests -/

/-- Rounding down one by one comes to the same where the remainders do not make up a whole. -/
theorem sum_div_iff (l : List Nat) {n : Nat} (hn : 0 < n) :
    (l.map (· / n)).sum = l.sum / n ↔ (l.map (· % n)).sum < n := by
  have hsplit : l.sum = (l.map (· % n)).sum + n * (l.map (· / n)).sum := by
    induction l with
    | nil => rfl
    | cons a l ih =>
        have ha := Nat.mod_add_div a n
        simp only [List.map_cons, List.sum_cons, Nat.mul_add]
        omega
  rw [hsplit, Nat.add_mul_div_left _ _ hn, ← Nat.div_eq_zero_iff_lt hn]
  omega

theorem disk_totals_eq (devices : List Device) :
    disk_totals devices = ((capacities devices).length, ((capacities devices).map (· / 2 ^ 20)).sum) := by
  induction devices with
  | nil => rfl
  | cons device devices ih =>
      cases device with
      | disk kb =>
          have hgb : 1024 * 1024 = 2 ^ 20 := by decide
          simp only [disk_totals, capacities, ih, List.length_cons, List.map_cons, List.sum_cons, hgb]
          rw [Nat.add_comm (kb / 2 ^ 20)]
      | ethernetCard mac => exact ih
      | other => exact ih

theorem one_le_count (tree : SnapshotTree) : 1 ≤ tree.count := by
  cases tree with
  | node children => exact Nat.le_add_left 1 _

theorem count_eq_one_iff (tree : SnapshotTree) : tree.count = 1 ↔ tree.Leaf := by
  cases tree with
  | node children =>
      cases children with
      | nil => exact iff_of_true rfl rfl
      | cons tree trees =>
          have hone := one_le_count tree
          simp only [SnapshotTree.count, count_all, SnapshotTree.Leaf, reduceCtorEq, iff_false]
          omega

theorem length_le_count_all (forest : List SnapshotTree) : forest.length ≤ count_all forest := by
  induction forest with
  | nil => exact Nat.le_refl 0
  | cons tree trees ih =>
      have hone := one_le_count tree
      simp only [count_all, List.length_cons]
      omega

/-- The roots are all there is where no root has a child. -/
theorem length_eq_count_all_iff (forest : List SnapshotTree) :
    forest.length = count_all forest ↔ ∀ tree ∈ forest, tree.Leaf := by
  induction forest with
  | nil => exact iff_of_true rfl nofun
  | cons tree trees ih =>
      have hone := one_le_count tree
      have hle := length_le_count_all trees
      rw [List.forall_mem_cons, ← ih, ← count_eq_one_iff, count_all, List.length_cons]
      omega

/-! ### The figures -/

section
variable {vm : VirtualMachineObject} {config : VMConfig} {snapshot : Option (List SnapshotTree)} {d : VMData}

theorem parse_vm_info_figures (h : parse_vm_info vm = .ok (some d)) (hconfig : vm.config = .ok (some config))
    (hsnapshot : vm.snapshot = .ok snapshot) :
    d.columns.disk_count = (disk_totals config.devices).1 ∧
      d.columns.total_disk_gb = (disk_totals config.devices).2 ∧
      d.columns.snapshot_count = (snapshot.getD []).length ∧ d.columns.has_snapshots = snapshot.isSome := by
  obtain ⟨config', snapshot', hread⟩ := parse_vm_info_read h
  obtain rfl : config = config' :=
    Option.some.inj (Except.ok.inj (hconfig.symm.trans hread.of_config))
  obtain rfl : snapshot = snapshot' := Except.ok.inj (hsnapshot.symm.trans hread.of_snapshot)
  refine ⟨congrArg Prod.fst hread.disks, congrArg Prod.snd hread.disks, ?_, hread.has_snapshots⟩
  rw [hread.snapshot_count]
  cases snapshot with
  | none => rfl
  | some forest => rfl

/-- The total of a template is computed alike. -/
theorem parse_template_info_disks {t : TemplateData} (h : parse_template_info vm = .ok (some t))
    (hconfig : vm.config = .ok (some config)) : t.columns.disk_gb = (disk_totals config.devices).2 := by
  unfold parse_template_info at h
  obtain ⟨_, -, h⟩ := read_bind_ok.mp h
  obtain ⟨config', hconfig', h⟩ := read_bind_ok.mp h
  obtain rfl := Except.ok.inj (hconfig.symm.trans hconfig')
  cases h
  rfl

end

/-! ### The exact condition -/

/-- **The figures are the aggregates** if and only if nothing is lost by rounding and by counting roots; and a
template with the same devices has the same total in any case. -/
theorem summarises_iff {vm : VirtualMachineObject} {config : VMConfig} {snapshot : Option (List SnapshotTree)}
    {d : VMData} (h : parse_vm_info vm = .ok (some d)) (hconfig : vm.config = .ok (some config))
    (hsnapshot : vm.snapshot = .ok snapshot) :
    (Summarises config.devices (snapshot.getD []) d.columns ↔ Exact config.devices snapshot) ∧
    ∀ template config' t, template.config = .ok (some config') → config'.devices = config.devices →
      parse_template_info template = .ok (some t) → t.columns.disk_gb = d.columns.total_disk_gb := by
  obtain ⟨hcount, htotal, hsnapshots, hhas⟩ := parse_vm_info_figures h hconfig hsnapshot
  rw [disk_totals_eq] at hcount htotal
  have hdisks : d.columns.total_disk_gb = (capacities config.devices).sum / 2 ^ 20 ↔
      ((capacities config.devices).map (· % 2 ^ 20)).sum < 2 ^ 20 := by
    rw [htotal]
    exact sum_div_iff _ (by decide)
  have hforest : d.columns.snapshot_count = count_all (snapshot.getD []) ↔
      ∀ tree ∈ snapshot.getD [], tree.Leaf := by
    rw [hsnapshots]
    exact length_eq_count_all_iff _
  have hroots : (d.columns.has_snapshots = true ↔ 0 < d.columns.snapshot_count) ↔ snapshot ≠ some [] := by
    rw [hsnapshots, hhas]
    cases snapshot with
    | none => simp
    | some forest => simp [List.length_pos_iff]
  refine ⟨⟨fun hs => ?_, fun hc => ?_⟩, fun template config' t hconfig' hdevices ht => ?_⟩
  · exact ⟨hdisks.mp hs.total_disk_gb, hforest.mp hs.snapshot_count, hroots.mp hs.has_snapshots⟩
  · exact ⟨hcount, hdisks.mpr hc.rounded, hforest.mpr hc.leaves, hroots.mpr hc.roots⟩
  · rw [parse_template_info_disks ht hconfig', hdevices, disk_totals_eq, htotal]

/-- A configuration with these disks. -/
def sampleConfig (kbs : List Nat) : VMConfig where
  name := "web"
  uuid := "u1"
  instanceUuid := ""
  guestFullName := ""
  guestId := none
  version := "vmx-19"
  template := false
  hardware := some ⟨2, 1, 4096, kbs.map .disk⟩

/-- A virtual machine with these disks and snapshots. -/
def sampleStored (kbs : List Nat) (forest : List SnapshotTree) : VirtualMachineObject :=
  { sampleVM "vm-1" "u1" "web" with
    config := .ok (some (sampleConfig kbs))
    snapshot := .ok (some forest) }

/-- Two disks of 10 GB, and one snapshot. -/
theorem summarises_iff_simple : ∃ d,
    parse_vm_info (sampleStored [10485760, 10485760] [.node []]) = .ok (some d) ∧
    Summarises (sampleConfig [10485760, 10485760]).devices [.node []] d.columns := by
  have hparse : parse_vm_info (sampleStored [10485760, 10485760] [.node []]) = .ok (some _) := rfl
  refine ⟨_, hparse, (summarises_iff hparse rfl rfl).1.mpr ⟨by decide, ?_, nofun⟩⟩
  intro tree htree
  rw [List.mem_singleton.mp htree]
  exact rfl

/-- **Two disks of half a GB come to nothing, and a snapshot of a snapshot is not counted.** -/
theorem figures_fall_short : ∃ d,
    parse_vm_info (sampleStored [524288, 524288] [.node [.node []]]) = .ok (some d) ∧
    d.columns.total_disk_gb = 0 ∧ (capacities (sampleConfig [524288, 524288]).devices).sum / 2 ^ 20 = 1 ∧
    d.columns.snapshot_count = 1 ∧ count_all [.node [.node []]] = 2 ∧
    ¬ Summarises (sampleConfig [524288, 524288]).devices [.node [.node []]] d.columns := by
  refine ⟨_, rfl, rfl, by decide, rfl, rfl, fun h => ?_⟩
  exact absurd h.snapshot_count (by decide)

end InfraHub.Virt
