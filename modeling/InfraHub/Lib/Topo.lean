import InfraHub.Lib.Forest
import Mathlib.Data.List.Perm.Basic
import Mathlib.Logic.Function.Basic

/-!
# Library — Topo

Kahn's algorithm: the nodes of a graph, parents first.

`edges` has a pair `(a, b)` for every time that `a` is a parent of `b`; an edge from what is no node does
not count.  `topo nodes edges` starts from the nodes without parents, in their order, and takes a node when
all its parents were taken.

* `Sound`: what holds after every round; `sound_take`: a round keeps it.
* `queue_final`: the loop is not cut off.
* `mem_before_of_topo`: the parents come first; `length_topo_iff`: all nodes are taken if and only if there
  is no cycle.
* `topo_cons`: a node without parents that is first comes first.
* The rest is about rows that have a key, and the key of a parent: `acyclic_links_iff`,
  `filterMap_topo_perm`, `mem_before_of_filterMap` and `filterMap_topo_cons` say the same of the rows, and
  `sort_rows_eq_none_iff` and `sort_rows_spec` of the sort that fails where a node is not taken.
-/

namespace InfraHub.Lib.Topo
open Relation (TransGen)

variable {κ : Type} [DecidableEq κ]

/-! ### The algorithm -/

structure State (κ : Type) where
  in_degree : κ → Nat
  queue : List κ
  sorted : List κ

/-- One more parent of the neighbor was taken. -/
def visit (s : (κ → Nat) × List κ) (neighbor : κ) : (κ → Nat) × List κ :=
  (Function.update s.1 neighbor (s.1 neighbor - 1),
    if s.1 neighbor - 1 = 0 then s.2 ++ [neighbor] else s.2)

/-- The first of the queue is taken. -/
def take (graph : κ → List κ) (s : State κ) (current : κ) (queue : List κ) : State κ where
  in_degree := ((graph current).foldl visit (s.in_degree, queue)).1
  queue := ((graph current).foldl visit (s.in_degree, queue)).2
  sorted := s.sorted ++ [current]

/-- The loop, for at most so many rounds. -/
def loop (graph : κ → List κ) : Nat → State κ → State κ
  | 0, s => s
  | limit + 1, s =>
    match s.queue with
    | [] => s
    | current :: queue => loop graph limit (take graph s current queue)

def children (edges : List (κ × κ)) (a : κ) : List κ := (edges.filter fun e => e.1 = a).map Prod.snd

/-- How many parents of a node are nodes. -/
def degree (nodes : List κ) (edges : List (κ × κ)) (n : κ) : Nat :=
  edges.countP fun e => e.2 = n ∧ e.1 ∈ nodes

def start (nodes : List κ) (edges : List (κ × κ)) : State κ where
  in_degree := degree nodes edges
  queue := nodes.filter fun n => degree nodes edges n = 0
  sorted := []

/-- The nodes that are taken.  There are no more rounds than nodes. -/
def topo (nodes : List κ) (edges : List (κ × κ)) : List κ :=
  (loop (children edges) nodes.length (start nodes edges)).sorted

/-- The node `b` has the parent `a`. -/
def Dep (nodes : List κ) (edges : List (κ × κ)) (b a : κ) : Prop := (a, b) ∈ edges ∧ a ∈ nodes

/-! ### The visits of a round -/

section
variable {in_degree : κ → Nat} {l : List κ}

/-- The degrees fall, and those that fall to 0 are queued. -/
theorem foldl_visit (queue : List κ) (h : ∀ n, l.count n ≤ in_degree n) :
    ∃ new, l.foldl visit (in_degree, queue) = (fun n => in_degree n - l.count n, queue ++ new) ∧
      new.Nodup ∧ ∀ n, n ∈ new ↔ n ∈ l ∧ in_degree n = l.count n := by
  induction l generalizing in_degree queue with
  | nil => exact ⟨[], by simp, List.nodup_nil, by simp⟩
  | cons a l ih =>
      have ha : l.count a + 1 ≤ in_degree a := by simpa using h a
      have hrest : ∀ n, l.count n ≤ Function.update in_degree a (in_degree a - 1) n := by
        intro n
        by_cases hn : n = a
        · subst hn
          rw [Function.update_self]
          omega
        · have hle := h n
          rw [List.count_cons_of_ne (Ne.symm hn)] at hle
          rwa [Function.update_of_ne hn]
      have hdegree : (fun n => Function.update in_degree a (in_degree a - 1) n - l.count n) =
          fun n => in_degree n - (a :: l).count n := by
        funext n
        by_cases hn : n = a
        · subst hn
          rw [Function.update_self, List.count_cons_self]
          omega
        · rw [Function.update_of_ne hn, List.count_cons_of_ne (Ne.symm hn)]
      have hother {n : κ} (hn : n ≠ a) :
          (n ∈ l ∧ Function.update in_degree a (in_degree a - 1) n = l.count n) ↔
            n ∈ a :: l ∧ in_degree n = (a :: l).count n := by
        rw [Function.update_of_ne hn, List.count_cons_of_ne (Ne.symm hn), List.mem_cons]
        simp only [hn, false_or]
      rw [List.foldl_cons, visit]
      by_cases hzero : in_degree a - 1 = 0
      · obtain ⟨new, hfold, hnodup, hmem⟩ := ih (queue ++ [a]) hrest
        have hnone : a ∉ l := List.count_eq_zero.mp (by omega)
        have hnew : a ∉ new := fun hin => hnone ((hmem a).mp hin).1
        refine ⟨a :: new, ?_, List.nodup_cons.mpr ⟨hnew, hnodup⟩, fun n => ?_⟩
        · rw [if_pos hzero, hfold, hdegree, List.append_assoc, List.singleton_append]
        · by_cases hn : n = a
          · subst hn
            have hcount : l.count n = 0 := List.count_eq_zero.mpr hnone
            simp only [List.mem_cons_self, true_and, true_iff, List.count_cons_self]
            omega
          · rw [List.mem_cons, or_iff_right hn, hmem, hother hn]
      · obtain ⟨new, hfold, hnodup, hmem⟩ := ih queue hrest
        refine ⟨new, ?_, hnodup, fun n => ?_⟩
        · rw [if_neg hzero, hfold, hdegree]
        · by_cases hn : n = a
          · subst hn
            rw [hmem, Function.update_self, List.count_cons_self]
            constructor
            · rintro ⟨hin, heq⟩
              exact ⟨List.mem_cons_self, by omega⟩
            · rintro ⟨-, heq⟩
              exact ⟨List.count_pos_iff.mp (by omega), by omega⟩
          · rw [hmem, hother hn]

end

/-! ### A round -/

section
variable {nodes : List κ} {edges : List (κ × κ)}

/-- The parents that were not taken yet. -/
def missing (nodes : List κ) (edges : List (κ × κ)) (sorted : List κ) (n : κ) : Nat :=
  edges.countP fun e => e.2 = n ∧ e.1 ∈ nodes ∧ e.1 ∉ sorted

structure Sound (nodes : List κ) (edges : List (κ × κ)) (s : State κ) : Prop where
  nodup : (s.sorted ++ s.queue).Nodup
  in_degree : ∀ n, s.in_degree n = missing nodes edges s.sorted n
  mem : ∀ n, n ∈ s.sorted ++ s.queue ↔ n ∈ nodes ∧ s.in_degree n = 0
  parents : ∀ before b after, s.sorted = before ++ b :: after → ∀ a, Dep nodes edges b a → a ∈ before

theorem count_children (a n : κ) :
    (children edges a).count n = edges.countP fun e => e.2 = n ∧ e.1 = a := by
  rw [children, List.count_eq_countP, List.countP_map, List.countP_filter]
  refine List.countP_congr fun e _ => ?_
  simp

/-- A parent that is taken is one parent less, for each time that it is a parent. -/
theorem missing_take {sorted : List κ} {current : κ} (hnode : current ∈ nodes) (hnew : current ∉ sorted)
    (n : κ) : missing nodes edges sorted n =
      missing nodes edges (sorted ++ [current]) n + (children edges current).count n := by
  rw [count_children, missing, missing]
  induction edges with
  | nil => rfl
  | cons e edges ih =>
      rw [List.countP_cons, List.countP_cons, List.countP_cons, ih]
      have hone : (if decide (e.2 = n ∧ e.1 ∈ nodes ∧ e.1 ∉ sorted) = true then 1 else 0) =
          (if decide (e.2 = n ∧ e.1 ∈ nodes ∧ e.1 ∉ sorted ++ [current]) = true then 1 else 0) +
            if decide (e.2 = n ∧ e.1 = current) = true then 1 else 0 := by
        by_cases heq : e.1 = current
        · simp [heq, hnode, hnew]
        · simp [heq]
      rw [hone]
      omega

theorem missing_eq_zero_iff {sorted : List κ} {n : κ} :
    missing nodes edges sorted n = 0 ↔ ∀ a, Dep nodes edges n a → a ∈ sorted := by
  rw [missing, List.countP_eq_zero]
  constructor
  · intro h a hdep
    by_contra hnot
    exact h (a, n) hdep.1 (decide_eq_true ⟨rfl, hdep.2, hnot⟩)
  · rintro h ⟨a, b⟩ he hdec
    obtain ⟨rfl, hnode, hnot⟩ := of_decide_eq_true hdec
    exact hnot (h a ⟨he, hnode⟩)

theorem missing_nil (n : κ) : missing nodes edges [] n = degree nodes edges n := by
  simp [missing, degree]

theorem sound_start (honce : nodes.Nodup) : Sound nodes edges (start nodes edges) where
  nodup := honce.filter _
  in_degree n := (missing_nil n).symm
  mem n := by simp [start]
  parents before b after h := by
    have hlength := congrArg List.length h
    simp [start] at hlength

/-- **A round keeps it.** -/
theorem sound_take (hedges : ∀ e ∈ edges, e.2 ∈ nodes) {s : State κ} {current : κ} {queue : List κ}
    (hqueue : s.queue = current :: queue) (h : Sound nodes edges s) :
    Sound nodes edges (take (children edges) s current queue) := by
  have hcurrent : current ∈ s.sorted ++ s.queue := by simp [hqueue]
  obtain ⟨hnode, hzero⟩ := (h.mem current).mp hcurrent
  have hnew : current ∉ s.sorted := by
    have hdisjoint := List.disjoint_of_nodup_append h.nodup
    exact fun hin => hdisjoint hin (by simp [hqueue])
  have hfall (n : κ) : missing nodes edges s.sorted n =
      missing nodes edges (s.sorted ++ [current]) n + (children edges current).count n :=
    missing_take hnode hnew n
  have hcount : ∀ n, (children edges current).count n ≤ s.in_degree n := by
    intro n
    rw [h.in_degree, hfall]
    omega
  obtain ⟨new, hfold, hnodup, hmem⟩ := foldl_visit queue hcount
  have hnew' : ∀ n ∈ new, n ∈ nodes ∧ 0 < s.in_degree n := by
    intro n hn
    obtain ⟨hchild, heq⟩ := (hmem n).mp hn
    obtain ⟨e, he, rfl⟩ := List.mem_map.mp hchild
    refine ⟨hedges e (List.mem_filter.mp he).1, ?_⟩
    rw [heq]
    exact List.count_pos_iff.mpr hchild
  have hsplit : s.sorted ++ [current] ++ (queue ++ new) = s.sorted ++ s.queue ++ new := by
    simp [hqueue]
  constructor
  case nodup =>
    simp only [take, hfold, hsplit]
    refine h.nodup.append hnodup fun n hn hn' => ?_
    exact absurd ((h.mem n).mp hn).2 (hnew' n hn').2.ne'
  case in_degree =>
    intro n
    simp only [take, hfold]
    rw [h.in_degree, hfall n]
    omega
  case mem =>
    intro n
    simp only [take, hfold, hsplit]
    rw [List.mem_append, h.mem n, hmem n]
    constructor
    · rintro (⟨hn, hn0⟩ | ⟨hchild, heq⟩)
      · exact ⟨hn, by omega⟩
      · exact ⟨(hnew' n ((hmem n).mpr ⟨hchild, heq⟩)).1, by omega⟩
    · rintro ⟨hn, hn0⟩
      have hle := hcount n
      by_cases hn' : s.in_degree n = 0
      · exact .inl ⟨hn, hn'⟩
      · exact .inr ⟨List.count_pos_iff.mp (by omega), by omega⟩
  case parents =>
    intro before b after heq a hdep
    have htaken : ∀ a, Dep nodes edges current a → a ∈ s.sorted := by
      rw [h.in_degree] at hzero
      exact missing_eq_zero_iff.mp hzero
    simp only [take] at heq
    rcases List.eq_nil_or_concat after with rfl | ⟨after, c, rfl⟩
    · obtain ⟨rfl, hb⟩ := List.append_inj' heq rfl
      obtain rfl : current = b := by simpa using hb
      exact htaken a hdep
    · rw [List.concat_eq_append, ← List.cons_append, ← List.append_assoc] at heq
      obtain ⟨hsorted, -⟩ := List.append_inj' heq rfl
      exact h.parents before b after hsorted a hdep

/-! ### The loop -/

theorem sound_loop (hedges : ∀ e ∈ edges, e.2 ∈ nodes) (limit : Nat) {s : State κ}
    (h : Sound nodes edges s) : Sound nodes edges (loop (children edges) limit s) := by
  induction limit generalizing s with
  | zero => exact h
  | succ limit ih =>
      unfold loop
      split
      · exact h
      · next hqueue => exact ih (sound_take hedges hqueue h)

/-- The loop ends, or takes a node in every round. -/
theorem loop_ends (graph : κ → List κ) (limit : Nat) (s : State κ) :
    (loop graph limit s).queue = [] ∨ (loop graph limit s).sorted.length = s.sorted.length + limit := by
  induction limit generalizing s with
  | zero => exact .inr rfl
  | succ limit ih =>
      unfold loop
      split
      · next hqueue => exact .inl hqueue
      · next current queue hqueue =>
        refine (ih (take graph s current queue)).imp_right fun hlength => ?_
        rw [hlength, take, List.length_append, List.length_singleton]
        omega

/-- What was taken stays. -/
theorem sorted_prefix_loop (graph : κ → List κ) (limit : Nat) (s : State κ) :
    s.sorted <+: (loop graph limit s).sorted := by
  induction limit generalizing s with
  | zero => exact List.prefix_rfl
  | succ limit ih =>
      unfold loop
      split
      · exact List.prefix_rfl
      · next current queue _ => exact (List.prefix_append _ _).trans (ih (take graph s current queue))

/-- The state at the end. -/
def final (nodes : List κ) (edges : List (κ × κ)) : State κ :=
  loop (children edges) nodes.length (start nodes edges)

theorem sound_final (honce : nodes.Nodup) (hedges : ∀ e ∈ edges, e.2 ∈ nodes) :
    Sound nodes edges (final nodes edges) :=
  sound_loop hedges _ (sound_start honce)

/-- **So many rounds are enough.** -/
theorem queue_final (honce : nodes.Nodup) (hedges : ∀ e ∈ edges, e.2 ∈ nodes) :
    (final nodes edges).queue = [] := by
  have hsound := sound_final honce hedges
  rcases loop_ends (children edges) nodes.length (start nodes edges) with hempty | hlength
  · exact hempty
  · have hsubset : (final nodes edges).sorted ++ (final nodes edges).queue ⊆ nodes :=
      fun n hn => ((hsound.mem n).mp hn).1
    have hle := (List.subperm_of_subset hsound.nodup hsubset).length_le
    have hall : (final nodes edges).sorted.length = nodes.length := by
      rw [final, hlength, start, List.length_nil, Nat.zero_add]
    rw [List.length_append, hall] at hle
    exact List.length_eq_zero_iff.mp (by omega)

end

/-! ### The order -/

section
variable {nodes : List κ} {edges : List (κ × κ)}

theorem nodup_topo (honce : nodes.Nodup) (hedges : ∀ e ∈ edges, e.2 ∈ nodes) :
    (topo nodes edges).Nodup :=
  (sound_final honce hedges).nodup.of_append_left

/-- A node is taken if and only if its parents are. -/
theorem mem_topo_iff (honce : nodes.Nodup) (hedges : ∀ e ∈ edges, e.2 ∈ nodes) {n : κ} :
    n ∈ topo nodes edges ↔ n ∈ nodes ∧ ∀ a, Dep nodes edges n a → a ∈ topo nodes edges := by
  have hsound := sound_final honce hedges
  have hmem := hsound.mem n
  rw [queue_final honce hedges, List.append_nil, hsound.in_degree, missing_eq_zero_iff] at hmem
  exact hmem

/-- **The parents come first.** -/
theorem mem_before_of_topo (honce : nodes.Nodup) (hedges : ∀ e ∈ edges, e.2 ∈ nodes)
    {before after : List κ} {b a : κ} (h : topo nodes edges = before ++ b :: after)
    (hdep : Dep nodes edges b a) : a ∈ before :=
  (sound_final honce hedges).parents before b after h a hdep

/-- And so do theirs. -/
theorem mem_before_of_transGen (honce : nodes.Nodup) (hedges : ∀ e ∈ edges, e.2 ∈ nodes)
    {before after : List κ} {b a : κ} (h : topo nodes edges = before ++ b :: after)
    (hdep : TransGen (Dep nodes edges) b a) : a ∈ before := by
  induction hdep with
  | single hdep => exact mem_before_of_topo honce hedges h hdep
  | @tail x a _ hstep ih =>
      obtain ⟨first, rest, rfl⟩ := List.append_of_mem ih
      rw [List.append_assoc, List.cons_append] at h
      exact List.mem_append_left _ (mem_before_of_topo honce hedges h hstep)

theorem topo_perm_iff (honce : nodes.Nodup) (hedges : ∀ e ∈ edges, e.2 ∈ nodes) :
    (topo nodes edges).Perm nodes ↔ Acyclic (Dep nodes edges) := by
  have honce' := nodup_topo honce hedges
  constructor
  · intro hperm a hcycle
    have ha : a ∈ nodes := by
      obtain ⟨b, -, hdep⟩ := TransGen.tail'_iff.mp hcycle
      exact hdep.2
    obtain ⟨before, after, hsplit⟩ := List.append_of_mem (hperm.mem_iff.mpr ha)
    have hbefore := mem_before_of_transGen honce hedges hsplit hcycle
    rw [hsplit] at honce'
    exact List.disjoint_of_nodup_append honce' hbefore List.mem_cons_self
  · intro hacyclic
    refine (List.perm_ext_iff_of_nodup honce' honce).mpr fun n => ?_
    refine ⟨fun hn => ((mem_topo_iff honce hedges).mp hn).1, fun hn => ?_⟩
    -- by how much hangs above the node
    induction hheight : height (Dep nodes edges) nodes n using Nat.strong_induction_on generalizing n with
    | _ m ih =>
        refine (mem_topo_iff honce hedges).mpr ⟨hn, fun a hdep => ?_⟩
        exact ih _ (hheight ▸ height_lt hacyclic hdep hdep.2) a hdep.2 rfl

/-- **All nodes are taken** if and only if there is no cycle. -/
theorem length_topo_iff (honce : nodes.Nodup) (hedges : ∀ e ∈ edges, e.2 ∈ nodes) :
    (topo nodes edges).length = nodes.length ↔ Acyclic (Dep nodes edges) := by
  rw [← topo_perm_iff honce hedges]
  refine ⟨fun hlength => ?_, List.Perm.length_eq⟩
  have hsubset : topo nodes edges ⊆ nodes := fun n hn => ((mem_topo_iff honce hedges).mp hn).1
  exact (List.subperm_of_subset (nodup_topo honce hedges) hsubset).perm_of_length_le hlength.ge

/-- **A node without parents that is first comes first.** -/
theorem topo_cons {n : κ} {rest : List κ} (h : ∀ a, ¬ Dep (n :: rest) edges n a) :
    ∃ l, topo (n :: rest) edges = n :: l := by
  have hzero : degree (n :: rest) edges n = 0 := by
    rw [← missing_nil]
    exact missing_eq_zero_iff.mpr fun a hdep => absurd hdep (h a)
  have hqueue : (start (n :: rest) edges).queue =
      n :: rest.filter fun m => degree (n :: rest) edges m = 0 := by
    simp [start, hzero]
  rw [topo, List.length_cons, loop, hqueue]
  obtain ⟨l, hl⟩ := sorted_prefix_loop (children edges) rest.length
    (take (children edges) (start (n :: rest) edges) n (rest.filter fun m => degree (n :: rest) edges m = 0))
  exact ⟨l, hl.symm⟩

end

/-! ### Rows -/

section
omit [DecidableEq κ]
variable {ρ : Type} {rows : List ρ} {key : ρ → κ} {parent : ρ → Option κ}

/-- The edges that rows make. -/
def links (key : ρ → κ) (parent : ρ → Option κ) (rows : List ρ) : List (κ × κ) :=
  rows.filterMap fun r => (parent r).map fun a => (a, key r)

/-- The parent of the row `r` is the row `p`. -/
def Parent (key : ρ → κ) (parent : ρ → Option κ) (rows : List ρ) (r p : ρ) : Prop :=
  r ∈ rows ∧ p ∈ rows ∧ parent r = some (key p)

theorem mem_links {a b : κ} :
    (a, b) ∈ links key parent rows ↔ ∃ r ∈ rows, parent r = some a ∧ key r = b := by
  simp only [links, List.mem_filterMap, Option.map_eq_some_iff, Prod.mk.injEq]
  constructor
  · rintro ⟨r, hr, a, ha, rfl, rfl⟩
    exact ⟨r, hr, ha, rfl⟩
  · rintro ⟨r, hr, ha, rfl⟩
    exact ⟨r, hr, a, ha, rfl, rfl⟩

variable {nodes : List κ} (hnodes : ∀ k, k ∈ nodes ↔ k ∈ rows.map key)

variable (parent) in
include hnodes in
theorem snd_mem_of_links : ∀ e ∈ links key parent rows, e.2 ∈ nodes := by
  rintro ⟨a, b⟩ he
  obtain ⟨r, hr, -, rfl⟩ := mem_links.mp he
  exact (hnodes _).mpr (List.mem_map_of_mem hr)

include hnodes in
theorem dep_of_parent {r p : ρ} (h : Parent key parent rows r p) :
    Dep nodes (links key parent rows) (key r) (key p) :=
  ⟨mem_links.mpr ⟨r, h.1, h.2.2, rfl⟩, (hnodes _).mpr (List.mem_map_of_mem h.2.1)⟩

/-- A way from key to key is a way from row to row, to any row of the last key. -/
theorem exists_way_of_dep {b a : κ} (h : TransGen (Dep nodes (links key parent rows)) b a) :
    ∃ r ∈ rows, key r = b ∧ ∀ p ∈ rows, key p = a → TransGen (Parent key parent rows) r p := by
  induction h using TransGen.head_induction_on with
  | single hdep =>
      obtain ⟨r, hr, hparent, rfl⟩ := mem_links.mp hdep.1
      refine ⟨r, hr, rfl, fun p hp heq => .single ⟨hr, hp, ?_⟩⟩
      rw [hparent, heq]
  | head hdep _ ih =>
      obtain ⟨r, hr, hparent, rfl⟩ := mem_links.mp hdep.1
      obtain ⟨q, hq, hkey, hway⟩ := ih
      have hstep : Parent key parent rows r q := ⟨hr, hq, by rw [hparent, hkey]⟩
      exact ⟨r, hr, rfl, fun p hp heq => .head hstep (hway p hp heq)⟩

include hnodes in
theorem acyclic_links_iff :
    Acyclic (Dep nodes (links key parent rows)) ↔ Acyclic (Parent key parent rows) := by
  constructor
  · exact fun h r hcycle => h (key r) (hcycle.lift key fun _ _ => dep_of_parent hnodes)
  · intro h a hcycle
    obtain ⟨r, hr, rfl, hway⟩ := exists_way_of_dep hcycle
    exact h r (hway r hr rfl)

variable {find : κ → Option ρ} (hfind : ∀ k r, find k = some r → r ∈ rows ∧ key r = k)
  (hfound : ∀ r ∈ rows, find (key r) ≠ none)

include hfind hfound in
theorem map_key_filterMap {l : List κ} (hl : ∀ k ∈ l, k ∈ rows.map key) :
    (l.filterMap find).map key = l := by
  induction l with
  | nil => rfl
  | cons k l ih =>
      obtain ⟨hk, hrest⟩ := List.forall_mem_cons.mp hl
      obtain ⟨r, hr, rfl⟩ := List.mem_map.mp hk
      obtain ⟨p, hp⟩ := Option.ne_none_iff_exists'.mp (hfound r hr)
      rw [List.filterMap_cons_some hp, List.map_cons, ih hrest, (hfind _ _ hp).2]

end

section
variable {ρ : Type} {rows : List ρ} {key : ρ → κ} {parent : ρ → Option κ} {nodes : List κ}
  {find : κ → Option ρ} (honce : nodes.Nodup) (hnodes : ∀ k, k ∈ nodes ↔ k ∈ rows.map key)
  (hfind : ∀ k r, find k = some r → r ∈ rows ∧ key r = k) (hfound : ∀ r ∈ rows, find (key r) ≠ none)
include honce hnodes hfind hfound

variable (parent) in
/-- The keys of the rows that are taken. -/
theorem map_key_topo : ((topo nodes (links key parent rows)).filterMap find).map key =
    topo nodes (links key parent rows) := by
  refine map_key_filterMap hfind hfound fun k hk => ?_
  exact (hnodes k).mp ((mem_topo_iff honce (snd_mem_of_links parent hnodes)).mp hk).1

theorem nodup_of_filterMap_perm (h : ((topo nodes (links key parent rows)).filterMap find).Perm rows) :
    (rows.map key).Nodup := by
  have hkeys := h.map key
  rw [map_key_topo parent honce hnodes hfind hfound] at hkeys
  exact hkeys.nodup_iff.mp (nodup_topo honce (snd_mem_of_links parent hnodes))

variable (hkeys : (rows.map key).Nodup)
include hkeys

theorem filterMap_topo_perm (hacyclic : Acyclic (Parent key parent rows)) :
    ((topo nodes (links key parent rows)).filterMap find).Perm rows := by
  have hedges := snd_mem_of_links parent hnodes
  have hmap := map_key_topo parent honce hnodes hfind hfound
  have hall := (topo_perm_iff honce hedges).mpr ((acyclic_links_iff hnodes).mpr hacyclic)
  have honce' : ((topo nodes (links key parent rows)).filterMap find).Nodup := by
    refine List.Nodup.of_map key ?_
    rw [hmap]
    exact nodup_topo honce hedges
  refine (List.perm_ext_iff_of_nodup honce' hkeys.of_map).mpr fun r => ?_
  constructor
  · intro hr
    obtain ⟨k, -, hk⟩ := List.mem_filterMap.mp hr
    exact (hfind _ _ hk).1
  · intro hr
    obtain ⟨p, hp⟩ := Option.ne_none_iff_exists'.mp (hfound r hr)
    obtain rfl := List.inj_on_of_nodup_map hkeys (hfind _ _ hp).1 hr (hfind _ _ hp).2
    refine List.mem_filterMap.mpr ⟨_, hall.mem_iff.mpr ((hnodes _).mpr (List.mem_map_of_mem hr)), hp⟩

/-- The parent row comes first. -/
theorem mem_before_of_filterMap {before after : List ρ} {r p : ρ}
    (h : (topo nodes (links key parent rows)).filterMap find = before ++ r :: after)
    (hparent : Parent key parent rows r p) : p ∈ before := by
  have hmap := map_key_topo parent honce hnodes hfind hfound
  rw [h, List.map_append, List.map_cons] at hmap
  have hbefore := mem_before_of_topo honce (snd_mem_of_links parent hnodes) hmap.symm
    (dep_of_parent hnodes hparent)
  obtain ⟨q, hq, heq⟩ := List.mem_map.mp hbefore
  have hrow : q ∈ rows := by
    have hmem : q ∈ (topo nodes (links key parent rows)).filterMap find := by
      rw [h]
      exact List.mem_append_left _ hq
    obtain ⟨k, -, hk⟩ := List.mem_filterMap.mp hmem
    exact (hfind _ _ hk).1
  exact List.inj_on_of_nodup_map hkeys hrow hparent.2.1 heq ▸ hq

/-- A row without a parent row comes first, if its key does. -/
theorem filterMap_topo_cons {r : ρ} {rest : List κ} (hr : r ∈ rows) (hfirst : nodes = key r :: rest)
    (hnone : ∀ p, ¬ Parent key parent rows r p) :
    ∃ l, (topo nodes (links key parent rows)).filterMap find = r :: l := by
  obtain ⟨p, hp⟩ := Option.ne_none_iff_exists'.mp (hfound r hr)
  obtain rfl := List.inj_on_of_nodup_map hkeys (hfind _ _ hp).1 hr (hfind _ _ hp).2
  have hdep : ∀ a, ¬ Dep nodes (links key parent rows) (key p) a := by
    rintro a ⟨hlink, ha⟩
    obtain ⟨q, hq, hparent, heq⟩ := mem_links.mp hlink
    obtain rfl := List.inj_on_of_nodup_map hkeys hq hr heq
    obtain ⟨s, hs, rfl⟩ := List.mem_map.mp ((hnodes a).mp ha)
    exact hnone s ⟨hr, hs, hparent⟩
  subst hfirst
  obtain ⟨l, hl⟩ := topo_cons hdep
  exact ⟨_, by rw [hl, List.filterMap_cons_some hp]⟩

end

/-! ### Sorted rows -/

section
variable {ρ : Type} {rows : List ρ} {key : ρ → κ} {parent : ρ → Option κ} {nodes : List κ}
  {find : κ → Option ρ}

/-- The rows of the nodes in their order, unless some are not taken. -/
def sort_rows (nodes : List κ) (edges : List (κ × κ)) (find : κ → Option ρ) : Option (List ρ) :=
  if (topo nodes edges).length ≠ nodes.length then none else some ((topo nodes edges).filterMap find)

theorem sort_rows_eq_none_iff (honce : nodes.Nodup) (hnodes : ∀ k, k ∈ nodes ↔ k ∈ rows.map key) :
    sort_rows nodes (links key parent rows) find = none ↔ ¬ Acyclic (Parent key parent rows) := by
  have hlength := length_topo_iff honce (snd_mem_of_links parent hnodes)
  rw [sort_rows, ← acyclic_links_iff hnodes, ← hlength]
  split
  · next hcycle => exact iff_of_true rfl hcycle
  · next hall => exact iff_of_false (Option.some_ne_none _) hall

theorem sort_rows_of_acyclic (honce : nodes.Nodup) (hnodes : ∀ k, k ∈ nodes ↔ k ∈ rows.map key)
    (hacyclic : Acyclic (Parent key parent rows)) :
    sort_rows nodes (links key parent rows) find =
      some ((topo nodes (links key parent rows)).filterMap find) := by
  have hlength := length_topo_iff honce (snd_mem_of_links parent hnodes)
  rw [acyclic_links_iff hnodes] at hlength
  rw [sort_rows, if_neg (not_not.mpr (hlength.mpr hacyclic))]

/-- **The rows are sorted**, if their keys differ and there is no cycle. -/
theorem sort_rows_spec (honce : nodes.Nodup) (hnodes : ∀ k, k ∈ nodes ↔ k ∈ rows.map key)
    (hfind : ∀ k r, find k = some r → r ∈ rows ∧ key r = k) (hfound : ∀ r ∈ rows, find (key r) ≠ none)
    (hkeys : (rows.map key).Nodup) (hacyclic : Acyclic (Parent key parent rows)) :
    ∃ l, sort_rows nodes (links key parent rows) find = some l ∧ l.Perm rows ∧
      ∀ before r after, l = before ++ r :: after → ∀ p, Parent key parent rows r p → p ∈ before := by
  refine ⟨_, sort_rows_of_acyclic honce hnodes hacyclic, ?_, fun before r after hsplit p hparent => ?_⟩
  · exact filterMap_topo_perm honce hnodes hfind hfound hkeys hacyclic
  · exact mem_before_of_filterMap honce hnodes hfind hfound hkeys hsplit hparent

end

end InfraHub.Lib.Topo
