import Mathlib.Data.List.Sort
import Mathlib.Data.Prod.Lex

/-!
# Library — Redis

The sets of Redis, and its sorted sets, whose members stand in the order of their scores, and in
their own order where the scores are equal.

* `mem_sadd`, `mem_srem`, `mem_zadd`, `mem_zrem`: what the commands add and remove.
* `zrank_any`: which members have a rank that is not zero.
-/

namespace InfraHub.Lib.Redis

variable {α S : Type}

/-! ### Sets -/

/-- A set: its members, in an order that means nothing. -/
structure MemberSet (α : Type) where
  smembers : List α
  nodup : smembers.Nodup

namespace MemberSet

variable [DecidableEq α]

def empty : MemberSet α := ⟨[], List.nodup_nil⟩

def insert (s : MemberSet α) (x : α) : MemberSet α := ⟨s.smembers.insert x, s.nodup.insert⟩

def sadd (s : MemberSet α) (values : List α) : MemberSet α := values.foldl insert s

def srem (s : MemberSet α) (x : α) : MemberSet α :=
  ⟨s.smembers.filter (· ≠ x), s.nodup.filter _⟩

def sismember (s : MemberSet α) (x : α) : Bool := x ∈ s.smembers

def scard (s : MemberSet α) : Nat := s.smembers.length

variable {s : MemberSet α} {x y : α}

theorem mem_sadd {values : List α} :
    y ∈ (s.sadd values).smembers ↔ y ∈ s.smembers ∨ y ∈ values := by
  induction values generalizing s with
  | nil => simp [sadd]
  | cons x values ih =>
      have hinsert : y ∈ (s.insert x).smembers ↔ y = x ∨ y ∈ s.smembers := List.mem_insert_iff
      rw [sadd, List.foldl_cons, ← sadd, ih, hinsert, List.mem_cons]
      tauto

@[simp] theorem mem_srem : y ∈ (s.srem x).smembers ↔ y ∈ s.smembers ∧ y ≠ x := by
  simp [srem]

end MemberSet

/-! ### Sorted sets -/

/-- The member of an entry. -/
def member (e : S ×ₗ α) : α := (ofLex e).2

/-- A sorted set: its entries, the lowest first. -/
structure SortedSet (α S : Type) [LinearOrder α] [LinearOrder S] where
  entries : List (S ×ₗ α)
  sorted : entries.Pairwise (· ≤ ·)
  nodup : (entries.map member).Nodup

namespace SortedSet

variable [LinearOrder α] [LinearOrder S]

def empty : SortedSet α S := ⟨[], .nil, List.nodup_nil⟩

/-- The members, the lowest first. -/
def members (z : SortedSet α S) : List α := z.entries.map member

def zrem (z : SortedSet α S) (x : α) : SortedSet α S where
  entries := z.entries.filter (member · ≠ x)
  sorted := z.sorted.filter _
  nodup := z.nodup.sublist (List.filter_sublist.map _)

variable {z : SortedSet α S} {x y : α}

@[simp] theorem mem_zrem : y ∈ (z.zrem x).members ↔ y ∈ z.members ∧ y ≠ x := by
  simp only [members, zrem, List.mem_map, List.mem_filter, decide_eq_true_eq]
  constructor
  · rintro ⟨e, ⟨he, hne⟩, rfl⟩
    exact ⟨⟨e, he, rfl⟩, hne⟩
  · rintro ⟨⟨e, he, rfl⟩, hne⟩
    exact ⟨e, ⟨he, hne⟩, rfl⟩

/-- A member has one score, the last that it was given. -/
def insert (z : SortedSet α S) (x : α) (score : S) : SortedSet α S where
  entries := (z.zrem x).entries.orderedInsert (· ≤ ·) (toLex (score, x))
  sorted := (z.zrem x).sorted.orderedInsert _ _
  nodup := by
    have hperm := (List.perm_orderedInsert (· ≤ ·) (toLex (score, x)) (z.zrem x).entries).map member
    refine hperm.nodup_iff.mpr (List.nodup_cons.mpr ⟨fun hmem => ?_, (z.zrem x).nodup⟩)
    exact (mem_zrem.mp hmem).2 rfl

def zadd (z : SortedSet α S) (items : List (α × S)) : SortedSet α S :=
  items.foldl (fun z item => z.insert item.1 item.2) z

def zcard (z : SortedSet α S) : Nat := z.entries.length

/-- How many members are lower. -/
def zrank (z : SortedSet α S) (x : α) : Option Nat := z.entries.findIdx? (member · = x)

/-- The member of rank zero. -/
def lowest (z : SortedSet α S) : Option α := z.members.head?

theorem mem_insert {score : S} : y ∈ (z.insert x score).members ↔ y = x ∨ y ∈ z.members := by
  have hperm := (List.perm_orderedInsert (· ≤ ·) (toLex (score, x)) (z.zrem x).entries).map member
  have hmem : y ∈ (z.insert x score).members ↔ y = x ∨ y ∈ (z.zrem x).members :=
    hperm.mem_iff.trans List.mem_cons
  rw [hmem, mem_zrem]
  tauto

theorem mem_zadd {items : List (α × S)} :
    y ∈ (z.zadd items).members ↔ y ∈ z.members ∨ y ∈ items.map Prod.fst := by
  induction items generalizing z with
  | nil => simp [zadd]
  | cons item items ih =>
      rw [zadd, List.foldl_cons, ← zadd, ih, mem_insert, List.map_cons, List.mem_cons]
      tauto

/-- The rank of every member but the lowest is not zero. -/
theorem zrank_any :
    (z.zrank x).any (· ≠ 0) = (decide (x ∈ z.members) && decide (z.lowest ≠ some x)) := by
  rw [zrank, lowest, members]
  cases z.entries with
  | nil => simp
  | cons e entries =>
      by_cases hx : member e = x
      · simp [List.findIdx?_cons, hx]
      · have hne : x ≠ member e := Ne.symm hx
        rw [List.findIdx?_cons, decide_eq_false hx]
        cases h : entries.findIdx? (member · = x) with
        | none =>
            have hnone : x ∉ entries.map member := by
              simpa [List.findIdx?_eq_none_iff] using h
            simp [hne, hnone]
        | some n =>
            have hsome : (entries.findIdx? (member · = x)).isSome := by rw [h]; rfl
            have hmem : x ∈ entries.map member := by
              simpa [List.findIdx?_isSome] using hsome
            simp [hmem, hx]

end SortedSet

end InfraHub.Lib.Redis
