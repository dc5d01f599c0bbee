import Mathlib.Data.Finset.Card
import Mathlib.Data.List.Count
import Mathlib.Logic.Relation

/-!
# Library — Forest

Relations without cycles, of which `R a b` says that `a` hangs directly under `b`.

* `height R l a` counts what is reached from `a` among the nodes `l`.  It falls along a step
  (`height_lt`), so that a search from `a` ends.
* `rehang R t p` hangs the node `t` under `p`, or nowhere.  It stays acyclic exactly if `p` is
  neither `t` nor below it (`acyclic_rehang`).
* `Listing children roots l`: the nodes of the finite forest that hangs under `roots`, each with those
  below it after it.  Without cycles there is a listing (`exists_listing`).  Where every node has one
  parent, a node is listed once for each root that it is, or hangs below (`Listing.count_eq`), and
  the listing from the top has every node once (`Listing.perm`).
* `hung`: the rows that hang under a key; `exists_listing_rows`: they make such a forest.
-/

namespace InfraHub.Lib
open Relation (TransGen ReflTransGen)

variable {κ : Type*} {R : κ → κ → Prop}

def Acyclic (R : κ → κ → Prop) : Prop := ∀ a, ¬ TransGen R a a

theorem acyclic_swap : Acyclic (Function.swap R) ↔ Acyclic R := by
  simp only [Acyclic, Relation.transGen_swap]

/-- A relation along which a number falls has no cycle. -/
theorem acyclic_of_lt (rank : κ → Nat) (h : ∀ a b, R a b → rank b < rank a) : Acyclic R := by
  have hfall {a b : κ} (hab : TransGen R a b) : rank b < rank a := by
    induction hab with
    | single hab => exact h _ _ hab
    | tail _ hbc ih => exact (h _ _ hbc).trans ih
  exact fun a hcycle => lt_irrefl _ (hfall hcycle)

/-! ### Searches end -/

section
variable (R) (l : List κ)

open Classical in
/-- How much of `l` is reached from `a`. -/
noncomputable def height (a : κ) : Nat := (l.toFinset.filter (TransGen R a)).card

variable {R l}

theorem height_le (a : κ) : height R l a ≤ l.length := by
  classical
  exact (Finset.card_filter_le _ _).trans l.toFinset_card_le

theorem height_lt (h : Acyclic R) {a b : κ} (hab : R a b) (hb : b ∈ l) :
    height R l b < height R l a := by
  classical
  have hsubset : l.toFinset.filter (TransGen R b) ⊆ l.toFinset.filter (TransGen R a) := by
    intro c hc
    obtain ⟨hl, hreach⟩ := Finset.mem_filter.mp hc
    exact Finset.mem_filter.mpr ⟨hl, .head hab hreach⟩
  have hnew : b ∈ l.toFinset.filter (TransGen R a) ∧ b ∉ l.toFinset.filter (TransGen R b) := by
    constructor
    · exact Finset.mem_filter.mpr ⟨List.mem_toFinset.mpr hb, .single hab⟩
    · exact fun hself => h b (Finset.mem_filter.mp hself).2
  unfold height
  convert Finset.card_lt_card ((Finset.ssubset_iff_of_subset hsubset).mpr ⟨b, hnew⟩)

end

/-! ### A node that is moved -/

/-- The node `t` hangs under `p`, or nowhere. -/
def rehang (R : κ → κ → Prop) (t : κ) (p : Option κ) (a b : κ) : Prop :=
  a = t ∧ p = some b ∨ a ≠ t ∧ R a b

/-- The way up to `t` does not use what hangs above `t`. -/
theorem reflTransGen_rehang {t : κ} {p : Option κ} {b : κ} (h : ReflTransGen R b t) :
    ReflTransGen (rehang R t p) b t := by
  induction h using ReflTransGen.head_induction_on with
  | refl => exact .refl
  | @head a c hac _ ih =>
      by_cases hat : a = t
      · rw [hat]
      · exact .head (.inr ⟨hat, hac⟩) ih

/-- A way through the new step goes up to `t` first. -/
theorem transGen_of_rehang {t : κ} {p : Option κ} {a c : κ} (h : TransGen (rehang R t p) a c) :
    TransGen R a c ∨ ReflTransGen R a t ∧ ∃ b, p = some b ∧ ReflTransGen R b c := by
  induction h with
  | single hstep =>
      rcases hstep with ⟨rfl, hp⟩ | ⟨-, hR⟩
      · exact .inr ⟨.refl, _, hp, .refl⟩
      · exact .inl (.single hR)
  | @tail x c _ hstep ih =>
      rcases hstep with ⟨rfl, hp⟩ | ⟨-, hR⟩
      · have hup : ReflTransGen R a x := ih.elim TransGen.to_reflTransGen And.left
        exact .inr ⟨hup, c, hp, .refl⟩
      · rcases ih with ih | ⟨hup, b, hb, hdown⟩
        · exact .inl (ih.tail hR)
        · exact .inr ⟨hup, b, hb, hdown.tail hR⟩

theorem not_below_of_acyclic {t : κ} {p : Option κ} (h : Acyclic (rehang R t p)) {b : κ}
    (hp : p = some b) : ¬ ReflTransGen R b t :=
  fun hb => h t (.head' (.inl ⟨rfl, hp⟩) (reflTransGen_rehang hb))

/-- **A move keeps the forest acyclic** exactly if the node does not come under itself. -/
theorem acyclic_rehang (h : Acyclic R) {t : κ} {p : Option κ} :
    Acyclic (rehang R t p) ↔ ∀ b, p = some b → ¬ ReflTransGen R b t := by
  constructor
  · exact fun hacyclic b hp => not_below_of_acyclic hacyclic hp
  · intro hbelow a hcycle
    rcases transGen_of_rehang hcycle with hR | ⟨hup, b, hb, hdown⟩
    · exact h a hR
    · exact hbelow b hb (hdown.trans hup)

/-! ### Listings -/

/-- The node `a` is among the children of `b`. -/
def Under (children : κ → List κ) (a b : κ) : Prop := a ∈ children b

inductive Listing (children : κ → List κ) : List κ → List κ → Prop where
  | nil : Listing children [] []
  | cons {a : κ} {rest below l : List κ} (hbelow : Listing children (children a) below)
      (hrest : Listing children rest l) : Listing children (a :: rest) (a :: (below ++ l))

section
variable {children : κ → List κ}

/-- **There is a listing**, if the nodes are finite and without cycles. -/
theorem exists_listing (h : Acyclic (Under children)) {nodes : List κ}
    (hnodes : ∀ a b, Under children a b → a ∈ nodes) (roots : List κ) :
    ∃ l, Listing children roots l := by
  have hlow (n : Nat) (roots : List κ)
      (hroots : ∀ r ∈ roots, height (Function.swap (Under children)) nodes r < n) :
      ∃ l, Listing children roots l := by
    induction n generalizing roots with
    | zero =>
        cases roots with
        | nil => exact ⟨_, .nil⟩
        | cons r _ => exact absurd (hroots r List.mem_cons_self) (Nat.not_lt_zero _)
    | succ n ih =>
        induction roots with
        | nil => exact ⟨_, .nil⟩
        | cons r rest ihrest =>
            obtain ⟨hr, hrest⟩ := List.forall_mem_cons.mp hroots
            obtain ⟨l, hl⟩ := ihrest hrest
            obtain ⟨below, hbelow⟩ := ih (children r) fun a ha =>
              (height_lt (acyclic_swap.mpr h) ha (hnodes a r ha)).trans_le (Nat.le_of_lt_succ hr)
            exact ⟨_, .cons hbelow hl⟩
  refine hlow (nodes.length + 1) roots fun r _ => ?_
  exact Nat.lt_succ_of_le (height_le r)

/-- The nodes above a node are in a line. -/
theorem above_total (hparent : ∀ a b c, Under children a b → Under children a c → b = c) {a b c : κ}
    (hb : ReflTransGen (Under children) a b) (hc : ReflTransGen (Under children) a c) :
    ReflTransGen (Under children) b c ∨ ReflTransGen (Under children) c b :=
  ReflTransGen.total_of_right_unique (fun _ _ _ => hparent _ _ _) hb hc

/-- One child of `a` is above what is below `a`. -/
theorem eq_of_children (h : Acyclic (Under children))
    (hparent : ∀ a b c, Under children a b → Under children a c → b = c) {a b c x : κ}
    (hb : Under children b a) (hc : Under children c a) (hxb : ReflTransGen (Under children) x b)
    (hxc : ReflTransGen (Under children) x c) : b = c := by
  -- from a child the way up goes through `a`
  have hup {b c : κ} (hb : Under children b a) (hc : Under children c a)
      (hbc : ReflTransGen (Under children) b c) : b = c := by
    rcases ReflTransGen.cases_head hbc with heq | ⟨d, hbd, hdc⟩
    · exact heq
    · cases hparent b d a hbd hb
      exact absurd (TransGen.tail' hdc hc) (h _)
  rcases above_total hparent hxb hxc with hbc | hcb
  · exact hup hb hc hbc
  · exact (hup hc hb hcb).symm

open Classical in
/-- A node is `a`, or below one child of `a`, if it is below `a` at all. -/
theorem countP_children [DecidableEq κ] (h : Acyclic (Under children))
    (hparent : ∀ a b c, Under children a b → Under children a c → b = c)
    (hnodup : ∀ a, (children a).Nodup) (a x : κ) :
    ((children a).countP fun r => ReflTransGen (Under children) x r) + (if a = x then 1 else 0) =
      if ReflTransGen (Under children) x a then 1 else 0 := by
  by_cases hxa : ReflTransGen (Under children) x a
  · rcases Relation.reflTransGen_iff_eq_or_transGen.mp hxa with rfl | hxa'
    · have hnone : ((children a).countP fun r => ReflTransGen (Under children) a r) = 0 := by
        refine List.countP_eq_zero.mpr fun c hc hac => ?_
        exact h a (TransGen.tail' (of_decide_eq_true hac) hc)
      simp [hnone, hxa]
    · obtain ⟨c, hxc, hca⟩ := TransGen.tail'_iff.mp hxa'
      have hne : a ≠ x := fun heq => h a (heq ▸ hxa')
      have hone : ((children a).countP fun r => ReflTransGen (Under children) x r) =
          (children a).count c := by
        rw [List.count_eq_countP]
        refine List.countP_congr fun b hb => ?_
        simp only [decide_eq_true_eq, beq_iff_eq]
        exact ⟨fun hxb => eq_of_children h hparent hb hca hxb hxc, fun heq => heq ▸ hxc⟩
      simp [hone, List.count_eq_one_of_mem (hnodup a) hca, hne, hxa]
  · have hnone : ((children a).countP fun r => ReflTransGen (Under children) x r) = 0 := by
      refine List.countP_eq_zero.mpr fun c hc hxc => ?_
      exact hxa (.tail (of_decide_eq_true hxc) hc)
    have hne : a ≠ x := fun heq => hxa (heq ▸ .refl)
    simp [hnone, hxa, hne]

open Classical in
/-- A node is listed once for each root that is above it, or is it. -/
theorem Listing.count_eq [DecidableEq κ] (h : Acyclic (Under children))
    (hparent : ∀ a b c, Under children a b → Under children a c → b = c)
    (hnodup : ∀ a, (children a).Nodup) {roots l : List κ} (hl : Listing children roots l) (x : κ) :
    l.count x = roots.countP fun r => ReflTransGen (Under children) x r := by
  induction hl with
  | nil => rfl
  | @cons a rest below l _ _ ihbelow ihrest =>
      simp only [List.count_cons, List.count_append, List.countP_cons, ihbelow, ihrest, beq_iff_eq,
        decide_eq_true_eq]
      rw [← countP_children h hparent hnodup a x]
      omega

/-- The way up ends at a root. -/
theorem exists_root (h : Acyclic (Under children)) {nodes : List κ}
    (hnodes : ∀ a b, Under children a b → b ∈ nodes) {a : κ} (ha : a ∈ nodes) :
    ∃ r ∈ nodes, (∀ b, ¬ Under children r b) ∧ ReflTransGen (Under children) a r := by
  have hclimb (n : Nat) (a : κ) (ha : a ∈ nodes) (hn : height (Under children) nodes a < n) :
      ∃ r ∈ nodes, (∀ b, ¬ Under children r b) ∧ ReflTransGen (Under children) a r := by
    induction n generalizing a with
    | zero => omega
    | succ n ih =>
        by_cases hroot : ∃ b, Under children a b
        · obtain ⟨b, hab⟩ := hroot
          have hb := hnodes a b hab
          obtain ⟨r, hr, htop, hbr⟩ := ih b hb ((height_lt h hab hb).trans_le (Nat.le_of_lt_succ hn))
          exact ⟨r, hr, htop, .head hab hbr⟩
        · exact ⟨a, ha, not_exists.mp hroot, .refl⟩
  exact hclimb _ a ha (Nat.lt_succ_self _)

/-- **Every node is listed once**, if the roots are the nodes without a parent. -/
theorem Listing.perm [DecidableEq κ] (h : Acyclic (Under children))
    (hparent : ∀ a b c, Under children a b → Under children a c → b = c)
    (hnodup : ∀ a, (children a).Nodup) {nodes roots l : List κ}
    (hnodes : ∀ a b, Under children a b → a ∈ nodes ∧ b ∈ nodes)
    (hroots : roots.Perm (nodes.filter fun a => ∀ b ∈ nodes, ¬ a ∈ children b)) (honce : nodes.Nodup)
    (hl : Listing children roots l) : l.Perm nodes := by
  classical
  have hmem (a : κ) : a ∈ roots ↔ a ∈ nodes ∧ ∀ b, ¬ Under children a b := by
    rw [hroots.mem_iff, List.mem_filter, decide_eq_true_eq]
    exact and_congr_right fun _ => ⟨fun hb b hab => hb b (hnodes a b hab).2 hab, fun hb b _ => hb b⟩
  refine List.perm_iff_count.mpr fun x => ?_
  rw [hl.count_eq h hparent hnodup]
  by_cases hx : x ∈ nodes
  · obtain ⟨r, hr, htop, hxr⟩ := exists_root h (fun a b hab => (hnodes a b hab).2) hx
    replace hr := (hmem r).mpr ⟨hr, htop⟩
    have hstay {a b : κ} (ha : a ∈ roots) (hab : ReflTransGen (Under children) a b) : a = b := by
      rcases ReflTransGen.cases_head hab with heq | ⟨c, hac, -⟩
      · exact heq
      · exact absurd hac (((hmem a).mp ha).2 c)
    have hone : (roots.countP fun r => ReflTransGen (Under children) x r) = roots.count r := by
      rw [List.count_eq_countP]
      refine List.countP_congr fun q hq => ?_
      simp only [decide_eq_true_eq, beq_iff_eq]
      constructor
      · intro hxq
        rcases above_total hparent hxq hxr with hqr | hrq
        · exact hstay hq hqr
        · exact (hstay hr hrq).symm
      · exact fun heq => heq ▸ hxr
    have hroots' : roots.Nodup := hroots.nodup_iff.mpr (honce.filter _)
    rw [hone, List.count_eq_one_of_mem hroots' hr, List.count_eq_one_of_mem honce hx]
  · rw [List.count_eq_zero_of_not_mem hx]
    refine List.countP_eq_zero.mpr fun r hr hxr => ?_
    rcases ReflTransGen.cases_head (of_decide_eq_true hxr) with rfl | ⟨b, hxb, -⟩
    · exact hx ((hmem x).mp hr).1
    · exact hx (hnodes x b hxb).1

end

/-! ### Rows that hang under one another -/

section
variable {ρ : Type*} [DecidableEq κ] (key : ρ → κ) (parent : ρ → Option κ) (rows : List ρ)

/-- The rows that hang under a key, in their order. -/
def hung (p : Option κ) : List κ := (rows.filter fun r => parent r = p).map key

variable {key parent rows}

theorem hung_cons_of_eq {r : ρ} {p : Option κ} (h : parent r = p) :
    hung key parent (r :: rows) p = key r :: hung key parent rows p := by
  simp [hung, h]

theorem hung_cons_of_ne {r : ρ} {p : Option κ} (h : parent r ≠ p) :
    hung key parent (r :: rows) p = hung key parent rows p := by
  simp [hung, h]

theorem mem_hung {a : κ} {p : Option κ} : a ∈ hung key parent rows p ↔ ∃ r ∈ rows, parent r = p ∧ key r = a := by
  simp [hung, and_assoc]

/-- **Rows with different keys make a forest** that has each of them once, if none is above itself. -/
theorem exists_listing_rows (honce : (rows.map key).Nodup)
    (hparent : ∀ r ∈ rows, ∀ p, parent r = some p → p ∈ rows.map key)
    (h : Acyclic (Under fun p => hung key parent rows (some p))) :
    ∃ l, Listing (fun p => hung key parent rows (some p)) (hung key parent rows none) l ∧
      l.Perm (rows.map key) := by
  have hnodes (a b : κ) (hab : Under (fun p => hung key parent rows (some p)) a b) :
      a ∈ rows.map key ∧ b ∈ rows.map key := by
    obtain ⟨r, hr, hp, rfl⟩ := mem_hung.mp hab
    exact ⟨List.mem_map_of_mem hr, hparent r hr b hp⟩
  have hunique (a b c : κ) (hb : Under (fun p => hung key parent rows (some p)) a b)
      (hc : Under (fun p => hung key parent rows (some p)) a c) : b = c := by
    obtain ⟨r, hr, hp, hkey⟩ := mem_hung.mp hb
    obtain ⟨r', hr', hp', hkey'⟩ := mem_hung.mp hc
    obtain rfl := List.inj_on_of_nodup_map honce hr hr' (hkey.trans hkey'.symm)
    exact Option.some.inj (hp.symm.trans hp')
  have hnodup (p : Option κ) : (hung key parent rows p).Nodup :=
    honce.sublist (List.filter_sublist.map key)
  have hroots : (hung key parent rows none).Perm ((rows.map key).filter fun a =>
      ∀ b ∈ rows.map key, ¬ a ∈ hung key parent rows (some b)) := by
    refine (List.perm_ext_iff_of_nodup (hnodup none) (honce.filter _)).mpr fun a => ?_
    rw [List.mem_filter, decide_eq_true_eq]
    constructor
    · intro ha
      obtain ⟨r, hr, hp, rfl⟩ := mem_hung.mp ha
      refine ⟨List.mem_map_of_mem hr, fun b _ hb => ?_⟩
      obtain ⟨r', hr', hp', hkey⟩ := mem_hung.mp hb
      obtain rfl := List.inj_on_of_nodup_map honce hr' hr hkey
      rw [hp] at hp'
      cases hp'
    · rintro ⟨ha, hnone⟩
      obtain ⟨r, hr, rfl⟩ := List.mem_map.mp ha
      cases hp : parent r with
      | none => exact mem_hung.mpr ⟨r, hr, hp, rfl⟩
      | some p => exact absurd (mem_hung.mpr ⟨r, hr, hp, rfl⟩) (hnone p (hparent r hr p hp))
  obtain ⟨l, hl⟩ := exists_listing h (fun a b hab => (hnodes a b hab).1) (hung key parent rows none)
  exact ⟨l, hl, hl.perm h hunique (fun p => hnodup (some p)) hnodes hroots honce⟩

end

end InfraHub.Lib
