import InfraHub.Permission.Route

/-!
# Permission — Detail

The failing inputs of the lookup as a kind: in every viewset, a grant of the detail route opens every
list-level action of the same method.

The routes of an action and of the details are `base/name$` and `base/(?P<pk>[^/.]+)$`, and the name
of an action has no slash and no dot, so the second pattern matches the path of the first.
-/

namespace InfraHub.Permission
open InfraHub.Lib
open InfraHub.Lib.Regex

/-! ### Literal patterns -/

/-- The characters that stand for themselves. -/
def IsLiteral (c : Char) : Prop :=
  c ∉ ['(', ')', '|', '*', '+', '?', '.', '$', '\\', '[', '^', '{']

instance (c : Char) : Decidable (IsLiteral c) := inferInstanceAs (Decidable (_ ∉ _))

theorem readItem_lit {c : Char} (hc : IsLiteral c) (q : Bool) (f : Frame) (fs : List Frame) :
    readItem q (f :: fs) c = some (.items true, f.push (lit c) :: fs) := by
  simp only [IsLiteral, List.mem_cons, List.not_mem_nil, not_or] at hc
  unfold readItem
  split <;> simp_all

/-- Literal characters are read as they are. -/
theorem foldlM_lits {cs : List Char} (h : ∀ c ∈ cs, IsLiteral c) (q : Bool) (items : List Regex) :
    ∃ q', cs.foldlM readChar (.items q, [⟨[], items⟩]) =
      some (.items q', [⟨[], (cs.map lit).reverse ++ items⟩]) := by
  induction cs generalizing q items with
  | nil => exact ⟨q, rfl⟩
  | cons c cs ih =>
      obtain ⟨q', hq⟩ := ih (fun d hd => h d (List.mem_cons_of_mem c hd)) true (lit c :: items)
      refine ⟨q', ?_⟩
      have hc : readChar (.items q, [⟨[], items⟩]) c = some (.items true, [⟨[], lit c :: items⟩]) :=
        readItem_lit (h c (by simp)) q _ _
      rw [List.foldlM_cons, hc]
      simpa using hq

theorem dropCaret_of_literal {c : Char} (hc : IsLiteral c) (cs : List Char) :
    dropCaret (c :: cs) = c :: cs := by
  unfold dropCaret
  split
  · next h =>
    cases h
    exact absurd hc (by decide)
  · rfl

theorem current_eq_foldr (alts items : List Regex) :
    Frame.current ⟨alts, items⟩ = items.reverse.foldr .seq .eps := by
  rw [List.foldr_reverse]
  rfl

/-- A pattern that begins with literal characters. -/
theorem parse_lits {c : Char} {cs : List Char} {q : Bool} (h : ∀ d ∈ c :: cs, IsLiteral d)
    (rest : List Char) (items : List Regex)
    (hrest : ∀ q' items', rest.foldlM readChar (.items q', [⟨[], items'⟩]) =
      some (.items q, [⟨[], items ++ items'⟩])) :
    parse (c :: cs ++ rest) = some (((c :: cs).map lit ++ items.reverse).foldr .seq .eps) := by
  obtain ⟨q', hq⟩ := foldlM_lits h false []
  rw [parse, List.cons_append, dropCaret_of_literal (h c (by simp)), ← List.cons_append,
    List.foldlM_append, Frame.empty, hq]
  simp only [Option.bind_eq_bind, Option.bind_some, hrest, Frame.close, List.foldr_nil,
    current_eq_foldr]
  simp

/-! ### What the two patterns match -/

theorem consumes_lits {ds t : List Char} {rs : List Regex} (cs : List Char)
    (h : Consumes (rs.foldr .seq .eps) ds t) :
    Consumes ((cs.map lit ++ rs).foldr .seq .eps) (cs ++ ds) t := by
  induction cs with
  | nil => exact h
  | cons c cs ih => exact .seq (.set (by simp [admits])) ih

theorem consumes_star_set {negated : Bool} {ranges : List (Char × Char)} {cs : List Char}
    (h : ∀ c ∈ cs, admits negated ranges c = true) : Consumes (.star (.set negated ranges)) cs [] := by
  induction cs with
  | nil => exact .stop []
  | cons c cs ih =>
      exact .more (.set (h c (by simp))) (ih fun d hd => h d (List.mem_cons_of_mem c hd))

/-- `[^/.]`. -/
def segment : Regex := .set true [('.', '.'), ('/', '/')]

theorem admits_segment {c : Char} (h : c ≠ '/' ∧ c ≠ '.') :
    admits true [('.', '.'), ('/', '/')] c = true := by
  simp only [admits, List.any_cons, List.any_nil, between_self]
  simp [h.1, h.2]

/-- `(?P<pk>[^/.]+)$`, as the reader leaves it. -/
def pkItems : List Regex := [lit '/', .seq (.plus segment) .eps, .eol]

theorem consumes_pkItems {name : List Char} (hne : name ≠ [])
    (hname : ∀ c ∈ name, c ≠ '/' ∧ c ≠ '.') :
    Consumes (pkItems.foldr .seq .eps) ('/' :: name) [] := by
  obtain ⟨c, cs, rfl⟩ := List.exists_cons_of_ne_nil hne
  have hadmits : ∀ d ∈ c :: cs, admits true [('.', '.'), ('/', '/')] d = true :=
    fun d hd => admits_segment (hname d hd)
  have hplus : Consumes (.plus segment) (c :: cs) [] :=
    .seq (.set (hadmits c (by simp)))
      (consumes_star_set fun d hd => hadmits d (List.mem_cons_of_mem c hd))
  exact .seq (.set (by decide)) (.seq (.seq hplus (.eps [])) (.seq (.eol rfl) (.eps [])))

/-! ### The two routes -/

variable {base name : List Char}

def actionPath (base name : List Char) : String := String.ofList (base ++ '/' :: name ++ ['$'])

def detailPath (base : List Char) : String := String.ofList (base ++ "/(?P<pk>[^/.]+)$".toList)

def actionUrl (base name : List Char) : String := String.ofList ('/' :: (base ++ '/' :: name))

theorem isLiteral_slash : IsLiteral '/' := by decide

/-- The pattern of the action matches its path. -/
theorem fullmatch_action (hbase : ∀ c ∈ base, IsLiteral c) (hname : ∀ c ∈ name, IsLiteral c) :
    pythonRe.fullmatch (actionPath base name) (tail (actionUrl base name)) = true := by
  have hlit : ∀ c ∈ base ++ '/' :: name, IsLiteral c := by
    intro c hc
    rcases List.mem_append.mp hc with hc | hc
    · exact hbase c hc
    · rcases List.mem_cons.mp hc with rfl | hc
      · exact isLiteral_slash
      · exact hname c hc
  obtain ⟨c, cs, hcs⟩ := List.exists_cons_of_ne_nil (l := base ++ '/' :: name) (by simp)
  have hparse : parse (actionPath base name).toList =
      some (((c :: cs).map lit ++ [Regex.eol]).foldr .seq .eps) := by
    rw [actionPath, String.toList_ofList, hcs]
    exact parse_lits (hcs ▸ hlit) ['$'] [.eol] fun q' items' => rfl
  have hend : Consumes ([Regex.eol].foldr .seq .eps) [] [] := .seq (.eol rfl) (.eps [])
  simp only [pythonRe, hparse, Option.any_some, tail, actionUrl, String.toList_ofList,
    List.drop_succ_cons, List.drop_zero, hcs, fullmatch_iff]
  simpa using consumes_lits (c :: cs) hend

/-- The pattern of the details matches it too. -/
theorem re_match_detail (hbase : ∀ c ∈ base, IsLiteral c) (hne : name ≠ [])
    (hname : ∀ c ∈ name, c ≠ '/' ∧ c ≠ '.') :
    pythonRe.re_match ("/" ++ detailPath base) (actionUrl base name) = .ok true := by
  have hlit : ∀ c ∈ '/' :: base, IsLiteral c := by
    intro c hc
    rcases List.mem_cons.mp hc with rfl | hc
    · exact isLiteral_slash
    · exact hbase c hc
  have hparse : parse ("/" ++ detailPath base).toList = some
      ((('/' :: base).map lit ++ pkItems).foldr .seq .eps) := by
    have : ("/" ++ detailPath base).toList = '/' :: base ++ "/(?P<pk>[^/.]+)$".toList := by
      simp [detailPath, String.toList_append, show "/".toList = ['/'] from rfl]
    rw [this]
    exact parse_lits hlit _ pkItems.reverse fun q' items' => rfl
  have hmatch : match_start ((('/' :: base).map lit ++ pkItems).foldr .seq .eps)
      (actionUrl base name).toList = true := by
    rw [match_start_iff, actionUrl, String.toList_ofList]
    exact ⟨[], consumes_lits ('/' :: base) (consumes_pkItems hne hname)⟩
  simp only [pythonRe, hparse, hmatch]

theorem tail_actionUrl (base name : List Char) :
    tail (actionUrl base name) ++ "$" = actionPath base name := by
  apply String.toList_inj.mp
  simp [tail, actionUrl, actionPath, String.toList_append, show "$".toList = ['$'] from rfl]

/-- **A grant of the details opens every action** of the viewset that is not granted itself. -/
theorem detail_opens_action {G : Grants} {method view : String} {routes : List Route}
    (hbase : ∀ c ∈ base, IsLiteral c) (hne : name ≠ [])
    (hname : ∀ c ∈ name, IsLiteral c ∧ c ≠ '/') (hdetail : G.Has method (detailPath base))
    (haction : ¬ G.Has method (actionPath base name)) :
    ¬ OpensOnlyOwn pythonRe G (⟨actionPath base name, view⟩ :: routes) method
      (actionUrl base name) := by
  intro h
  have hroute : dispatch pythonRe (⟨actionPath base name, view⟩ :: routes) (actionUrl base name) =
      some ⟨actionPath base name, view⟩ :=
    List.find?_cons_of_pos (fullmatch_action hbase fun c hc => (hname c hc).1)
  obtain ⟨-, hscan⟩ := matches_of_opens h _ hroute
  rw [tail_actionUrl] at hscan
  have hdot : ¬ IsLiteral '.' := by decide
  have hpath : detailPath base = actionPath base name :=
    hscan haction _ hdetail (re_match_detail hbase hne fun c hc =>
    ⟨(hname c hc).2, fun e => hdot (e ▸ (hname c hc).1)⟩)
  exact haction (hpath ▸ hdetail)

end InfraHub.Permission
