import WordCycle.Proofs.Candidate.Store

/-! Rankings: any two candidates of a ranking stand in its order, and where the order allows either to
be first, the one found last is. This holds whatever "found last" means, as long as the candidates
are put into the ranking as they were found. -/

namespace WordCycle
set_option autoImplicit false

/-! ## The order of a ranking -/

theorem SortOrder.allows_total (order : SortOrder) (a b : Candidate) :
    order.allows a b = true ∨ order.allows b a = true := by
  cases order with
  | alphabetical =>
    have h := Text.isBefore_total a.text b.text
    rwa [Bool.or_eq_true] at h
  | byDistance =>
    simp only [allows, decide_eq_true_eq]
    omega

theorem SortOrder.allows_trans (order : SortOrder) {a b c : Candidate}
    (hab : order.allows a b = true) (hbc : order.allows b c = true) : order.allows a c = true := by
  cases order with
  | alphabetical => exact Text.isBefore_trans _ _ _ hab hbc
  | byDistance =>
    simp only [allows, decide_eq_true_eq] at hab hbc ⊢
    omega

namespace Candidate
variable {order : SortOrder} {ignoreKinds : Bool}

theorem mayPrecede_iff (order : SortOrder) (ignoreKinds : Bool) (a b : Candidate) :
    a.mayPrecede order ignoreKinds b = true ↔
      if ignoreKinds = true ∨ a.kind = b.kind then order.allows a b = true else a.kind = .exact := by
  unfold mayPrecede
  simp only [Bool.or_eq_true, decide_eq_true_eq]
  split
  · rfl
  · rw [decide_eq_true_eq]

theorem mayPrecede_total (a b : Candidate) :
    a.mayPrecede order ignoreKinds b = true ∨ b.mayPrecede order ignoreKinds a = true := by
  rw [mayPrecede_iff, mayPrecede_iff]
  have htotal := order.allows_total a b
  by_cases h : ignoreKinds = true ∨ a.kind = b.kind
  · rwa [if_pos h, if_pos (h.imp_right Eq.symm)]
  · rw [if_neg h, if_neg (fun h' => h (h'.imp_right Eq.symm))]
    rw [not_or] at h
    cases ha : a.kind with
    | exact => exact Or.inl rfl
    | fuzzy =>
      cases hb : b.kind with
      | exact => exact Or.inr rfl
      | fuzzy => exact absurd (ha.trans hb.symm) h.2

theorem mayPrecede_trans {a b c : Candidate} (hab : a.mayPrecede order ignoreKinds b = true)
    (hbc : b.mayPrecede order ignoreKinds c = true) : a.mayPrecede order ignoreKinds c = true := by
  rw [mayPrecede_iff] at hab hbc ⊢
  have htrans := order.allows_trans (a := a) (b := b) (c := c)
  -- The kinds and the switch decide which conditions are left; the order is transitive itself.
  cases ha : a.kind <;> cases hb : b.kind <;> cases hc : c.kind <;> cases ignoreKinds <;>
    simp_all

/-- How a ranking lists two candidates: its order lets the first stand before the second, and only
if the first was found later does it allow the reverse as well. -/
def Outranks (order : SortOrder) (ignoreKinds : Bool) (later : Candidate → Candidate → Prop)
    (a b : Candidate) : Prop :=
  a.mayPrecede order ignoreKinds b = true ∧ (b.mayPrecede order ignoreKinds a = true → later a b)

/-! ## Putting candidates into a ranking -/

theorem insertRanked_pairwise {later : Candidate → Candidate → Prop} {c : Candidate}
    {ranking : List Candidate} (h : ranking.Pairwise (Outranks order ignoreKinds later))
    (hlater : ∀ d ∈ ranking, later c d) :
    (c.insertRanked order ignoreKinds ranking).Pairwise (Outranks order ignoreKinds later) := by
  induction ranking with
  | nil => exact List.pairwise_singleton _ c
  | cons d rest ih =>
    obtain ⟨hd, hrest⟩ := List.pairwise_cons.mp h
    rw [insertRanked]
    split
    · next hbefore =>
      -- The new candidate may precede `d`, and so all that `d` may precede.
      refine List.pairwise_cons.mpr ⟨?_, h⟩
      intro e he
      refine ⟨?_, fun _ => hlater e he⟩
      rcases List.mem_cons.mp he with rfl | he
      · exact hbefore
      · exact mayPrecede_trans hbefore (hd e he).1
    · next hbehind =>
      have hrest' := ih hrest fun e he => hlater e (List.mem_cons_of_mem d he)
      refine List.pairwise_cons.mpr ⟨?_, hrest'⟩
      intro e he
      rcases List.mem_cons.mp ((insertRanked_perm order ignoreKinds c rest).mem_iff.mp he) with
        rfl | he
      · have hfirst := (mayPrecede_total d e).resolve_right hbehind
        exact ⟨hfirst, fun hback => absurd hback hbehind⟩
      · exact hd e he

theorem foldl_insertRanked_pairwise {later : Candidate → Candidate → Prop}
    (found ranking : List Candidate) (hfound : found.Pairwise fun a b => later b a)
    (hranking : ranking.Pairwise (Outranks order ignoreKinds later))
    (hlater : ∀ c ∈ found, ∀ d ∈ ranking, later c d) :
    (found.foldl (fun r c => c.insertRanked order ignoreKinds r) ranking).Pairwise
      (Outranks order ignoreKinds later) := by
  induction found generalizing ranking with
  | nil => exact hranking
  | cons c found ih =>
    obtain ⟨hc, hfound⟩ := List.pairwise_cons.mp hfound
    rw [List.foldl_cons]
    refine ih _ hfound (insertRanked_pairwise hranking (hlater c List.mem_cons_self)) ?_
    intro d hd e he
    rcases List.mem_cons.mp ((insertRanked_perm order ignoreKinds c ranking).mem_iff.mp he) with
      rfl | he
    · exact hc d hd
    · exact hlater d (List.mem_cons_of_mem c hd) e he

theorem ranked_pairwise (order : SortOrder) (ignoreKinds : Bool)
    (later : Candidate → Candidate → Prop) {found : List Candidate}
    (h : found.Pairwise fun a b => later b a) :
    (ranked order ignoreKinds found).Pairwise (Outranks order ignoreKinds later) :=
  foldl_insertRanked_pairwise found [] h List.Pairwise.nil (by simp)

end Candidate

/-! ## Kinds -/

/-- If no candidate that passes a test stands behind one that fails it, those that pass come first. -/
theorem eq_filter_append_filter {α : Type} (p : α → Bool) (l : List α)
    (h : l.Pairwise fun a b => p b = true → p a = true) :
    l = l.filter p ++ l.filter (fun a => !p a) := by
  induction l with
  | nil => rfl
  | cons a l ih =>
    obtain ⟨ha, hl⟩ := List.pairwise_cons.mp h
    by_cases hp : p a = true
    · rw [List.filter_cons_of_pos hp, List.filter_cons_of_neg (by simp [hp]), List.cons_append,
        ← ih hl]
    · have hnone : l.filter p = [] := by
        rw [List.filter_eq_nil_iff]
        exact fun b hb hpb => hp (ha b hb hpb)
      have hall : l.filter (fun a => !p a) = l := by
        rw [List.filter_eq_self]
        intro b hb
        rw [List.filter_eq_nil_iff] at hnone
        simpa using hnone b hb
      rw [List.filter_cons_of_neg hp, hnone, List.filter_cons_of_pos (by simp [hp]), hall,
        List.nil_append]

end WordCycle
