import TestAccess.Source.Outline

/-!
# Nothing is lost between what is taken and what is left

A reader takes a run from the front of some pieces and hands on the rest. That
the two make up the pieces again is what everything about places rests on: a
piece that a reader dropped or repeated would end up in no part, or in two.
`Splits` says it of a reader, and this module proves it of each of them, from
`takeRun_append` for those that are a run with a state.
-/

namespace TestAccess.Source

/-- **A reader splits pieces**: what it takes and what it leaves are the pieces
again. -/
def Splits (take : List Piece → List Piece × List Piece) : Prop :=
  ∀ ps, (take ps).1 ++ (take ps).2 = ps

theorem append_of_eq {halves : List Piece × List Piece} {ps taken rest : List Piece}
    (h : halves.1 ++ halves.2 = ps) (heq : halves = (taken, rest)) : taken ++ rest = ps := by
  subst heq
  exact h

namespace Splits

variable {take : List Piece → List Piece × List Piece}

theorem eq (h : Splits take) {ps taken rest : List Piece} (heq : take ps = (taken, rest)) :
    taken ++ rest = ps :=
  append_of_eq (h ps) heq

/-- A reader that is only used on a condition. -/
theorem ifNot (h : Splits take) (c : Prop) [Decidable c] :
    Splits fun ps => if c then ([], ps) else take ps := by
  intro ps
  dsimp only
  split
  · rfl
  · exact h ps

end Splits

theorem splits_takeRun {σ : Type} (next : σ → Piece → List Piece → Option σ) (state : σ) :
    Splits (takeRun next state) :=
  takeRun_append next state

/-! ## Attributes and modifiers -/

theorem splits_takeAngles : Splits takeAngles := splits_takeRun _ _

theorem splits_takeAttribute : Splits takeAttribute := splits_takeRun _ _

/-- An attribute begins with its sign. -/
theorem isSymbol_of_takeAttribute {ps taken rest : List Piece} {p : Piece}
    (h : takeAttribute ps = (p :: taken, rest)) : p.isSymbol '@' = true := by
  cases ps with
  | nil => simp [takeAttribute, takeRun] at h
  | cons q qs =>
    rw [takeAttribute, takeRun, attributeNext] at h
    split at h
    · simp at h
    · rename_i hnext
      by_cases hsign : q.isSymbol '@' = true
      · rw [← (List.cons_eq_cons.mp (Prod.mk.inj h).1).1]
        exact hsign
      · rw [if_neg hsign] at hnext
        exact absurd hnext (by simp)

theorem takeModifier_append (p : Piece) (ps : List Piece) :
    (takeModifier p ps).1 ++ (takeModifier p ps).2 = p :: ps := by
  fun_cases takeModifier p ps <;> rfl

/-! ## Types, constraints and expressions -/

theorem splits_takeType (rule : LineRule) : Splits (takeType rule) := splits_takeRun _ _

theorem splits_takeTypeAttributes (rule : LineRule) : Splits (takeTypeAttributes rule) :=
  splits_takeRun _ _

theorem splits_takePassing (rule : LineRule) : Splits (takePassing rule) := by
  intro ps
  fun_induction takePassing rule ps with
  | case1 p q ps _ taken rest heq ih => rw [heq] at ih; simpa using ih
  | case2 p q ps _ _ taken rest heq ih => rw [heq] at ih; simpa using ih
  | case3 => rfl
  | case4 => rfl

theorem splits_takeRelation : Splits takeRelation := by
  intro ps
  fun_cases takeRelation ps <;> rfl

theorem splits_takeConstraintList (rule : LineRule) (fuel : Nat) :
    Splits (takeConstraintList rule fuel) := by
  intro ps
  fun_induction takeConstraintList rule fuel ps with
  | case1 => rfl
  | case2 fuel ps subject _ hsubject relation _ hrelation object constraint comma _ _ more _
      hmore hobject ih =>
    rw [hmore] at ih
    rw [← (splits_takeType rule).eq hsubject, ← splits_takeRelation.eq hrelation,
      ← ((splits_takeType rule).ifNot _).eq hobject, ← ih]
    simp [constraint]
  | case3 fuel ps subject _ hsubject relation _ hrelation object constraint _ _ _ hobject =>
    rw [← (splits_takeType rule).eq hsubject, ← splits_takeRelation.eq hrelation,
      ← ((splits_takeType rule).ifNot _).eq hobject]
    simp [constraint]
  | case4 fuel ps subject _ hsubject relation _ hrelation object constraint hobject =>
    rw [← (splits_takeType rule).eq hsubject, ← splits_takeRelation.eq hrelation,
      ← ((splits_takeType rule).ifNot _).eq hobject]
    simp [constraint]

theorem splits_takeConstraints (rule : LineRule) : Splits (takeConstraints rule) := by
  intro ps
  fun_cases takeConstraints rule ps with
  | case1 p ps _ taken rest heq =>
    exact congrArg (p :: ·) ((splits_takeConstraintList rule ps.length).eq heq)
  | case2 => rfl
  | case3 => rfl

theorem splits_takeExpression (mode : ExpressionMode) : Splits (takeExpression mode) :=
  splits_takeRun _ _

theorem splits_takeEllipsis : Splits takeEllipsis := by
  intro ps
  fun_cases takeEllipsis ps <;> rfl

theorem splitForce_append (type : List Piece) :
    (splitForce type).1 ++ (splitForce type).2 = type := by
  fun_cases splitForce type with
  | case1 p rest hreverse =>
    rw [← List.reverse_cons, ← hreverse, List.reverse_reverse]
  | case2 => exact List.append_nil type
  | case3 hreverse => exact (List.reverse_eq_nil_iff.mp hreverse).symm

theorem returnAngle_append (operator rest : List Piece) :
    (returnAngle operator rest).1 ++ (returnAngle operator rest).2 = operator ++ rest := by
  fun_cases returnAngle operator rest with
  | case1 angle before others next rest hreverse =>
    rw [← List.reverse_reverse operator, hreverse]
    simp
  | case2 => rfl
  | case3 => rfl

/-! ## Statements -/

theorem splits_takeSameLine : Splits takeSameLine := by
  intro ps
  unfold takeSameLine
  split
  · rfl
  · exact splits_takeExpression _ ps

theorem splits_takeLastCondition : Splits takeLastCondition := by
  intro ps
  fun_cases takeLastCondition ps with
  | case1 p ps _ taken rest heq => exact congrArg (p :: ·) ((splits_takeExpression _).eq heq)
  | case2 => rfl
  | case3 => rfl

theorem takeKeywordStatement?_append (text : String) (p : Piece) (ps : List Piece) :
    ∀ r ∈ takeKeywordStatement? text p ps, r.1 ++ r.2 = p :: ps := by
  fun_cases takeKeywordStatement? text p ps with
  | case1 =>
    rintro r ⟨⟩
    exact takeRun_append ..
  | case2 _ _ taken rest heq =>
    rintro r ⟨⟩
    show p :: (ps.take 1 ++ taken) ++ rest = p :: ps
    rw [List.cons_append, List.append_assoc, splits_takeLastCondition.eq heq,
      List.take_append_drop]
  | case3 =>
    rintro r ⟨⟩
    exact takeRun_append ..
  | case4 _ _ _ _ taken rest heq =>
    rintro r ⟨⟩
    exact congrArg (p :: ·) (splits_takeSameLine.eq heq)
  | case5 _ _ _ _ _ taken rest heq =>
    rintro r ⟨⟩
    exact congrArg (p :: ·) ((splits_takeRun lineNext ()).eq heq)
  | case6 => rintro r ⟨⟩

theorem takeDirective?_append (ps : List Piece) :
    ∀ r ∈ takeDirective? ps, r.1 ++ r.2 = ps := by
  fun_cases takeDirective? ps with
  | case1 q ps _ taken rest heq =>
    rintro r ⟨⟩
    exact congrArg (q :: ·) ((splits_takeExpression _).eq heq)
  | case2 =>
    rintro r ⟨⟩
    rfl
  | case3 => rintro r ⟨⟩
  | case4 => rintro r ⟨⟩

theorem takeStatement_append (p : Piece) (ps : List Piece) :
    (takeStatement p ps).1 ++ (takeStatement p ps).2 = p :: ps := by
  fun_cases takeStatement p ps with
  | case1 special taken hspecial =>
    have hspecial : special = some taken := hspecial
    simp only [special] at hspecial
    split at hspecial
    · exact takeKeywordStatement?_append _ p ps taken hspecial
    · split at hspecial
      · obtain ⟨directive, hdirective, rfl⟩ := Option.map_eq_some_iff.mp hspecial
        exact congrArg (p :: ·) (takeDirective?_append ps directive hdirective)
      · exact absurd hspecial (by simp)
  | case2 => rfl
  | case3 => exact splits_takeExpression _ (p :: ps)

/-! ## Members -/

theorem splits_takeCaseSuffix : Splits takeCaseSuffix := by
  intro ps
  fun_cases takeCaseSuffix ps with
  | case1 => rfl
  | case2 p ps _ _ taken rest heq => exact congrArg (p :: ·) ((splits_takeExpression _).eq heq)
  | case3 => rfl
  | case4 => rfl

theorem splits_takeCases (fuel : Nat) : Splits (takeCases fuel) := by
  intro ps
  fun_induction takeCases fuel ps with
  | case1 fuel p ps _ suffix comma others _ more rest hmore hsuffix ih =>
    rw [hmore] at ih
    rw [← splits_takeCaseSuffix.eq hsuffix, ← ih]
    simp
  | case2 fuel p ps _ suffix q others _ hsuffix =>
    exact congrArg (p :: ·) (splits_takeCaseSuffix.eq hsuffix)
  | case3 fuel p ps _ suffix hsuffix =>
    exact congrArg (p :: ·) (splits_takeCaseSuffix.eq hsuffix)
  | case4 => rfl
  | case5 => rfl

theorem takeMember_append (p : Piece) (ps : List Piece) :
    (takeMember p ps).1 ++ (takeMember p ps).2 = p :: ps := by
  fun_cases takeMember p ps with
  | case1 _ taken rest heq => exact congrArg (p :: ·) ((splits_takeCases ps.length).eq heq)
  | case2 _ taken rest hdirective =>
    split at hdirective
    · exact congrArg (p :: ·) (takeDirective?_append ps _ hdirective)
    · exact absurd hdirective (by simp)
  | case3 => rfl

end TestAccess.Source
