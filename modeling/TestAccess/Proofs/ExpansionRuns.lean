import TestAccess.Proofs.Forwarding

/-!
# A run of expansions is the sum of its parts

Requests are expanded one after another into one list of diagnostics, and each
expansion is handed the list that those before it have left. So an expansion
could depend on what came before, and what it does to the list could depend on
what is in it. Neither is the case: an expansion into a list is the expansion
of the request on its own, with its diagnostics put behind those of the list
(`expandInto_eq`). By induction along a run, the accessors are those of each
request on its own, and the list at the end is the one at the beginning with
the diagnostics of each request behind it, in order (`expandAll_eq`).

What a request gives on its own has one of two forms: accessors and no
diagnostic, or one diagnostic and no accessors. The second is for initializers
under the strict policy only, and it is the only place where the type around a
declaration is looked at. In every other case a request can be moved to
another place and another type, and gives the same.
-/

namespace TestAccess

namespace Request

variable (o : ExpansionOptions) (sink : List Diagnostic) (q : Request)

/-! ## One expansion -/

/-- **A request gives accessors or a diagnostic, never both.** -/
theorem diagnostics_expand_eq_nil_or :
    (q.expand o).diagnostics = []
      ∨ ∃ d, (q.expand o).diagnostics = [d] ∧ (q.expand o).accessors = [] := by
  cases h : q.rejection? o with
  | none => exact Or.inl (by rw [expand_of_acceptance h])
  | some d => exact Or.inr ⟨d, by rw [expand_of_rejection h], by rw [expand_of_rejection h]⟩

/-- **An expansion does not look at the list that it reports into**, and puts
its own diagnostics behind what is there. -/
theorem expandInto_eq :
    q.expandInto o sink = ((q.expand o).accessors, sink ++ (q.expand o).diagnostics) := by
  cases h : q.rejection? o with
  | none => rw [expand_of_acceptance h, expandInto, h, List.append_nil]
  | some d => rw [expand_of_rejection h, expandInto, h]

/-- **One expansion** leaves the list as it is, or puts one diagnostic behind
it and gives no accessors. -/
theorem expandInto_snd_eq_or :
    (q.expandInto o sink).2 = sink
      ∨ ∃ d, (q.expandInto o sink).2 = sink ++ [d] ∧ (q.expandInto o sink).1 = [] := by
  rw [expandInto_eq]
  rcases diagnostics_expand_eq_nil_or o q with h | ⟨d, hd, haccessors⟩
  · exact Or.inl (by rw [h, List.append_nil])
  · exact Or.inr ⟨d, by rw [hd], haccessors⟩

/-- **Nothing is rejected but initializers under the strict policy.** -/
theorem rejection?_eq_none_of_not_initializer {o : ExpansionOptions} {q : Request}
    (h : o.initPolicy = .permissive ∨ ∀ i, q.declaration ≠ .initializer i) :
    q.rejection? o = none := by
  rw [rejection?_eq_none_iff]
  rintro ⟨hstrict, i, hdecl, -⟩
  rcases h with hpermissive | hnot
  · rw [hpermissive] at hstrict
    exact absurd hstrict (by decide)
  · exact hnot i hdecl

/-- What is not rejected gives the same wherever it stands. -/
theorem expand_of_not_initializer {o : ExpansionOptions} {q : Request}
    (h : o.initPolicy = .permissive ∨ ∀ i, q.declaration ≠ .initializer i) (anchor : Anchor)
    (enclosing : Option EnclosingType) :
    ({ q with anchor, enclosing } : Request).expand o = q.expand o
      ∧ (q.expand o).diagnostics = [] := by
  have haccepted := expand_of_acceptance (rejection?_eq_none_of_not_initializer h)
  have hmoved : ({ q with anchor, enclosing } : Request).expand o
      = { accessors := ({ q with anchor, enclosing } : Request).accessors, diagnostics := [] } :=
    expand_of_acceptance (rejection?_eq_none_of_not_initializer h)
  refine ⟨?_, by rw [haccepted]⟩
  rw [hmoved, haccepted]
  rfl

/-! ## Runs -/

/-- **A run gives what each of its requests gives on its own.** -/
theorem expandAll_eq (qs : List Request) :
    expandAll o sink qs
      = (qs.map fun q => (q.expand o).accessors,
          sink ++ qs.flatMap fun q => (q.expand o).diagnostics) := by
  induction qs generalizing sink with
  | nil => rw [expandAll, List.map_nil, List.flatMap_nil, List.append_nil]
  | cons q qs ih =>
    rw [expandAll, expandInto_eq]
    dsimp only
    rw [ih, List.map_cons, List.flatMap_cons, List.append_assoc]

/-- The list behind a request of a run is the one that its expansion makes of
the list in front of it. -/
theorem expandAll_concat_snd (qs : List Request) :
    (expandAll o sink (qs ++ [q])).2 = (q.expandInto o (expandAll o sink qs).2).2 := by
  rw [expandInto_eq, expandAll_eq, expandAll_eq, List.flatMap_append, List.flatMap_singleton,
    List.append_assoc]

/-- **A run of expansions into one list is the sum of its parts.** Every
expansion of the run, wherever it stands, leaves the list as it finds it, or
puts exactly one diagnostic behind it and gives no accessors. The accessors
are those of each request on its own, and the list at the end is the one at
the beginning and behind it the diagnostics of each request on its own, in
order. Under the permissive policy, and for everything but initializers, what
a request gives has no diagnostics and depends on neither the place of the
declaration nor the type around it. -/
theorem expandAll_is_sum (qs : List Request) :
    (∀ front q back, qs = front ++ q :: back →
        ∃ before after accessors,
          (expandAll o sink front).2 = before ∧ (expandAll o sink (front ++ [q])).2 = after
            ∧ q.expandInto o before = (accessors, after)
            ∧ (expandAll o sink qs).1[front.length]? = some accessors
            ∧ (after = before ∨ ∃ d, after = before ++ [d] ∧ accessors = []))
      ∧ (expandAll o sink qs).1 = qs.map (fun q => (q.expand o).accessors)
      ∧ (expandAll o sink qs).2 = sink ++ qs.flatMap (fun q => (q.expand o).diagnostics)
      ∧ ∀ (q : Request) (anchor : Anchor) (enclosing : Option EnclosingType),
          (o.initPolicy = .permissive ∨ ∀ i, q.declaration ≠ .initializer i) →
          (({ q with anchor, enclosing } : Request).expand o).accessors = (q.expand o).accessors
            ∧ (q.expand o).diagnostics = []
            ∧ (({ q with anchor, enclosing } : Request).expand o).diagnostics = [] := by
  have hrun := expandAll_eq o sink qs
  refine ⟨?_, by rw [hrun], by rw [hrun], fun q anchor enclosing h => ?_⟩
  · rintro front q back rfl
    refine ⟨_, _, (q.expandInto o (expandAll o sink front).2).1, rfl, rfl, ?_, ?_, ?_⟩
    · rw [expandAll_concat_snd]
    · rw [hrun, expandInto_eq, List.map_append, List.map_cons,
        List.getElem?_append_right (by rw [List.length_map]), List.length_map, Nat.sub_self,
        List.getElem?_cons_zero]
    · rw [expandAll_concat_snd]
      exact expandInto_snd_eq_or ..
  · obtain ⟨hsame, hsilent⟩ := expand_of_not_initializer h anchor enclosing
    rw [hsame]
    exact ⟨rfl, hsilent, hsilent⟩

/-- A request about an initializer of a class that is open to subclasses. -/
def openInitializer : Request :=
  { declaration := .initializer { isRequired := false, parameters := [] },
    anchor := { description := "init" }, enclosing := some { keyword := .classType } }

/-- A run with the initializer between two methods. -/
def mixedRun : List Request :=
  [ofDeclaration (.method exchange), openInitializer, ofDeclaration (.method exchange)]

/-- Under the strict policy, the initializer in the middle of the run puts one
diagnostic behind the list that it finds and has no accessors, and a method has
the same accessors wherever it stands. -/
theorem expandAll_is_sum_mixedRun :
    mixedRun = [ofDeclaration (.method exchange)]
        ++ openInitializer :: [ofDeclaration (.method exchange)]
      ∧ (∃ d, (expandAll { initPolicy := .strict } [] (mixedRun.take 2)).2
            = (expandAll { initPolicy := .strict } [] (mixedRun.take 1)).2 ++ [d]
          ∧ (expandAll { initPolicy := .strict } [] mixedRun).1[1]? = some [])
      ∧ (∀ i, (ofDeclaration (.method exchange)).declaration ≠ .initializer i)
      ∧ (({ ofDeclaration (.method exchange) with
            anchor := { description := "moved" },
            enclosing := some { keyword := .classType } } : Request).expand
          { initPolicy := .strict }).accessors
        = ((ofDeclaration (.method exchange)).expand { initPolicy := .strict }).accessors := by
  obtain ⟨hcalls, -, -, hmoved⟩ := expandAll_is_sum { initPolicy := .strict } [] mixedRun
  have hmethod : ∀ i, (ofDeclaration (.method exchange)).declaration ≠ .initializer i :=
    fun i h => Declaration.noConfusion h
  refine ⟨rfl, ?_, hmethod, (hmoved _ _ _ (Or.inr hmethod)).1⟩
  obtain ⟨before, after, accessors, hbefore, hafter, -, hat, hcall⟩ :=
    hcalls [ofDeclaration (.method exchange)] openInitializer [ofDeclaration (.method exchange)] rfl
  rcases hcall with hsame | ⟨d, hd, hnone⟩
  · rw [← hbefore, ← hafter] at hsame
    exact absurd hsame (by decide +kernel)
  · refine ⟨d, ?_, by rw [hnone] at hat; exact hat⟩
    rw [← hbefore, ← hafter] at hd
    exact hd

end Request

end TestAccess
