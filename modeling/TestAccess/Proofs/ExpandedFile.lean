import TestAccess.Proofs.CheckedFiles

/-!
# An expansion writes the whole source or nothing

As text, an expanded source is written only if everything went well: the file
could be reported on, none of its sites has a diagnostic, and the accessors
could be spliced in. In every other case nothing is written to the output. Then
either the run fails, or the diagnostics are written, to the other stream. The
text is the spliced source, with a line break at its end if it does not end a
line; for a source without annotated declarations that is the source itself
(`expand_is_all_or_nothing`).

An expansion and a check of the same file change the configuration in
different ways, and count the diagnostics separately. The changes of an
expansion that a check does not know, in the layout and about the annotation,
have no part in a diagnostic. So for one policy the two agree on whether there
are any.
-/

namespace TestAccess

/-- Without insertions, splicing gives the source. -/
theorem splice_nil (source : String) : splice source [] = .ok source := by
  simp [splice, Edit.applyFrom]

namespace Command

/-! ## Texts with a line break at the end -/

/-- **A text that ends its last line**: a line break is added unless the text
is empty or ends in one. -/
def terminated (text : String) : String :=
  if text = "" ∨ text.toList.getLast? = some '\n' then text else text ++ "\n"

theorem printed_eq_terminated (text : String) : printed text = terminated text := by
  have hends : Text.endsIn text ['\n'] = true ↔ text.toList.getLast? = some '\n' := by
    unfold Text.endsIn
    rw [← List.head?_reverse, List.isPrefixOf_iff_prefix]
    cases text.toList.reverse with
    | nil => simp
    | cons c cs => simp [eq_comm]
  unfold printed terminated
  refine if_congr ?_ rfl rfl
  rw [Bool.or_eq_true, hends, String.isEmpty_iff]

/-! ## Expansions -/

section Expand

variable (parse : String → Node) {files : Files} {path : String}

/-- There is a diagnostic in the report on a file exactly when there is one to
be written. -/
theorem hasErrors_fileReport_iff (files : Files) (c : Config) (path : String) :
    (fileReport parse files c path).hasErrors = true
      ↔ diagnosticText c path (sitesOf parse files c path) ≠ [] := by
  unfold FileReport.hasErrors fileReport
  rw [diagnostics_ofSites, Bool.not_eq_true', List.isEmpty_eq_false_iff, ne_eq, ne_eq,
    List.flatMap_eq_nil_iff, diagnosticText_eq_nil_iff]

/-- An expansion of a file that cannot be reported on. -/
theorem expand_of_fails {f : Failure} (h : Fails files path f) (c : Config) (format : Format) :
    expand parse files c format path = .error f := by
  unfold expand
  rw [reportOn_of_fails parse h c]
  rfl

/-- An expansion of a file that can be reported on. -/
theorem expand_of_isReadable (h : IsReadable files path) (c : Config) (format : Format) :
    expand parse files c format path
      = (expandedText c (fileReport parse files c path) format).map fun out =>
          { exit := exitCode (fileReport parse files c path).hasErrors, out,
            err := lines (fileReport parse files c path).diagnosticLines } := by
  unfold expand
  rw [reportOn_of_isReadable parse h c]
  show Except.bind (expandedText c (fileReport parse files c path) format) _ = _
  cases expandedText c (fileReport parse files c path) format with
  | error e => rfl
  | ok out => rfl

/-- A run that failed does not end with exit code 1. -/
theorem exit_outcome_ne_one (f : Failure) : f.outcome.exit ≠ 1 := by
  show 2 ≠ 1
  decide

/-- **When an expansion ends with exit code 1**: the file can be reported on,
and there is a diagnostic. -/
theorem exit_expand_eq_one_iff (files : Files) (c : Config) (format : Format) (path : String) :
    (Outcome.ofResult (expand parse files c format path)).exit = 1 ↔
      IsReadable files path ∧ diagnosticText c path (sitesOf parse files c path) ≠ [] := by
  by_cases hreadable : IsReadable files path
  · rw [expand_of_isReadable parse hreadable, and_iff_right hreadable, ← hasErrors_fileReport_iff]
    cases herrors : (fileReport parse files c path).hasErrors with
    | false =>
      -- the expansion succeeds or fails in the splice
      refine iff_of_false ?_ Bool.false_ne_true
      cases expandedText c (fileReport parse files c path) format with
      | error f => exact exit_outcome_ne_one f
      | ok out => exact Nat.zero_ne_one
    | true =>
      refine iff_of_true ?_ rfl
      unfold expandedText
      cases format with
      | json => rfl
      | text => rw [herrors]; rfl
  · obtain ⟨f, hf⟩ := exists_fails_of_not_isReadable hreadable
    rw [expand_of_fails parse hf]
    exact iff_of_false (exit_outcome_ne_one f) (fun h => hreadable h.1)

/-- **When a check of one file ends with exit code 1.** -/
theorem exit_check_singleton_eq_one_iff (files : Files) (c : Config) (format : Format)
    (quiet : Bool) (path : String) :
    (Outcome.ofResult (check parse files c format quiet [path])).exit = 1 ↔
      IsReadable files path ∧ diagnosticText c path (sitesOf parse files c path) ≠ [] := by
  by_cases hreadable : IsReadable files path
  · have hall : ∀ p ∈ [path], IsReadable files p := List.forall_mem_singleton.mpr hreadable
    obtain ⟨err, hcheck⟩ := check_of_isReadable parse hall c format quiet
    rw [hcheck]
    show (if checkText parse files c [path] = [] then 0 else 1) = 1 ↔ _
    unfold checkText
    rw [List.flatMap_singleton]
    split
    · rename_i hnil
      exact iff_of_false Nat.zero_ne_one (fun h => h.2 hnil)
    · rename_i hnil
      exact iff_of_true rfl ⟨hreadable, hnil⟩
  · obtain ⟨f, hf⟩ := exists_fails_of_not_isReadable hreadable
    have hfail : check parse files c format quiet ([] ++ path :: []) = .error f :=
      check_of_fails parse (List.forall_mem_nil _) hf c format quiet
    rw [List.nil_append] at hfail
    rw [hfail]
    exact iff_of_false (exit_outcome_ne_one f) (fun h => hreadable h.1)

/-- No site of a report has a diagnostic exactly when there is none to be
written. -/
theorem forall_diagnostics_eq_nil_iff (files : Files) (c : Config) (path : String) :
    (∀ s ∈ (fileReport parse files c path).sites, s.diagnostics = []) ↔
      diagnosticText c path (sitesOf parse files c path) = [] := by
  rw [diagnosticText_eq_nil_iff]
  exact List.forall_mem_map

/-- An expansion of a file with diagnostics, as text. -/
theorem expand_of_rejected (h : IsReadable files path) {c : Config}
    (hne : diagnosticText c path (sitesOf parse files c path) ≠ []) :
    expand parse files c .text path
      = .ok ⟨1, "", lines (fileReport parse files c path).diagnosticLines⟩ := by
  rw [expand_of_isReadable parse h, expandedText, (hasErrors_fileReport_iff ..).mpr hne]
  rfl

/-- An expansion of a file without diagnostics, as text: the splice decides. -/
theorem expand_of_accepted (h : IsReadable files path) {c : Config}
    (hnil : diagnosticText c path (sitesOf parse files c path) = []) :
    Outcome.ofResult (expand parse files c .text path)
      = match (fileReport parse files c path).spliced c.expansion.stripsMarker with
        | .ok text => ⟨0, terminated text, ""⟩
        | .error e => (Failure.splicing e).outcome := by
  have herrors : (fileReport parse files c path).hasErrors = false :=
    Bool.eq_false_iff.mpr fun h => (hasErrors_fileReport_iff ..).mp h hnil
  have hlines : lines (fileReport parse files c path).diagnosticLines = "" := by
    rw [← String.toList_eq_nil_iff, toList_lines, fileReport, flatMap_diagnosticLines, hnil]
  rw [expand_of_isReadable parse h, expandedText, herrors, hlines]
  cases (fileReport parse files c path).spliced c.expansion.stripsMarker with
  | error e => rfl
  | ok text =>
    show (⟨0, printed text, ""⟩ : Outcome) = ⟨0, terminated text, ""⟩
    rw [printed_eq_terminated]

/-- A source without annotated declarations has no sites. -/
theorem sitesOf_eq_nil {c : Config} {source : String} (hread : files path = .ok source)
    (h : ∀ n : Node.Occurrence, n.IsIn (parse source) →
      ¬ n.node.IsAnnotated source.toList c.markerName) :
    sitesOf parse files c path = [] := by
  unfold sitesOf
  rw [hread, List.eq_nil_iff_forall_not_mem]
  intro s hs
  obtain ⟨n, hn, hsite⟩ := (Node.mem_scan_iff ..).mp hs
  exact h n ((Node.mem_walk_iff ..).mp hn)
    ((Node.Occurrence.isSome_site?_iff ..).mp ⟨s, hsite⟩)

end Expand

/-- **What an expansion of a file comes to**, as text, under the configuration
of its run and behind what has been logged. -/
structure IsExpansionOf (parse : String → Node) (files : Files) (c : Config) (path : String)
    (logged : String) (o : Outcome) : Prop where
  /-- A file that cannot be reported on is a failure. -/
  of_not_readable : ¬ IsReadable files path →
    ∃ f, Fails files path f ∧ o = ⟨2, "", logged ++ ("vft error: " ++ f.message ++ "\n")⟩
  /-- If a site has a diagnostic, only the diagnostics are written. -/
  of_rejected : IsReadable files path →
    (∃ s ∈ (fileReport parse files c path).sites, s.diagnostics ≠ []) →
    o.exit = 1 ∧ o.out = ""
      ∧ o.err.toList = logged.toList ++ diagnosticText c path (sitesOf parse files c path)
  /-- Diagnostics are in the order in which their sites begin. -/
  inOrder :
    (sitesOf parse files c path).Pairwise (fun s t => s.declaration.start ≤ t.declaration.start)
  /-- If no site has one, and the accessors cannot be spliced in, that is the
  failure. -/
  of_splice_error : IsReadable files path →
    (∀ s ∈ (fileReport parse files c path).sites, s.diagnostics = []) →
    ∀ e, (fileReport parse files c path).spliced c.expansion.stripsMarker = .error e →
      o = ⟨2, "", logged ++ ("vft error: " ++ e.message ++ "\n")⟩
  /-- Otherwise the spliced source is written. -/
  of_spliced : IsReadable files path →
    (∀ s ∈ (fileReport parse files c path).sites, s.diagnostics = []) →
    ∀ text, (fileReport parse files c path).spliced c.expansion.stripsMarker = .ok text →
      o = ⟨0, terminated text, logged⟩
  /-- A source without annotated declarations is written as it is. -/
  of_unannotated : ∀ source, Path.isSwift path = true → files path = .ok source →
    (∀ n : Node.Occurrence, n.IsIn (parse source) →
      ¬ n.node.IsAnnotated source.toList c.markerName) →
    o = ⟨0, terminated source, logged⟩

/-- What an expansion comes to behind a log, as it does without one. -/
theorem IsExpansionOf.behind {parse : String → Node} {files : Files} {c : Config} {path : String}
    {o : Outcome} (h : IsExpansionOf parse files c path "" o) (logged : String) :
    IsExpansionOf parse files c path logged (o.behind logged) where
  of_not_readable hnot := by
    obtain ⟨f, hf, ho⟩ := h.of_not_readable hnot
    exact ⟨f, hf, by rw [ho, String.empty_append]; rfl⟩
  of_rejected hreadable hrejected := by
    obtain ⟨hexit, hout, herr⟩ := h.of_rejected hreadable hrejected
    exact ⟨hexit, hout, by rw [Outcome.behind, String.toList_append, herr]; rfl⟩
  inOrder := h.inOrder
  of_splice_error hreadable hsilent e he := by
    rw [h.of_splice_error hreadable hsilent e he, String.empty_append]
    rfl
  of_spliced hreadable hsilent text htext := by
    rw [h.of_spliced hreadable hsilent text htext, Outcome.behind, String.append_empty]
  of_unannotated source hswift hread hnone := by
    rw [h.of_unannotated source hswift hread hnone, Outcome.behind, String.append_empty]

/-- What an expansion comes to without a log. -/
theorem isExpansionOf_expand (parse : String → Node) (files : Files) (c : Config)
    (path : String) :
    IsExpansionOf parse files c path ""
      (Outcome.ofResult (expand parse files c .text path)) := by
  refine ⟨fun h => ?_, fun h hrejected => ?_, pairwise_start_sitesOf .., fun h hsilent e he => ?_,
    fun h hsilent text htext => ?_, fun source hswift hread hnone => ?_⟩
  · obtain ⟨f, hf⟩ := exists_fails_of_not_isReadable h
    refine ⟨f, hf, ?_⟩
    rw [expand_of_fails parse hf, String.empty_append]
    rfl
  · have hne : diagnosticText c path (sitesOf parse files c path) ≠ [] := by
      obtain ⟨s, hs, hdiagnostics⟩ := hrejected
      exact fun hnil => hdiagnostics ((forall_diagnostics_eq_nil_iff ..).mpr hnil s hs)
    rw [expand_of_rejected parse h hne]
    exact ⟨rfl, rfl, (toList_lines _).trans (flatMap_diagnosticLines ..)⟩
  · rw [expand_of_accepted parse h ((forall_diagnostics_eq_nil_iff ..).mp hsilent), he,
      String.empty_append]
    rfl
  · rw [expand_of_accepted parse h ((forall_diagnostics_eq_nil_iff ..).mp hsilent), htext]
  · have hsites := sitesOf_eq_nil parse hread hnone
    rw [expand_of_accepted parse ⟨hswift, source, hread⟩ (by rw [hsites]; rfl), fileReport, hsites,
      sourceOf, hread]
    show (match splice source [] with
      | .ok text => (⟨0, terminated text, ""⟩ : Outcome)
      | .error e => (Failure.splicing e).outcome) = _
    rw [splice_nil]

/-- **An expansion writes the whole source or nothing, and agrees with a
check**, whatever the parser makes of the source. As text, the spliced source is
written if the file can be reported on, no site has a diagnostic, and the splice
succeeds; otherwise the output is empty, and the exit code tells whether there
were diagnostics or a failure. Messages stand behind what has been logged, and
nothing is logged unless it is asked for. In whatever form the results are
written, the expansion of a file ends with exit code 1 exactly when a check of
this file under the same policy does. -/
theorem expand_is_all_or_nothing (parse : String → Node) (logger : Logger) (files : Files)
    (sources : ConfigSources) (c : Config) (hload : Config.load sources = .ok c) (path : String)
    (overrides : Overrides) (quiet verbose : Bool) :
    let i : Invocation := { task := .expand path overrides, format := .text, quiet, verbose }
    IsExpansionOf parse files (c.overriddenBy overrides) path (logged parse logger files c i)
        (runWith parse logger files sources i)
      ∧ (logger.filter? = none → verbose = false ∨ quiet = true →
          logged parse logger files c i = "")
      ∧ ∀ (format format' : Format) (quiet' verbose' : Bool),
          (runWith parse logger files sources { i with format }).exit = 1
            ↔ (runWith parse logger files sources
                { task := .check [path] overrides.strictInit, format := format',
                  quiet := quiet', verbose := verbose' }).exit = 1 := by
  intro i
  refine ⟨?_, fun hfilter hi => logged_eq_empty hfilter hi .., ?_⟩
  · rw [runWith_of_load hload]
    exact (isExpansionOf_expand parse files (c.overriddenBy overrides) path).behind _
  · intro format format' quiet' verbose'
    rw [runWith_of_load hload, runWith_of_load hload]
    -- the changes that only an expansion makes have no part in a diagnostic
    exact (exit_expand_eq_one_iff parse files (c.overriddenBy overrides) format path).trans
      (exit_check_singleton_eq_one_iff parse files
        (c.overriddenBy { strictInit := overrides.strictInit }) format' quiet' path).symm

/-- A source with an annotated property. -/
def annotatedSource : String := "@VisibleForTesting let x: Int"

/-- The configuration of a run that asks for the compact layout. -/
def compactConfig : Config := Config.overriddenBy {} { compact := true }

/-- The source is written with the accessor and a line break at the end. -/
theorem expand_is_all_or_nothing_annotatedSource :
    Config.load {} = .ok {} ∧ wordyLogger.filter? = none
      ∧ runWith Source.parse wordyLogger (fun _ => .ok annotatedSource) {}
          { task := .expand "A.swift" { compact := true }, format := .text }
        = ⟨0, "let x: Int\n\npublic var __test_x: Int \x7b get \x7b self.x \x7d \x7d\n", ""⟩ := by
  have hload : Config.load {} = .ok {} := rfl
  obtain ⟨hexpansion, hlogged, -⟩ := expand_is_all_or_nothing Source.parse wordyLogger
    (fun _ => .ok annotatedSource) {} {} hload "A.swift" { compact := true } false false
  have hsites : sitesOf Source.parse (fun _ => .ok annotatedSource) compactConfig "A.swift"
      = (Source.parse annotatedSource).walk.filterMap
          (Node.Occurrence.site? annotatedSource.toList compactConfig.markerName) :=
    List.mergeSort_of_pairwise (by decide +kernel)
  have hsilent : diagnosticText compactConfig "A.swift"
      (sitesOf Source.parse (fun _ => .ok annotatedSource) compactConfig "A.swift") = [] := by
    rw [hsites]
    decide +kernel
  have hspliced : (fileReport Source.parse (fun _ => .ok annotatedSource) compactConfig
        "A.swift").spliced true
      = .ok "let x: Int\n\npublic var __test_x: Int \x7b get \x7b self.x \x7d \x7d" := by
    rw [fileReport, hsites, FileReport.spliced, splice_eq_ok_iff,
      List.mergeSort_of_pairwise (by decide +kernel)]
    exact ⟨by decide +kernel, by decide +kernel⟩
  refine ⟨hload, rfl, (hexpansion.of_spliced ⟨by decide +kernel, _, rfl⟩
    ((forall_diagnostics_eq_nil_iff ..).mpr hsilent) _ hspliced).trans ?_⟩
  rw [hlogged rfl (Or.inl rfl)]
  decide +kernel

end Command

end TestAccess
