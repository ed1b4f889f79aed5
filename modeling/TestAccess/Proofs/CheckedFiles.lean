import TestAccess.Command
import TestAccess.Proofs.LayoutWords
import TestAccess.Proofs.ScanOrder

/-!
# A check writes about all of its files or about none

A check goes through its files in the order of its arguments and stops at the
first one that it cannot report on – one that is not a Swift source, or that
cannot be read. What it has found out about the files in front is lost then,
and the outcome is that of the one failure. Only when there is a report on
every file is anything written: a line for each diagnostic, the files in the
order of the arguments and the sites of a file in the order in which they
begin.

The exit code is not read off what is written. It is found by counting the
diagnostics, while the lines are made from the reports; that the two agree is
`diagnosticText_eq_nil_iff`. As a line is never empty, a check ends with exit
code 1 exactly when it has written something (`check_is_all_or_nothing`).

All of this holds for whatever tree a parser makes of a source. Nor has the log
a part in it: its lines go in front of the messages, and there are none unless
they are asked for (`logged_eq_empty`).
-/

namespace TestAccess

/-! ## Reading a list in order -/

section Except

variable {α β ε : Type} {f : α → Except ε β}

/-- Where nothing fails, every element gives its own result. -/
theorem mapM_eq_ok {g : α → β} {xs : List α} (h : ∀ x ∈ xs, f x = .ok (g x)) :
    xs.mapM f = .ok (xs.map g) := by
  induction xs with
  | nil => rfl
  | cons x xs ih =>
    rw [List.mapM_cons, h x (List.mem_cons_self ..),
      ih (fun y hy => h y (List.mem_cons_of_mem _ hy))]
    rfl

/-- **The first failure counts**, whatever comes behind it. -/
theorem mapM_eq_error {front back : List α} {x : α} {e : ε}
    (hfront : ∀ y ∈ front, ∃ b, f y = .ok b) (hx : f x = .error e) :
    (front ++ x :: back).mapM f = .error e := by
  induction front with
  | nil =>
    rw [List.nil_append, List.mapM_cons, hx]
    rfl
  | cons y front ih =>
    obtain ⟨b, hb⟩ := hfront y (List.mem_cons_self ..)
    rw [List.cons_append, List.mapM_cons, hb]
    show Except.bind _ _ = _
    rw [Except.bind, ih (fun z hz => hfront z (List.mem_cons_of_mem _ hz))]
    rfl

end Except

/-- If not all elements are as they should be, there is a first one that is
not. -/
theorem exists_first_of_exists_not {α : Type} {p : α → Prop} {xs : List α}
    (h : ∃ x ∈ xs, ¬ p x) :
    ∃ front x back, xs = front ++ x :: back ∧ (∀ y ∈ front, p y) ∧ ¬ p x := by
  classical
  obtain ⟨x, hx, hnot⟩ := h
  have hsome : (xs.find? fun x => !decide (p x)).isSome = true :=
    List.find?_isSome.mpr ⟨x, hx, by simpa using hnot⟩
  obtain ⟨y, hy⟩ := Option.isSome_iff_exists.mp hsome
  obtain ⟨hp, front, back, heq, hfront⟩ := List.find?_eq_some_iff_append.mp hy
  exact ⟨front, y, back, heq, fun z hz => by simpa using hfront z hz, by simpa using hp⟩

/-- The sites of a scan are in the order in which their declarations begin. -/
theorem Node.pairwise_start_scan (source name : String) (root : Node) :
    (root.scan source name).Pairwise (fun s t => s.declaration.start ≤ t.declaration.start) := by
  rw [scan_eq_map_snd, List.pairwise_map]
  exact (pairwise_sortedSites ..).imp fun h => h.elim Nat.le_of_lt fun heq => Nat.le_of_eq heq.1

namespace Command

/-! ## Files -/

/-- **A file can be reported on**: its path is that of a Swift source, and it
can be read. -/
def IsReadable (files : Files) (path : String) : Prop :=
  Path.isSwift path = true ∧ ∃ source, files path = .ok source

/-- **Why a file cannot be reported on.** A path that is not that of a Swift
source is refused before the file is looked at. -/
inductive Fails (files : Files) (path : String) : Failure → Prop
  | unsupported (h : Path.isSwift path = false) : Fails files path (.unsupported path)
  | unreadable (h : Path.isSwift path = true) {e : ReadError} (he : files path = .error e) :
    Fails files path (.unreadable path e)

/-- **The sites of a file** under a configuration. A file that cannot be read
has none. -/
def sitesOf (parse : String → Node) (files : Files) (c : Config) (path : String) : List Site :=
  match files path with
  | .ok source => (parse source).scan source c.markerName
  | .error _ => []

/-- The text of a file. One that cannot be read has none. -/
def sourceOf (files : Files) (path : String) : String :=
  match files path with
  | .ok source => source
  | .error _ => ""

/-- The report on a file that can be read. -/
def fileReport (parse : String → Node) (files : Files) (c : Config) (path : String) :
    FileReport :=
  FileReport.ofSites c path (sourceOf files path) (sitesOf parse files c path)

section Files

variable (parse : String → Node) {files : Files} {path : String}

/-- A file can be reported on, or there is a reason why not. -/
theorem exists_fails_of_not_isReadable (h : ¬ IsReadable files path) :
    ∃ f, Fails files path f := by
  cases hswift : Path.isSwift path with
  | false => exact ⟨_, .unsupported hswift⟩
  | true =>
    cases hread : files path with
    | error e => exact ⟨_, .unreadable hswift hread⟩
    | ok source => exact absurd ⟨hswift, source, hread⟩ h

/-- A file with such a reason cannot be reported on. -/
theorem Fails.not_isReadable {f : Failure} (h : Fails files path f) : ¬ IsReadable files path := by
  rintro ⟨hswift, source, hread⟩
  cases h with
  | unsupported hnot => exact absurd (hswift.symm.trans hnot) (by decide)
  | unreadable _ he => exact absurd (hread.symm.trans he) (by simp)

theorem reportOn_of_fails {f : Failure} (h : Fails files path f) (c : Config) :
    reportOn parse files c path = .error f := by
  unfold reportOn readSource
  cases h with
  | unsupported hswift => rw [hswift]; rfl
  | unreadable hswift he => rw [hswift, he]; rfl

theorem reportOn_of_isReadable (h : IsReadable files path) (c : Config) :
    reportOn parse files c path = .ok (fileReport parse files c path) := by
  obtain ⟨hswift, source, hread⟩ := h
  unfold reportOn readSource fileReport sitesOf sourceOf
  rw [hswift, hread]
  rfl

end Files

/-! ## Lines of diagnostics -/

/-- **What is written about the sites of a file**: a line for each diagnostic,
behind the path. -/
def diagnosticText (c : Config) (path : String) (sites : List Site) : List Char :=
  sites.flatMap fun s =>
    (s.request.expand c.options).diagnostics.flatMap fun d =>
      (path ++ ":" ++ d.display ++ "\n").toList

/-- Lines one behind the other. -/
theorem toList_lines (ls : List String) :
    (lines ls).toList = ls.flatMap fun l => (l ++ "\n").toList := by
  unfold lines
  rw [Text.toList_join, show "".toList = [] from rfl, Chars.join_nil, List.map_map,
    ← List.flatMap_def]
  rfl

/-- The diagnostics of a report are those of its sites. -/
theorem diagnostics_ofSites (c : Config) (path source : String) (sites : List Site) :
    (FileReport.ofSites c path source sites).diagnostics
      = sites.flatMap fun s => (s.request.expand c.options).diagnostics := by
  unfold FileReport.diagnostics FileReport.ofSites
  rw [List.flatMap_map]
  rfl

/-- The lines of a report. -/
theorem flatMap_diagnosticLines (c : Config) (path source : String) (sites : List Site) :
    ((FileReport.ofSites c path source sites).diagnosticLines.flatMap fun l =>
        (l ++ "\n").toList)
      = diagnosticText c path sites := by
  unfold FileReport.diagnosticLines diagnosticText
  rw [diagnostics_ofSites, List.flatMap_map, List.flatMap_assoc]
  rfl

/-- **Something is written exactly when there is a diagnostic**, as no line is
empty. -/
theorem diagnosticText_eq_nil_iff (c : Config) (path : String) (sites : List Site) :
    diagnosticText c path sites = [] ↔
      ∀ s ∈ sites, (s.request.expand c.options).diagnostics = [] := by
  unfold diagnosticText
  rw [List.flatMap_eq_nil_iff]
  refine forall₂_congr (fun s _ => ?_)
  rw [List.flatMap_eq_nil_iff, List.eq_nil_iff_forall_not_mem]
  exact forall₂_congr (fun d _ => iff_of_false (by simp [String.toList_append]) (fun h => h))

/-! ## Runs -/

/-- A run under a configuration that has been loaded. -/
theorem runWith_of_load {sources : ConfigSources} {c : Config} (h : Config.load sources = .ok c)
    (parse : String → Node) (logger : Logger) (files : Files) (i : Invocation) :
    runWith parse logger files sources i
      = (Outcome.ofResult (perform parse files c i)).behind (logged parse logger files c i) := by
  unfold runWith
  rw [h]

/-- **Nothing is logged unless it is asked for**, by a filter or by a run that is
verbose and not quiet. -/
theorem logged_eq_empty {logger : Logger} (hfilter : logger.filter? = none) {i : Invocation}
    (hi : i.verbose = false ∨ i.quiet = true) (parse : String → Node) (files : Files)
    (c : Config) : logged parse logger files c i = "" := by
  refine Logger.text_eq_empty hfilter ?_ _
  unfold Invocation.logLevel
  rcases hi with hverbose | hquiet
  · rw [hverbose]
    split
    · decide
    · decide
  · rw [if_pos hquiet]
    decide

/-! ## Checks -/

section Checks

variable (parse : String → Node)

/-- **What is written about several files**, one behind the other. -/
def checkText (files : Files) (c : Config) (paths : List String) : List Char :=
  paths.flatMap fun path => diagnosticText c path (sitesOf parse files c path)

/-- The lines of the reports on several files. -/
theorem toList_checkedText (files : Files) (c : Config) (paths : List String) :
    (checkedText (paths.map (fileReport parse files c)) .text).toList
      = checkText parse files c paths := by
  unfold checkedText checkText
  dsimp only
  rw [toList_lines, List.flatMap_map, List.flatMap_assoc]
  exact congrArg (paths.flatMap ·) (funext fun path => flatMap_diagnosticLines ..)

/-- **The count of diagnostics agrees with what is written.** -/
theorem length_diagnostics_eq_zero_iff (files : Files) (c : Config) (paths : List String) :
    ((paths.map (fileReport parse files c)).flatMap FileReport.diagnostics).length = 0
      ↔ checkText parse files c paths = [] := by
  unfold checkText
  rw [List.length_eq_zero_iff, List.flatMap_map, List.flatMap_eq_nil_iff, List.flatMap_eq_nil_iff]
  refine forall₂_congr (fun path _ => ?_)
  rw [fileReport, diagnostics_ofSites, List.flatMap_eq_nil_iff, diagnosticText_eq_nil_iff]

/-- The exit code of a check. -/
theorem exitCode_length_diagnostics (files : Files) (c : Config) (paths : List String) :
    exitCode (((paths.map (fileReport parse files c)).flatMap FileReport.diagnostics).length != 0)
      = if checkText parse files c paths = [] then 0 else 1 := by
  unfold exitCode
  by_cases hnil : checkText parse files c paths = []
  · rw [if_pos hnil, (length_diagnostics_eq_zero_iff ..).mpr hnil]
    rfl
  · rw [if_neg hnil, if_pos (bne_iff_ne.mpr fun hlength =>
      hnil ((length_diagnostics_eq_zero_iff ..).mp hlength))]

/-- A check of files that can all be reported on. -/
theorem check_of_isReadable {files : Files} {paths : List String}
    (h : ∀ path ∈ paths, IsReadable files path) (c : Config) (format : Format) (quiet : Bool) :
    ∃ err, check parse files c format quiet paths
      = .ok
          { exit := if checkText parse files c paths = [] then 0 else 1
            out := checkedText (paths.map (fileReport parse files c)) format
            err } := by
  rw [← exitCode_length_diagnostics]
  unfold check
  rw [mapM_eq_ok fun path hpath => reportOn_of_isReadable parse (h path hpath) c]
  exact ⟨_, rfl⟩

/-- A check that comes to a file that cannot be reported on. -/
theorem check_of_fails {files : Files} {front back : List String} {path : String} {f : Failure}
    (hfront : ∀ p ∈ front, IsReadable files p) (h : Fails files path f) (c : Config)
    (format : Format) (quiet : Bool) :
    check parse files c format quiet (front ++ path :: back) = .error f := by
  unfold check
  rw [mapM_eq_error (fun p hp => ⟨_, reportOn_of_isReadable parse (hfront p hp) c⟩)
    (reportOn_of_fails parse h c)]
  rfl

/-- The sites of a file are in the order in which they begin. -/
theorem pairwise_start_sitesOf (files : Files) (c : Config) (path : String) :
    (sitesOf parse files c path).Pairwise
      (fun s t => s.declaration.start ≤ t.declaration.start) := by
  unfold sitesOf
  split
  · exact Node.pairwise_start_scan ..
  · exact List.Pairwise.nil

end Checks

/-- **What a check of files comes to** under the configuration of its run, behind
what has been logged. -/
structure IsCheckOf (parse : String → Node) (files : Files) (c : Config) (paths : List String)
    (format : Format) (logged : String) (o : Outcome) : Prop where
  /-- The first file that cannot be reported on is the failure of the check. -/
  of_not_readable : (∃ path ∈ paths, ¬ IsReadable files path) →
    ∃ front path back f, paths = front ++ path :: back ∧ (∀ p ∈ front, IsReadable files p)
      ∧ Fails files path f ∧ o = ⟨2, "", logged ++ ("vft error: " ++ f.message ++ "\n")⟩
  /-- The diagnostics of all files are written. -/
  out_eq : (∀ path ∈ paths, IsReadable files path) → format = .text →
    o.out.toList = checkText parse files c paths
  /-- The sites of each file are in the order in which they begin. -/
  inOrder : ∀ path ∈ paths,
    (sitesOf parse files c path).Pairwise (fun s t => s.declaration.start ≤ t.declaration.start)
  /-- The exit code tells whether there are any. -/
  exit_eq : (∀ path ∈ paths, IsReadable files path) →
    o.exit = if checkText parse files c paths = [] then 0 else 1

/-- **A check writes about all of its files or about none**, whatever the parser
makes of their sources. If there is a file that cannot be reported on, the
outcome is the failure of the first such file, behind what has been logged, and
nothing else is written. Otherwise the text is that of all diagnostics, the
files in the order of the arguments and the sites of a file in the order in
which they begin, and the exit code is 1 exactly when the text is not empty.
Nothing is logged unless it is asked for. -/
theorem check_is_all_or_nothing (parse : String → Node) (logger : Logger) (files : Files)
    (sources : ConfigSources) (c : Config) (hload : Config.load sources = .ok c)
    (paths : List String) (strictInit : Bool) (format : Format) (quiet verbose : Bool) :
    let i : Invocation := { task := .check paths strictInit, format, quiet, verbose }
    IsCheckOf parse files (c.overriddenBy { strictInit }) paths format
        (logged parse logger files c i) (runWith parse logger files sources i)
      ∧ (logger.filter? = none → verbose = false ∨ quiet = true →
          logged parse logger files c i = "") := by
  intro i
  refine ⟨?_, fun hfilter hi => logged_eq_empty hfilter hi ..⟩
  rw [runWith_of_load hload]
  show IsCheckOf _ _ _ _ _ _
    ((Outcome.ofResult
      (check parse files (c.overriddenBy { strictInit }) format quiet paths)).behind _)
  refine ⟨fun h => ?_, fun h htext => ?_, fun path _ => pairwise_start_sitesOf .., fun h => ?_⟩
  · obtain ⟨front, path, back, rfl, hfront, hnot⟩ := exists_first_of_exists_not h
    obtain ⟨f, hf⟩ := exists_fails_of_not_isReadable hnot
    refine ⟨front, path, back, f, rfl, hfront, hf, ?_⟩
    rw [check_of_fails parse hfront hf]
    rfl
  · obtain ⟨err, hcheck⟩ := check_of_isReadable parse h (c.overriddenBy { strictInit }) format quiet
    rw [hcheck, htext]
    exact toList_checkedText ..
  · obtain ⟨err, hcheck⟩ := check_of_isReadable parse h (c.overriddenBy { strictInit }) format quiet
    rw [hcheck]
    rfl

/-- Files of which one is not there. -/
def mixedFiles : Files := fun path =>
  if path = "C.swift" then .error .notFound else .ok "@VisibleForTesting let x: Int\n"

/-- A logger that writes down what was said. -/
def wordyLogger : Logger where
  line _ e := e.message ++ "\n"

/-- Of two files that cannot be reported on, behind one that can, the first one
counts. A verbose run logs what it has done up to there. -/
theorem check_is_all_or_nothing_mixedFiles :
    Config.load {} = .ok {} ∧ IsReadable mixedFiles "A.swift"
      ∧ ¬ IsReadable mixedFiles "B.txt" ∧ ¬ IsReadable mixedFiles "C.swift"
      ∧ (runWith Source.parse wordyLogger mixedFiles {}
          { task := .check ["A.swift", "B.txt", "C.swift"] true, verbose := true })
        = ⟨2, "", "loaded configuration\nscanned swift file\n"
            ++ "vft error: Language not supported: B.txt\n"⟩ := by
  have hload : Config.load {} = .ok {} := rfl
  have hreadable : IsReadable mixedFiles "A.swift" := ⟨by decide +kernel, _, if_neg (by decide)⟩
  have htext : ¬ IsReadable mixedFiles "B.txt" := fun h => absurd h.1 (by decide +kernel)
  have hmissing : ¬ IsReadable mixedFiles "C.swift" :=
    (Fails.unreadable (by decide +kernel) (if_pos rfl)).not_isReadable
  refine ⟨hload, hreadable, htext, hmissing, ?_⟩
  obtain ⟨front, path, back, f, hpaths, hfront, hf, houtcome⟩ :=
    (check_is_all_or_nothing Source.parse wordyLogger mixedFiles {} {} hload
      ["A.swift", "B.txt", "C.swift"] true .text false true).1.of_not_readable
        ⟨"B.txt", by simp, htext⟩
  rw [houtcome]
  match front, hpaths with
  | [], hpaths =>
    obtain ⟨rfl, -⟩ := List.cons_eq_cons.mp hpaths
    exact absurd hreadable hf.not_isReadable
  | [_], hpaths =>
    obtain ⟨-, hpaths⟩ := List.cons_eq_cons.mp hpaths
    obtain ⟨rfl, -⟩ := List.cons_eq_cons.mp hpaths
    cases hf with
    | unsupported h => decide +kernel
    | unreadable h _ => exact absurd h (by decide +kernel)
  | _ :: p :: _, hpaths =>
    obtain ⟨-, hpaths⟩ := List.cons_eq_cons.mp hpaths
    obtain ⟨rfl, -⟩ := List.cons_eq_cons.mp hpaths
    exact absurd (hfront "B.txt" (by simp)) htext

end Command

end TestAccess
