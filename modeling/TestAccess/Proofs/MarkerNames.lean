import TestAccess.Proofs.OtherAttributes
import TestAccess.Proofs.ScanOrder

/-!
# Which annotations can be matched

The annotation of a configuration is looked at three times, and each time
trimmed in another way. Validation takes the signs off its front and then asks
whether the rest is an identifier *apart from the blanks around it*. A scan
takes the signs off and keeps the blanks. And the name of an attribute in the
source never has blanks around it.

So validation lets annotations through that no attribute can match. For those
it accepts, the attribute written with the sign and the annotation has the
name of the annotation without the blanks around it
(`attributeName_sign_append`), and this is what the scan looks for exactly
when there are no such blanks. With blanks around it, the annotation is
accepted and every scan comes back empty, whatever the source
(`accepted_marker_is_found_iff_trimmed`).
-/

namespace TestAccess

namespace Chars

/-! ## Trimming around a character that is not blank -/

/-- What stands behind a character that is not blank is trimmed on its own. -/
theorem trimEnd_append_cons {c : Char} (hc : isBlank c = false) (front rest : List Char) :
    trimEnd (front ++ c :: rest) = front ++ c :: trimEnd rest := by
  have hstop : (c :: front.reverse).dropWhile isBlank = c :: front.reverse := by
    rw [List.dropWhile_cons, if_neg (by simp [hc])]
  unfold trimEnd dropEndWhile
  rw [List.reverse_append, List.reverse_cons, List.append_assoc, List.singleton_append,
    List.dropWhile_append, hstop]
  split
  · rename_i hblank
    rw [List.isEmpty_iff.mp hblank]
    simp
  · simp

/-- A text is blank throughout, or its first character that is not blank can
be shown. -/
theorem exists_eq_append_cons_or_all (cs : List Char) :
    (∃ front c rest, cs = front ++ c :: rest ∧ isBlank c = false
        ∧ front.all isBlank = true) ∨ cs.all isBlank = true := by
  induction cs with
  | nil => exact Or.inr rfl
  | cons d ds ih =>
    cases hd : isBlank d with
    | false => exact Or.inl ⟨[], d, ds, rfl, hd, rfl⟩
    | true =>
      rcases ih with ⟨front, c, rest, rfl, hc, hfront⟩ | hall
      · exact Or.inl ⟨d :: front, c, rest, rfl, hc, by rw [List.all_cons, hd, hfront]; rfl⟩
      · exact Or.inr (by rw [List.all_cons, hd, hall]; rfl)

/-- Trimming a text that begins, blanks aside, with a given character. -/
theorem trim_append_cons {c : Char} (hc : isBlank c = false) {front : List Char}
    (hfront : front.all isBlank = true) (rest : List Char) :
    trim (front ++ c :: rest) = c :: trimEnd rest := by
  have hstart : trimStart (front ++ c :: rest) = c :: rest := by
    unfold trimStart
    rw [List.dropWhile_append_of_pos (List.all_eq_true.mp hfront), List.dropWhile_cons,
      if_neg (by simp [hc])]
  rw [trim, hstart]
  exact trimEnd_append_cons hc [] rest

/-- A sign is dropped from the front of a text, and the blanks from its end. -/
theorem dropWhile_trim_cons {c : Char} (hc : isBlank c = false) {cs : List Char}
    (hfirst : cs.head? ≠ some c) : (trim (c :: cs)).dropWhile (· == c) = trimEnd cs := by
  have htrim : trim (c :: cs) = c :: trimEnd cs := @trim_append_cons c hc [] rfl cs
  have hfront : trimEnd cs <+: cs := List.rdropWhile_prefix isBlank cs
  rw [htrim, List.dropWhile_cons, if_pos (beq_self_eq_true c), List.dropWhile_eq_self_iff]
  intro hlength hopens
  refine hfirst ?_
  rw [List.head?_eq_getElem?,
    List.getElem?_eq_getElem (Nat.lt_of_lt_of_le hlength hfront.length_le),
    ← hfront.getElem hlength]
  exact congrArg some (beq_iff_eq.mp hopens)

/-- A blank text is trimmed away, from either side. -/
theorem trimStart_of_all {cs : List Char} (h : cs.all isBlank = true) : trimStart cs = [] :=
  List.dropWhile_eq_nil_iff.mpr (List.all_eq_true.mp h)

theorem trimEnd_of_all {cs : List Char} (h : cs.all isBlank = true) : trimEnd cs = [] := by
  unfold trimEnd dropEndWhile
  rw [List.reverse_eq_nil_iff, List.dropWhile_eq_nil_iff]
  exact fun c hc => List.all_eq_true.mp h c (List.mem_reverse.mp hc)

/-- **The blanks at the end may be dropped before a text is trimmed.** -/
theorem trim_trimEnd (cs : List Char) : trim (trimEnd cs) = trim cs := by
  rcases exists_eq_append_cons_or_all cs with ⟨front, c, rest, rfl, hc, hfront⟩ | hall
  · rw [trimEnd_append_cons hc, trim_append_cons hc hfront, trim_append_cons hc hfront]
    exact congrArg _ (List.rdropWhile_idempotent isBlank rest)
  · rw [trimEnd_of_all hall, trim, trim, trimStart_of_all hall, trimStart_nil]

/-- What trimming takes out of a text is blank. -/
theorem mem_trim_or_isBlank {c : Char} {cs : List Char} (h : c ∈ cs) :
    c ∈ trim cs ∨ isBlank c = true := by
  have hend : ∀ ds : List Char, c ∈ ds → c ∈ trimEnd ds ∨ isBlank c = true := by
    intro ds hds
    rw [← List.mem_reverse, ← List.takeWhile_append_dropWhile (p := isBlank) (l := ds.reverse),
      List.mem_append] at hds
    rcases hds with hds | hds
    · exact Or.inr (List.mem_takeWhile_imp hds)
    · exact Or.inl (List.mem_reverse.mpr hds)
  rw [← List.takeWhile_append_dropWhile (p := isBlank) (l := cs), List.mem_append] at h
  rcases h with h | h
  · exact Or.inr (List.mem_takeWhile_imp h)
  · exact hend _ h

/-- What trimming leaves of a text stood in the text. -/
theorem mem_of_mem_trim {c : Char} {cs : List Char} (h : c ∈ trim cs) : c ∈ cs :=
  (List.dropWhile_suffix isBlank).subset ((List.rdropWhile_prefix isBlank _).subset h)

/-- **A text without blanks at its end** is trimmed at its front only. -/
theorem trim_of_trimEnd_eq {cs : List Char} (h : trimEnd cs = cs) : trim cs = trimStart cs := by
  show (cs.dropWhile isBlank).rdropWhile isBlank = cs.dropWhile isBlank
  rw [List.rdropWhile_eq_self_iff]
  intro hne
  have hlast := List.rdropWhile_eq_self_iff.mp h
    (fun hnil => hne (by rw [hnil, List.dropWhile_nil]))
  rwa [(List.dropWhile_suffix isBlank).getLast hne]

/-- A text without blanks is not trimmed. -/
theorem trim_of_forall {cs : List Char} (h : ∀ c ∈ cs, isBlank c = false) : trim cs = cs := by
  have hend : trimEnd cs = cs := by
    show cs.rdropWhile isBlank = cs
    rw [List.rdropWhile_eq_self_iff]
    intro hne
    rw [h _ (List.getLast_mem hne)]
    exact Bool.false_ne_true
  rw [trim_of_trimEnd_eq hend, trimStart, List.dropWhile_eq_self_iff]
  intro hlength
  rw [h _ (List.getElem_mem hlength)]
  exact Bool.false_ne_true

/-! ## The characters of an identifier -/

/-- What unescaping takes out of a text are backticks. -/
theorem mem_unescape_or_eq {c : Char} {cs : List Char} (h : c ∈ cs) :
    c ∈ unescape cs ∨ c = '`' := by
  unfold unescape
  split
  · rename_i rest
    split
    · rename_i inner hinner
      rw [List.reverse_eq_cons_iff] at hinner
      rw [hinner, List.mem_cons, List.mem_append, List.mem_singleton] at h
      exact h.elim Or.inr id
    · exact Or.inl h
  · exact Or.inl h

/-- **The identifier in a text that passes as one** consists of letters,
numbers and underscores. -/
theorem isAlphanumeric_of_mem_unescape_trim {cs : List Char} (h : isIdentifier cs = true)
    {c : Char} (hc : c ∈ unescape (trim cs)) : c = '_' ∨ isAlphanumeric c = true := by
  unfold isIdentifier at h
  split at h
  · exact absurd h Bool.false_ne_true
  · rename_i first rest hname
    rw [hname, List.mem_cons] at hc
    simp only [Bool.and_eq_true, Bool.or_eq_true, decide_eq_true_eq, List.all_eq_true] at h
    rcases hc with rfl | hc
    · exact h.1.imp id fun hletter => by rw [isAlphanumeric, hletter]; rfl
    · exact h.2 c hc

/-- **A text that passes as an identifier** consists of letters, numbers,
underscores, backticks, and blanks. -/
theorem isAlphanumeric_of_mem_of_isIdentifier {cs : List Char} (h : isIdentifier cs = true)
    {c : Char} (hc : c ∈ cs) :
    c = '_' ∨ isAlphanumeric c = true ∨ c = '`' ∨ isBlank c = true := by
  rcases mem_trim_or_isBlank hc with hc | hblank
  · rcases mem_unescape_or_eq hc with hc | htick
    · exact (isAlphanumeric_of_mem_unescape_trim h hc).imp id Or.inl
    · exact Or.inr (Or.inr (Or.inl htick))
  · exact Or.inr (Or.inr (Or.inr hblank))

/-- Nothing in a text that passes as an identifier cuts the name of an
attribute: it has no dot, and no parenthesis. -/
theorem ne_of_mem_of_isIdentifier {cs : List Char} (h : isIdentifier cs = true) {c : Char}
    (hc : c ∈ cs) : c ≠ '.' ∧ c ≠ '(' := by
  have hkind := isAlphanumeric_of_mem_of_isIdentifier h hc
  constructor
  · rintro rfl
    exact absurd hkind (by decide +kernel)
  · rintro rfl
    exact absurd hkind (by decide +kernel)

/-! ## The name of an attribute without arguments and without a module -/

/-- A text without the character at which it is cut stays as it is. -/
theorem afterLast_of_not_mem {c : Char} {cs : List Char} (h : c ∉ cs) :
    afterLast (· == c) cs = cs := by
  have htaken : ∀ d ∈ cs.reverse, (!(d == c)) = true := by
    intro d hd
    rw [Bool.not_eq_true', beq_eq_false_iff_ne]
    exact ne_of_mem_of_not_mem (List.mem_reverse.mp hd) h
  unfold afterLast
  rw [List.takeWhile_eq_self_iff.mpr htaken, List.reverse_reverse]

/-- **The name of an attribute that nothing cuts** is what follows its sign,
without the blanks around it. -/
theorem attributeName_sign_cons {cs : List Char} (hsign : cs.head? ≠ some '@')
    (hplain : ∀ c ∈ cs, c ≠ '.' ∧ c ≠ '(') : attributeName ('@' :: cs) = trim cs := by
  have hfront : trimEnd cs <+: cs := List.rdropWhile_prefix isBlank cs
  have hhead : before (· == '(') (trimEnd cs) = trimEnd cs := by
    rw [before, List.takeWhile_eq_self_iff]
    intro c hc
    simpa using (hplain c (hfront.subset hc)).2
  have hlast : afterLast (· == '.') (trim cs) = trim cs :=
    afterLast_of_not_mem fun hdot => (hplain _ (mem_of_mem_trim hdot)).1 rfl
  unfold attributeName
  dsimp only
  rw [dropWhile_trim_cons (by decide) hsign, hhead, trim_trimEnd, hlast, trim_trim]

end Chars

/-! ## Attributes and annotations -/

/-- The name of an attribute has no blanks around it. -/
theorem trim_attributeName (text : String) :
    Text.trim (attributeName text) = attributeName text := by
  unfold attributeName Text.trim Chars.attributeName
  rw [String.toList_ofList, Chars.trim_trim]

/-- **The attribute that an accepted name makes**: its name is the accepted
one without the blanks around it. -/
theorem attributeName_sign_append {name : String} (hname : Naming.isIdentifier name = true)
    (hsign : name.toList.head? ≠ some '@') : attributeName ("@" ++ name) = Text.trim name := by
  unfold attributeName Text.trim
  rw [String.toList_append]
  exact congrArg _ (Chars.attributeName_sign_cons hsign
    fun c hc => Chars.ne_of_mem_of_isIdentifier hname hc)

namespace Config

/-- The annotation is looked for without its signs. -/
theorem head?_markerName_ne (c : Config) : c.markerName.toList.head? ≠ some '@' := by
  unfold markerName ExpansionSettings.markerName
  rw [String.toList_ofList]
  intro hsign
  have hnot := List.head?_dropWhile_not (· == '@') c.expansion.marker.toList
  rw [hsign] at hnot
  exact absurd hnot (by decide)

/-- Validation has nothing against the annotation exactly when it passes as an
identifier. -/
theorem forall_validate_ne_marker_iff (c : Config) :
    (∀ text, c.validate ≠ .error (.marker text)) ↔ Naming.isIdentifier c.markerName = true := by
  unfold validate
  cases hname : Naming.isIdentifier c.markerName with
  | false => exact ⟨fun h => absurd rfl (h _), fun h => absurd h Bool.false_ne_true⟩
  | true =>
    refine ⟨fun _ => rfl, fun _ text => ?_⟩
    rw [if_neg (by decide)]
    split <;> simp

end Config

namespace Node

/-- A name with blanks around it is not found in any source. -/
theorem scan_of_trim_ne {name : String} (h : Text.trim name ≠ name) (source : String)
    (root : Node) : root.scan source name = [] := by
  refine List.eq_nil_iff_forall_not_mem.mpr (fun s hs => h ?_)
  obtain ⟨o, -, hs⟩ := (mem_scan_iff ..).mp hs
  obtain ⟨-, a, -, -, hname⟩ := (Occurrence.isSome_site?_iff ..).mp ⟨s, hs⟩
  rw [← hname, trim_attributeName]

/-- A declaration with an attribute of a name is found under this name. -/
theorem exists_mem_scan_isOf {source name : String} {root : Node} {o : Occurrence}
    (ho : o.IsIn root) (hdecl : o.node.kind ∈ declarationKinds) {a : Node}
    (ha : a ∈ o.node.attributes) (hname : attributeName (a.text source.toList) = name) :
    ∃ s ∈ root.scan source name, s.IsOf source.toList name o := by
  obtain ⟨hattribute, hplace⟩ := (mem_attributes_iff ..).mp ha
  obtain ⟨s, hs⟩ := (Occurrence.isSome_site?_iff source.toList name o).mpr
    ⟨hdecl, a, hattribute, hplace, hname⟩
  exact ⟨s, (mem_scan_iff ..).mpr ⟨o, (mem_walk_iff ..).mpr ho, hs⟩, Site.isOf_of_site? hs⟩

end Node

/-- **An accepted annotation is found exactly when it has no blanks around
it.** Let validation have nothing against the annotation of a configuration.
The attribute that is written as the sign and the annotation has the name of
the annotation without the blanks around it. A declaration that carries this
attribute is a site of the scan if there are no such blanks; and if there are,
the scan of any tree over any source finds nothing. -/
theorem accepted_marker_is_found_iff_trimmed (c : Config)
    (h : ∀ text, c.validate ≠ .error (.marker text)) :
    attributeName ("@" ++ c.markerName) = Text.trim c.markerName
      ∧ (∀ (source : String) (root : Node) (o : Node.Occurrence), o.IsIn root →
          o.node.kind ∈ Node.declarationKinds →
          (∃ a ∈ o.node.attributes, a.text source.toList = "@" ++ c.markerName) →
          ((∃ s ∈ root.scan source c.markerName, s.IsOf source.toList c.markerName o)
            ↔ Text.trim c.markerName = c.markerName))
      ∧ (Text.trim c.markerName ≠ c.markerName →
          ∀ (source : String) (root : Node), root.scan source c.markerName = []) := by
  have hname := attributeName_sign_append (c.forall_validate_ne_marker_iff.mp h)
    c.head?_markerName_ne
  refine ⟨hname, fun source root o ho hdecl => ?_, Node.scan_of_trim_ne⟩
  rintro ⟨a, ha, htext⟩
  constructor
  · rintro ⟨s, hs, -⟩
    by_contra hblank
    rw [Node.scan_of_trim_ne hblank] at hs
    exact absurd hs (List.not_mem_nil)
  · intro htrim
    exact Node.exists_mem_scan_isOf ho hdecl ha (by rw [htext, hname, htrim])

/-- The source of a property whose attribute is written twice, the second time
with a blank behind the sign. -/
def spacedSource : String := "@V @ V let x: Int"

/-- The second attribute of the property. -/
def spacedMarker : Node := .mk "attribute" ⟨3, 6⟩ true [] []

/-- The tree of the property. -/
def spacedTree : Node :=
  .mk "property_declaration" ⟨0, 17⟩ true []
    [.mk "modifiers" ⟨0, 6⟩ true [] [.mk "attribute" ⟨0, 2⟩ true [] [], spacedMarker],
      .mk "value_binding_pattern" ⟨7, 10⟩ true [] [],
      .mk "pattern" ⟨11, 12⟩ true ["name"] [],
      .mk "type_annotation" ⟨12, 17⟩ true [] []]

/-- Under the annotation `@V`, which has no blanks around it, the property is
found. -/
theorem accepted_marker_is_found_iff_trimmed_spacedTree :
    (∀ text, ({ expansion := { marker := "@V" } } : Config).validate ≠ .error (.marker text))
      ∧ (⟨spacedTree, []⟩ : Node.Occurrence).IsIn spacedTree
      ∧ ∃ s ∈ spacedTree.scan spacedSource "V",
        s.IsOf spacedSource.toList "V" ⟨spacedTree, []⟩ := by
  let c : Config := { expansion := { marker := "@V" } }
  have haccepted : ∀ text, c.validate ≠ .error (.marker text) :=
    c.forall_validate_ne_marker_iff.mpr (by decide +kernel)
  have hname : c.markerName = "V" := by decide +kernel
  have hin : (⟨spacedTree, []⟩ : Node.Occurrence).IsIn spacedTree :=
    (Node.mem_walk_iff ..).mp (Node.self_mem_occurrences ..)
  obtain ⟨-, hfound, -⟩ := accepted_marker_is_found_iff_trimmed c haccepted
  refine ⟨haccepted, hin, ?_⟩
  rw [hname] at hfound
  exact (hfound spacedSource spacedTree _ hin (by decide +kernel)
    ⟨.mk "attribute" ⟨0, 2⟩ true [] [], List.mem_cons_self .., by decide +kernel⟩).mpr
    (by decide +kernel)

/-- **An annotation is accepted and matches nothing.** The annotation `@ V`,
with a blank behind the sign, passes validation. The attribute written with
the sign and this annotation has another name, and the property that carries
it is not found. -/
theorem accepted_marker_matches_nothing :
    ({ expansion := { marker := "@ V" } } : Config).validate
        = .ok { expansion := { marker := "@ V" } }
      ∧ ({ expansion := { marker := "@ V" } } : Config).markerName = " V"
      ∧ attributeName ("@" ++ " V") ≠ " V"
      ∧ (spacedMarker ∈ spacedTree.attributes ∧ spacedMarker.text spacedSource.toList = "@" ++ " V")
      ∧ spacedTree.scan spacedSource " V" = [] := by
  refine ⟨?_, by decide +kernel, by decide +kernel, ⟨?_, by decide +kernel⟩,
    Node.scan_of_trim_ne (by decide +kernel) ..⟩
  · unfold Config.validate
    rw [if_neg (by decide +kernel), if_neg (by decide +kernel)]
  · exact List.mem_cons_of_mem _ (List.mem_cons_self ..)

end TestAccess
