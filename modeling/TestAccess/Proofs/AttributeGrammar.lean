import TestAccess.Proofs.MarkerNames

/-!
# Which attributes have a name

The name of an attribute is cut out of its text from both ends: the blanks
around the text go, then the signs in front, then all from the first
parenthesis on, then all up to the last dot, and the blanks that come to light
go as well. The order of the cuts matters. The arguments may hold dots and
signs, and they must be gone before the last dot is looked for; and the blanks
behind a dot belong to neither the module nor the name.

This module reads the cuts backwards. `AttributeText` is the grammar: signs, the
path of a type, and arguments of any content. `AttributeText.Names` says which
name a path ends in. `attributeName_eq_iff` is the agreement of the two: for a
name that nothing can cut, the attributes of this name are exactly the texts
with this grammar.

Two of the cuts do not change which name is found, and this is what the proof
rests on. A text may be trimmed before the last dot is looked for
(`trim_afterLast_trim`), and signs in front of a dot do not matter
(`afterLast_dropWhile`).
-/

namespace TestAccess

/-! ## The last dot -/

namespace Chars

variable {c : Char}

/-- Behind the last occurrence of a character is all that follows it. -/
theorem afterLast_append_cons {tail : List Char} (h : c ∉ tail) (front : List Char) :
    afterLast (· == c) (front ++ c :: tail) = tail := by
  have htaken : ∀ d ∈ tail.reverse, (!(d == c)) = true := by
    intro d hd
    rw [Bool.not_eq_true', beq_eq_false_iff_ne]
    exact ne_of_mem_of_not_mem (List.mem_reverse.mp hd) h
  unfold afterLast
  rw [List.reverse_append, List.reverse_cons, List.append_assoc,
    List.takeWhile_append_of_pos htaken, List.singleton_append,
    List.takeWhile_cons_of_neg (by simp), List.append_nil, List.reverse_reverse]

/-- A text that has a character can be cut at its last occurrence. -/
theorem exists_eq_append_cons_of_mem {cs : List Char} (h : c ∈ cs) :
    ∃ front tail, cs = front ++ c :: tail ∧ c ∉ tail := by
  obtain ⟨back, front, hreverse, hback⟩ :=
    List.eq_append_cons_of_mem (List.mem_reverse.mpr h)
  refine ⟨front.reverse, back.reverse, ?_, fun hc => hback (List.mem_reverse.mp hc)⟩
  rw [← List.reverse_reverse cs, hreverse, List.reverse_append, List.reverse_cons,
    List.append_assoc, List.singleton_append]

/-- Trimming a text around a character that is not blank. -/
theorem exists_trim_append_cons (hc : isBlank c = false) (front tail : List Char) :
    ∃ front', trim (front ++ c :: tail) = front' ++ c :: trimEnd tail := by
  unfold trim trimStart
  rw [List.dropWhile_append]
  split
  · rw [List.dropWhile_cons_of_neg (by rw [hc]; exact Bool.false_ne_true)]
    exact ⟨[], trimEnd_append_cons hc [] tail⟩
  · exact ⟨_, trimEnd_append_cons hc _ tail⟩

/-- **A text may be trimmed before it is cut**, if it is trimmed again behind
the cut. -/
theorem trim_afterLast_trim (hc : isBlank c = false) (cs : List Char) :
    trim (afterLast (· == c) (trim cs)) = trim (afterLast (· == c) cs) := by
  by_cases hmem : c ∈ cs
  · obtain ⟨front, tail, rfl, htail⟩ := exists_eq_append_cons_of_mem hmem
    have hstart : trimEnd tail <+: tail := List.rdropWhile_prefix isBlank tail
    obtain ⟨front', htrim⟩ := exists_trim_append_cons hc front tail
    rw [htrim, afterLast_append_cons (fun h => htail (hstart.subset h)),
      afterLast_append_cons htail, trim_trimEnd]
  · rw [afterLast_of_not_mem hmem, afterLast_of_not_mem (fun h => hmem (mem_of_mem_trim h)),
      trim_trim]

/-- **What is dropped in front of the cut does not matter** behind it. -/
theorem afterLast_dropWhile {q : Char → Bool} (hq : q c = false) {cs : List Char}
    (h : c ∈ cs) : afterLast (· == c) (cs.dropWhile q) = afterLast (· == c) cs := by
  obtain ⟨front, tail, rfl, htail⟩ := exists_eq_append_cons_of_mem h
  rw [afterLast_append_cons htail, List.dropWhile_append]
  split
  · rw [List.dropWhile_cons_of_neg (by rw [hq]; exact Bool.false_ne_true)]
    exact afterLast_append_cons htail []
  · exact afterLast_append_cons htail _

/-- Blanks in front of a text are trimmed away. -/
theorem trim_append_of_blank {blanks : List Char} (h : ∀ c ∈ blanks, isBlank c = true)
    (cs : List Char) : trim (blanks ++ cs) = trim cs := by
  unfold trim trimStart
  rw [List.dropWhile_append_of_pos h]

end Chars

/-! ## The grammar -/

/-- **An attribute as it is written**: signs, the path of the type it names,
and its arguments. -/
structure AttributeText where
  /-- How many signs stand in front. -/
  signs : Nat
  path : List Char
  arguments : List Char
  not_mem_path : '(' ∉ path
  head?_arguments : arguments = [] ∨ arguments.head? = some '('

namespace AttributeText

/-- The text, with no blanks around it. -/
def chars (t : AttributeText) : List Char := List.replicate t.signs '@' ++ t.path ++ t.arguments

/-- **The path ends in a name**: it is the name, or has it behind a dot and
maybe blanks, in whatever module. The blanks around the path do not count. -/
def Names (t : AttributeText) (name : List Char) : Prop :=
  Chars.trim t.path = name
    ∨ ∃ module blanks, Chars.trim t.path = module ++ '.' :: (blanks ++ name)
        ∧ ∀ c ∈ blanks, isBlank c = true

/-- Arguments open with no sign. -/
theorem dropWhile_arguments (t : AttributeText) :
    t.arguments.dropWhile (· == '@') = t.arguments := by
  rcases t.head?_arguments with hnone | hopen
  · rw [hnone, List.dropWhile_nil]
  · obtain ⟨rest, hrest⟩ := List.head?_eq_some_iff.mp hopen
    rw [hrest, List.dropWhile_cons_of_neg (by decide)]

/-- The signs are dropped, also those in front of the path. -/
theorem dropWhile_chars (t : AttributeText) :
    t.chars.dropWhile (· == '@') = t.path.dropWhile (· == '@') ++ t.arguments := by
  have hsigns : ∀ c ∈ List.replicate t.signs '@', (c == '@') = true := fun c hc => by
    rw [List.eq_of_mem_replicate hc, beq_self_eq_true]
  unfold chars
  rw [List.append_assoc, List.dropWhile_append_of_pos hsigns, List.dropWhile_append]
  split
  · rename_i hall
    rw [List.isEmpty_iff.mp hall, dropWhile_arguments, List.nil_append]
  · rfl

/-- The arguments are cut off at their parenthesis. -/
theorem before_append_arguments (t : AttributeText) {path : List Char} (h : '(' ∉ path) :
    Chars.before (· == '(') (path ++ t.arguments) = path := by
  have hpath : ∀ c ∈ path, (!(c == '(')) = true := fun c hc => by
    rw [Bool.not_eq_true', beq_eq_false_iff_ne]
    exact fun hparenthesis => h (hparenthesis ▸ hc)
  unfold Chars.before
  rw [List.takeWhile_append_of_pos hpath]
  rcases t.head?_arguments with hnone | hopen
  · rw [hnone, List.takeWhile_nil, List.append_nil]
  · obtain ⟨rest, hrest⟩ := List.head?_eq_some_iff.mp hopen
    rw [hrest, List.takeWhile_cons_of_neg (by decide), List.append_nil]

/-- **The name of an attribute is cut out of its path** alone. -/
theorem attributeName_eq {cs : List Char} (t : AttributeText) (h : Chars.trim cs = t.chars) :
    Chars.attributeName cs
      = Chars.trim (Chars.afterLast (· == '.') (t.path.dropWhile (· == '@'))) := by
  have hpath : '(' ∉ t.path.dropWhile (· == '@') := fun hmem =>
    t.not_mem_path ((List.dropWhile_suffix _).subset hmem)
  unfold Chars.attributeName
  dsimp only
  rw [h, dropWhile_chars, t.before_append_arguments hpath, Chars.trim_afterLast_trim (by decide)]

/-- **Every text can be written so**, with no sign left in front of the path. -/
theorem exists_chars_eq (cs : List Char) :
    ∃ t : AttributeText, cs = t.chars ∧ t.path.dropWhile (· == '@') = t.path := by
  let rest := cs.dropWhile (· == '@')
  have hpath : '(' ∉ Chars.before (· == '(') rest := by
    intro hmem
    have hopen : (!('(' == '(')) = true := List.mem_takeWhile_imp (p := fun c => !(c == '(')) hmem
    exact absurd hopen (by decide)
  have harguments : (rest.dropWhile fun c => !(c == '(')) = []
      ∨ (rest.dropWhile fun c => !(c == '(')).head? = some '(' := by
    cases harguments : rest.dropWhile fun c => !(c == '(') with
    | nil => exact Or.inl rfl
    | cons c arguments =>
      have hnot := List.head?_dropWhile_not (fun c => !(c == '(')) rest
      rw [harguments] at hnot
      exact Or.inr (congrArg some (by simpa using hnot))
  refine ⟨⟨(cs.takeWhile (· == '@')).length, Chars.before (· == '(') rest,
    rest.dropWhile fun c => !(c == '('), hpath, harguments⟩, ?_, ?_⟩
  · have hsigns : List.replicate (cs.takeWhile (· == '@')).length '@'
        = cs.takeWhile (· == '@') := by
      refine (List.eq_replicate_of_mem (fun c hc => ?_)).symm
      exact beq_iff_eq.mp (List.mem_takeWhile_imp (p := (· == '@')) hc)
    have hcut : Chars.before (· == '(') rest ++ (rest.dropWhile fun c => !(c == '(')) = rest :=
      List.takeWhile_append_dropWhile
    unfold chars
    dsimp only
    rw [hsigns, List.append_assoc, hcut, List.takeWhile_append_dropWhile]
  · rw [List.dropWhile_eq_self_iff]
    intro hlength hsign
    have hfront : Chars.before (· == '(') rest <+: rest := List.takeWhile_prefix _
    have hnot := List.dropWhile_get_zero_not (· == '@') cs
      (Nat.lt_of_lt_of_le hlength hfront.length_le)
    rw [List.get_eq_getElem, ← hfront.getElem hlength] at hnot
    exact hnot hsign

/-! ## The name that a path ends in -/

/-- What is cut out of a path is a name that it ends in. -/
theorem names_afterLast (t : AttributeText) :
    t.Names (Chars.trim (Chars.afterLast (· == '.') t.path)) := by
  rw [← Chars.trim_afterLast_trim (by decide)]
  by_cases hmem : '.' ∈ Chars.trim t.path
  · obtain ⟨module, tail, hpath, htail⟩ := Chars.exists_eq_append_cons_of_mem hmem
    -- the tail has no blanks at its end, since the path has none there
    have hend : Chars.trimEnd tail = tail := by
      have htwice : Chars.trimEnd (Chars.trim t.path) = Chars.trim t.path :=
        List.rdropWhile_idempotent isBlank _
      rw [hpath, Chars.trimEnd_append_cons (by decide), List.append_right_inj,
        List.cons_inj_right] at htwice
      exact htwice
    have hblanks : tail.takeWhile isBlank ++ Chars.trimStart tail = tail :=
      List.takeWhile_append_dropWhile
    refine Or.inr ⟨module, tail.takeWhile isBlank, ?_, fun d hd => List.mem_takeWhile_imp hd⟩
    rw [hpath, Chars.afterLast_append_cons htail, Chars.trim_of_trimEnd_eq hend, hblanks]
  · rw [Chars.afterLast_of_not_mem hmem, Chars.trim_trim]
    exact Or.inl rfl

/-- **The name that a path ends in is cut out of it**, if nothing can cut the
name itself. -/
theorem eq_of_names {t : AttributeText} {name : List Char} (h : t.Names name)
    (hplain : ∀ c ∈ name, isBlank c = false ∧ c ≠ '.' ∧ c ≠ '@') :
    Chars.trim (Chars.afterLast (· == '.') (t.path.dropWhile (· == '@'))) = name := by
  rcases h with hname | ⟨module, blanks, hpath, hblanks⟩
  · -- a dot or a sign in the path would be in the name
    have hpath : ∀ c ∈ t.path, c ≠ '.' ∧ c ≠ '@' := by
      intro c hc
      rcases Chars.mem_trim_or_isBlank hc with hmem | hblank
      · exact (hplain c (hname ▸ hmem)).2
      · exact ⟨by rintro rfl; exact absurd hblank (by decide),
          by rintro rfl; exact absurd hblank (by decide)⟩
    have hsign : t.path.dropWhile (· == '@') = t.path := by
      rw [List.dropWhile_eq_self_iff]
      intro hlength hsign
      exact (hpath _ (List.getElem_mem hlength)).2 (beq_iff_eq.mp hsign)
    rw [hsign, Chars.afterLast_of_not_mem (fun hdot => (hpath _ hdot).1 rfl), hname]
  · have hmem : '.' ∈ t.path :=
      Chars.mem_of_mem_trim (hpath ▸ List.mem_append_right _ (List.mem_cons_self ..))
    have htail : '.' ∉ blanks ++ name := by
      intro hdot
      rcases List.mem_append.mp hdot with hdot | hdot
      · exact absurd (hblanks _ hdot) (by decide)
      · exact (hplain _ hdot).2.1 rfl
    rw [Chars.afterLast_dropWhile (by decide) hmem, ← Chars.trim_afterLast_trim (by decide), hpath,
      Chars.afterLast_append_cons htail, Chars.trim_append_of_blank hblanks,
      Chars.trim_of_forall (fun c hc => (hplain c hc).1)]

end AttributeText

/-! ## Names and texts -/

/-- **The attributes of a name are the texts of its grammar.** Let a name have
neither a blank in it nor a dot or a sign. A text has this name exactly if,
without the blanks around it, it consists of signs, of a path that ends in the
name, and of arguments. How many signs there are, which module the name is in,
and what the arguments say does not matter. -/
theorem attributeName_eq_iff (name text : String)
    (hplain : ∀ c ∈ name.toList, isBlank c = false ∧ c ≠ '.' ∧ c ≠ '@') :
    attributeName text = name
      ↔ ∃ t : AttributeText, Chars.trim text.toList = t.chars ∧ t.Names name.toList := by
  have hchars : attributeName text = name ↔ Chars.attributeName text.toList = name.toList := by
    rw [← String.toList_inj, attributeName, String.toList_ofList]
  rw [hchars]
  constructor
  · intro hname
    obtain ⟨t, ht, hsign⟩ := AttributeText.exists_chars_eq (Chars.trim text.toList)
    refine ⟨t, ht, ?_⟩
    rw [← hname, t.attributeName_eq ht, hsign]
    exact t.names_afterLast
  · rintro ⟨t, ht, hname⟩
    rw [t.attributeName_eq ht]
    exact AttributeText.eq_of_names hname hplain

/-- An attribute with two signs, in a module of a module, with blanks around
its dots and arguments that hold all that cuts. -/
def qualifiedAttribute : AttributeText where
  signs := 2
  path := " A.W. V ".toList
  arguments := "(@B.W, (x).y)".toList
  not_mem_path := by decide +kernel
  head?_arguments := Or.inr (by decide +kernel)

/-- It has the name behind the last dot of its path, and the name is not that
of its module. -/
theorem attributeName_eq_iff_qualifiedAttribute :
    (∀ c ∈ "V".toList, isBlank c = false ∧ c ≠ '.' ∧ c ≠ '@')
      ∧ attributeName " @@ A.W. V (@B.W, (x).y)\n" = "V"
      ∧ (∀ c ∈ "W".toList, isBlank c = false ∧ c ≠ '.' ∧ c ≠ '@')
      ∧ ¬ ∃ t : AttributeText, Chars.trim " @@ A.W. V (@B.W, (x).y)\n".toList = t.chars
          ∧ t.Names "W".toList := by
  have hplain : ∀ c ∈ "V".toList, isBlank c = false ∧ c ≠ '.' ∧ c ≠ '@' :=
    List.forall_mem_singleton.mpr (by decide)
  have hother : ∀ c ∈ "W".toList, isBlank c = false ∧ c ≠ '.' ∧ c ≠ '@' :=
    List.forall_mem_singleton.mpr (by decide)
  refine ⟨hplain, ?_, hother, ?_⟩
  · refine (attributeName_eq_iff "V" _ hplain).mpr ⟨qualifiedAttribute, by decide +kernel, ?_⟩
    exact Or.inr ⟨"A.W".toList, [' '], by decide +kernel, List.forall_mem_singleton.mpr (by decide)⟩
  · rw [← attributeName_eq_iff "W" _ hother]
    decide +kernel

end TestAccess
