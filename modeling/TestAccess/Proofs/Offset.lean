import TestAccess.Text.Offset

/-!
# Cuts at byte offsets

A cut of a text at a byte offset is defined for every number, and the laws one
expects of it hold at a **boundary**: an offset that is the width of some
beginning of the text (`isBoundary_iff`). Every law about a boundary is
therefore a law about a text `front ++ rest` cut at `width front`, and is
proved by recursion over `front`.

The other notion is that of a character that *begins at* an offset
(`BeginsAt`). It is what the readings of a text by offsets have in common: the
characters of a slice are those that begin in it (`mem_slice_iff`), and a run
of characters of one class reaches as far as no other character begins
(`lt_width_takeWhile_iff`).

The last section goes from characters to bytes. A cut at a boundary cuts the
encoded text at the same number.
-/

namespace TestAccess

namespace Chars

/-! ## Boundaries -/

/-- **A boundary is the width of a beginning** of the text. -/
theorem isBoundary_iff (n : Nat) (cs : List Char) :
    isBoundary n cs = true ↔ ∃ front rest, cs = front ++ rest ∧ width front = n := by
  induction cs generalizing n with
  | nil =>
    rw [isBoundary, beq_iff_eq]
    constructor
    · intro h
      exact ⟨[], [], rfl, h.symm⟩
    · rintro ⟨front, rest, h, rfl⟩
      rw [(List.append_eq_nil_iff.mp h.symm).1, width_nil]
  | cons c cs ih =>
    rw [isBoundary, Bool.or_eq_true, Bool.and_eq_true, beq_iff_eq, decide_eq_true_iff, ih]
    constructor
    · rintro (rfl | ⟨hle, front, rest, rfl, hw⟩)
      · exact ⟨[], c :: cs, rfl, rfl⟩
      · refine ⟨c :: front, rest, rfl, ?_⟩
        rw [width_cons, hw]
        omega
    · rintro ⟨front, rest, h, rfl⟩
      cases front with
      | nil => exact Or.inl rfl
      | cons d front =>
        obtain ⟨rfl, rfl⟩ := List.cons_eq_cons.mp h
        refine Or.inr ⟨?_, front, rest, rfl, ?_⟩
        · rw [width_cons]
          omega
        · rw [width_cons]
          omega

/-- A boundary lies in the text. -/
theorem le_width_of_isBoundary {n : Nat} {cs : List Char} (h : isBoundary n cs = true) :
    n ≤ width cs := by
  obtain ⟨front, rest, rfl, rfl⟩ := (isBoundary_iff n cs).mp h
  rw [width_append]
  omega

/-- The boundaries behind `front` are those of the rest. -/
theorem isBoundary_width_add (front rest : List Char) (n : Nat) :
    isBoundary (width front + n) (front ++ rest) = isBoundary n rest := by
  induction front with
  | nil => rw [width_nil, Nat.zero_add, List.nil_append]
  | cons c front ih =>
    have hc := c.utf8Size_pos
    have hne : (c.utf8Size + width front + n == 0) = false := by
      rw [beq_eq_false_iff_ne]
      omega
    rw [List.cons_append, isBoundary, width_cons, hne, Bool.false_or,
      show c.utf8Size + width front + n - c.utf8Size = width front + n by omega, ih,
      decide_eq_true (by omega), Bool.true_and]

/-! ## Cuts -/

/-- What is taken up to an offset behind `front`. -/
theorem takeBytes_width_add (front rest : List Char) (n : Nat) :
    takeBytes (width front + n) (front ++ rest) = front ++ takeBytes n rest := by
  induction front with
  | nil => rw [width_nil, Nat.zero_add, List.nil_append, List.nil_append]
  | cons c front ih =>
    have hc := c.utf8Size_pos
    rw [List.cons_append, takeBytes, if_neg (by rw [width_cons]; omega), width_cons,
      show c.utf8Size + width front + n - c.utf8Size = width front + n by omega, ih,
      List.cons_append]

/-- What is left from an offset behind `front` on. -/
theorem dropBytes_width_add (front rest : List Char) (n : Nat) :
    dropBytes (width front + n) (front ++ rest) = dropBytes n rest := by
  induction front with
  | nil => rw [width_nil, Nat.zero_add, List.nil_append]
  | cons c front ih =>
    have hc := c.utf8Size_pos
    rw [List.cons_append, dropBytes, if_neg (by rw [width_cons]; omega), width_cons,
      show c.utf8Size + width front + n - c.utf8Size = width front + n by omega, ih]

@[simp] theorem takeBytes_width (front rest : List Char) :
    takeBytes (width front) (front ++ rest) = front := by
  simpa using takeBytes_width_add front rest 0

@[simp] theorem dropBytes_width (front rest : List Char) :
    dropBytes (width front) (front ++ rest) = rest := by
  simpa using dropBytes_width_add front rest 0

/-- **Two cuts are one**: from a boundary on, the next cut is counted from
there. -/
theorem dropBytes_dropBytes {m n : Nat} {cs : List Char} (hm : isBoundary m cs = true)
    (hmn : m ≤ n) : dropBytes (n - m) (dropBytes m cs) = dropBytes n cs := by
  obtain ⟨front, rest, rfl, rfl⟩ := (isBoundary_iff m cs).mp hm
  rw [dropBytes_width, ← dropBytes_width_add front rest (n - width front),
    Nat.add_sub_cancel' hmn]

/-- A boundary behind a cut is a boundary of what the cut leaves. -/
theorem isBoundary_sub {m n : Nat} {cs : List Char} (hm : isBoundary m cs = true)
    (hn : isBoundary n cs = true) (hmn : m ≤ n) :
    isBoundary (n - m) (dropBytes m cs) = true := by
  obtain ⟨front, rest, rfl, rfl⟩ := (isBoundary_iff m cs).mp hm
  rw [dropBytes_width, ← isBoundary_width_add front rest (n - width front),
    Nat.add_sub_cancel' hmn]
  exact hn

/-- A cut further on takes more. -/
theorem takeBytes_isPrefix {m n : Nat} (h : m ≤ n) (cs : List Char) :
    takeBytes m cs <+: takeBytes n cs := by
  induction cs generalizing m n with
  | nil => exact List.prefix_refl _
  | cons c cs ih =>
    rw [takeBytes, takeBytes]
    by_cases hm : m = 0
    · rw [if_pos hm]
      exact List.nil_prefix
    · rw [if_neg hm, if_neg (by omega), List.cons_prefix_cons]
      exact ⟨rfl, ih (Nat.sub_le_sub_right h _)⟩

/-- **Lines are counted upwards**: further on, there are no fewer line feeds
in front. -/
theorem lineAt_mono (cs : List Char) {m n : Nat} (h : m ≤ n) : lineAt cs m ≤ lineAt cs n :=
  (takeBytes_isPrefix h cs).sublist.count_le '\n'

/-! ## Where characters begin -/

/-- **A character begins at an offset** when the text in front of it is that
wide. -/
def BeginsAt (cs : List Char) (p : Nat) (c : Char) : Prop :=
  ∃ front rest, cs = front ++ c :: rest ∧ width front = p

/-- Nothing begins in the empty text. -/
@[simp] theorem not_beginsAt_nil (p : Nat) (c : Char) : ¬ BeginsAt [] p c := by
  rintro ⟨front, rest, h, -⟩
  exact absurd h (by simp)

/-- A character begins at the front of the text, or in what follows the first
character. -/
theorem beginsAt_cons (d : Char) (cs : List Char) (p : Nat) (c : Char) :
    BeginsAt (d :: cs) p c ↔
      (p = 0 ∧ c = d) ∨ (d.utf8Size ≤ p ∧ BeginsAt cs (p - d.utf8Size) c) := by
  constructor
  · rintro ⟨front, rest, h, rfl⟩
    cases front with
    | nil => exact Or.inl ⟨rfl, ((List.cons_eq_cons.mp h).1).symm⟩
    | cons a front =>
      obtain ⟨rfl, rfl⟩ := List.cons_eq_cons.mp h
      refine Or.inr ⟨?_, front, rest, rfl, ?_⟩
      · rw [width_cons]
        omega
      · rw [width_cons]
        omega
  · rintro (⟨rfl, rfl⟩ | ⟨hle, front, rest, rfl, hw⟩)
    · exact ⟨[], cs, rfl, rfl⟩
    · refine ⟨d :: front, rest, rfl, ?_⟩
      rw [width_cons, hw]
      omega

/-- Behind `front`, a character begins in the rest. -/
theorem beginsAt_append_right (front rest : List Char) (p : Nat) (c : Char) :
    BeginsAt (front ++ rest) (width front + p) c ↔ BeginsAt rest p c := by
  induction front with
  | nil => rw [List.nil_append, width_nil, Nat.zero_add]
  | cons d front ih =>
    have hd := d.utf8Size_pos
    rw [List.cons_append, beginsAt_cons, width_cons,
      show d.utf8Size + width front + p - d.utf8Size = width front + p by omega, ih]
    constructor
    · rintro (⟨h, -⟩ | ⟨-, h⟩)
      · omega
      · exact h
    · intro h
      exact Or.inr ⟨by omega, h⟩

/-- The characters up to an offset are those that begin in front of it. -/
theorem mem_takeBytes_iff (n : Nat) (cs : List Char) (c : Char) :
    c ∈ takeBytes n cs ↔ ∃ p, BeginsAt cs p c ∧ p < n := by
  induction cs generalizing n with
  | nil => simp [takeBytes]
  | cons d cs ih =>
    have hd := d.utf8Size_pos
    rw [takeBytes]
    split
    · rename_i hn
      simp [hn]
    · rename_i hn
      rw [List.mem_cons, ih]
      constructor
      · rintro (rfl | ⟨p, hp, hlt⟩)
        · exact ⟨0, (beginsAt_cons ..).mpr (Or.inl ⟨rfl, rfl⟩), by omega⟩
        · refine ⟨d.utf8Size + p, (beginsAt_cons ..).mpr (Or.inr ⟨by omega, ?_⟩), by omega⟩
          rwa [Nat.add_sub_cancel_left]
      · rintro ⟨p, hp, hlt⟩
        rcases (beginsAt_cons ..).mp hp with ⟨-, rfl⟩ | ⟨hle, hp⟩
        · exact Or.inl rfl
        · exact Or.inr ⟨_, hp, by omega⟩

/-- **The characters of a slice are those that begin in it.** -/
theorem mem_slice_iff {cs : List Char} {m : Nat} (hm : isBoundary m cs = true) (n : Nat)
    (c : Char) : c ∈ slice cs m n ↔ ∃ p, BeginsAt cs p c ∧ m ≤ p ∧ p < n := by
  obtain ⟨front, rest, rfl, rfl⟩ := (isBoundary_iff m cs).mp hm
  rw [slice, dropBytes_width, mem_takeBytes_iff]
  constructor
  · rintro ⟨p, hp, hlt⟩
    exact ⟨width front + p, (beginsAt_append_right ..).mpr hp, by omega, by omega⟩
  · rintro ⟨p, hp, hle, hlt⟩
    refine ⟨p - width front, (beginsAt_append_right front ..).mp ?_, by omega⟩
    rwa [Nat.add_sub_cancel' hle]

/-- The first character of a slice begins where the slice does. -/
theorem beginsAt_of_slice_eq_cons {cs : List Char} {m n : Nat} {c : Char} {rest : List Char}
    (hm : isBoundary m cs = true) (h : slice cs m n = c :: rest) : BeginsAt cs m c := by
  obtain ⟨front, back, rfl, rfl⟩ := (isBoundary_iff m cs).mp hm
  rw [slice, dropBytes_width] at h
  refine ⟨front, rest ++ dropBytes (n - width front) back, ?_, rfl⟩
  rw [← List.cons_append, ← h, takeBytes_append_dropBytes]

/-- A slice that is not empty opens with the character that begins where it
does. -/
theorem head?_slice_of_beginsAt {cs : List Char} {m n : Nat} {c : Char} (h : BeginsAt cs m c)
    (hmn : m < n) : (slice cs m n).head? = some c := by
  obtain ⟨front, rest, rfl, rfl⟩ := h
  rw [slice, dropBytes_width, takeBytes, if_neg (by omega), List.head?_cons]

/-- **How far a run of characters of a class reaches**: an offset lies under
the run when no character of another class begins up to it. -/
theorem lt_width_takeWhile_iff (q : Char → Bool) (cs : List Char) (k : Nat) :
    k < width (cs.takeWhile q) ↔
      k < width cs ∧ ∀ p c, BeginsAt cs p c → p ≤ k → q c = true := by
  induction cs generalizing k with
  | nil => simp
  | cons d cs ih =>
    have hd := d.utf8Size_pos
    rw [List.takeWhile_cons]
    split
    · rename_i hq
      rw [width_cons, width_cons]
      constructor
      · intro h
        refine ⟨?_, fun p c hp hle => ?_⟩
        · -- the bytes of the first character itself are under the run at once
          rcases Nat.lt_or_ge k d.utf8Size with hk | hk
          · omega
          · have := ((ih (k - d.utf8Size)).mp (by omega)).1
            omega
        · rcases (beginsAt_cons ..).mp hp with ⟨-, rfl⟩ | ⟨hdp, hp⟩
          · exact hq
          · exact ((ih (k - d.utf8Size)).mp (by omega)).2 _ c hp (by omega)
      · rintro ⟨hlt, hall⟩
        rcases Nat.lt_or_ge k d.utf8Size with hk | hk
        · omega
        · have : k - d.utf8Size < width (cs.takeWhile q) := by
            refine (ih _).mpr ⟨by omega, fun p c hp hle => ?_⟩
            refine hall (d.utf8Size + p) c ((beginsAt_cons ..).mpr (Or.inr ⟨by omega, ?_⟩))
              (by omega)
            rwa [Nat.add_sub_cancel_left]
          omega
    · rename_i hq
      rw [width_nil]
      constructor
      · intro h
        omega
      · rintro ⟨-, hall⟩
        exact absurd (hall 0 d ((beginsAt_cons ..).mpr (Or.inl ⟨rfl, rfl⟩)) (Nat.zero_le k)) hq

/-! ## Bytes -/

/-- **The bytes of a text** in UTF-8. -/
def bytes (cs : List Char) : List UInt8 := cs.flatMap String.utf8EncodeChar

@[simp] theorem bytes_nil : bytes [] = [] := rfl

@[simp] theorem bytes_append (as bs : List Char) : bytes (as ++ bs) = bytes as ++ bytes bs :=
  List.flatMap_append

/-- The width of a text is the number of its bytes. -/
@[simp] theorem length_bytes (cs : List Char) : (bytes cs).length = width cs := by
  induction cs with
  | nil => rfl
  | cons c cs ih =>
    rw [bytes, List.flatMap_cons, List.length_append, String.length_utf8EncodeChar, width_cons]
    exact congrArg _ ih

/-- **A cut at a boundary cuts the bytes** at the same number. -/
theorem bytes_takeBytes {n : Nat} {cs : List Char} (h : isBoundary n cs = true) :
    bytes (takeBytes n cs) = (bytes cs).take n := by
  obtain ⟨front, rest, rfl, rfl⟩ := (isBoundary_iff n cs).mp h
  rw [takeBytes_width, bytes_append, ← length_bytes front, List.take_left]

theorem bytes_dropBytes {n : Nat} {cs : List Char} (h : isBoundary n cs = true) :
    bytes (dropBytes n cs) = (bytes cs).drop n := by
  obtain ⟨front, rest, rfl, rfl⟩ := (isBoundary_iff n cs).mp h
  rw [dropBytes_width, bytes_append, ← length_bytes front, List.drop_left]

end Chars

namespace Text

/-- **The bytes of a text**, as it is stored. -/
def bytes (s : String) : List UInt8 := s.toByteArray.data.toList

/-- A text is stored as the encodings of its characters. -/
theorem bytes_eq (s : String) : bytes s = Chars.bytes s.toList := by
  unfold bytes Chars.bytes
  rw [← String.utf8Encode_toList, List.utf8Encode, List.toList_data_toByteArray]

/-- The size of a text is its width. -/
theorem length_bytes (s : String) : (bytes s).length = Chars.width s.toList := by
  rw [bytes_eq, Chars.length_bytes]

end Text

end TestAccess
