import TestAccess.Proofs.Edits

/-!
# Things in order

The parser makes lists of things that stand in a source one behind the other:
pieces, parts of a declaration, nodes. `Ordered` says so of any of them. Next to
the things it keeps the two offsets between which they stand, so that lists can
be put behind one another (`Ordered.append`), and so that what stands in each of
the things is in order as well (`Ordered.flatMap`).
-/

namespace TestAccess

variable {α β : Type} {range : α → ByteRange} {lo hi : Nat} {x : α} {xs ys : List α}

/-- **Things in order between two offsets**: each begins where the one in front
of it has ended, or later. -/
def Ordered (range : α → ByteRange) : Nat → Nat → List α → Prop
  | lo, hi, [] => lo ≤ hi
  | lo, hi, x :: xs =>
    lo ≤ (range x).start ∧ (range x).start ≤ (range x).stop ∧ Ordered range (range x).stop hi xs

namespace Ordered

theorem le (h : Ordered range lo hi xs) : lo ≤ hi := by
  induction xs generalizing lo with
  | nil => exact h
  | cons x xs ih =>
    obtain ⟨hlo, hx, hxs⟩ := h
    exact Nat.le_trans hlo (Nat.le_trans hx (ih hxs))

/-- The offsets may lie further apart. -/
theorem mono {lo' hi' : Nat} (h : Ordered range lo hi xs) (hlo : lo' ≤ lo) (hhi : hi ≤ hi') :
    Ordered range lo' hi' xs := by
  induction xs generalizing lo lo' with
  | nil => exact Nat.le_trans hlo (Nat.le_trans h hhi)
  | cons x xs ih =>
    obtain ⟨hx, hproper, hxs⟩ := h
    exact ⟨Nat.le_trans hlo hx, hproper, ih hxs (Nat.le_refl _)⟩

/-- Between two lists in order there is an offset. -/
theorem append_iff :
    Ordered range lo hi (xs ++ ys) ↔
      ∃ mid, Ordered range lo mid xs ∧ Ordered range mid hi ys := by
  induction xs generalizing lo with
  | nil =>
    refine ⟨fun h => ⟨lo, Nat.le_refl lo, h⟩, ?_⟩
    rintro ⟨mid, hmid, hys⟩
    exact hys.mono hmid (Nat.le_refl hi)
  | cons x xs ih =>
    rw [List.cons_append, Ordered, ih]
    constructor
    · rintro ⟨hlo, hx, mid, hxs, hys⟩
      exact ⟨mid, ⟨hlo, hx, hxs⟩, hys⟩
    · rintro ⟨mid, ⟨hlo, hx, hxs⟩, hys⟩
      exact ⟨hlo, hx, mid, hxs, hys⟩

theorem append {mid : Nat} (hxs : Ordered range lo mid xs) (hys : Ordered range mid hi ys) :
    Ordered range lo hi (xs ++ ys) :=
  append_iff.mpr ⟨mid, hxs, hys⟩

/-- Things in order stand between the two offsets. -/
theorem within (h : Ordered range lo hi xs) (hx : x ∈ xs) : (range x).Within ⟨lo, hi⟩ := by
  induction xs generalizing lo with
  | nil => exact absurd hx (List.not_mem_nil)
  | cons y ys ih =>
    obtain ⟨hlo, hy, hys⟩ := h
    rcases List.mem_cons.mp hx with rfl | hx
    · exact ⟨hlo, hys.le⟩
    · have hin := ih hys hx
      exact ⟨Nat.le_trans hlo (Nat.le_trans hy hin.1), hin.2⟩

/-- Of two things in order, the first has ended where the second begins. -/
theorem pairwise (h : Ordered range lo hi xs) :
    xs.Pairwise (fun x y => (range x).stop ≤ (range y).start) := by
  induction xs generalizing lo with
  | nil => exact List.Pairwise.nil
  | cons x xs ih =>
    obtain ⟨-, -, hxs⟩ := h
    exact List.pairwise_cons.mpr ⟨fun y hy => (hxs.within hy).1, ih hxs⟩

/-- The last of some things is one of them. -/
theorem last_mem (x : α) (xs : List α) : xs.getLast?.getD x ∈ x :: xs := by
  rw [← List.getLastD_eq_getLast?]
  exact List.getLastD_mem_cons ..

/-- **The range over things in order** reaches from where the first begins to
where the last ends. -/
theorem span (h : Ordered range lo hi (x :: xs)) :
    Ordered range (range x).start (range (xs.getLast?.getD x)).stop (x :: xs) := by
  induction xs generalizing lo x with
  | nil => exact ⟨Nat.le_refl _, h.2.1, Nat.le_refl _⟩
  | cons y ys ih =>
    obtain ⟨-, hx, hys⟩ := h
    have hspan := ih hys
    rw [List.getLast?_cons, Option.getD_some]
    exact ⟨Nat.le_refl _, hx, hspan.mono hys.1 (Nat.le_refl _)⟩

theorem map_iff {f : β → α} {bs : List β} :
    Ordered range lo hi (bs.map f) ↔ Ordered (fun b => range (f b)) lo hi bs := by
  induction bs generalizing lo with
  | nil => exact Iff.rfl
  | cons b bs ih => rw [List.map_cons, Ordered, Ordered, ih]

/-- **What stands in things in order is in order.** -/
theorem flatMap {inner : β → ByteRange} {f : α → List β} (h : Ordered range lo hi xs)
    (hf : ∀ x ∈ xs, Ordered inner (range x).start (range x).stop (f x)) :
    Ordered inner lo hi (xs.flatMap f) := by
  induction xs generalizing lo with
  | nil => exact h
  | cons x xs ih =>
    obtain ⟨hlo, -, hxs⟩ := h
    rw [List.flatMap_cons]
    exact ((hf x (List.mem_cons_self ..)).mono hlo (Nat.le_refl _)).append
      (ih hxs (fun y hy => hf y (List.mem_cons_of_mem _ hy)))

end Ordered

end TestAccess
