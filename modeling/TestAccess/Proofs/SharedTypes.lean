import TestAccess.Tree.Lowering

/-!
# Which type a binding is given

In `var a, b: Int` the type behind `b` is that of `a`, too. Types are shared in
one pass over the bindings that runs from the back and carries a type along. A
binding with a type leaves it there, a binding with a value to infer its type
from leaves nothing there, and any other binding takes what there is. What a
binding ends up with may come from far behind it, and a pass that emptied its
hand at the wrong binding would still give types that look right.

This module says from the front what the pass does. A binding lends its type to
an earlier one (`Lends`) if all bindings between the two are open, that is, have
neither a type nor a value. What is carried at any point of the pass is what
the bindings behind that point lend to the front (`carried_eq_some_iff`), and
this is the invariant that the pass keeps. `shareTypes_gives_nearest` puts it
into terms of the bindings alone: an open binding has the type of the nearest
binding that lends it one, and every other binding has its own type or none.
-/

namespace TestAccess

/-! ## Open bindings -/

namespace MarkedBinding

/-- **An open binding** has neither a type nor an initial value. -/
def IsOpen (m : MarkedBinding) : Prop :=
  m.binding.declaredType = none ∧ m.isInitialized = false

instance (m : MarkedBinding) : Decidable m.IsOpen :=
  inferInstanceAs (Decidable (_ ∧ _))

/-- The bindings of two lists, one of bindings and one of marks. -/
def zip (bindings : List Binding) (initialized : List Bool) : List MarkedBinding :=
  (bindings.zip initialized).map fun p => { binding := p.1, isInitialized := p.2 }

/-- All bindings are there if there is a mark for each of them. -/
theorem map_binding_zip {bindings : List Binding} {initialized : List Bool}
    (h : bindings.length = initialized.length) :
    (zip bindings initialized).map binding = bindings := by
  rw [zip, List.map_map]
  exact List.map_fst_zip (Nat.le_of_eq h)

/-- All marks are there if there is a binding for each of them. -/
theorem map_isInitialized_zip {bindings : List Binding} {initialized : List Bool}
    (h : bindings.length = initialized.length) :
    (zip bindings initialized).map isInitialized = initialized := by
  rw [zip, List.map_map]
  exact List.map_snd_zip (Nat.le_of_eq h.symm)

/-- The type in the place with a number, if there is one. -/
def typeAt? (marked : List MarkedBinding) (j : Nat) : Option String :=
  marked[j]?.bind fun m => m.binding.declaredType

/-- **The binding at `j` lends its type to the one at `i`**: it stands behind
it, and all bindings in between are open. -/
structure Lends (marked : List MarkedBinding) (j i : Nat) (type : String) : Prop where
  behind : i < j
  typeAt : typeAt? marked j = some type
  openBetween : ∀ k, i < k → k < j → ∀ m ∈ marked[k]?, m.IsOpen

/-- **Only one binding** can lend to another. -/
theorem Lends.unique {marked : List MarkedBinding} {i j j' : Nat} {type type' : String}
    (h : Lends marked j i type) (h' : Lends marked j' i type') : j = j' := by
  -- the nearer of two would be open, since it stands in front of the other
  have hle : ∀ {j j' : Nat} {type type' : String}, Lends marked j i type →
      Lends marked j' i type' → j' ≤ j := by
    intro j j' type type' h h'
    refine Nat.le_of_not_lt fun hlt => ?_
    obtain ⟨m, hm, htype⟩ := Option.bind_eq_some_iff.mp h.typeAt
    have hopen := h'.openBetween j h.behind hlt m hm
    rw [hopen.1] at htype
    exact absurd htype (by simp)
  exact Nat.le_antisymm (hle h' h) (hle h h')

end MarkedBinding

/-! ## The pass -/

open MarkedBinding

/-- **One step of the pass**: the type that a binding ends up with is also the
one that is carried further to the front. -/
theorem shareTypes_cons (m : MarkedBinding) (later : List MarkedBinding) :
    shareTypes (m :: later)
      = ({ m.binding with
            declaredType :=
              m.binding.declaredType.or
                (if m.isInitialized then none else (shareTypes later).2) }
            :: (shareTypes later).1,
          m.binding.declaredType.or
            (if m.isInitialized then none else (shareTypes later).2)) := by
  obtain ⟨⟨pattern, type, storage⟩, isInitialized⟩ := m
  cases type with
  | some type => rfl
  | none =>
    cases isInitialized with
    | true => rfl
    | false => rfl

/-- **Only types are shared**: whatever does not look at the type of a binding
is the same before and after. -/
theorem map_shareTypes {α : Type} {f : Binding → α}
    (hf : ∀ (b : Binding) (type : Option String), f { b with declaredType := type } = f b)
    (marked : List MarkedBinding) :
    (shareTypes marked).1.map f = (marked.map binding).map f := by
  induction marked with
  | nil => rfl
  | cons m later ih =>
    rw [shareTypes_cons, List.map_cons, List.map_cons, List.map_cons, hf, ih]

/-- **What is carried** in front of some bindings is the first type among them,
if there are only open bindings in front of it. -/
theorem carried_eq_some_iff (marked : List MarkedBinding) (type : String) :
    (shareTypes marked).2 = some type ↔
      ∃ j, typeAt? marked j = some type ∧ ∀ k < j, ∀ m ∈ marked[k]?, m.IsOpen := by
  induction marked with
  | nil => simp [shareTypes, typeAt?]
  | cons m later ih =>
    have hfirst : typeAt? (m :: later) 0 = m.binding.declaredType := rfl
    rw [shareTypes_cons]
    dsimp only
    by_cases hopen : m.IsOpen
    · -- the binding passes on what is carried behind it
      rw [hopen.1, hopen.2, Option.none_or, if_neg Bool.false_ne_true, ih]
      constructor
      · rintro ⟨j, htype, hbetween⟩
        refine ⟨j + 1, htype, fun k hk m' hm' => ?_⟩
        cases k with
        | zero => exact Option.some.inj hm' ▸ hopen
        | succ k => exact hbetween k (by omega) m' hm'
      · rintro ⟨j, htype, hbetween⟩
        cases j with
        | zero => rw [hfirst, hopen.1] at htype; exact absurd htype (by simp)
        | succ j =>
          exact ⟨j, htype, fun k hk m' hm' => hbetween (k + 1) (by omega) m' hm'⟩
    · -- nothing behind the binding counts any more
      have hown : m.binding.declaredType.or
          (if m.isInitialized then none else (shareTypes later).2) = m.binding.declaredType := by
        cases htype : m.binding.declaredType with
        | some type => rfl
        | none =>
          rw [if_pos (by simpa [MarkedBinding.IsOpen, htype] using hopen)]
          rfl
      rw [hown]
      constructor
      · intro htype
        exact ⟨0, htype, fun k hk => absurd hk (Nat.not_lt_zero k)⟩
      · rintro ⟨j, htype, hbetween⟩
        cases j with
        | zero => exact htype
        | succ j => exact absurd (hbetween 0 (Nat.succ_pos j) m rfl) hopen

/-- **What reaches a binding** is what a binding behind it lends. -/
theorem carried_drop_eq_some_iff (marked : List MarkedBinding) (i : Nat) (type : String) :
    (shareTypes (marked.drop (i + 1))).2 = some type ↔ ∃ j, Lends marked j i type := by
  rw [carried_eq_some_iff]
  simp only [typeAt?, List.getElem?_drop]
  constructor
  · rintro ⟨j, htype, hbetween⟩
    refine ⟨i + 1 + j, by omega, htype, fun k hik hkj m hm => ?_⟩
    refine hbetween (k - (i + 1)) (by omega) m ?_
    rwa [show i + 1 + (k - (i + 1)) = k by omega]
  · rintro ⟨j, hlt, htype, hbetween⟩
    refine ⟨j - (i + 1), ?_, fun k hk m hm => hbetween (i + 1 + k) (by omega) (by omega) m hm⟩
    rwa [show i + 1 + (j - (i + 1)) = j by omega]

/-- The binding in a place after the pass. -/
theorem getElem?_shareTypes (marked : List MarkedBinding) (i : Nat) :
    (shareTypes marked).1[i]? = marked[i]?.map fun m =>
      { m.binding with
        declaredType :=
          m.binding.declaredType.or
            (if m.isInitialized then none else (shareTypes (marked.drop (i + 1))).2) } := by
  induction marked generalizing i with
  | nil => rfl
  | cons m later ih =>
    rw [shareTypes_cons]
    cases i with
    | zero => rfl
    | succ i => exact ih i

/-- **The type of a binding after the pass** is its own, or is lent to it. -/
theorem declaredType_shareTypes_iff {marked : List MarkedBinding} {i : Nat} {m : MarkedBinding}
    {b : Binding} (hm : m ∈ marked[i]?) (hb : b ∈ (shareTypes marked).1[i]?) (type : String) :
    b.declaredType = some type ↔
      m.binding.declaredType = some type ∨ m.IsOpen ∧ ∃ j, Lends marked j i type := by
  have htaken : (if m.isInitialized then none else (shareTypes (marked.drop (i + 1))).2)
        = some type ↔ m.isInitialized = false ∧ ∃ j, Lends marked j i type := by
    rw [← carried_drop_eq_some_iff]
    cases m.isInitialized with
    | true => simp
    | false => simp
  rw [getElem?_shareTypes, Option.mem_def.mp hm] at hb
  rw [← Option.some.inj hb, Option.or_eq_some_iff, htaken, MarkedBinding.IsOpen, and_assoc]

/-- **A second pass changes nothing**: it gives the same bindings, and carries
the same type. -/
theorem shareTypes_again (marked : List MarkedBinding) :
    shareTypes (zip (shareTypes marked).1 (marked.map isInitialized)) = shareTypes marked := by
  induction marked with
  | nil => rfl
  | cons m later ih =>
    rw [shareTypes_cons]
    show shareTypes ({ binding := _, isInitialized := m.isInitialized }
      :: zip (shareTypes later).1 (later.map isInitialized)) = _
    rw [shareTypes_cons, ih]
    dsimp only
    rw [Option.or_assoc, Option.or_self]

/-! ## The rule from the front -/

namespace Binding

/-- The bindings after types have been shared. -/
def withSharedTypes (bindings : List Binding) (initialized : List Bool) : List Binding :=
  (shareTypes (zip bindings initialized)).1

/-- A binding without its type. -/
def untyped (b : Binding) : Binding := { b with declaredType := none }

end Binding

open Binding

/-- **An open binding is given the type of the nearest binding that lends it
one**, and no other binding is given a type. Let some bindings be marked, each
with whether it has an initial value. Sharing types changes nothing but types. A
binding then has a type exactly if it is its own, or it is open and the type is
lent to it, by the nearest binding that lends it one. Sharing types once more,
with the same marks, changes nothing. -/
theorem shareTypes_gives_nearest (bindings : List Binding) (initialized : List Bool)
    (h : bindings.length = initialized.length) :
    (withSharedTypes bindings initialized).map untyped = bindings.map untyped
      ∧ (∀ i, ∀ m ∈ (zip bindings initialized)[i]?,
          ∀ b ∈ (withSharedTypes bindings initialized)[i]?, ∀ type : String,
            b.declaredType = some type ↔
              m.binding.declaredType = some type
                ∨ m.IsOpen ∧ ∃ j, Lends (zip bindings initialized) j i type
                    ∧ ∀ j' type', Lends (zip bindings initialized) j' i type' → j ≤ j')
      ∧ withSharedTypes (withSharedTypes bindings initialized) initialized
          = withSharedTypes bindings initialized := by
  refine ⟨?_, fun i m hm b hb type => ?_, ?_⟩
  · rw [withSharedTypes, map_shareTypes (fun _ _ => rfl), map_binding_zip h]
  · rw [declaredType_shareTypes_iff hm hb]
    refine or_congr_right (and_congr_right fun _ => exists_congr fun j => ?_)
    refine (and_iff_left_of_imp fun hlends => ?_).symm
    intro j' type' hlends'
    exact Nat.le_of_eq (hlends.unique hlends')
  · have hagain := shareTypes_again (zip bindings initialized)
    rw [map_isInitialized_zip h] at hagain
    rw [withSharedTypes, withSharedTypes, hagain]

/-- Two open bindings in front of a type, a value in front of another type, and
an open binding at the end. -/
def lendingBindings : List Binding :=
  ["a", "b", "c", "d", "e", "f", "g"].zipWith
    (fun name type => { pattern := .identifier name, declaredType := type })
    [none, none, some "Int", none, none, some "S", none]

/-- The type of the third binding is lent to both in front of it, and the type of
the sixth stops at the value of the fourth. -/
theorem shareTypes_gives_nearest_lendingBindings :
    lendingBindings.length = [false, false, false, true, false, true, false].length
      ∧ ((withSharedTypes lendingBindings
            [false, false, false, true, false, true, false]).map declaredType
          = [some "Int", some "Int", some "Int", none, some "S", some "S", none])
      ∧ ∃ j, Lends (zip lendingBindings [false, false, false, true, false, true, false]) j 0
          "Int" := by
  obtain ⟨-, htypes, -⟩ := shareTypes_gives_nearest lendingBindings
    [false, false, false, true, false, true, false] rfl
  refine ⟨rfl, by decide, ?_⟩
  have hfirst := (htypes 0 _ rfl _ rfl "Int").mp (by decide)
  rcases hfirst with hown | ⟨-, j, hlends, -⟩
  · exact absurd hown (by decide)
  · exact ⟨j, hlends⟩

end TestAccess
