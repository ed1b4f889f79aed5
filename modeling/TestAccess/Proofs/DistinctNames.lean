import TestAccess.Config.Load
import Mathlib.Data.List.Nodup

/-!
# Tables name each of their members once

Tables of settings are lists of named values, and a list might hold a name
twice. Laying one table over another relies on this not being so: of two
members with one name, a look-up finds the first, and the overlay ends with
the last. This module proves that no table that comes out of a file or out of
the environment has a name twice (`ConfigSources.isLayer_of_mem_layers`), nor has
any table in it.

The reason is the same everywhere: members are added by `Value.put`, which
replaces a member of the same name. What has to be followed is how values
travel from the readers, in which they are made, to the layers. For this
`Reader.Yields` says that whatever a reader reads has a property, and each way
of combining readers has its lemma.
-/

namespace TestAccess

/-! ## Tables -/

namespace Value

/-- **A value whose tables name their members once**, on every level. Arrays
are not looked into: they are never laid over each other. -/
inductive HasDistinctNames : Value → Prop
  | plain {v : Value} (h : ∀ members, v ≠ .table members) : HasDistinctNames v
  | table {members : List (String × Value)} (hnodup : (members.map Prod.fst).Nodup)
      (h : ∀ m ∈ members, HasDistinctNames m.2) : HasDistinctNames (.table members)

theorem hasDistinctNames_table_iff (members : List (String × Value)) :
    HasDistinctNames (.table members) ↔
      (members.map Prod.fst).Nodup ∧ ∀ m ∈ members, HasDistinctNames m.2 := by
  constructor
  · intro h
    cases h with
    | plain h => exact absurd rfl (h members)
    | table hnodup h => exact ⟨hnodup, h⟩
  · exact fun h => .table h.1 h.2

/-- What a look-up finds is in the table. -/
theorem mem_of_lookup_eq_some {α : Type} {name : String} {v : α} {members : List (String × α)}
    (h : members.lookup name = some v) : (name, v) ∈ members := by
  obtain ⟨front, back, rfl, -⟩ := List.lookup_eq_some_iff.mp h
  exact List.mem_append_right _ (List.mem_cons_self ..)

/-- What is in a table once a member has been put into it. -/
theorem mem_put {α : Type} {name : String} {v : α} {members : List (String × α)}
    {m : String × α} (h : m ∈ put name v members) : m = (name, v) ∨ m ∈ members := by
  induction members with
  | nil => exact Or.inl (List.mem_singleton.mp h)
  | cons n members ih =>
    rw [put] at h
    split at h
    · rcases List.mem_cons.mp h with rfl | h
      · exact Or.inl rfl
      · exact Or.inr (List.mem_cons_of_mem _ h)
    · rcases List.mem_cons.mp h with rfl | h
      · exact Or.inr (List.mem_cons_self ..)
      · exact (ih h).imp id (List.mem_cons_of_mem _)

/-- **Putting a member into a table** does not name any member twice. -/
theorem nodup_put {α : Type} (name : String) (v : α) {members : List (String × α)}
    (h : (members.map Prod.fst).Nodup) : ((put name v members).map Prod.fst).Nodup := by
  induction members with
  | nil => exact List.nodup_singleton name
  | cons m members ih =>
    rw [List.map_cons, List.nodup_cons] at h
    rw [put]
    split
    · rename_i hname
      rw [List.map_cons, List.nodup_cons]
      exact ⟨hname ▸ h.1, h.2⟩
    · rename_i hname
      rw [List.map_cons, List.nodup_cons]
      refine ⟨fun hmem => ?_, ih h.2⟩
      obtain ⟨m', hm', hfst⟩ := List.mem_map.mp hmem
      rcases mem_put hm' with rfl | hm'
      · exact hname hfst.symm
      · exact h.1 (List.mem_map.mpr ⟨m', hm', hfst⟩)

/-- The value under a path of names has tables with a single member. -/
theorem hasDistinctNames_nest (path : List String) {v : Value} (h : v.HasDistinctNames) :
    (nest path v).HasDistinctNames := by
  induction path with
  | nil => exact h
  | cons name path ih =>
    refine .table (List.nodup_singleton name) fun m hm => ?_
    rw [List.mem_singleton.mp hm]
    exact ih

mutual

/-- **Laying a value over another** does not name any member twice. -/
theorem hasDistinctNames_overlay : {upper lower : Value} → upper.HasDistinctNames →
    lower.HasDistinctNames → (overlay upper lower).HasDistinctNames
  | .table above, .table below, h, h' => by
    rw [hasDistinctNames_table_iff] at h h'
    rw [overlay, hasDistinctNames_table_iff]
    exact hasDistinctNames_overlayMembers h.2 h'.1 h'.2
  | .table _, .text _, h, _ => h
  | .table _, .character _, h, _ => h
  | .table _, .bool _, h, _ => h
  | .table _, .integer _, h, _ => h
  | .table _, .float _, h, _ => h
  | .table _, .array _, h, _ => h
  | .text _, _, h, _ => by rw [overlay]; exact h
  | .character _, _, h, _ => by rw [overlay]; exact h
  | .bool _, _, h, _ => by rw [overlay]; exact h
  | .integer _, _, h, _ => by rw [overlay]; exact h
  | .float _, _, h, _ => by rw [overlay]; exact h
  | .array _, _, h, _ => by rw [overlay]; exact h

theorem hasDistinctNames_overlayMembers : {above below : List (String × Value)} →
    (∀ m ∈ above, m.2.HasDistinctNames) → (below.map Prod.fst).Nodup →
    (∀ m ∈ below, m.2.HasDistinctNames) →
    ((overlayMembers above below).map Prod.fst).Nodup
      ∧ ∀ m ∈ overlayMembers above below, m.2.HasDistinctNames
  | [], _, _, hnodup, hbelow => ⟨hnodup, hbelow⟩
  | (name, v) :: above, below, habove, hnodup, hbelow => by
    have hv := habove _ (List.mem_cons_self ..)
    rw [overlayMembers]
    -- what is below changes with every member that is laid over it, by a `put`
    refine hasDistinctNames_overlayMembers (fun m hm => habove m (List.mem_cons_of_mem _ hm))
      (nodup_put _ _ hnodup) fun m hm => ?_
    rcases mem_put hm with rfl | hm
    · split
      · rename_i u hu
        exact hasDistinctNames_overlay hv (hbelow _ (mem_of_lookup_eq_some hu))
      · exact hv
    · exact hbelow m hm

end

/-- A table into which members are put one after the other. -/
theorem hasDistinctNames_foldl_put {pairs members : Members}
    (hpairs : ∀ p ∈ pairs, p.2.HasDistinctNames)
    (hmembers : HasDistinctNames (.table members)) :
    HasDistinctNames (.table (pairs.foldl (fun members p => put p.1 p.2 members) members)) := by
  induction pairs generalizing members with
  | nil => exact hmembers
  | cons p pairs ih =>
    rw [List.forall_mem_cons] at hpairs
    rw [hasDistinctNames_table_iff] at hmembers
    rw [List.foldl_cons]
    refine ih hpairs.2 (.table (nodup_put _ _ hmembers.1) fun m hm => ?_)
    rcases mem_put hm with rfl | hm
    · exact hpairs.1
    · exact hmembers.2 m hm

/-- **A layer of settings**: a table that names its members once, on every
level. -/
structure IsLayer (v : Value) : Prop where
  isTable : ∃ members, v = .table members
  hasDistinctNames : v.HasDistinctNames

/-- The layer without settings. -/
theorem isLayer_nil : IsLayer (.table []) :=
  ⟨⟨[], rfl⟩, .table List.nodup_nil fun _ hm => absurd hm List.not_mem_nil⟩

/-- A layer over another is a layer. -/
theorem IsLayer.overlay {above below : Value} (h : above.IsLayer) (h' : below.IsLayer) :
    (above.overlay below).IsLayer := by
  obtain ⟨members, rfl⟩ := h.isTable
  obtain ⟨members', rfl⟩ := h'.isTable
  refine ⟨⟨_, by rw [Value.overlay]⟩, ?_⟩
  exact hasDistinctNames_overlay h.hasDistinctNames h'.hasDistinctNames

end Value

/-! ## What readers read -/

namespace Reader

variable {α β : Type} {P : α → Prop} {Q : β → Prop} {r : Reader α}

/-- **Whatever a reader reads has a property.** -/
def Yields (r : Reader α) (P : α → Prop) : Prop :=
  ∀ cs a rest, r cs = some (a, rest) → P a

theorem Yields.trivial (r : Reader α) : r.Yields fun _ => True := fun _ _ _ _ => True.intro

theorem Yields.mono {P' : α → Prop} (h : r.Yields P) (hP : ∀ a, P a → P' a) : r.Yields P' :=
  fun cs a rest hr => hP a (h cs a rest hr)

theorem Yields.pure {a : α} (h : P a) : Yields (Pure.pure a) P := by
  intro cs b rest hr
  obtain ⟨rfl, -⟩ := Prod.mk.inj (Option.some.inj hr)
  exact h

theorem Yields.failure : Yields (Alternative.failure : Reader α) P := by
  intro cs a rest hr
  exact absurd hr nofun

/-- What is read in two steps. -/
theorem Yields.bind {f : α → Reader β} (h : r.Yields P) (hf : ∀ a, P a → (f a).Yields Q) :
    Yields (r >>= f) Q := by
  intro cs b rest hr
  obtain ⟨⟨a, mid⟩, ha, hb⟩ := Option.bind_eq_some_iff.mp (show (r cs).bind _ = _ from hr)
  exact hf a (h cs a mid ha) mid b rest hb

/-- What is read behind something else. -/
theorem Yields.behind {f : α → Reader β} (h : ∀ a, (f a).Yields Q) : Yields (r >>= f) Q :=
  (Yields.trivial r).bind fun a _ => h a

theorem Yields.map {f : α → β} (h : r.Yields fun a => Q (f a)) : Yields (f <$> r) Q := by
  rw [← bind_pure_comp]
  exact h.bind fun a ha => Yields.pure ha

theorem Yields.seqRight {r' : Reader β} (h : r'.Yields Q) : Yields (r *> r') Q := by
  rw [seqRight_eq_bind]
  exact Yields.behind fun _ => h

theorem Yields.seqLeft {r' : Reader β} (h : r.Yields P) : Yields (r <* r') P := by
  rw [seqLeft_eq_bind]
  exact h.bind fun a ha => Yields.behind fun _ => Yields.pure ha

theorem Yields.orElse {r' : Reader α} (h : r.Yields P) (h' : r'.Yields P) :
    Yields (r <|> r') P := by
  intro cs a rest hr
  have hr : (r cs <|> r' cs) = some (a, rest) := hr
  cases hfirst : r cs with
  | some x =>
    rw [hfirst] at hr
    exact h cs a rest (hfirst.trans hr)
  | none =>
    rw [hfirst] at hr
    exact h' cs a rest hr

theorem Yields.maybe (h : r.Yields P) : Yields (maybe r) fun o => ∀ a ∈ o, P a := by
  refine Yields.orElse (Yields.map (h.mono fun a ha b hb => ?_)) (Yields.pure nofun)
  obtain rfl := Option.some.inj hb
  exact ha

theorem forall_mem_repeated (h : r.Yields P) (cs : List Char) :
    ∀ a ∈ (repeated r cs).1, P a := by
  induction cs using repeated.induct r with
  | case1 cs hr =>
    rw [repeated, hr]
    exact fun a ha => absurd ha List.not_mem_nil
  | case2 cs a rest hr hlt others rest' hothers ih =>
    rw [repeated, hr]
    simp only [hlt, if_true]
    exact List.forall_mem_cons.mpr ⟨h cs a rest hr, ih⟩
  | case3 cs a rest hr hlt =>
    rw [repeated, hr]
    simp only [hlt, if_false]
    exact fun a ha => absurd ha List.not_mem_nil

theorem Yields.many (h : r.Yields P) : Yields (many r) fun as => ∀ a ∈ as, P a := by
  intro cs as rest hr
  obtain ⟨rfl, -⟩ := Prod.mk.inj (Option.some.inj hr)
  exact forall_mem_repeated h cs

theorem Yields.separated {separator : Reader β} (h : r.Yields P) :
    Yields (separated r separator) fun as => ∀ a ∈ as, P a := by
  refine h.maybe.bind fun o ho => ?_
  cases o with
  | none => exact Yields.pure fun a ha => absurd ha List.not_mem_nil
  | some a =>
    refine (Yields.seqRight h).many.bind fun others hothers => ?_
    exact Yields.pure (List.forall_mem_cons.mpr ⟨ho a rfl, hothers⟩)

/-- What is read from a whole text. -/
theorem Yields.all? (h : r.Yields P) {text : List Char} {a : α} (ha : r.all? text = some a) :
    P a := by
  unfold Reader.all? at ha
  split at ha
  · rename_i b hb
    obtain rfl := Option.some.inj ha
    exact h text b [] hb
  · exact absurd ha nofun

end Reader

/-- What every step of a fold keeps, the fold keeps. -/
theorem property_of_foldlM {α β : Type} {P : α → Prop} {f : α → β → Option α} {xs : List β}
    (hstep : ∀ a x b, x ∈ xs → P a → f a x = some b → P b) {a b : α} (ha : P a)
    (h : xs.foldlM f a = some b) : P b := by
  induction xs generalizing a with
  | nil =>
    obtain rfl := Option.some.inj h
    exact ha
  | cons x xs ih =>
    rw [List.foldlM_cons] at h
    obtain ⟨c, hc, h⟩ := Option.bind_eq_some_iff.mp h
    exact ih (fun a y b hy => hstep a y b (List.mem_cons_of_mem _ hy))
      (hstep a x c (List.mem_cons_self ..) ha hc) h

/-! ## Files -/

namespace Toml

/-- **A member of a document whose tables name their members once.** Repeated
tables become an array and are not looked into. -/
inductive Entry.HasDistinctNames : Entry → Prop
  | value {v : Value} (h : v.HasDistinctNames) : HasDistinctNames (.value v)
  | table {origin : Origin} {members : List (String × Entry)}
      (hnodup : (members.map Prod.fst).Nodup) (h : ∀ m ∈ members, HasDistinctNames m.2) :
      HasDistinctNames (.table origin members)
  | tables (last : List (String × Entry)) (before : List (List (String × Entry))) :
      HasDistinctNames (.tables last before)

/-- A table of a document that names its members once, on every level. -/
structure Table.HasDistinctNames (t : Table) : Prop where
  nodup : (t.members.map Prod.fst).Nodup
  entries : ∀ m ∈ t.members, m.2.HasDistinctNames

/-- A table without members. -/
theorem Table.hasDistinctNames_nil (origin : Origin) : Table.HasDistinctNames ⟨origin, []⟩ :=
  ⟨List.nodup_nil, fun _ hm => absurd hm List.not_mem_nil⟩

namespace Table.HasDistinctNames

variable {t t' : Table} {path : List String} {name : String}

theorem toEntry (h : t.HasDistinctNames) (origin : Origin) :
    Entry.HasDistinctNames (.table origin t.members) :=
  .table h.nodup h.entries

theorem of_get? (h : t.HasDistinctNames) {e : Entry} (he : t.get? name = some e) :
    e.HasDistinctNames :=
  h.entries (name, e) (Value.mem_of_lookup_eq_some he)

theorem put (h : t.HasDistinctNames) (name : String) {e : Entry} (he : e.HasDistinctNames) :
    (t.put name e).HasDistinctNames := by
  refine ⟨Value.nodup_put name e h.nodup, fun m hm => ?_⟩
  rcases Value.mem_put hm with rfl | hm
  · exact he
  · exact h.entries m hm

/-- **Changing a table at the end of a path** names nothing twice, if the
change does not. -/
theorem update {via : Origin} {change : Table → Option Table}
    (hchange : ∀ t t', t.HasDistinctNames → change t = some t' → t'.HasDistinctNames)
    (h : t.HasDistinctNames) (ht : t.update via change path = some t') : t'.HasDistinctNames := by
  induction path generalizing t t' with
  | nil => exact hchange t t' h ht
  | cons name path ih =>
    rw [Table.update] at ht
    split at ht
    · obtain ⟨inner, hinner, ht⟩ := Option.bind_eq_some_iff.mp ht
      obtain rfl := Option.some.inj ht
      exact h.put name ((ih (hasDistinctNames_nil via) hinner).toEntry _)
    · exact absurd ht nofun
    · obtain ⟨inner, -, ht⟩ := Option.bind_eq_some_iff.mp ht
      obtain rfl := Option.some.inj ht
      exact h.put name (.tables _ _)
    · rename_i origin members hget
      -- a table on the way: what is known of it comes from the table that it is in
      split at ht
      · exact absurd ht nofun
      · obtain ⟨inner, hinner, ht⟩ := Option.bind_eq_some_iff.mp ht
        obtain rfl := Option.some.inj ht
        have hmembers : Table.HasDistinctNames ⟨origin, members⟩ := by
          cases h.of_get? hget with
          | table hnodup hentries => exact ⟨hnodup, hentries⟩
        exact h.put name ((ih hmembers hinner).toEntry _)

theorem assign {v : Value} (hv : v.HasDistinctNames) (h : t.HasDistinctNames)
    (ht : t.assign path name v = some t') : t'.HasDistinctNames := by
  refine h.update (fun inner inner' hinner hassign => ?_) ht
  unfold assign.addTo at hassign
  split at hassign
  · exact absurd hassign nofun
  · split at hassign
    · obtain rfl := Option.some.inj hassign
      exact hinner.put name (.value hv)
    · exact absurd hassign nofun

theorem define (h : t.HasDistinctNames) (ht : t.define path name = some t') :
    t'.HasDistinctNames := by
  refine h.update (fun inner inner' hinner hdefine => ?_) ht
  unfold define.defineIn at hdefine
  split at hdefine
  · obtain rfl := Option.some.inj hdefine
    exact hinner.put name ((hasDistinctNames_nil .defined).toEntry _)
  · rename_i members hget
    obtain rfl := Option.some.inj hdefine
    cases hinner.of_get? hget with
    | table hnodup hentries => exact hinner.put name (.table hnodup hentries)
  · exact absurd hdefine nofun

theorem append (h : t.HasDistinctNames) (ht : t.append path name = some t') :
    t'.HasDistinctNames := by
  refine h.update (fun inner inner' hinner happend => ?_) ht
  unfold append.appendIn at happend
  split at happend
  · obtain rfl := Option.some.inj happend
    exact hinner.put name (.tables _ _)
  · obtain rfl := Option.some.inj happend
    exact hinner.put name (.tables _ _)
  · exact absurd happend nofun

end Table.HasDistinctNames

theorem membersToValue_eq_map (members : List (String × Entry)) :
    membersToValue members = members.map fun m => (m.1, m.2.toValue) := by
  induction members with
  | nil => rfl
  | cons m members ih =>
    obtain ⟨name, e⟩ := m
    rw [membersToValue, ih, List.map_cons]

/-- The members that become values keep their names. -/
theorem map_fst_membersToValue (members : List (String × Entry)) :
    (membersToValue members).map Prod.fst = members.map Prod.fst := by
  rw [membersToValue_eq_map, List.map_map]
  rfl

theorem Entry.HasDistinctNames.toValue {e : Entry} (h : e.HasDistinctNames) :
    e.toValue.HasDistinctNames := by
  induction h with
  | value h =>
    rw [Entry.toValue]
    exact h
  | table hnodup _ ih =>
    rw [Entry.toValue]
    refine .table (by rwa [map_fst_membersToValue]) fun m hm => ?_
    rw [membersToValue_eq_map] at hm
    obtain ⟨m', hm', rfl⟩ := List.mem_map.mp hm
    exact ih m' hm'
  | tables last before =>
    rw [Entry.toValue]
    exact .plain nofun

theorem Table.HasDistinctNames.toMembers {t : Table} (h : t.HasDistinctNames) :
    Value.HasDistinctNames (.table t.toMembers) := by
  have hvalue := (h.toEntry .defined).toValue
  rwa [Entry.toValue] at hvalue

/-! ### The values in a file -/

open Reader

theorem yields_scalar : Yields scalar Value.HasDistinctNames := by
  have hnumber : Yields number Value.HasDistinctNames := by
    refine Yields.orElse ?_ (Yields.orElse ?_ ?_)
    · refine Yields.behind fun _ => Yields.pure ?_
      refine .table (List.nodup_singleton _) fun m hm => ?_
      rw [List.mem_singleton.mp hm]
      exact .plain nofun
    · exact Yields.behind fun _ => Yields.pure (.plain nofun)
    · exact Yields.behind fun _ => Yields.pure (.plain nofun)
  refine Yields.orElse ?_ (Yields.orElse ?_ (Yields.orElse ?_ hnumber))
  · exact Yields.behind fun _ => Yields.pure (.plain nofun)
  · exact Yields.seqRight (Yields.pure (.plain nofun))
  · exact Yields.seqRight (Yields.pure (.plain nofun))

theorem yields_pair {item : Reader Value} (h : item.Yields Value.HasDistinctNames) :
    Yields (pair item) fun p => p.2.HasDistinctNames := by
  refine Yields.behind fun _ => Yields.behind fun _ => Yields.behind fun _ => ?_
  exact h.bind fun v hv => Yields.pure hv

theorem hasDistinctNames_inlineMembers {pairs : List ((List String × String) × Value)}
    (hpairs : ∀ p ∈ pairs, p.2.HasDistinctNames) {members : Value.Members}
    (h : inlineMembers pairs = some members) : Value.HasDistinctNames (.table members) := by
  obtain ⟨t, ht, h⟩ := Option.bind_eq_some_iff.mp h
  obtain rfl := Option.some.inj h
  have hstep : ∀ (t : Table) (p : (List String × String) × Value) (t' : Table), p ∈ pairs →
      t.HasDistinctNames → t.assign p.1.1 p.1.2 p.2 = some t' → t'.HasDistinctNames :=
    fun t p t' hp h ht => h.assign (hpairs p hp) ht
  exact (property_of_foldlM hstep (Table.hasDistinctNames_nil .defined) ht).toMembers

theorem yields_inlineTable {item : Reader Value} (h : item.Yields Value.HasDistinctNames) :
    Yields (inlineTable item) Value.HasDistinctNames := by
  refine Yields.behind fun _ => Yields.behind fun _ => ?_
  refine (Yields.separated (yields_pair h).seqLeft).bind fun pairs hpairs => ?_
  refine Yields.behind fun _ => ?_
  split
  · rename_i members hmembers
    exact Yields.pure (hasDistinctNames_inlineMembers hpairs hmembers)
  · exact Yields.failure

theorem yields_array (item : Reader Value) :
    Yields (array item) Value.HasDistinctNames := by
  refine Yields.behind fun _ => Yields.behind fun _ => Yields.behind fun _ => ?_
  exact Yields.behind fun _ => Yields.behind fun _ => Yields.pure (.plain nofun)

/-- **The values in a file** name the members of their tables once. -/
theorem yields_value (depth : Nat) : Yields (value depth) Value.HasDistinctNames := by
  induction depth with
  | zero => exact yields_scalar
  | succ depth ih =>
    exact yields_scalar.orElse ((yields_array _).orElse (yields_inlineTable ih))

/-- A statement whose value names the members of its tables once. -/
def Statement.HasDistinctNames : Statement → Prop
  | .assignment _ _ v => v.HasDistinctNames
  | .header _ _ => True
  | .repeatedHeader _ _ => True

theorem yields_line :
    Yields line fun statement => ∀ s ∈ statement, s.HasDistinctNames := by
  have hheader : Yields header Statement.HasDistinctNames := by
    refine Yields.orElse ?_ ?_
    · exact Yields.behind fun _ => Yields.behind fun _ =>
        Yields.behind fun _ => Yields.pure trivial
    · exact Yields.behind fun _ => Yields.behind fun _ =>
        Yields.behind fun _ => Yields.pure trivial
  have hassignment : Yields assignment Statement.HasDistinctNames :=
    (yields_pair (yields_value nesting)).bind fun p hp => Yields.pure hp
  refine Yields.seqRight (Yields.orElse ?_ (Yields.orElse ?_ ?_))
  · exact Yields.seqRight (Yields.pure nofun)
  · exact Yields.seqRight (Yields.pure nofun)
  · refine Yields.seqLeft (Yields.map ?_)
    refine (hheader.orElse hassignment).mono fun s hs s' hs' => ?_
    obtain rfl := Option.some.inj hs'
    exact hs

theorem hasDistinctNames_add {d d' : Document} {s : Statement} (hs : s.HasDistinctNames)
    (h : d.root.HasDistinctNames) (hd : d.add s = some d') : d'.root.HasDistinctNames := by
  cases s with
  | assignment path name v =>
    obtain ⟨root, hroot, hd⟩ := Option.bind_eq_some_iff.mp hd
    obtain rfl := Option.some.inj hd
    exact h.update (fun t t' ht hassign => ht.assign hs hassign) hroot
  | header path name =>
    obtain ⟨root, hroot, hd⟩ := Option.bind_eq_some_iff.mp hd
    obtain rfl := Option.some.inj hd
    exact h.define hroot
  | repeatedHeader path name =>
    obtain ⟨root, hroot, hd⟩ := Option.bind_eq_some_iff.mp hd
    obtain rfl := Option.some.inj hd
    exact h.append hroot

/-- **The table of a file** names its members once, on every level. -/
theorem hasDistinctNames_read? {text : String} {members : Value.Members}
    (h : read? text = some members) : Value.HasDistinctNames (.table members) := by
  obtain ⟨statements, hlines, hdocument⟩ := Option.bind_eq_some_iff.mp h
  have hyields : Yields lines
      fun statements => ∀ s ∈ statements, ∀ s' ∈ s, s'.HasDistinctNames :=
    (Yields.seqRight yields_line.many).seqLeft
  have hstatements := hyields.all? hlines
  obtain ⟨d, hd, hmembers⟩ := Option.bind_eq_some_iff.mp hdocument
  obtain rfl := Option.some.inj hmembers
  have hstep : ∀ (d : Document) (s : Statement) (d' : Document), s ∈ statements.filterMap id →
      d.root.HasDistinctNames → d.add s = some d' → d'.root.HasDistinctNames := by
    intro d s d' hs hd hadd
    obtain ⟨s', hs', rfl⟩ := List.mem_filterMap.mp hs
    exact hasDistinctNames_add (hstatements _ hs' _ rfl) hd hadd
  have hroot : d.root.HasDistinctNames :=
    property_of_foldlM (P := fun d : Document => d.root.HasDistinctNames) hstep
      (Table.hasDistinctNames_nil .defined) hd
  exact hroot.toMembers

end Toml

/-! ## The environment -/

namespace Environment

open Reader

theorem yields_word : Yields word Value.HasDistinctNames := by
  refine Yields.behind fun cs => Yields.pure ?_
  unfold ofWord
  split
  · exact .plain nofun
  · split
    · exact .plain nofun
    · exact .plain nofun

theorem yields_character : Yields character Value.HasDistinctNames :=
  Yields.behind fun _ => Yields.behind fun _ => Yields.behind fun _ =>
    Yields.pure (.plain nofun)

theorem yields_bracketed {α : Type} {P : α → Prop} {item : Reader α} (h : item.Yields P)
    (opening closing : String) :
    Yields (bracketed opening closing item) fun as => ∀ a ∈ as, P a := by
  have hclosing : Yields (literal closing *> pure []) fun as : List α =>
      ∀ a ∈ as, P a :=
    Yields.seqRight (Yields.pure fun a ha => absurd ha List.not_mem_nil)
  have hitems (fuel : Nat) :
      Yields (itemsUpTo closing item fuel) fun as => ∀ a ∈ as, P a := by
    induction fuel with
    | zero => exact Yields.failure
    | succ fuel ih =>
      refine hclosing.orElse (h.bind fun a ha => ?_)
      refine ((Yields.seqRight ih).orElse hclosing).bind fun others hothers => ?_
      exact Yields.pure (List.forall_mem_cons.mpr ⟨ha, hothers⟩)
  exact fun cs => Yields.seqRight (hitems cs.length) cs

theorem yields_table {item : Reader Value} (h : item.Yields Value.HasDistinctNames) :
    Yields (table item) Value.HasDistinctNames := by
  have hpair : Yields (pair item) fun p => p.2.HasDistinctNames := by
    refine Yields.behind fun _ => Yields.behind fun _ =>
      Yields.behind fun _ => Yields.behind fun _ => Yields.behind fun _ => ?_
    exact h.bind fun v hv => Yields.behind fun _ => Yields.pure hv
  refine (yields_bracketed hpair _ _).bind fun pairs hpairs => Yields.pure ?_
  exact Value.hasDistinctNames_foldl_put hpairs Value.isLayer_nil.hasDistinctNames

/-- **The values in the environment** name the members of their tables once. -/
theorem yields_value (depth : Nat) : Yields (value depth) Value.HasDistinctNames := by
  induction depth with
  | zero => exact Yields.failure
  | succ depth ih =>
    refine Yields.seqLeft (Yields.seqRight fun cs v rest hr => ?_)
    unfold form at hr
    split at hr
    · obtain ⟨rfl, -⟩ := Prod.mk.inj (Option.some.inj hr)
      exact .plain nofun
    · obtain ⟨rfl, -⟩ := Prod.mk.inj (Option.some.inj hr)
      exact .plain nofun
    · exact yields_table ih _ v rest hr
    · exact Yields.map ((Yields.trivial _).mono fun _ _ => .plain nofun) _ v rest hr
    · exact Yields.map ((Yields.trivial _).mono fun _ _ => .plain nofun) _ v rest hr
    · exact yields_character _ v rest hr
    · exact yields_word _ v rest hr

theorem hasDistinctNames_valueOf (text : String) : (valueOf text).HasDistinctNames := by
  unfold valueOf
  cases h : (value (text.length + 1)).all? text.toList with
  | none => exact .plain nofun
  | some v => exact (yields_value _).all? h

/-- A variable that names a setting has a name for it. -/
theorem ne_nil_of_path? {name : String} {path : List String} (h : path? name = some path) :
    path ≠ [] := by
  obtain ⟨rest, -, h⟩ := Option.bind_eq_some_iff.mp h
  dsimp only at h
  split at h
  · exact absurd h nofun
  · rw [← Option.some.inj h, ne_eq, List.map_eq_nil_iff]
    exact Chars.pieces_ne_nil _ _

/-- **The environment is a layer.** -/
theorem isLayer_layer (environment : List (String × String)) : (layer environment).IsLayer := by
  refine List.foldlRecOn environment _ Value.isLayer_nil fun below h v _ => ?_
  obtain ⟨name, text⟩ := v
  dsimp only
  split
  · rename_i path hpath
    obtain ⟨first, path, rfl⟩ := List.exists_cons_of_ne_nil (ne_nil_of_path? hpath)
    refine Value.IsLayer.overlay ⟨⟨_, rfl⟩, ?_⟩ h
    exact Value.hasDistinctNames_nest _ (hasDistinctNames_valueOf text)
  · exact h

end Environment

/-! ## The layers of a configuration -/

theorem bind_eq_ok_iff {ε α β : Type} {x : Except ε α} {f : α → Except ε β} {b : β} :
    x >>= f = .ok b ↔ ∃ a, x = .ok a ∧ f a = .ok b := by
  cases x with
  | error e => exact ⟨nofun, fun ⟨_, h, _⟩ => absurd h nofun⟩
  | ok a => exact ⟨fun h => ⟨a, rfl, h⟩, fun ⟨_, ha, h⟩ => Except.ok.inj ha ▸ h⟩

namespace ConfigSources

/-- The layer of a file that is not there, or that can be read. -/
theorem fileLayer_eq_ok_iff {file : Option String} {layer : Value} :
    fileLayer file = .ok layer ↔ (file = none ∧ layer = .table [])
      ∨ ∃ text members, file = some text ∧ Toml.read? text = some members
        ∧ layer = .table members := by
  unfold fileLayer
  constructor
  · intro h
    split at h
    · exact Or.inl ⟨rfl, (Except.ok.inj h).symm⟩
    · split at h
      · rename_i members hread
        exact Or.inr ⟨_, members, rfl, hread, (Except.ok.inj h).symm⟩
      · exact absurd h nofun
  · rintro (⟨rfl, rfl⟩ | ⟨text, members, rfl, hread, rfl⟩)
    · rfl
    · dsimp only
      rw [hread]

theorem isLayer_fileLayer {file : Option String} {layer : Value}
    (h : fileLayer file = .ok layer) : layer.IsLayer := by
  rcases fileLayer_eq_ok_iff.mp h with ⟨-, rfl⟩ | ⟨text, members, -, hread, rfl⟩
  · exact Value.isLayer_nil
  · exact ⟨⟨members, rfl⟩, Toml.hasDistinctNames_read? hread⟩

/-- The layers that there are if both files can be read. -/
theorem layers_eq_ok_iff {s : ConfigSources} {layers : List Value} :
    s.layers = .ok layers ↔ ∃ user project, fileLayer s.user = .ok user
      ∧ fileLayer s.project = .ok project
      ∧ layers = [user, project, Environment.layer s.environment] := by
  unfold ConfigSources.layers
  simp only [bind_eq_ok_iff]
  constructor
  · rintro ⟨user, huser, project, hproject, h⟩
    exact ⟨user, project, huser, hproject, (Except.ok.inj h).symm⟩
  · rintro ⟨user, project, huser, hproject, rfl⟩
    exact ⟨user, huser, project, hproject, rfl⟩

/-- **What a configuration is put together from are layers**: tables that name
their members once, on every level. -/
theorem isLayer_of_mem_layers {s : ConfigSources} {layers : List Value}
    (h : s.layers = .ok layers) : ∀ layer ∈ layers, layer.IsLayer := by
  obtain ⟨user, project, huser, hproject, rfl⟩ := layers_eq_ok_iff.mp h
  simp only [List.forall_mem_cons]
  exact ⟨isLayer_fileLayer huser, isLayer_fileLayer hproject,
    Environment.isLayer_layer s.environment, fun _ hl => absurd hl List.not_mem_nil⟩

end ConfigSources

end TestAccess
