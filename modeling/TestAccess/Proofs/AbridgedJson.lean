import TestAccess.Json.Record

/-!
# JSON values with members left out

An encoder writes every field of a record. A value that comes from elsewhere
may leave out what goes without saying: a member that is `null`, and one that
holds its default. `Json.Abridged` relates a value to what it becomes when any
of these members are left out, of any of the objects in it, on every level.

An abridged value is read field by field, and for every kind of field there is
one lemma. A required field must be one that cannot be left out, an optional
one may be `null`, and a field with a default may be left out if that is its
value (`Record.IsAbridged.required_eq`, `optional_eq` and `defaulted_eq`).
Each asks only for the name of the field, what is written there, and how that
is read back.

Values that name their shape are loosened before they are read. This changes
objects without members, and there are none in an abridged value if every
object of the full one has a member that must be kept (`loosen_of_abridged`).
-/

namespace TestAccess.Json

/-! ## Leaving members out -/

/-- **A member goes without saying** when it is `null` or listed among the
defaults. -/
def IsSilent (defaults : List (String × Json)) (name : String) (value : Json) : Prop :=
  value = .null ∨ (name, value) ∈ defaults

mutual

/-- **A value abridged**: of every object in it, members that go without
saying may be missing. -/
inductive Abridged (defaults : List (String × Json)) : Json → Json → Prop
  | null : Abridged defaults .null .null
  | bool (b : Bool) : Abridged defaults (.bool b) (.bool b)
  | number (mantissa : Int) (places : Nat) :
      Abridged defaults (.number mantissa places) (.number mantissa places)
  | text (s : String) : Abridged defaults (.text s) (.text s)
  | array {items items' : List Json} (h : AbridgedItems defaults items items') :
      Abridged defaults (.array items) (.array items')
  | object {members members' : List (String × Json)}
      (h : AbridgedMembers defaults members members') :
      Abridged defaults (.object members) (.object members')

/-- The items of an array abridged, each for itself. -/
inductive AbridgedItems (defaults : List (String × Json)) : List Json → List Json → Prop
  | nil : AbridgedItems defaults [] []
  | cons {j j' : Json} {items items' : List Json} (h : Abridged defaults j j')
      (hs : AbridgedItems defaults items items') :
      AbridgedItems defaults (j :: items) (j' :: items')

/-- The members of an object abridged: each is kept, with its value abridged,
or left out if it goes without saying. -/
inductive AbridgedMembers (defaults : List (String × Json)) :
    List (String × Json) → List (String × Json) → Prop
  | nil : AbridgedMembers defaults [] []
  | keep {name : String} {j j' : Json} {members members' : List (String × Json)}
      (h : Abridged defaults j j') (hs : AbridgedMembers defaults members members') :
      AbridgedMembers defaults ((name, j) :: members) ((name, j') :: members')
  | drop {name : String} {j : Json} {members members' : List (String × Json)}
      (h : IsSilent defaults name j) (hs : AbridgedMembers defaults members members') :
      AbridgedMembers defaults ((name, j) :: members) members'

end

mutual

/-- Nothing has to be left out. -/
theorem Abridged.refl (defaults : List (String × Json)) : (j : Json) → Abridged defaults j j
  | .null => .null
  | .bool b => .bool b
  | .number m p => .number m p
  | .text s => .text s
  | .array items => .array (AbridgedItems.refl defaults items)
  | .object members => .object (AbridgedMembers.refl defaults members)

theorem AbridgedItems.refl (defaults : List (String × Json)) :
    (items : List Json) → AbridgedItems defaults items items
  | [] => .nil
  | j :: items => .cons (Abridged.refl defaults j) (AbridgedItems.refl defaults items)

theorem AbridgedMembers.refl (defaults : List (String × Json)) :
    (members : List (String × Json)) → AbridgedMembers defaults members members
  | [] => .nil
  | (_, j) :: members =>
    .keep (Abridged.refl defaults j) (AbridgedMembers.refl defaults members)

end

section

variable {defaults : List (String × Json)}

mutual

/-- Where nothing but `null` goes without saying, nothing more is left out
than under any defaults. -/
theorem Abridged.of_nil : {j j' : Json} → Abridged [] j j' → Abridged defaults j j'
  | .null, _, .null => .null
  | .bool b, _, .bool _ => .bool b
  | .number m p, _, .number _ _ => .number m p
  | .text s, _, .text _ => .text s
  | .array _, _, .array h => .array (AbridgedItems.of_nil h)
  | .object _, _, .object h => .object (AbridgedMembers.of_nil h)

theorem AbridgedItems.of_nil :
    {items items' : List Json} → AbridgedItems [] items items' → AbridgedItems defaults items items'
  | [], _, .nil => .nil
  | _ :: _, _, .cons h hs => .cons (Abridged.of_nil h) (AbridgedItems.of_nil hs)

theorem AbridgedMembers.of_nil :
    {members members' : List (String × Json)} → AbridgedMembers [] members members' →
      AbridgedMembers defaults members members'
  | [], _, .nil => .nil
  | (_, _) :: _, _, .keep h hs => .keep (Abridged.of_nil h) (AbridgedMembers.of_nil hs)
  | (_, _) :: _, _, .drop h hs =>
    .drop (h.imp id fun hmem => absurd hmem List.not_mem_nil) (AbridgedMembers.of_nil hs)

end

/-! ## Reading what is left -/

theorem abridged_text_iff (s : String) (j : Json) :
    Abridged defaults (.text s) j ↔ j = .text s :=
  ⟨fun h => by cases h; rfl, by rintro rfl; exact .text s⟩

theorem abridged_bool_iff (b : Bool) (j : Json) :
    Abridged defaults (.bool b) j ↔ j = .bool b :=
  ⟨fun h => by cases h; rfl, by rintro rfl; exact .bool b⟩

theorem abridged_nat_iff (n : Nat) (j : Json) : Abridged defaults (nat n) j ↔ j = nat n :=
  ⟨fun h => by cases h; rfl, by rintro rfl; exact .number n 0⟩

/-- Only `null` is abridged to `null`. -/
theorem Abridged.eq_null {j : Json} (h : Abridged defaults j .null) : j = .null := by
  cases h
  rfl

/-- **An abridged list is read back** when each of its items is. -/
theorem list?_of_abridged {α : Type} {encode : α → Json} {decode : Json → Option α}
    {items : List α}
    (hitems : ∀ a ∈ items, ∀ j, Abridged defaults (encode a) j → decode j = some a) {j : Json}
    (h : Abridged defaults (list encode items) j) : list? decode j = some items := by
  obtain _ | _ | _ | _ | ⟨h⟩ := h
  rw [list?]
  induction items generalizing ‹List Json› with
  | nil =>
    cases h
    rfl
  | cons a items ih =>
    obtain _ | ⟨hj, hs⟩ := h
    have hrest := ih (fun b hb => hitems b (List.mem_cons_of_mem _ hb)) hs
    rw [List.mapM_cons, hitems a (List.mem_cons_self ..) _ hj, hrest]
    rfl

/-- Texts have nothing to leave out. -/
theorem texts?_of_abridged {items : List String} {j : Json}
    (h : Abridged defaults (texts items) j) : texts? j = some items :=
  list?_of_abridged (fun s _ j hj => by rw [(abridged_text_iff s j).mp hj, text?_text]) h

/-- An object is not nothing. -/
theorem object_ne_null (members : List (String × Json)) : Json.object members ≠ .null := nofun

/-- **An abridged value that may be absent is read back**, if a present one is
never written as `null`. -/
theorem option?_of_abridged {α : Type} {encode : α → Json} {decode : Json → Option α}
    {o : Option α} (hne : ∀ a ∈ o, encode a ≠ .null)
    (ho : ∀ a ∈ o, ∀ j, Abridged defaults (encode a) j → decode j = some a) {j : Json}
    (h : Abridged defaults (option encode o) j) : option? decode j = some o := by
  cases o with
  | none =>
    cases h
    rfl
  | some a =>
    have hj : j ≠ .null := by
      rintro rfl
      exact hne a rfl h.eq_null
    rw [option?.eq_def]
    split
    · exact absurd rfl hj
    · rw [ho a rfl j h]
      rfl

/-- An abridged object has no other names than the full one. -/
theorem AbridgedMembers.names_sublist {members members' : List (String × Json)}
    (h : AbridgedMembers defaults members members') :
    (members'.map Prod.fst).Sublist (members.map Prod.fst) := by
  induction members generalizing members' with
  | nil =>
    cases h
    exact List.Sublist.refl _
  | cons m members ih =>
    cases h with
    | keep _ hs => exact (ih hs).cons_cons _
    | drop _ hs => exact (ih hs).cons _

/-- **What an object says under a name** is kept, abridged, or goes without
saying and is left out. -/
theorem AbridgedMembers.lookup_eq {members members' : List (String × Json)}
    (h : AbridgedMembers defaults members members') (hnames : (members.map Prod.fst).Nodup)
    {name : String} {v : Json} (hv : members.lookup name = some v) :
    (∃ v', members'.lookup name = some v' ∧ Abridged defaults v v')
      ∨ (members'.lookup name = none ∧ IsSilent defaults name v) := by
  induction members generalizing members' with
  | nil => exact absurd hv (by simp)
  | cons m members ih =>
    rw [List.map_cons, List.nodup_cons] at hnames
    cases h with
    | @keep other j j' _ _ h hs =>
      rw [List.lookup_cons] at hv ⊢
      cases hname : name == other with
      | true =>
        rw [hname] at hv
        exact Or.inl ⟨j', rfl, Option.some.inj hv ▸ h⟩
      | false =>
        rw [hname] at hv
        exact ih hs hnames.2 hv
    | @drop other j _ _ h hs =>
      rw [List.lookup_cons] at hv
      cases hname : name == other with
      | true =>
        rw [hname] at hv
        obtain rfl := Option.some.inj hv
        obtain rfl := beq_iff_eq.mp hname
        -- the name does not come again behind the member that was left out
        refine Or.inr ⟨List.lookup_eq_none_iff.mpr fun p hp => ?_, h⟩
        rw [bne_iff_ne]
        rintro rfl
        exact hnames.1 (hs.names_sublist.subset (List.mem_map.mpr ⟨p, hp, rfl⟩))
      | false =>
        rw [hname] at hv
        exact ih hs hnames.2 hv

/-! ## Records -/

/-- **A record that was read from an abridged object**, given the members of
the full one, which have different names. -/
structure Record.IsAbridged (defaults : List (String × Json)) (full : List (String × Json))
    (r : Record) : Prop where
  named : r.named = true
  members : AbridgedMembers defaults full r.members
  nodup : (full.map Prod.fst).Nodup

/-- An abridged object is read as an abridged record, whatever the fields that
are asked for. -/
theorem exists_record?_eq {full : List (String × Json)} {j : Json}
    (h : Abridged defaults (.object full) j) (hnodup : (full.map Prod.fst).Nodup) :
    ∃ r, (∀ fields, j.record? fields = some r) ∧ r.IsAbridged defaults full := by
  cases h with
  | @object _ members h => exact ⟨⟨members, true⟩, fun _ => rfl, rfl, h, hnodup⟩

/-- What is not `null`, under a name that has no default, does not go without
saying. -/
theorem not_isSilent {name : String} {v : Json} (hnull : v ≠ .null)
    (hname : name ∉ defaults.map Prod.fst) : ¬ IsSilent defaults name v := by
  rintro (h | h)
  · exact hnull h
  · exact hname (List.mem_map.mpr ⟨_, h, rfl⟩)

/-- An alternative with a text is left as it is. -/
theorem eq_of_abridged_alternative {name s : String} {j : Json}
    (h : Abridged defaults (.object [(name, .text s)]) j) (hname : name ∉ defaults.map Prod.fst) :
    j = .object [(name, .text s)] := by
  obtain _ | _ | _ | _ | _ | ⟨h⟩ := h
  cases h with
  | keep h hs =>
    cases hs
    rw [(abridged_text_iff ..).mp h]
  | drop h _ => exact absurd h (not_isSilent nofun hname)

namespace Record.IsAbridged

variable {α : Type} {full : List (String × Json)} {r : Record} {decode : Json → Option α}

/-- **A required field is read back.** It is not `null` and has no default, so
that it is there. -/
theorem required_eq (h : r.IsAbridged defaults full) (name : String) {v : Json} {a : α}
    (hv : full.lookup name = some v) (hname : name ∉ defaults.map Prod.fst) (hnull : v ≠ .null)
    (hdecode : ∀ j, Abridged defaults v j → decode j = some a) :
    r.required name decode = some a := by
  rw [required, get?]
  rcases h.members.lookup_eq h.nodup hv with ⟨v', hv', hj⟩ | ⟨-, habsent⟩
  · rw [hv']
    exact hdecode v' hj
  · exact absurd habsent (not_isSilent hnull hname)

/-- **An optional field is read back.** It has no default and is `null` only
when it is absent. -/
theorem optional_eq (h : r.IsAbridged defaults full) (name : String) {encode : α → Json}
    {o : Option α}
    (hv : full.lookup name = some (option encode o)) (hname : name ∉ defaults.map Prod.fst)
    (hnull : ∀ a ∈ o, encode a ≠ .null)
    (hdecode : ∀ a ∈ o, ∀ j, Abridged defaults (encode a) j → decode j = some a) :
    r.optional name decode = some o := by
  rw [optional, get?]
  rcases h.members.lookup_eq h.nodup hv with ⟨v', hv', hj⟩ | ⟨hnone, habsent⟩
  · rw [hv']
    exact option?_of_abridged hnull hdecode hj
  · rw [hnone, h.named]
    cases o with
    | none => rfl
    | some a => exact absurd habsent (not_isSilent (hnull a rfl) hname)

/-- **A field with a default is read back**, if it can be left out only when
it holds its default. -/
theorem defaulted_eq (h : r.IsAbridged defaults full) (name : String) {v : Json} {a fallback : α}
    (hv : full.lookup name = some v) (hsilent : IsSilent defaults name v → a = fallback)
    (hdecode : ∀ j, Abridged defaults v j → decode j = some a) :
    r.defaulted name decode fallback = some a := by
  rw [defaulted, get?]
  rcases h.members.lookup_eq h.nodup hv with ⟨v', hv', hj⟩ | ⟨hnone, habsent⟩
  · rw [hv']
    exact hdecode v' hj
  · rw [hnone, hsilent habsent]

/-- A required text is read back. -/
theorem required_text (h : r.IsAbridged defaults full) (name : String) {s : String}
    (hv : full.lookup name = some (.text s)) (hname : name ∉ defaults.map Prod.fst) :
    r.required name text? = some s :=
  h.required_eq name hv hname nofun fun j hj => by rw [(abridged_text_iff s j).mp hj, text?_text]

/-- A required truth value is read back. -/
theorem required_bool (h : r.IsAbridged defaults full) (name : String) {b : Bool}
    (hv : full.lookup name = some (.bool b)) (hname : name ∉ defaults.map Prod.fst) :
    r.required name bool? = some b :=
  h.required_eq name hv hname nofun fun j hj => by rw [(abridged_bool_iff b j).mp hj, bool?_bool]

/-- A required number is read back, if it is below its bound. -/
theorem required_nat (h : r.IsAbridged defaults full) (name : String) {bound n : Nat}
    (hn : n < bound)
    (hv : full.lookup name = some (nat n)) (hname : name ∉ defaults.map Prod.fst) :
    r.required name (natBelow? bound) = some n :=
  h.required_eq name hv hname nofun fun j hj => by
    rw [(abridged_nat_iff n j).mp hj, natBelow?_nat hn]

/-- A required list is read back when each of its items is. -/
theorem required_list (h : r.IsAbridged defaults full) (name : String) {encode : α → Json}
    {items : List α}
    (hv : full.lookup name = some (list encode items)) (hname : name ∉ defaults.map Prod.fst)
    (hitems : ∀ a ∈ items, ∀ j, Abridged defaults (encode a) j → decode j = some a) :
    r.required name (list? decode) = some items :=
  h.required_eq name hv hname nofun fun _ hj => list?_of_abridged hitems hj

/-- An optional text is read back. -/
theorem optional_text (h : r.IsAbridged defaults full) (name : String) {o : Option String}
    (hv : full.lookup name = some (option .text o)) (hname : name ∉ defaults.map Prod.fst) :
    r.optional name text? = some o :=
  h.optional_eq name hv hname (fun _ _ => nofun)
    fun s _ j hj => by rw [(abridged_text_iff s j).mp hj, text?_text]

/-- A truth value with a default is read back, if it can be left out only when
it holds its default. -/
theorem defaulted_bool (h : r.IsAbridged defaults full) (name : String) {b fallback : Bool}
    (hv : full.lookup name = some (.bool b))
    (hsilent : IsSilent defaults name (.bool b) → b = fallback) :
    r.defaulted name bool? fallback = some b :=
  h.defaulted_eq name hv hsilent fun j hj => by rw [(abridged_bool_iff b j).mp hj, bool?_bool]

end Record.IsAbridged

/-! ## Loosening -/

mutual

/-- **Every object has something to say**: in a value and on every level of
it, an object has a member that cannot be left out. -/
def IsTelling (defaults : List (String × Json)) : Json → Prop
  | .array items => AreTelling defaults items
  | .object members =>
    (∃ m ∈ members, ¬ IsSilent defaults m.1 m.2) ∧ MembersTelling defaults members
  | _ => True

/-- Every item of an array has something to say. -/
def AreTelling (defaults : List (String × Json)) : List Json → Prop
  | [] => True
  | j :: items => IsTelling defaults j ∧ AreTelling defaults items

/-- Every member of an object has something to say. -/
def MembersTelling (defaults : List (String × Json)) : List (String × Json) → Prop
  | [] => True
  | (_, j) :: members => IsTelling defaults j ∧ MembersTelling defaults members

end

@[simp] theorem isTelling_text (s : String) : IsTelling defaults (.text s) := by
  simp [IsTelling]

@[simp] theorem isTelling_bool (b : Bool) : IsTelling defaults (.bool b) := by
  simp [IsTelling]

/-- An optional value has something to say if it does where it is present. -/
theorem isTelling_option {α : Type} {encode : α → Json} {o : Option α}
    (h : ∀ a ∈ o, IsTelling defaults (encode a)) : IsTelling defaults (option encode o) := by
  cases o with
  | none => simp [option, IsTelling]
  | some a => exact h a rfl

@[simp] theorem isTelling_option_text (o : Option String) : IsTelling defaults (option .text o) :=
  isTelling_option fun s _ => isTelling_text s

/-- A list has something to say if each of its items has. -/
theorem isTelling_list {α : Type} {encode : α → Json} {items : List α}
    (h : ∀ a ∈ items, IsTelling defaults (encode a)) : IsTelling defaults (list encode items) := by
  rw [list, IsTelling]
  induction items with
  | nil => trivial
  | cons a items ih =>
    exact ⟨h a (List.mem_cons_self ..), ih fun b hb => h b (List.mem_cons_of_mem _ hb)⟩

/-- An object has something to say if one of its members cannot be left out. -/
theorem isTelling_object {members : List (String × Json)} {name : String} {v : Json}
    (hmem : (name, v) ∈ members) (hname : name ∉ defaults.map Prod.fst) (hnull : v ≠ .null)
    (h : MembersTelling defaults members) : IsTelling defaults (.object members) := by
  rw [IsTelling]
  exact ⟨⟨(name, v), hmem, not_isSilent hnull hname⟩, h⟩

/-- A member that cannot be left out is kept. -/
theorem AbridgedMembers.ne_nil {members members' : List (String × Json)}
    (h : AbridgedMembers defaults members members')
    (htells : ∃ m ∈ members, ¬ IsSilent defaults m.1 m.2) : members' ≠ [] := by
  rintro rfl
  obtain ⟨m, hm, hkept⟩ := htells
  induction members with
  | nil => exact absurd hm List.not_mem_nil
  | cons m' members ih =>
    cases h with
    | drop hsilent hs =>
      rcases List.mem_cons.mp hm with rfl | hm
      · exact hkept hsilent
      · exact ih hs hm

mutual

/-- **Loosening changes nothing** about an abridged value, if every object of
the full one has something to say. -/
theorem loosen_of_abridged : {j j' : Json} → Abridged defaults j j' → IsTelling defaults j →
    loosen j' = j' ∧ j' ≠ .object []
  | .null, _, .null, _ => ⟨rfl, nofun⟩
  | .bool _, _, .bool _, _ => ⟨rfl, nofun⟩
  | .number _ _, _, .number _ _, _ => ⟨rfl, nofun⟩
  | .text _, _, .text _, _ => ⟨rfl, nofun⟩
  | .array items, _, .array h, htells => by
    rw [IsTelling] at htells
    exact ⟨by rw [loosen, loosenAll_of_abridged h htells], nofun⟩
  | .object members, .object members', .object h, htells => by
    rw [IsTelling] at htells
    obtain ⟨hmembers, hnone⟩ := loosenMembers_of_abridged h htells.2
    have hne := h.ne_nil htells.1
    refine ⟨?_, fun hempty => hne (Json.object.inj hempty)⟩
    rw [loosen.eq_def]
    split
    · rename_i heq
      exact absurd heq nofun
    · rename_i name heq
      -- the single member would be an empty object
      exact absurd rfl (hnone (name, .object []) (by rw [Json.object.inj heq]; simp))
    · rename_i heq
      rw [← Json.object.inj heq, hmembers]
    · rfl

theorem loosenAll_of_abridged : {items items' : List Json} → AbridgedItems defaults items items' →
    AreTelling defaults items → loosenAll items' = items'
  | [], _, .nil, _ => rfl
  | _ :: _, _, .cons h hs, htells => by
    rw [AreTelling] at htells
    rw [loosenAll, (loosen_of_abridged h htells.1).1, loosenAll_of_abridged hs htells.2]

theorem loosenMembers_of_abridged :
    {members members' : List (String × Json)} → AbridgedMembers defaults members members' →
      MembersTelling defaults members →
      loosenMembers members' = members' ∧ ∀ m ∈ members', m.2 ≠ .object []
  | [], _, .nil, _ => ⟨rfl, fun m hm => absurd hm List.not_mem_nil⟩
  | (_, _) :: _, _, .keep h hs, htells => by
    rw [MembersTelling] at htells
    obtain ⟨hj, hne⟩ := loosen_of_abridged h htells.1
    obtain ⟨hrest, hnone⟩ := loosenMembers_of_abridged hs htells.2
    exact ⟨by rw [loosenMembers, hj, hrest], List.forall_mem_cons.mpr ⟨hne, hnone⟩⟩
  | (_, _) :: _, _, .drop _ hs, htells => by
    rw [MembersTelling] at htells
    exact loosenMembers_of_abridged hs htells.2

end

/-- **An abridged value that names its shape** gives the shape, and is itself
the value with the fields. -/
theorem shaped?_of_abridged {tag shape : String} {members : List (String × Json)} {j : Json}
    (h : Abridged defaults (.object ((tag, .text shape) :: members)) j)
    (hname : tag ∉ defaults.map Prod.fst) (htells : MembersTelling defaults members) :
    j.shaped? tag = some (shape, j) := by
  have hloosen := (loosen_of_abridged h (isTelling_object (List.mem_cons_self ..) hname nofun
    ⟨isTelling_text shape, htells⟩)).1
  obtain _ | _ | _ | _ | _ | ⟨h⟩ := h
  cases h with
  | keep h hs =>
    obtain rfl := (abridged_text_iff ..).mp h
    rw [shaped?, hloosen, List.lookup_cons_self]
    rfl
  | drop h _ => exact absurd h (not_isSilent nofun hname)

end

end TestAccess.Json
