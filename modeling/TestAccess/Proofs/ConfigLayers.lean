import TestAccess.Proofs.DistinctNames

/-!
# A setting comes from the highest layer that has it

Layers are laid over each other as wholes, and only then is the result read as
a configuration. This module proves that nothing of this is visible in the
configuration: each setting is, independently of the others, what the highest
layer says that says something about it, and its default if no layer does.

That is an equation about one setting at a time, `IsPlainLayer.value?_overlay`:
the value of a setting in a layer over another is its value in the upper layer, or
else in the lower one. It needs the names of a table to be distinct, and it
needs the values of settings not to be tables, since tables would be merged
and not replaced. An induction over the layers carries it to the whole stack
(`isPlainLayer_stack`). On the other side, reading a configuration looks at
nothing but the values of the five settings (`Config.ofValue_eq_ofSettings`),
so that sections that are only partly there, members with other names and
values that are covered by a higher layer cannot matter.

`Config.ofLayers_of_isPlainLayer` puts the two sides together: what is made of
layers, when there is nothing that can be made of them, and that nothing else
has an influence. Layers that have been read from files and the environment are
such layers, and `load_of_hasPlainLayers` says the same of loading.
-/

namespace TestAccess

/-! ## Settings and their values -/

/-- **The settings** of a configuration. -/
inductive Setting where
  | marker
  | initPolicy
  | stripsMarker
  | layout
  | indentWidth
deriving DecidableEq, Repr

/-- The value under a name in a table. -/
def Value.get? : Value → String → Option Value
  | .table members, name => members.lookup name
  | _, _ => none

namespace Setting

/-- All settings. -/
def all : List Setting := [.marker, .initPolicy, .stripsMarker, .layout, .indentWidth]

theorem mem_all (k : Setting) : k ∈ all := by cases k <;> decide

/-- What holds of all settings can be checked one by one. -/
instance {p : Setting → Prop} [DecidablePred p] : Decidable (∀ k, p k) :=
  decidable_of_iff (∀ k ∈ all, p k) ⟨fun h k => h k k.mem_all, fun h k _ => h k⟩

/-- The section that a setting is in. -/
def sectionName : Setting → String
  | .marker | .initPolicy | .stripsMarker => "expansion"
  | .layout | .indentWidth => "render"

/-- The name of a setting in its section. -/
def name : Setting → String
  | .marker => "annotation"
  | .initPolicy => "init_policy"
  | .stripsMarker => "strip_annotation"
  | .layout => "layout"
  | .indentWidth => "indent_width"

/-- The value of a setting in a layer, if the layer has one. -/
def value? (k : Setting) (layer : Value) : Option Value :=
  (layer.get? k.sectionName).bind fun s => s.get? k.name

/-- **The effective value of a setting**: that of the highest layer which has
one. The lowest layer comes first. -/
def effective? (k : Setting) (layers : List Value) : Option Value :=
  layers.reverse.findSome? k.value?

end Setting

namespace Value

/-- Whether a value is a table. -/
def isTable : Value → Bool
  | .table _ => true
  | _ => false

/-- **Whether a value is plain**, that is, not a table. A date is plain: it is
kept as a table with a single member, but nobody wrote a table. -/
def isPlain : Value → Bool
  | .table [(name, .text _)] => name == Toml.dateMember
  | .table _ => false
  | _ => true

/-- **A layer with plain settings**: its sections are tables, and the settings
in them are not. Members with other names may hold anything. -/
structure HasPlainSettings (layer : Value) : Prop where
  sections : ∀ k : Setting, ∀ s ∈ layer.get? k.sectionName, s.isTable
  settings : ∀ k : Setting, ∀ v ∈ k.value? layer, v.isPlain

instance (layer : Value) : Decidable layer.HasPlainSettings :=
  decidable_of_iff (∀ k : Setting, (∀ s ∈ layer.get? k.sectionName, s.isTable)
      ∧ ∀ v ∈ k.value? layer, v.isPlain)
    ⟨fun h => ⟨fun k => (h k).1, fun k => (h k).2⟩, fun h k => ⟨h.sections k, h.settings k⟩⟩

theorem isTable_iff {v : Value} : v.isTable ↔ ∃ members, v = .table members := by
  cases v <;> simp [isTable]

theorem isPlain_iff {v : Value} : v.isPlain ↔
    (∀ members, v ≠ .table members) ∨ ∃ written, v = .table [(Toml.dateMember, .text written)] := by
  unfold isPlain
  split
  · simp
  · rename_i members hdate
    simp only [Bool.false_eq_true, ne_eq, false_iff, not_or, not_forall, not_not, not_exists]
    exact ⟨⟨members, rfl⟩, fun written h => hdate _ _ (Value.table.inj h)⟩
  · rename_i htable
    exact iff_of_true rfl (Or.inl htable)

/-! ## Layers over each other -/

/-- A plain value covers a plain value. -/
theorem overlay_eq_of_isPlain {upper lower : Value} (h : upper.isPlain) (h' : lower.isPlain) :
    upper.overlay lower = upper := by
  rw [isPlain_iff] at h h'
  rcases h with h | ⟨written, rfl⟩
  · cases upper with
    | table members => exact absurd rfl (h members)
    | _ => rw [overlay]
  · rcases h' with h' | ⟨written', rfl⟩
    · cases lower with
      | table members => exact absurd rfl (h' members)
      | _ => rw [overlay]; exact nofun
    · simp [overlay, overlayMembers, put]

/-- **Members laid over each other**: under a name stands the upper member over
the lower one, as far as they are there. -/
theorem lookup_overlayMembers {above : Members} (h : (above.map Prod.fst).Nodup)
    (below : Members) (name : String) :
    (overlayMembers above below).lookup name
      = (above.lookup name).merge overlay (below.lookup name) := by
  induction above generalizing below with
  | nil => rw [overlayMembers, List.lookup_nil, Option.merge_none_left]
  | cons m above ih =>
    obtain ⟨n, v⟩ := m
    rw [List.map_cons, List.nodup_cons] at h
    rw [overlayMembers, ih h.2]
    by_cases hn : name = n
    · -- the first member is the one, and since names are distinct it is not covered again
      subst hn
      have habove : above.lookup name = none := by
        rw [List.lookup_eq_none_iff]
        intro m hm
        rw [bne_iff_ne]
        exact fun e => h.1 (List.mem_map.mpr ⟨m, hm, e.symm⟩)
      rw [habove, lookup_put_self, Option.merge_none_left, List.lookup_cons_self]
      cases below.lookup name with
      | none => rfl
      | some u => rfl
    · rw [lookup_put_of_ne hn, List.lookup_cons, beq_eq_false_iff_ne.mpr hn]

/-- The value under a name in a layer over another. -/
theorem get?_overlay {above below : Value} (h : above.IsLayer) (h' : below.IsLayer)
    (name : String) :
    (above.overlay below).get? name = (above.get? name).merge overlay (below.get? name) := by
  obtain ⟨⟨members, rfl⟩, hdistinct⟩ := h
  obtain ⟨members', rfl⟩ := h'.isTable
  rw [hasDistinctNames_table_iff] at hdistinct
  rw [overlay]
  exact lookup_overlayMembers hdistinct.1 members' name

/-- A layer that has plain settings. -/
structure IsPlainLayer (layer : Value) : Prop extends layer.IsLayer, layer.HasPlainSettings

/-- The layer without settings. -/
theorem isPlainLayer_nil : IsPlainLayer (.table []) :=
  ⟨isLayer_nil, fun _ _ h => absurd h nofun, fun _ _ h => absurd h nofun⟩

namespace IsPlainLayer

variable {above below : Value}

/-- A section of a layer is itself a layer. -/
theorem isLayer_section {layer s : Value} (h : layer.IsPlainLayer) {k : Setting}
    (hs : layer.get? k.sectionName = some s) : s.IsLayer := by
  refine ⟨isTable_iff.mp (h.sections k s hs), ?_⟩
  obtain ⟨members, rfl⟩ := h.isTable
  exact ((hasDistinctNames_table_iff members).mp h.hasDistinctNames).2 _ (mem_of_lookup_eq_some hs)

/-- **A setting in a layer over another** is what the upper layer says, or else
what the lower one says. -/
theorem value?_overlay (h : above.IsPlainLayer) (h' : below.IsPlainLayer) (k : Setting) :
    k.value? (above.overlay below) = (k.value? above).or (k.value? below) := by
  have hsettings := h.settings k
  have hsettings' := h'.settings k
  unfold Setting.value? at *
  rw [get?_overlay h.toIsLayer h'.toIsLayer]
  cases hs : above.get? k.sectionName with
  | none => rw [Option.merge_none_left, Option.bind_none, Option.none_or]
  | some s =>
    cases hs' : below.get? k.sectionName with
    | none => rw [Option.merge_none_right, Option.bind_none, Option.or_none]
    | some s' =>
      -- the two sections are layers over each other again, one level down
      rw [hs] at hsettings
      rw [hs'] at hsettings'
      show (s.overlay s').get? k.name = (s.get? k.name).or (s'.get? k.name)
      rw [get?_overlay (h.isLayer_section hs) (h'.isLayer_section hs')]
      cases hv : s.get? k.name with
      | none => rw [Option.merge_none_left, Option.none_or]
      | some v =>
        cases hv' : s'.get? k.name with
        | none => rfl
        | some v' =>
          exact congrArg some (overlay_eq_of_isPlain (hsettings v hv) (hsettings' v' hv'))

/-- A layer over another is a layer. -/
theorem overlay (h : above.IsPlainLayer) (h' : below.IsPlainLayer) :
    (above.overlay below).IsPlainLayer := by
  refine ⟨h.toIsLayer.overlay h'.toIsLayer, fun k s hs => ?_, fun k v hv => ?_⟩
  · rw [get?_overlay h.toIsLayer h'.toIsLayer] at hs
    cases hupper : above.get? k.sectionName with
    | none =>
      rw [hupper, Option.merge_none_left] at hs
      exact h'.sections k s hs
    | some t =>
      cases hlower : below.get? k.sectionName with
      | none =>
        rw [hupper, hlower, Option.merge_none_right] at hs
        exact h.sections k s (hupper.trans hs)
      | some t' =>
        rw [hupper, hlower] at hs
        rw [← Option.some.inj hs]
        have hsection := (h.isLayer_section hupper).overlay (h'.isLayer_section hlower)
        exact isTable_iff.mpr hsection.isTable
  · rw [h.value?_overlay h', Option.mem_def, Option.or_eq_some_iff] at hv
    rcases hv with hv | ⟨-, hv⟩
    · exact h.settings k v hv
    · exact h'.settings k v hv

/-- **Layers laid over a layer**, step by step: each setting is what the highest
of them says, or else what was there before. -/
theorem foldl_overlay {layers : List Value} (hlayers : ∀ layer ∈ layers, layer.IsPlainLayer)
    (h : below.IsPlainLayer) :
    let whole := layers.foldl (fun below above => above.overlay below) below
    whole.IsPlainLayer
      ∧ ∀ k : Setting, k.value? whole = (k.effective? layers).or (k.value? below) := by
  induction layers generalizing below with
  | nil => exact ⟨h, fun _ => rfl⟩
  | cons layer layers ih =>
    rw [List.forall_mem_cons] at hlayers
    obtain ⟨hlayer, hlayers⟩ := hlayers
    obtain ⟨hwhole, hvalue⟩ := ih hlayers (hlayer.overlay h)
    refine ⟨hwhole, fun k => ?_⟩
    have hcons : k.effective? (layer :: layers) = (k.effective? layers).or (k.value? layer) := by
      unfold Setting.effective?
      rw [List.reverse_cons, List.findSome?_append, List.findSome?_singleton]
    rw [List.foldl_cons, hvalue, hlayer.value?_overlay h, hcons, Option.or_assoc]

end IsPlainLayer

/-- **Layers laid over each other**: each setting is what the highest layer
says that says something. -/
theorem isPlainLayer_stack {layers : List Value} (hlayers : ∀ layer ∈ layers, layer.IsPlainLayer) :
    (stack layers).IsPlainLayer
      ∧ ∀ k : Setting, k.value? (stack layers) = k.effective? layers := by
  obtain ⟨hstack, hvalue⟩ := IsPlainLayer.foldl_overlay hlayers isPlainLayer_nil
  refine ⟨hstack, fun k => (hvalue k).trans ?_⟩
  show (k.effective? layers).or none = _
  rw [Option.or_none]

end Value

/-! ## Reading a configuration looks at the settings only -/

/-- The section of the expansion, read from the values of its settings. -/
def ExpansionSettings.ofSettings (value : Setting → Option Value) : Fitting ExpansionSettings := do
  let marker ← Value.setting "annotation" (value .marker) Value.toText "VisibleForTesting"
  let initPolicy ←
    Value.setting "init_policy" (value .initPolicy) (Value.toChoice InitPolicy.names) .permissive
  let stripsMarker ← Value.setting "strip_annotation" (value .stripsMarker) Value.toBool true
  return { marker, initPolicy, stripsMarker }

/-- The section of the rendering, read from the values of its settings. -/
def Rendering.ofSettings (value : Setting → Option Value) : Fitting Rendering := do
  let indentWidth ← Value.setting "indent_width" (value .indentWidth) Value.toSize 4
  let layout ← Value.setting "layout" (value .layout) (Value.toChoice Layout.names) .expanded
  return { layout, indentWidth }

/-- A failure in a section is reported under the name of the section. -/
def Value.within {α : Type} (name : String) (r : Fitting α) : Fitting α :=
  r.mapError fun e => { e with path := name :: e.path }

/-- **A configuration read from the values of its settings.** -/
def Config.ofSettings (value : Setting → Option Value) : Fitting Config := do
  let expansion ← Value.within "expansion" (ExpansionSettings.ofSettings value)
  let rendering ← Value.within "render" (Rendering.ofSettings value)
  return { expansion, rendering }

/-- A section that is not there reads like one without members. -/
theorem Value.member_section {α : Type} (members : Members) (name : String)
    (read : Value → Fitting α) {fallback : α} (hnil : read (.table []) = .ok fallback)
    (hsection : ∀ s ∈ members.lookup name, s.isTable) :
    ∃ inner, Value.member members name read fallback = Value.within name (read (.table inner))
      ∧ ∀ n, inner.lookup n = (members.lookup name).bind fun s => s.get? n := by
  unfold Value.member
  cases h : members.lookup name with
  | none =>
    refine ⟨[], ?_, fun n => rfl⟩
    rw [hnil]
    rfl
  | some s =>
    obtain ⟨inner, rfl⟩ := isTable_iff.mp (hsection s h)
    refine ⟨inner, ?_, fun n => rfl⟩
    cases hread : read (.table inner) with
    | ok a => simp only [setting, hread, within, Except.mapError]
    | error e => simp only [setting, hread, within, Except.mapError]

/-- **Reading a configuration** looks at the values of the settings and at
nothing else. -/
theorem Config.ofValue_eq_ofSettings {v : Value} (h : v.IsPlainLayer) :
    Config.ofValue v = Config.ofSettings fun k => k.value? v := by
  obtain ⟨members, rfl⟩ := h.isTable
  obtain ⟨inner, hexpansion, hinner⟩ := Value.member_section members "expansion"
    ExpansionSettings.ofValue rfl (h.sections .marker)
  obtain ⟨inner', hrendering, hinner'⟩ := Value.member_section members "render"
    Rendering.ofValue rfl (h.sections .layout)
  have hexpansion' : ExpansionSettings.ofValue (.table inner)
      = ExpansionSettings.ofSettings fun k => k.value? (.table members) := by
    simp only [ExpansionSettings.ofValue, Value.member, hinner]
    rfl
  have hrendering' : Rendering.ofValue (.table inner')
      = Rendering.ofSettings fun k => k.value? (.table members) := by
    simp only [Rendering.ofValue, Value.member, hinner']
    rfl
  rw [hexpansion'] at hexpansion
  rw [hrendering'] at hrendering
  unfold Config.ofValue Config.ofSettings
  rw [← hexpansion, ← hrendering]
  rfl

/-! ## What a value stands for -/

namespace Value

/-- A value that stands for a text. -/
def IsText (v : Value) (text : String) : Prop :=
  v = .text text ∨ ∃ c, v = .character c ∧ text = String.singleton c

theorem toText_eq_ok_iff {v : Value} {text : String} : v.toText = .ok text ↔ v.IsText text := by
  cases v <;> simp [toText, refuse, IsText, eq_comm]

theorem toBool_eq_ok_iff {v : Value} {b : Bool} : v.toBool = .ok b ↔ v = .bool b := by
  cases v <;> simp [toBool, refuse]

theorem toSize_eq_ok_iff {v : Value} {n : Nat} : v.toSize = .ok n ↔ v = .integer n := by
  cases v with
  | integer i =>
    rw [toSize, Value.integer.injEq]
    split
    · exact ⟨nofun, by omega⟩
    · rw [Except.ok.injEq]
      omega
  | _ => simp [toSize, refuse]

/-- One of some alternatives is given by a text, which is its name. -/
theorem toChoice_eq_ok_iff {α : Type} {alternatives : List (String × α)} {name : α → String}
    (hname : ∀ m ∈ alternatives, m.1 = name m.2)
    (hlookup : ∀ a, alternatives.lookup (name a) = some a) {v : Value} {a : α} :
    v.toChoice alternatives = .ok a ↔ v = .text (name a) := by
  constructor
  · intro h
    cases v with
    | text s =>
      rw [toChoice] at h
      split at h
      · rename_i b hb
        obtain rfl := Except.ok.inj h
        exact congrArg text (hname _ (mem_of_lookup_eq_some hb))
      · exact absurd h nofun
    | table members =>
      rw [toChoice] at h
      split at h
      · exact absurd h nofun
      · exact absurd h nofun
    | _ => exact absurd h nofun
  · rintro rfl
    rw [toChoice, hlookup]

theorem toChoice_initPolicy_eq_ok_iff {v : Value} {p : InitPolicy} :
    v.toChoice InitPolicy.names = .ok p ↔ v = .text p.name :=
  toChoice_eq_ok_iff (by decide) InitPolicy.lookup_name

theorem toChoice_layout_eq_ok_iff {v : Value} {l : Layout} :
    v.toChoice Layout.names = .ok l ↔ v = .text l.name :=
  toChoice_eq_ok_iff (by decide) Layout.lookup_name

end Value

namespace Setting

/-- **What a value of the right kind is**, setting by setting. -/
def Fits : Setting → Value → Prop
  | .marker, v => ∃ text, v.IsText text
  | .initPolicy, v => ∃ p : InitPolicy, v = .text p.name
  | .stripsMarker, v => ∃ b, v = .bool b
  | .layout, v => ∃ l : Layout, v = .text l.name
  | .indentWidth, v => ∃ n, v = .integer n

/-- **A configuration whose setting a value writes.** -/
def IsWrittenAs : Setting → Config → Value → Prop
  | .marker, c, v => v.IsText c.expansion.marker
  | .initPolicy, c, v => v = .text c.expansion.initPolicy.name
  | .stripsMarker, c, v => v = .bool c.expansion.stripsMarker
  | .layout, c, v => v = .text c.rendering.layout.name
  | .indentWidth, c, v => v = .integer c.rendering.indentWidth

/-- A configuration whose setting is the default. -/
def IsDefault : Setting → Config → Prop
  | .marker, c => c.expansion.marker = "VisibleForTesting"
  | .initPolicy, c => c.expansion.initPolicy = .permissive
  | .stripsMarker, c => c.expansion.stripsMarker = true
  | .layout, c => c.rendering.layout = .expanded
  | .indentWidth, c => c.rendering.indentWidth = 4

/-- **A configuration whose setting is what a value says**, or the default if
there is no value. -/
def Agrees (k : Setting) (c : Config) : Option Value → Prop
  | none => k.IsDefault c
  | some v => k.IsWrittenAs c v

instance (k : Setting) (c : Config) (v : Value) : Decidable (k.IsWrittenAs c v) :=
  match k with
  | .marker => decidable_of_iff _ Value.toText_eq_ok_iff
  | .initPolicy => decidable_of_iff _ Value.toChoice_initPolicy_eq_ok_iff
  | .stripsMarker => decidable_of_iff _ Value.toBool_eq_ok_iff
  | .layout => decidable_of_iff _ Value.toChoice_layout_eq_ok_iff
  | .indentWidth => decidable_of_iff _ Value.toSize_eq_ok_iff

instance (k : Setting) (c : Config) : Decidable (k.IsDefault c) :=
  match k with
  | .marker => inferInstanceAs (Decidable (_ = _))
  | .initPolicy => inferInstanceAs (Decidable (_ = _))
  | .stripsMarker => inferInstanceAs (Decidable (_ = _))
  | .layout => inferInstanceAs (Decidable (_ = _))
  | .indentWidth => inferInstanceAs (Decidable (_ = _))

instance (k : Setting) (c : Config) (value : Option Value) : Decidable (k.Agrees c value) :=
  match value with
  | none => inferInstanceAs (Decidable (k.IsDefault c))
  | some v => inferInstanceAs (Decidable (k.IsWrittenAs c v))

end Setting

/-! ## What is loaded -/

theorem mapError_eq_ok_iff {ε ε' α : Type} {f : ε → ε'} {x : Except ε α} {a : α} :
    x.mapError f = .ok a ↔ x = .ok a := by
  cases x with
  | error e => exact ⟨nofun, nofun⟩
  | ok b => rw [Except.mapError, Except.ok.injEq, Except.ok.injEq]

/-- A setting is read as what a configuration has if its value agrees with
the configuration, as soon as this is so for values and for the default. -/
theorem Setting.setting_eq_ok_iff_agrees (k : Setting) {c : Config} {α : Type} {name : String}
    {value : Option Value} {read : Value → Fitting α} {fallback a : α}
    (hdefault : a = fallback ↔ k.IsDefault c) (hread : ∀ v, read v = .ok a ↔ k.IsWrittenAs c v) :
    Value.setting name value read fallback = .ok a ↔ k.Agrees c value := by
  cases value with
  | none =>
    rw [Value.setting, Except.ok.injEq, eq_comm]
    exact hdefault
  | some v =>
    refine Iff.trans ?_ (hread v)
    cases h : read v with
    | ok b => simp only [Value.setting, h]
    | error e => simp only [Value.setting, h, reduceCtorEq]

theorem ExpansionSettings.ofSettings_eq_ok_iff {value : Setting → Option Value} {c : Config} :
    ExpansionSettings.ofSettings value = .ok c.expansion ↔
      Setting.marker.Agrees c (value .marker) ∧ Setting.initPolicy.Agrees c (value .initPolicy)
        ∧ Setting.stripsMarker.Agrees c (value .stripsMarker) := by
  rw [← Setting.setting_eq_ok_iff_agrees .marker Iff.rfl fun v => Value.toText_eq_ok_iff,
    ← Setting.setting_eq_ok_iff_agrees .initPolicy Iff.rfl fun v =>
      Value.toChoice_initPolicy_eq_ok_iff,
    ← Setting.setting_eq_ok_iff_agrees .stripsMarker Iff.rfl fun v => Value.toBool_eq_ok_iff]
  simp only [ofSettings, bind_eq_ok_iff]
  constructor
  · rintro ⟨marker, hmarker, initPolicy, hpolicy, stripsMarker, hstrips, h⟩
    rw [← Except.ok.inj h]
    exact ⟨hmarker, hpolicy, hstrips⟩
  · rintro ⟨hmarker, hpolicy, hstrips⟩
    exact ⟨_, hmarker, _, hpolicy, _, hstrips, rfl⟩

theorem Rendering.ofSettings_eq_ok_iff {value : Setting → Option Value} {c : Config} :
    Rendering.ofSettings value = .ok c.rendering ↔
      Setting.layout.Agrees c (value .layout)
        ∧ Setting.indentWidth.Agrees c (value .indentWidth) := by
  rw [← Setting.setting_eq_ok_iff_agrees .layout Iff.rfl fun v => Value.toChoice_layout_eq_ok_iff,
    ← Setting.setting_eq_ok_iff_agrees .indentWidth Iff.rfl fun v => Value.toSize_eq_ok_iff]
  simp only [ofSettings, bind_eq_ok_iff]
  constructor
  · rintro ⟨indentWidth, hwidth, layout, hlayout, h⟩
    rw [← Except.ok.inj h]
    exact ⟨hlayout, hwidth⟩
  · rintro ⟨hlayout, hwidth⟩
    exact ⟨_, hwidth, _, hlayout, rfl⟩

/-- **What is read from the values of the settings**: the configuration that
agrees with all of them. -/
theorem Config.ofSettings_eq_ok_iff {value : Setting → Option Value} {c : Config} :
    Config.ofSettings value = .ok c ↔ ∀ k : Setting, k.Agrees c (value k) := by
  have hsections : Config.ofSettings value = .ok c ↔
      ExpansionSettings.ofSettings value = .ok c.expansion
        ∧ Rendering.ofSettings value = .ok c.rendering := by
    simp only [Config.ofSettings, bind_eq_ok_iff, Value.within, mapError_eq_ok_iff]
    constructor
    · rintro ⟨expansion, hexpansion, rendering, hrendering, h⟩
      rw [← Except.ok.inj h]
      exact ⟨hexpansion, hrendering⟩
    · rintro ⟨hexpansion, hrendering⟩
      exact ⟨_, hexpansion, _, hrendering, rfl⟩
  rw [hsections, ExpansionSettings.ofSettings_eq_ok_iff, Rendering.ofSettings_eq_ok_iff]
  constructor
  · rintro ⟨⟨hmarker, hpolicy, hstrips⟩, hlayout, hwidth⟩ k
    cases k with
    | marker => exact hmarker
    | initPolicy => exact hpolicy
    | stripsMarker => exact hstrips
    | layout => exact hlayout
    | indentWidth => exact hwidth
  · intro h
    exact ⟨⟨h .marker, h .initPolicy, h .stripsMarker⟩, h .layout, h .indentWidth⟩

/-- **A configuration that passes the check** has a name to look for and a
sensible width. -/
theorem Config.validate_eq_ok_iff {c d : Config} :
    c.validate = .ok d ↔ c = d ∧ Naming.isIdentifier d.markerName = true
      ∧ 1 ≤ d.rendering.indentWidth ∧ d.rendering.indentWidth ≤ 16 := by
  unfold Config.validate Config.indentWidths
  simp only [Bool.not_eq_true', Bool.or_eq_true, decide_eq_true_eq]
  split
  · rename_i hname
    refine ⟨nofun, ?_⟩
    rintro ⟨rfl, hname', -⟩
    exact absurd hname' (Bool.eq_false_iff.mp hname)
  · rename_i hname
    split
    · rename_i hwidth
      refine ⟨nofun, ?_⟩
      rintro ⟨rfl, -, hwidth'⟩
      omega
    · rename_i hwidth
      rw [Except.ok.injEq]
      refine ⟨?_, And.left⟩
      rintro rfl
      exact ⟨rfl, Bool.not_eq_false _ ▸ hname, by omega⟩

section Layers

variable {layers : List Value}

/-- **A configuration made of layers** depends on the effective values of the
settings and on nothing else. -/
theorem Config.ofLayers_eq (h : ∀ layer ∈ layers, layer.IsPlainLayer) :
    Config.ofLayers layers = (do
      let config ← (Config.ofSettings fun k => k.effective? layers).mapError .mismatch
      config.validate.mapError .outOfRange) := by
  obtain ⟨hstack, hvalue⟩ := Value.isPlainLayer_stack h
  unfold Config.ofLayers
  rw [Config.ofValue_eq_ofSettings hstack, funext hvalue]

/-- What is made of layers agrees with the effective values and passes the
check. -/
theorem Config.ofLayers_eq_ok_iff (h : ∀ layer ∈ layers, layer.IsPlainLayer) (c : Config) :
    Config.ofLayers layers = .ok c ↔
      (∀ k : Setting, k.Agrees c (k.effective? layers)) ∧ Naming.isIdentifier c.markerName = true
        ∧ 1 ≤ c.rendering.indentWidth ∧ c.rendering.indentWidth ≤ 16 := by
  simp only [Config.ofLayers_eq h, bind_eq_ok_iff, mapError_eq_ok_iff, Config.validate_eq_ok_iff,
    Config.ofSettings_eq_ok_iff]
  constructor
  · rintro ⟨d, hagrees, rfl, hchecked⟩
    exact ⟨hagrees, hchecked⟩
  · rintro ⟨hagrees, hchecked⟩
    exact ⟨c, hagrees, rfl, hchecked⟩

end Layers

namespace Setting

/-- A value that writes a setting is of the right kind. -/
theorem fits_of_isWrittenAs {k : Setting} {c : Config} {v : Value} (h : k.IsWrittenAs c v) :
    k.Fits v := by
  cases k <;> exact ⟨_, h⟩

/-- A value of the right kind writes a setting, if it is not a width that no
configuration can have. -/
theorem exists_isWrittenAs {k : Setting} {v : Value} (h : k.Fits v)
    (hwidth : ∀ n, k = .indentWidth → v = .integer n → 0 ≤ n) : ∃ c, k.IsWrittenAs c v := by
  cases k with
  | marker =>
    obtain ⟨text, h⟩ := h
    exact ⟨{ expansion := { marker := text } }, h⟩
  | initPolicy =>
    obtain ⟨p, h⟩ := h
    exact ⟨{ expansion := { initPolicy := p } }, h⟩
  | stripsMarker =>
    obtain ⟨b, h⟩ := h
    exact ⟨{ expansion := { stripsMarker := b } }, h⟩
  | layout =>
    obtain ⟨l, h⟩ := h
    exact ⟨{ rendering := { layout := l } }, h⟩
  | indentWidth =>
    obtain ⟨n, rfl⟩ := h
    refine ⟨{ rendering := { indentWidth := n.toNat } }, ?_⟩
    show Value.integer n = .integer n.toNat
    rw [Int.toNat_of_nonneg (hwidth n rfl rfl)]

/-- Settings are independent: where there is a configuration for each of them,
there is one for all. -/
theorem exists_forall_agrees {value : Setting → Option Value}
    (h : ∀ k : Setting, ∃ c, k.Agrees c (value k)) :
    ∃ c, ∀ k : Setting, k.Agrees c (value k) := by
  choose c hc using h
  refine ⟨{
    expansion := {
      marker := (c .marker).expansion.marker
      initPolicy := (c .initPolicy).expansion.initPolicy
      stripsMarker := (c .stripsMarker).expansion.stripsMarker }
    rendering := {
      layout := (c .layout).rendering.layout
      indentWidth := (c .indentWidth).rendering.indentWidth } }, fun k => ?_⟩
  have hk := hc k
  cases k <;> exact hk

end Setting

/-- A value stands for one text at most. -/
theorem Value.IsText.unique {v : Value} {text text' : String} (h : v.IsText text)
    (h' : v.IsText text') : text = text' := by
  rw [← Value.toText_eq_ok_iff] at h h'
  exact Except.ok.inj (h.symm.trans h')

namespace Config

variable {layers : List Value}

/-- **There is a configuration** if the effective values are of the right kind
and in their ranges. -/
theorem exists_ofLayers_eq_ok (h : ∀ layer ∈ layers, layer.IsPlainLayer)
    (hfits : ∀ (k : Setting) v, k.effective? layers = some v → k.Fits v)
    (hmarker : ∀ v text, Setting.marker.effective? layers = some v → v.IsText text →
      Naming.isIdentifier (ExpansionSettings.markerName { marker := text }) = true)
    (hwidth : ∀ n, Setting.indentWidth.effective? layers = some (.integer n) → 1 ≤ n ∧ n ≤ 16) :
    ∃ c, Config.ofLayers layers = .ok c := by
  have heach (k : Setting) : ∃ c, k.Agrees c (k.effective? layers) := by
    cases heffective : k.effective? layers with
    | none => exact ⟨{}, by cases k <;> rfl⟩
    | some v =>
      -- a negative width is of the right kind, and only its range rules it out
      refine Setting.exists_isWrittenAs (hfits k v heffective) ?_
      rintro n rfl rfl
      have hrange := hwidth n heffective
      omega
  obtain ⟨c, hc⟩ := Setting.exists_forall_agrees heach
  refine ⟨c, (ofLayers_eq_ok_iff h c).mpr ⟨hc, ?_, ?_⟩⟩
  · have hagrees := hc .marker
    cases heffective : Setting.marker.effective? layers with
    | none =>
      rw [heffective] at hagrees
      have hdefault : c.expansion.marker = "VisibleForTesting" := hagrees
      unfold Config.markerName ExpansionSettings.markerName
      rw [hdefault]
      decide +kernel
    | some v =>
      rw [heffective] at hagrees
      exact hmarker v _ heffective hagrees
  · have hagrees := hc .indentWidth
    cases heffective : Setting.indentWidth.effective? layers with
    | none =>
      rw [heffective] at hagrees
      have hdefault : c.rendering.indentWidth = 4 := hagrees
      omega
    | some v =>
      rw [heffective] at hagrees
      obtain rfl : v = .integer c.rendering.indentWidth := hagrees
      have hrange := hwidth _ heffective
      omega

/-- **There is no configuration** exactly if an effective value is of the wrong
kind or out of its range. -/
theorem exists_ofLayers_eq_error_iff (h : ∀ layer ∈ layers, layer.IsPlainLayer) :
    (∃ e, Config.ofLayers layers = .error e) ↔
      (∃ (k : Setting) (v : Value), k.effective? layers = some v ∧ ¬ k.Fits v)
      ∨ (∃ v text, Setting.marker.effective? layers = some v ∧ v.IsText text
        ∧ Naming.isIdentifier (ExpansionSettings.markerName { marker := text }) = false)
      ∨ ∃ n, Setting.indentWidth.effective? layers = some (.integer n) ∧ ¬ (1 ≤ n ∧ n ≤ 16) := by
  constructor
  · rintro ⟨e, he⟩
    by_contra hnone
    push Not at hnone
    obtain ⟨hfits, hmarker, hwidth⟩ := hnone
    obtain ⟨c, hc⟩ := exists_ofLayers_eq_ok h hfits
      (fun v text hv htext => Bool.not_eq_false _ ▸ hmarker v text hv htext) hwidth
    exact absurd (he.symm.trans hc) nofun
  · intro hbad
    cases hload : Config.ofLayers layers with
    | error e => exact ⟨e, rfl⟩
    | ok c =>
      exfalso
      obtain ⟨hagrees, hname, hrange⟩ := (ofLayers_eq_ok_iff h c).mp hload
      rcases hbad with ⟨k, v, hv, hfits⟩ | ⟨v, text, hv, htext, hname'⟩ | ⟨n, hn, hrange'⟩
      · have hk := hagrees k
        rw [hv] at hk
        exact hfits (Setting.fits_of_isWrittenAs hk)
      · have hk := hagrees .marker
        rw [hv] at hk
        rw [htext.unique hk] at hname'
        exact absurd hname (Bool.eq_false_iff.mp hname')
      · have hk := hagrees .indentWidth
        rw [hn] at hk
        obtain rfl : n = c.rendering.indentWidth := Value.integer.inj hk
        omega

end Config

/-- **A setting comes from the highest layer that has it**, in any number of
layers whose names are distinct, whose sections are tables and whose settings
are not.

* A configuration is made of the layers exactly if each of its settings is the
  effective value of the setting, or the default where no layer has one, and it
  passes the check.
* There is none exactly if the effective value of a setting is of the wrong
  kind, or the effective annotation without its signs is not an identifier, or
  the effective width is out of range.
* Nothing else has an influence: layers with the same effective values give the
  same, down to the error. -/
theorem Config.ofLayers_of_isPlainLayer {layers : List Value}
    (h : ∀ layer ∈ layers, layer.IsPlainLayer) :
    (∀ c, Config.ofLayers layers = .ok c ↔
      (∀ k : Setting, k.Agrees c (k.effective? layers)) ∧ Naming.isIdentifier c.markerName = true
        ∧ 1 ≤ c.rendering.indentWidth ∧ c.rendering.indentWidth ≤ 16)
    ∧ ((∃ e, Config.ofLayers layers = .error e) ↔
      (∃ (k : Setting) (v : Value), k.effective? layers = some v ∧ ¬ k.Fits v)
      ∨ (∃ v text, Setting.marker.effective? layers = some v ∧ v.IsText text
        ∧ Naming.isIdentifier (ExpansionSettings.markerName { marker := text }) = false)
      ∨ ∃ n, Setting.indentWidth.effective? layers = some (.integer n) ∧ ¬ (1 ≤ n ∧ n ≤ 16))
    ∧ ∀ layers' : List Value, (∀ layer ∈ layers', layer.IsPlainLayer) →
      (∀ k : Setting, k.effective? layers' = k.effective? layers) →
      Config.ofLayers layers' = Config.ofLayers layers := by
  refine ⟨Config.ofLayers_eq_ok_iff h, Config.exists_ofLayers_eq_error_iff h,
    fun layers' h' heffective => ?_⟩
  rw [Config.ofLayers_eq h, Config.ofLayers_eq h', funext heffective]

/-- **Sources with plain settings**: the files can be read, and in each layer
the sections are tables and the settings are not. The lowest layer comes
first. -/
structure ConfigSources.HasPlainLayers (s : ConfigSources) (layers : List Value) : Prop where
  layers_eq : s.layers = .ok layers
  plain : ∀ layer ∈ layers, layer.HasPlainSettings

namespace ConfigSources.HasPlainLayers

variable {s : ConfigSources} {layers : List Value}

/-- The names of a layer that has been read are distinct. -/
theorem isPlainLayer (h : s.HasPlainLayers layers) : ∀ layer ∈ layers, layer.IsPlainLayer :=
  fun layer hmem => ⟨s.isLayer_of_mem_layers h.layers_eq layer hmem, h.plain layer hmem⟩

/-- Once the layers have been read, only they count. -/
theorem load_eq (h : s.HasPlainLayers layers) : Config.load s = Config.ofLayers layers := by
  unfold Config.load
  rw [h.layers_eq]
  rfl

end ConfigSources.HasPlainLayers

/-- **A setting comes from the highest layer that has it.** The layers are the
file of the user, the file of the project and the environment, in this order;
their sections are tables and their settings are not.

* A configuration is what is loaded exactly if each of its settings is the
  effective value of the setting, or the default where no layer has one, and it
  passes the check.
* Loading fails exactly if the effective value of a setting is of the wrong
  kind, or the effective annotation without its signs is not an identifier, or
  the effective width is out of range.
* Nothing else has an influence: layers with the same effective values load
  the same, down to the error. -/
theorem load_of_hasPlainLayers {s : ConfigSources} {layers : List Value}
    (h : s.HasPlainLayers layers) :
    (∀ c, Config.load s = .ok c ↔
      (∀ k : Setting, k.Agrees c (k.effective? layers)) ∧ Naming.isIdentifier c.markerName = true
        ∧ 1 ≤ c.rendering.indentWidth ∧ c.rendering.indentWidth ≤ 16)
    ∧ ((∃ e, Config.load s = .error e) ↔
      (∃ (k : Setting) (v : Value), k.effective? layers = some v ∧ ¬ k.Fits v)
      ∨ (∃ v text, Setting.marker.effective? layers = some v ∧ v.IsText text
        ∧ Naming.isIdentifier (ExpansionSettings.markerName { marker := text }) = false)
      ∨ ∃ n, Setting.indentWidth.effective? layers = some (.integer n) ∧ ¬ (1 ≤ n ∧ n ≤ 16))
    ∧ ∀ (s' : ConfigSources) (layers' : List Value), s'.HasPlainLayers layers' →
      (∀ k : Setting, k.effective? layers' = k.effective? layers) →
      Config.load s' = Config.load s := by
  obtain ⟨hok, herror, hsame⟩ := Config.ofLayers_of_isPlainLayer h.isPlainLayer
  rw [h.load_eq]
  refine ⟨hok, herror, fun s' layers' h' heffective => ?_⟩
  rw [h'.load_eq]
  exact hsame layers' h'.isPlainLayer heffective

/-- Sources in which a number for an annotation and a width of 99 are covered by
higher layers, a section is spread over both files, and members that are no
settings hold a table and a text. -/
def spreadSources : ConfigSources where
  user := some "[expansion]\nannotation = 5\n[render]\nlayout = \"compact\"\nindent_width = 99\n"
  project := some "[render]\nindent_width = 2\ncolours = {}\n"
  environment := [("VFT_EXPANSION__ANNOTATION", "@Exposed"), ("VFT_LOG", "debug")]

/-- The layers of `spreadSources`. -/
def spreadLayers : List Value := spreadSources.layers.toOption.getD []

theorem load_of_hasPlainLayers_spreadSources :
    spreadSources.HasPlainLayers spreadLayers
      ∧ Config.load spreadSources = .ok {
          expansion := { marker := "@Exposed" }
          rendering := { layout := .compact, indentWidth := 2 } } := by
  have hok : spreadSources.layers.isOk = true := by decide +kernel
  have hlayers : spreadSources.layers = .ok spreadLayers := by
    unfold spreadLayers
    cases hs : spreadSources.layers with
    | error e =>
      rw [hs] at hok
      exact absurd hok nofun
    | ok layers => rfl
  have h : spreadSources.HasPlainLayers spreadLayers := ⟨hlayers, by decide +kernel⟩
  exact ⟨h, ((load_of_hasPlainLayers h).1 _).mpr (by decide +kernel)⟩

end TestAccess
