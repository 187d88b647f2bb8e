import ChartFeed.Proofs.Json.Reading
import ChartFeed.Proofs.Transform.Result
import ChartFeed.Proofs.Transform.SingleValue
import ChartFeed.Transform.Step

/-!
# Steps whose options differ in the order of fields

The order of the fields in a step's options can be seen in two places: columns and aggregates are
taken in the order in which a mapping names them, and an object that fills absent cells becomes its
text.  Everything else about a step is the same.

* `AggregateSpec.perm_of_resolveAll` — alike specifications mean the same aggregates, in some order;
* `Transform.Alike` — two transforms are the same apart from these places;
* `Transform.read_alike` — alike values are read as alike transforms.
-/

set_option autoImplicit false

namespace ChartFeed

open Dict (get? keys)
open Shape (Respects)

/-! ## Rearranged lists -/

/-- Of two rearrangements of a list, those that agree on an injective label are the same. -/
theorem eq_of_perm_of_map_eq {α β : Type} {f : α → β} {as bs : List α} (hn : (as.map f).Nodup)
    (hp : as.Perm bs) (h : as.map f = bs.map f) : as = bs := by
  induction as generalizing bs with
  | nil => exact hp.nil_eq
  | cons a as ih =>
    cases bs with
    | nil => cases h
    | cons b bs =>
      obtain ⟨hab, hrest⟩ := List.cons_eq_cons.1 h
      have hmem : b ∈ a :: as := hp.mem_iff.2 (List.mem_cons_self ..)
      have heq : b = a :=
        List.inj_on_of_nodup_map hn hmem (List.mem_cons_self ..) hab.symm
      subst heq
      rw [ih (List.nodup_cons.1 hn).2 ((List.perm_cons _).1 hp) hrest]

/-! ## Aggregates -/

namespace AggregateSpec

/-- Specifications that differ at most in the order of fields. -/
structure Alike (s s' : AggregateSpec) : Prop where
  column_eq : s.column = s'.column
  operator_eq : s.operator = s'.operator
  options : Json.Alike (.obj s.options) (.obj s'.options)

theorem respects_read : Respects read Alike := by
  intro v w s s' hvw hs hs'
  simp only [read, bind_eq_ok, pure_eq_ok] at hs hs'
  obtain ⟨d, hd, column, hcolumn, operator, hoperator, options, hoptions, rfl⟩ := hs
  obtain ⟨e, he, column', hcolumn', operator', hoperator', options', hoptions', rfl⟩ := hs'
  have hde := Record.entries_alike hvw hd he
  refine ⟨hde.optional_eq Shape.respects_text hcolumn hcolumn',
    hde.optional_eq Shape.respects_text hoperator hoperator',
    hde.defaulted Shape.respects_fields (Json.Alike.refl ?_) hoptions hoptions'⟩
  exact Json.wellFormed_obj_iff.2 ⟨by simp [keys], by simp⟩

theorem Alike.percentile_eq {s s' : AggregateSpec} (h : Alike s s') :
    percentile s.options = percentile s'.options := by
  have hde := (Json.alike_obj_iff h.options.left h.options.right).1 h.options
  rw [percentile, percentile, hde.bind_eq Json.Alike.asFloat?_eq]

/-- The measure that an operator names, or the default without one; a percentile lacks its
number. -/
def named (operator : Option String) (default : Option Measure) : Option (Option Measure) :=
  match operator, default with
  | some written, _ => operator? (plainName written)
  | none, some m => some (some m)
  | none, none => none

/-- A measure, unless there are options that are not known. -/
def withoutStray (options : Dict Json) (known : List String) (m : Measure) :
    Except AggregateFault Measure :=
  match (keys options).filter fun k ↦ !known.contains k with
  | [] => .ok m
  | stray => .error (.strayOptions stray)

/-- A measure that has been named, with the number that a percentile lacks. -/
def settle (options : Dict Json) : Option Measure → Except AggregateFault Measure
  | some m => withoutStray options [] m
  | none => (percentile options).bind (withoutStray options ["q"])

/-- The measure of a specification is named first and settled then. -/
theorem measure_eq_settle {spec : AggregateSpec} {default : Option Measure} {m : Measure}
    (h : spec.measure default = .ok m) :
    ∃ chosen, named spec.operator default = some chosen ∧ settle spec.options chosen = .ok m := by
  obtain ⟨column, operator, options⟩ := spec
  cases operator with
  | some written =>
    cases hwritten : operator? (plainName written) with
    | some chosen =>
      refine ⟨chosen, hwritten, ?_⟩
      simp only [measure, hwritten] at h
      cases chosen with
      | some m' => exact h
      | none =>
        obtain ⟨q, hq, h⟩ := bind_eq_ok.1 ((pure_bind ..).symm.trans h)
        simp only [settle, hq]
        exact h
    | none =>
      simp only [measure, hwritten] at h
      cases h
  | none =>
    cases default with
    | some m' => exact ⟨some m', rfl, h⟩
    | none => cases h

theorem withoutStray_eq_ok {options : Dict Json} {known : List String} {m m' : Measure}
    (h : withoutStray options known m = .ok m') : m = m' := by
  rw [withoutStray] at h
  split at h
  · exact Except.ok.inj h
  · cases h

/-- Alike specifications have the same measure. -/
theorem Alike.measure_eq {s s' : AggregateSpec} (h : Alike s s') {default : Option Measure}
    {m m' : Measure} (hm : s.measure default = .ok m) (hm' : s'.measure default = .ok m') :
    m = m' := by
  obtain ⟨chosen, hchosen, hm⟩ := measure_eq_settle hm
  obtain ⟨chosen', hchosen', hm'⟩ := measure_eq_settle hm'
  rw [h.operator_eq, hchosen'] at hchosen
  cases hchosen
  cases chosen with
  | some m₁ => exact (withoutStray_eq_ok hm).symm.trans (withoutStray_eq_ok hm')
  | none =>
    obtain ⟨q, hq, hm⟩ := bind_eq_ok.1 hm
    obtain ⟨q', hq', hm'⟩ := bind_eq_ok.1 hm'
    rw [h.percentile_eq, hq'] at hq
    cases hq
    exact (withoutStray_eq_ok hm).symm.trans (withoutStray_eq_ok hm')

theorem valid_of_operator? {name : String} {m : Measure} (h : operator? name = some (some m)) :
    m.Valid := by
  unfold operator? at h
  split at h <;> cases h <;> exact fun q ↦ nofun

theorem valid_of_percentile {options : Dict Json} {m : Measure} (h : percentile options = .ok m) :
    m.Valid := by
  rw [percentile] at h
  split at h
  · cases h
  · split at h
    · next hrange =>
      cases h
      intro q hq
      cases hq
      exact hrange
    · cases h

/-- A measure that a specification means is valid, if the default is. -/
theorem valid_of_measure {spec : AggregateSpec} {default : Option Measure} {m : Measure}
    (hdefault : ∀ m, default = some m → m.Valid) (h : spec.measure default = .ok m) : m.Valid := by
  obtain ⟨chosen, hchosen, hm⟩ := measure_eq_settle h
  cases chosen with
  | none =>
    obtain ⟨m', hm', hm⟩ := bind_eq_ok.1 hm
    rw [← withoutStray_eq_ok hm]
    exact valid_of_percentile hm'
  | some m' =>
    rw [← withoutStray_eq_ok hm]
    unfold named at hchosen
    split at hchosen
    · exact valid_of_operator? hchosen
    · cases hchosen
      exact hdefault _ rfl
    · cases hchosen

theorem resolve_eq_ok {name : String} {spec : AggregateSpec} {default : Option Measure}
    {a : Aggregate} (h : resolve name spec default = .ok a) :
    ∃ m, spec.measure default = .ok m ∧ a = ⟨name, spec.column.getD name, m⟩ := by
  rw [resolve] at h
  split at h
  · next m hm => exact ⟨m, hm, (Except.ok.inj h).symm⟩
  · cases h

theorem Alike.resolve_eq {s s' : AggregateSpec} (h : Alike s s') {name : String}
    {default : Option Measure} {a b : Aggregate} (ha : resolve name s default = .ok a)
    (hb : resolve name s' default = .ok b) : a = b := by
  obtain ⟨m, hm, rfl⟩ := resolve_eq_ok ha
  obtain ⟨m', hm', rfl⟩ := resolve_eq_ok hb
  rw [h.measure_eq hm hm', h.column_eq]

theorem resolveAll_eq_ok {default : Option Measure} {entries : Dict AggregateSpec}
    {as : List Aggregate} (h : resolveAll default entries = .ok as) :
    List.Forall₂ (fun entry a ↦ resolve entry.1 entry.2 default = .ok a) entries as := by
  induction entries generalizing as with
  | nil =>
    cases h
    exact .nil
  | cons entry rest ih =>
    obtain ⟨a, ha, h⟩ := bind_eq_ok.1 h
    obtain ⟨as, has, h⟩ := bind_eq_ok.1 h
    cases h
    exact .cons ha (ih has)

/-- Every specification becomes an aggregate. -/
theorem exists_of_mem_resolveAll {default : Option Measure} {entries : Dict AggregateSpec}
    {as : List Aggregate} (h : resolveAll default entries = .ok as) {name : String}
    {spec : AggregateSpec} (hspec : (name, spec) ∈ entries) :
    ∃ a ∈ as, resolve name spec default = .ok a := by
  have hall := resolveAll_eq_ok h
  clear h
  induction hall with
  | nil => cases hspec
  | cons ha _ ih =>
    rcases List.mem_cons.1 hspec with rfl | hspec
    · exact ⟨_, List.mem_cons_self .., ha⟩
    · obtain ⟨b, hb, hresolve⟩ := ih hspec
      exact ⟨b, List.mem_cons_of_mem _ hb, hresolve⟩

theorem names_of_resolveAll {default : Option Measure} {entries : Dict AggregateSpec}
    {as : List Aggregate} (h : resolveAll default entries = .ok as) :
    as.map Aggregate.name = keys entries := by
  have hall := resolveAll_eq_ok h
  clear h
  induction hall with
  | nil => rfl
  | cons ha _ ih =>
    obtain ⟨m, -, rfl⟩ := resolve_eq_ok ha
    simp only [keys, List.map_cons] at ih ⊢
    rw [ih]

/-- Every aggregate is that of a specification. -/
theorem exists_spec_of_mem_resolveAll {default : Option Measure} {entries : Dict AggregateSpec}
    {as : List Aggregate} (h : resolveAll default entries = .ok as) {a : Aggregate} (ha : a ∈ as) :
    ∃ name spec, (name, spec) ∈ entries ∧ resolve name spec default = .ok a := by
  have hall := resolveAll_eq_ok h
  clear h
  induction hall with
  | nil => cases ha
  | @cons entry _ _ _ hentry _ ih =>
    rcases List.mem_cons.1 ha with rfl | ha
    · exact ⟨entry.1, entry.2, List.mem_cons_self .., hentry⟩
    · obtain ⟨name, spec, hspec, hresolve⟩ := ih ha
      exact ⟨name, spec, List.mem_cons_of_mem _ hspec, hresolve⟩

theorem valid_of_mem_resolveAll {default : Option Measure} {entries : Dict AggregateSpec}
    {as : List Aggregate} (hdefault : ∀ m, default = some m → m.Valid)
    (h : resolveAll default entries = .ok as) : ∀ a ∈ as, a.measure.Valid := by
  intro a ha
  obtain ⟨name, spec, -, hresolve⟩ := exists_spec_of_mem_resolveAll h ha
  obtain ⟨m, hm, rfl⟩ := resolve_eq_ok hresolve
  exact valid_of_measure hdefault hm

/-- Aggregates under their names. -/
def labelled (as : List Aggregate) : Dict Aggregate := as.map fun a ↦ (a.name, a)

/-- Every specification is resolved where it stands. -/
theorem related_of_resolveAll {default : Option Measure} {entries : Dict AggregateSpec}
    {as : List Aggregate} (h : resolveAll default entries = .ok as) :
    Dict.Related (fun spec a ↦ resolve a.name spec default = .ok a) entries (labelled as) := by
  intro key
  have hall := resolveAll_eq_ok h
  clear h
  induction hall with
  | nil => exact .inl ⟨rfl, rfl⟩
  | @cons entry a rest as ha _ ih =>
    obtain ⟨name, spec⟩ := entry
    obtain ⟨m, hm, rfl⟩ := resolve_eq_ok ha
    rw [labelled, List.map_cons]
    exact ih.cons name ha

/-- **Alike specifications resolve to the same aggregates**, in whatever order. -/
theorem perm_of_resolveAll {default : Option Measure} {m m' : OrderedMap AggregateSpec}
    (h : Dict.Related Alike m.entries m'.entries) {as bs : List Aggregate}
    (ha : resolveAll default m.entries = .ok as) (hb : resolveAll default m'.entries = .ok bs) :
    as.Perm bs := by
  have hlabels (cs : List Aggregate) : keys (labelled cs) = cs.map Aggregate.name := by
    simp [labelled, keys]
  have hvalues (cs : List Aggregate) : (labelled cs).map Prod.snd = cs := by
    simp [labelled, Function.comp_def]
  have hname {cs : List Aggregate} {key : String} {c : Aggregate}
      (hc : get? (labelled cs) key = some c) : c.name = key := by
    obtain ⟨c', -, hentry⟩ := List.mem_map.1 (Dict.mem_of_get? hc)
    cases hentry
    rfl
  have hrelated : Dict.Related Eq (labelled as) (labelled bs) := by
    have hsquare : Dict.Related (fun a b ↦ a.name = b.name → a = b) (labelled as) (labelled bs) :=
      h.square (related_of_resolveAll ha) (related_of_resolveAll hb)
        fun hspec hresolve hresolve' hnames ↦
          hspec.resolve_eq hresolve (hnames ▸ hresolve')
    intro key
    rcases hsquare key with hnone | ⟨a, b, hak, hbk, hab⟩
    · exact .inl hnone
    · exact .inr ⟨a, b, hak, hbk, hab ((hname hak).trans (hname hbk).symm)⟩
  have hperm : (labelled as).Perm (labelled bs) := by
    refine hrelated.perm ?_ ?_
    · rw [hlabels, names_of_resolveAll ha]
      exact m.nodup
    · rw [hlabels, names_of_resolveAll hb]
      exact m'.nodup
  simpa [hvalues] using hperm.map Prod.snd

end AggregateSpec

theorem Summary.respects_readAggregates :
    Respects readAggregates fun m m' ↦
      Dict.Related AggregateSpec.Alike m.entries m'.entries :=
  Shape.respects_mapping AggregateSpec.respects_read

/-! ## Options -/

/-- A mapping of columns to texts is read alike up to the order of its entries. -/
theorem respects_columns :
    Respects (Shape.mapping Shape.text) fun m m' ↦ m.entries.Perm m'.entries :=
  Shape.respects_mapping_perm Shape.respects_text

theorem RowSort.respects_read :
    Respects read fun s s' ↦ s.columns.entries.Perm s'.columns.entries := by
  intro v w s s' hvw hs hs'
  simp only [read, bind_eq_ok, pure_eq_ok] at hs hs'
  obtain ⟨d, hd, columns, hcolumns, rfl⟩ := hs
  obtain ⟨e, he, columns', hcolumns', rfl⟩ := hs'
  exact (Record.entries_alike hvw hd he).required
    (Shape.respects_mapping_perm Shape.respects_boolean) hcolumns hcolumns'

theorem Selection.respects_read :
    Respects read fun s s' ↦ s.columns.entries.Perm s'.columns.entries := by
  intro v w s s' hvw hs hs'
  simp only [read, bind_eq_ok, pure_eq_ok] at hs hs'
  obtain ⟨d, hd, columns, hcolumns, rfl⟩ := hs
  obtain ⟨e, he, columns', hcolumns', rfl⟩ := hs'
  exact (Record.entries_alike hvw hd he).required respects_columns hcolumns hcolumns'

theorem Difference.respects_read :
    Respects read fun d d' ↦
      d.columns.entries.Perm d'.columns.entries ∧ d.periods = d'.periods := by
  intro v w r r' hvw hr hr'
  simp only [read, bind_eq_ok, pure_eq_ok] at hr hr'
  obtain ⟨d, hd, columns, hcolumns, periods, hperiods, rfl⟩ := hr
  obtain ⟨e, he, columns', hcolumns', periods', hperiods', rfl⟩ := hr'
  have hde := Record.entries_alike hvw hd he
  exact ⟨hde.required respects_columns hcolumns hcolumns',
    hde.defaulted Shape.respects_signed rfl hperiods hperiods'⟩

theorem Running.respects_read :
    Respects read fun r r' ↦
      r.columns.entries.Perm r'.columns.entries ∧ r.accumulation = r'.accumulation := by
  intro v w r r' hvw hr hr'
  simp only [read, bind_eq_ok, pure_eq_ok] at hr hr'
  obtain ⟨d, hd, columns, hcolumns, accumulation, haccumulation, rfl⟩ := hr
  obtain ⟨e, he, columns', hcolumns', accumulation', haccumulation', rfl⟩ := hr'
  have hde := Record.entries_alike hvw hd he
  exact ⟨hde.required respects_columns hcolumns hcolumns',
    hde.required (Shape.respects_variant _) haccumulation haccumulation'⟩

theorem Contribution.respects_readOptions : Respects Options.read Eq := by
  intro v w o o' hvw ho ho'
  simp only [Options.read, bind_eq_ok, pure_eq_ok] at ho ho'
  obtain ⟨d, hd, orientation, horientation, columns, hcolumns, names, hnames, rfl⟩ := ho
  obtain ⟨e, he, orientation', horientation', columns', hcolumns', names', hnames', rfl⟩ := ho'
  have hde := Record.entries_alike hvw hd he
  rw [hde.defaulted (Shape.respects_variant _) rfl horientation horientation',
    hde.optional_eq Shape.respects_texts hcolumns hcolumns',
    hde.optional_eq Shape.respects_texts hnames hnames']

/-- What the options' mode is made of. -/
theorem RollingOptions.mode_eq_ok {o : RollingOptions} {mode : RollingMode}
    (h : o.mode = .ok mode) :
    (o.type = .total ∧ mode = .total) ∨
      (∃ s w, o.type = .plain s ∧ o.rollingWindow = .ok w ∧ mode = .windowed s w) ∨
      (∃ w p, o.type = .quantile ∧ o.rollingWindow = .ok w ∧
        fraction (o.typeOptions.getD []) = .ok p ∧ mode = .windowed (.quantile p) w) := by
  simp only [RollingOptions.mode] at h
  split at h
  · next htype =>
    split at h
    · cases h
      exact .inl ⟨htype, rfl⟩
    · cases h
  · next s htype =>
    obtain ⟨w, hw, h⟩ := bind_eq_ok.1 h
    split at h
    · cases h
      exact .inr (.inl ⟨s, w, htype, hw, rfl⟩)
    · cases h
  · next htype =>
    obtain ⟨w, hw, h⟩ := bind_eq_ok.1 h
    obtain ⟨p, hp, h⟩ := bind_eq_ok.1 h
    cases h
    exact .inr (.inr ⟨w, p, htype, hw, hp, rfl⟩)

theorem RollingOptions.fraction_eq {options options' : Option (Dict Json)}
    (h : Option.Rel (fun d e ↦ Json.Alike (.obj d) (.obj e)) options options') :
    fraction (options.getD []) = fraction (options'.getD []) := by
  cases h with
  | none => rfl
  | @some d e h =>
    have hde : Dict.Alike d e := (Json.alike_obj_iff h.left h.right).1 h
    rw [fraction, fraction, Option.getD_some, Option.getD_some,
      hde.bind_eq Json.Alike.asFloat?_eq]

/-- The options of the rolling type do not depend on the order of their fields. -/
theorem Rolling.alike_of_options {v w : Json} {o o' : RollingOptions} {r r' : Rolling}
    (hvw : Json.Alike v w) (ho : RollingOptions.read v = .ok o)
    (ho' : RollingOptions.read w = .ok o') (hr : ofOptions o = .ok r)
    (hr' : ofOptions o' = .ok r') :
    r.columns.entries.Perm r'.columns.entries ∧ r.mode = r'.mode := by
  simp only [RollingOptions.read, bind_eq_ok, pure_eq_ok] at ho ho'
  obtain ⟨d, hd, columns, hcolumns, type, htype, window, hwindow, options, hoptions, minimum,
    hminimum, rfl⟩ := ho
  obtain ⟨e, he, columns', hcolumns', type', htype', window', hwindow', options', hoptions',
    minimum', hminimum', rfl⟩ := ho'
  have hde := Record.entries_alike hvw hd he
  have hperm := hde.required respects_columns hcolumns hcolumns'
  have htypes := hde.required (Shape.respects_variant _) htype htype'
  have hwindows := hde.optional_eq Shape.respects_unsigned hwindow hwindow'
  have hfraction := RollingOptions.fraction_eq
    (hde.optional Shape.respects_fields hoptions hoptions')
  have hminima := hde.optional_eq Shape.respects_unsigned hminimum hminimum'
  subst htypes hwindows hminima
  obtain ⟨mode, hmode, rfl⟩ := map_eq_ok.1 hr
  obtain ⟨mode', hmode', rfl⟩ := map_eq_ok.1 hr'
  refine ⟨hperm, ?_⟩
  rcases RollingOptions.mode_eq_ok hmode with
    ⟨ht, rfl⟩ | ⟨s, w, ht, hw, rfl⟩ | ⟨w, p, ht, hw, hp, rfl⟩
    <;> rcases RollingOptions.mode_eq_ok hmode' with
      ⟨ht', rfl⟩ | ⟨s', w', ht', hw', rfl⟩ | ⟨w', p', ht', hw', hp', rfl⟩
    <;> cases ht.symm.trans ht'
  · rfl
  · cases hw.symm.trans hw'
    rfl
  · cases hw.symm.trans hw'
    cases (hfraction ▸ hp).symm.trans hp'
    rfl

theorem Summary.alike_of_options {v w : Json} {o o' : Options} {s s' : Summary}
    (hvw : Json.Alike v w) (ho : Options.read v = .ok o) (ho' : Options.read w = .ok o')
    (hs : ofOptions o = .ok s) (hs' : ofOptions o' = .ok s') :
    s.groupby = s'.groupby ∧ s.aggregates.Perm s'.aggregates ∧
      (s.aggregates.map Aggregate.name).Nodup := by
  simp only [Options.read, bind_eq_ok, pure_eq_ok] at ho ho'
  obtain ⟨d, hd, groupby, hgroupby, specs, hspecs, rfl⟩ := ho
  obtain ⟨e, he, groupby', hgroupby', specs', hspecs', rfl⟩ := ho'
  have hde := Record.entries_alike hvw hd he
  obtain ⟨as, has, rfl⟩ := map_eq_ok.1 hs
  obtain ⟨bs, hbs, rfl⟩ := map_eq_ok.1 hs'
  refine ⟨hde.defaulted Shape.respects_texts rfl hgroupby hgroupby',
    AggregateSpec.perm_of_resolveAll (hde.required respects_readAggregates hspecs hspecs') has hbs,
    ?_⟩
  rw [AggregateSpec.names_of_resolveAll has]
  exact specs.nodup

namespace Pivot

/-- Pivots that differ at most in the order of the aggregates and in what fills absent cells, and
that were read from options. -/
structure Alike (p p' : Pivot) : Prop where
  rest_eq : p = { p' with aggregates := p.aggregates, cellFill := p.cellFill }
  aggregates_perm : p.aggregates.Perm p'.aggregates
  names_nodup : (p.aggregates.map Aggregate.name).Nodup
  isSome_cellFill : p.cellFill.isSome = p'.cellFill.isSome
  index_ne_nil : p.index ≠ []
  aggregates_ne_nil : p.aggregates ≠ []
  measure_valid : ∀ a ∈ p.aggregates, a.measure.Valid

theorem alike_of_options {v w : Json} {o o' : Options} {p p' : Pivot}
    (hvw : Json.Alike v w) (ho : Options.read v = .ok o) (ho' : Options.read w = .ok o')
    (hp : ofOptions o = .ok p) (hp' : ofOptions o' = .ok p') : Alike p p' := by
  simp only [Options.read, bind_eq_ok, pure_eq_ok] at ho ho'
  obtain ⟨d, hd, index, hindex, columns, hcolumns, specs, hspecs, fill, hfill, keyFill, hkeyFill,
    dropEmpty, hdropEmpty, keyFirst, hkeyFirst, rfl⟩ := ho
  obtain ⟨e, he, index', hindex', columns', hcolumns', specs', hspecs', fill', hfill', keyFill',
    hkeyFill', dropEmpty', hdropEmpty', keyFirst', hkeyFirst', rfl⟩ := ho'
  have hde := Record.entries_alike hvw hd he
  obtain ⟨as, hne, hspecsne, has, rfl⟩ := ofOptions_eq_ok hp
  obtain ⟨bs, -, -, hbs, rfl⟩ := ofOptions_eq_ok hp'
  have hnames := AggregateSpec.names_of_resolveAll has
  constructor
  · rw [hde.required Shape.respects_texts hindex hindex',
      hde.defaulted Shape.respects_texts rfl hcolumns hcolumns',
      hde.optional_eq Shape.respects_text hkeyFill hkeyFill',
      hde.defaulted Shape.respects_boolean rfl hdropEmpty hdropEmpty',
      hde.defaulted Shape.respects_boolean rfl hkeyFirst hkeyFirst']
  · exact AggregateSpec.perm_of_resolveAll
      (hde.required Summary.respects_readAggregates hspecs hspecs') has hbs
  · rw [hnames]
    exact specs.nodup
  · cases hde.optional Shape.respects_any hfill hfill' with
    | none => rfl
    | some => rfl
  · exact hne
  · rintro rfl
    exact hspecsne (List.map_eq_nil_iff.1 hnames.symm)
  · refine AggregateSpec.valid_of_mem_resolveAll (fun m hm ↦ ?_) has
    cases hm
    exact fun q ↦ nofun

end Pivot

/-! ## Transforms -/

namespace Transform

/-- The transforms are the same apart from what they keep of the order of fields. -/
def Alike : Transform → Transform → Prop
  | .aggregate s, .aggregate s' =>
    s.groupby = s'.groupby ∧ s.aggregates.Perm s'.aggregates ∧
      (s.aggregates.map Aggregate.name).Nodup
  | .pivot p, .pivot p' => p.Alike p'
  | .sort s, .sort s' => s.columns.entries.Perm s'.columns.entries
  | .rolling r, .rolling r' => r.columns.entries.Perm r'.columns.entries ∧ r.mode = r'.mode
  | .select s, .select s' => s.columns.entries.Perm s'.columns.entries
  | .diff d, .diff d' => d.columns.entries.Perm d'.columns.entries ∧ d.periods = d'.periods
  | .cum r, .cum r' =>
    r.columns.entries.Perm r'.columns.entries ∧ r.accumulation = r'.accumulation
  | .contribution c, .contribution c' => c = c'
  | _, _ => False

theorem shaped_eq_ok {α : Type} {operation : String} {reader : Reader α} {options : Json} {a : α}
    (h : shaped operation reader options = .ok a) : reader options = .ok a := by
  rw [shaped] at h
  split at h
  · next a' ha' => rw [ha', Except.ok.inj h]
  · cases h

theorem checked_eq_ok {α : Type} {operation : String} {x : Except OptionFault α} {a : α}
    (h : checked operation x = .ok a) : x = .ok a := by
  cases x with
  | ok b => rw [Except.ok.inj h]
  | error fault => cases h

/-- An operation whose options are what it does. -/
theorem of_shaped_map {α : Type} {operation : String} {reader : Reader α} {make : α → Transform}
    {v : Json} {f : Transform} (h : (shaped operation reader v).map make = .ok f) :
    ∃ a, reader v = .ok a ∧ make a = f := by
  obtain ⟨a, ha, hf⟩ := map_eq_ok.1 h
  exact ⟨a, shaped_eq_ok ha, hf⟩

/-- An operation whose options are checked after they are read. -/
theorem of_shaped_bind {α β : Type} {operation : String} {reader : Reader α}
    {check : α → Except Rejection β} {make : β → Transform} {v : Json} {f : Transform}
    (h : (do
      let o ← shaped operation reader v
      let b ← check o
      return make b) = .ok f) :
    ∃ o b, reader v = .ok o ∧ check o = .ok b ∧ make b = f := by
  obtain ⟨o, ho, h⟩ := bind_eq_ok.1 h
  obtain ⟨b, hb, h⟩ := bind_eq_ok.1 h
  exact ⟨o, b, shaped_eq_ok ho, hb, Except.ok.inj h⟩

/-- **Alike options are read as alike transforms.** -/
theorem ofOptions_alike {operation : String} {v w : Json} {f g : Transform} (hvw : Json.Alike v w)
    (hf : ofOptions operation v = .ok f) (hg : ofOptions operation w = .ok g) : Alike f g := by
  unfold ofOptions at hf
  split at hf
  · obtain ⟨o, s, ho, hs, rfl⟩ := of_shaped_bind hf
    obtain ⟨o', s', ho', hs', rfl⟩ := of_shaped_bind hg
    exact Summary.alike_of_options hvw ho ho' hs hs'
  · obtain ⟨o, p, ho, hp, rfl⟩ := of_shaped_bind hf
    obtain ⟨o', p', ho', hp', rfl⟩ := of_shaped_bind hg
    exact Pivot.alike_of_options hvw ho ho' hp hp'
  · obtain ⟨s, hs, rfl⟩ := of_shaped_map hf
    obtain ⟨s', hs', rfl⟩ := of_shaped_map hg
    exact RowSort.respects_read hvw hs hs'
  · obtain ⟨o, r, ho, hr, rfl⟩ := of_shaped_bind hf
    obtain ⟨o', r', ho', hr', rfl⟩ := of_shaped_bind hg
    exact Rolling.alike_of_options hvw ho ho' (checked_eq_ok hr) (checked_eq_ok hr')
  · obtain ⟨s, hs, rfl⟩ := of_shaped_map hf
    obtain ⟨s', hs', rfl⟩ := of_shaped_map hg
    exact Selection.respects_read hvw hs hs'
  · obtain ⟨d, hd, rfl⟩ := of_shaped_map hf
    obtain ⟨d', hd', rfl⟩ := of_shaped_map hg
    exact Difference.respects_read hvw hd hd'
  · obtain ⟨r, hr, rfl⟩ := of_shaped_map hf
    obtain ⟨r', hr', rfl⟩ := of_shaped_map hg
    exact Running.respects_read hvw hr hr'
  · obtain ⟨o, c, ho, hc, rfl⟩ := of_shaped_bind hf
    obtain ⟨o', c', ho', hc', rfl⟩ := of_shaped_bind hg
    cases Contribution.respects_readOptions hvw ho ho'
    exact Except.ok.inj ((checked_eq_ok hc).symm.trans (checked_eq_ok hc'))
  · cases hf

theorem optionsOf_of_ne_null {d : Dict Json} {v : Json} (hd : get? d "options" = some v)
    (hv : v ≠ .null) : optionsOf d = v := by
  rw [optionsOf, hd]
  cases v with
  | null => exact absurd rfl hv
  | bool | num | str | arr | obj => rfl

theorem optionsOf_alike {d e : Dict Json} (h : Dict.Alike d e) :
    Json.Alike (optionsOf d) (optionsOf e) := by
  have hempty : Json.Alike (.obj []) (.obj []) :=
    Json.Alike.refl (Json.wellFormed_obj_iff.2 ⟨by simp [keys], by simp⟩)
  rcases h "options" with ⟨hd, he⟩ | ⟨v, w, hd, he, hvw⟩
  · rw [optionsOf, optionsOf, hd, he]
    exact hempty
  · by_cases hv : v = .null
    · subst hv
      cases hvw.eq_null
      rw [optionsOf, optionsOf, hd, he]
      exact hempty
    · rw [optionsOf_of_ne_null hd hv, optionsOf_of_ne_null he fun hw ↦ hv (hvw.isNull_iff.2 hw)]
      exact hvw

/-- **Alike values are read as alike transforms.** -/
theorem read_alike {v w : Json} {f g : Transform} (hvw : Json.Alike v w) (hf : read v = .ok f)
    (hg : read w = .ok g) : Alike f g := by
  cases hvw.view with
  | scalar _ hobj =>
    cases v with
    | obj d => exact absurd rfl (hobj d)
    | null | bool | num | str | arr => cases hf
  | arr => cases hf
  | @obj d e _ _ h =>
    have hoperation := h.bind_eq Json.Alike.asString?_eq "operation"
    rw [read] at hf hg
    rw [← hoperation] at hg
    split at hf
    · cases hf
    · next operation hread =>
      rw [hread] at hg
      exact ofOptions_alike (optionsOf_alike h) hf hg

end Transform

/-! ## Lists of steps -/

namespace Step

theorem read_eq_ok {v : Json} {s : Step} (h : read v = .ok s) :
    s.source = v ∧ Transform.read v = .ok s.transform := by
  obtain ⟨f, hf, rfl⟩ := map_eq_ok.1 h
  exact ⟨rfl, hf⟩

theorem readEach_eq_ok {values : List Json} {steps : List Step} (h : readEach values = .ok steps) :
    List.Forall₂ (fun v s ↦ read v = .ok s) values steps := by
  induction values generalizing steps with
  | nil =>
    cases h
    exact .nil
  | cons v rest ih =>
    obtain ⟨s, hs, h⟩ := bind_eq_ok.1 h
    obtain ⟨ss, hss, h⟩ := bind_eq_ok.1 h
    cases h
    exact .cons hs (ih hss)

/-- The steps keep what they were read from. -/
theorem sources_of_readAll {values : List Json} {steps : List Step}
    (h : readAll values = .ok steps) : steps.map source = values.filter Json.truthy := by
  have hall := readEach_eq_ok h
  clear h
  generalize values.filter Json.truthy = kept at hall
  induction hall with
  | nil => rfl
  | cons hs _ ih => rw [List.map_cons, ih, (read_eq_ok hs).1]

theorem transform_of_mem_readAll {values : List Json} {steps : List Step}
    (h : readAll values = .ok steps) {s : Step} (hs : s ∈ steps) :
    Transform.read s.source = .ok s.transform := by
  have hall := readEach_eq_ok h
  clear h
  generalize values.filter Json.truthy = kept at hall
  induction hall with
  | nil => cases hs
  | cons hread _ ih =>
    rcases List.mem_cons.1 hs with rfl | hs
    · rw [(read_eq_ok hread).1]
      exact (read_eq_ok hread).2
    · exact ih hs

end Step

end ChartFeed
