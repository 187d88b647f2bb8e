import Mathlib.Data.List.Induction
import ChartFeed.Configuration.Layer

/-!
# What a configuration is made of

Layers are merged part by part, the result is flattened, and the command line is laid over it.  What
comes out can be said of each setting alone: what is said last counts, the command line comes last
of all, and the default holds where nothing is said.

## What is here

* `Setting` — the fields of a configuration as data, with what the command line
  (`Overrides.get?`), a layer (`Layer.get?`) and a configuration (`Configuration.get`) say of each.
* `Layer.get?_merge` — merging, seen through one setting; `Layer.get?_stack` — a list of layers.
* `Configuration.get_resolve` — a setting of the configuration; since a configuration is known by
  its settings (`Configuration.eq_of_get`), layers that say the same make the same one.
* `Assembly` — any way to merge files and layers that say nothing.
* `Configuration.resolve_firstPresent` — the law of each setting, and what of the order of merging
  can be seen in a configuration.
-/

set_option autoImplicit false

namespace ChartFeed

/-! ## Settings -/

/-- A field of a configuration. -/
inductive Setting where
  | rowLimit
  | relativeStart
  | relativeEnd
  | endpoints
  | maxEntries
  | eviction
  | timeout
  | datasources
deriving DecidableEq

namespace Setting

/-- What a setting can be set to. -/
abbrev Value : Setting → Type
  | rowLimit | maxEntries | timeout => Nat
  | relativeStart | relativeEnd => String
  | endpoints => Bool
  | eviction => Eviction
  | datasources => Directory

/-- What holds where nothing is said. -/
def initial : (s : Setting) → s.Value
  | rowLimit => Settings.initial.rowLimit
  | relativeStart => Settings.initial.relativeStart
  | relativeEnd => Settings.initial.relativeEnd
  | endpoints => Settings.initial.endpoints
  | maxEntries => CacheSettings.initial.maxEntries
  | eviction => CacheSettings.initial.eviction
  | timeout => CacheSettings.initial.timeout
  | datasources => []

end Setting

/-- What the command line says about a setting; it has no option for some. -/
def Overrides.get? (o : Overrides) : (s : Setting) → Option s.Value
  | .rowLimit => o.rowLimit
  | .endpoints => o.endpoints
  | .maxEntries => o.maxEntries
  | .eviction => o.eviction
  | .timeout => o.timeout
  | .relativeStart | .relativeEnd | .datasources => none

/-- What a layer says about a setting; nothing if it lacks the part with this setting. -/
def Layer.get? (l : Layer) : (s : Setting) → Option s.Value
  | .rowLimit => l.query.bind QueryLayer.rowLimit
  | .relativeStart => l.query.bind QueryLayer.relativeStart
  | .relativeEnd => l.query.bind QueryLayer.relativeEnd
  | .endpoints => l.query.bind QueryLayer.endpoints
  | .maxEntries => l.cache.bind CacheLayer.maxEntries
  | .eviction => l.cache.bind CacheLayer.eviction
  | .timeout => l.cache.bind CacheLayer.timeout
  | .datasources => l.datasources

/-- A setting of a configuration. -/
def Configuration.get (c : Configuration) : (s : Setting) → s.Value
  | .rowLimit => c.settings.rowLimit
  | .relativeStart => c.settings.relativeStart
  | .relativeEnd => c.settings.relativeEnd
  | .endpoints => c.settings.endpoints
  | .maxEntries => c.cache.maxEntries
  | .eviction => c.cache.eviction
  | .timeout => c.cache.timeout
  | .datasources => c.datasources

/-- A configuration is known by its settings. -/
theorem Configuration.eq_of_get {c d : Configuration} (h : ∀ s, c.get s = d.get s) : c = d := by
  obtain ⟨⟨rowLimit, start, finish, endpoints⟩, ⟨room, eviction, timeout⟩, datasources⟩ := c
  have hrowLimit := h .rowLimit
  have hstart := h .relativeStart
  have hfinish := h .relativeEnd
  have hendpoints := h .endpoints
  have hroom := h .maxEntries
  have heviction := h .eviction
  have htimeout := h .timeout
  have hdatasources := h .datasources
  simp only [get] at hrowLimit hstart hfinish hendpoints hroom heviction htimeout hdatasources
  rw [hrowLimit, hstart, hfinish, hendpoints, hroom, heviction, htimeout, hdatasources]

/-! ## Merging -/

namespace Layer

section

variable {α β : Type} {nothing : α} {merge : α → α → α} {field : α → Option β}

/-- A field of a part, when merging takes it from above if it is there. -/
theorem bind_mergePart (hnothing : field nothing = none)
    (hmerge : ∀ below above, field (merge below above) = (field above).or (field below))
    (below above : Option α) :
    (mergePart nothing merge below above).bind field =
      (above.bind field).or (below.bind field) := by
  cases above with
  | none => rfl
  | some part =>
    cases below with
    | none => simp [mergePart, hmerge, hnothing]
    | some under => simp [mergePart, hmerge]

end

@[simp] theorem get?_empty (s : Setting) : empty.get? s = none := by
  cases s <;> rfl

/-- **What the layer above says counts**, and where it says nothing what is said below. -/
theorem get?_merge (below above : Layer) (s : Setting) :
    (below.merge above).get? s = (above.get? s).or (below.get? s) := by
  cases s with
  | rowLimit | relativeStart | relativeEnd | endpoints =>
    exact bind_mergePart rfl (fun _ _ ↦ Option.orElse_eq_or) below.query above.query
  | maxEntries | eviction | timeout =>
    exact bind_mergePart rfl (fun _ _ ↦ Option.orElse_eq_or) below.cache above.cache
  | datasources => exact Option.orElse_eq_or

/-- Layers over one another, the lowest first. -/
def stack (files : List Layer) : Layer := files.foldl merge empty

/-- **The last file that says something counts.** -/
theorem get?_stack (files : List Layer) (s : Setting) :
    (stack files).get? s = files.reverse.findSome? fun l ↦ l.get? s := by
  induction files using List.reverseRecOn with
  | nil => simp [stack]
  | append_singleton files top ih =>
    have hstack : stack (files ++ [top]) = (stack files).merge top := List.foldl_append
    rw [hstack, get?_merge, ih, List.reverse_concat, List.findSome?_cons]
    cases top.get? s <;> rfl

end Layer

/-! ## Deciding -/

namespace Configuration

/-- **Every setting is decided on its own.** -/
theorem get_resolve (o : Overrides) (l : Layer) (s : Setting) :
    (resolve o l).get s = ((o.get? s).or (l.get? s)).getD s.initial := by
  obtain ⟨query, cache, datasources⟩ := l
  cases s with
  | rowLimit | endpoints | relativeStart | relativeEnd =>
    cases query <;> simp [resolve, get, Overrides.get?, Layer.get?, Setting.initial]
  | maxEntries | eviction | timeout =>
    cases cache <;> simp [resolve, get, Overrides.get?, Layer.get?, Setting.initial]
  | datasources => rfl

/-- Layers that say the same make the same configuration. -/
theorem resolve_congr (o : Overrides) {l l' : Layer} (h : ∀ s, l.get? s = l'.get? s) :
    resolve o l = resolve o l' :=
  eq_of_get fun s ↦ by rw [get_resolve, get_resolve, h]

end Configuration

/-- A way to put files together: two at a time in any order, with layers that say nothing among
them. -/
inductive Assembly where
  | nothing
  | file (l : Layer)
  | merged (below above : Assembly)

namespace Assembly

/-- The layer that comes out. -/
def layer : Assembly → Layer
  | nothing => Layer.empty
  | file l => l
  | merged below above => below.layer.merge above.layer

/-- The files, the lowest first. -/
def files : Assembly → List Layer
  | nothing => []
  | file l => [l]
  | merged below above => below.files ++ above.files

/-- What comes out is said by the last of the files that says something. -/
theorem get?_layer (a : Assembly) (s : Setting) :
    a.layer.get? s = a.files.reverse.findSome? fun l ↦ l.get? s := by
  induction a with
  | nothing => exact Layer.get?_empty s
  | file l => simp [layer, files]
  | merged below above ihb iha =>
    rw [layer, Layer.get?_merge, ihb, iha, files, List.reverse_append, List.findSome?_append]

end Assembly

/-- **Each setting is the first that is present** of what the command line says, what the overlay
says and what the profile says, and else the default; for any list of files, of what the command
line says and what the last file with this setting says.  So it cannot be seen in a configuration
which of the files were merged first, nor whether layers that say nothing were among them. -/
theorem Configuration.resolve_firstPresent (o : Overrides) :
    (∀ (profile overlay : Layer) (s : Setting),
      (resolve o ((Layer.empty.merge profile).merge overlay)).get s =
        (((o.get? s).or (overlay.get? s)).or (profile.get? s)).getD s.initial) ∧
    (∀ (files : List Layer) (s : Setting),
      (resolve o (Layer.stack files)).get s =
        ((o.get? s).or (files.reverse.findSome? fun l ↦ l.get? s)).getD s.initial) ∧
    (∀ below middle above : Layer,
      resolve o ((below.merge middle).merge above) =
        resolve o (below.merge (middle.merge above))) ∧
    (∀ l : Layer, resolve o (Layer.empty.merge l) = resolve o l ∧
      resolve o (l.merge Layer.empty) = resolve o l) ∧
    ∀ a : Assembly, resolve o a.layer = resolve o (Layer.stack a.files) := by
  refine ⟨fun profile overlay s ↦ ?_, fun files s ↦ ?_, fun below middle above ↦ ?_,
    fun l ↦ ⟨?_, ?_⟩, fun a ↦ ?_⟩
  · rw [get_resolve, Layer.get?_merge, Layer.get?_merge, Layer.get?_empty, Option.or_none,
      Option.or_assoc]
  · rw [get_resolve, Layer.get?_stack]
  · refine resolve_congr o fun s ↦ ?_
    simp only [Layer.get?_merge, Option.or_assoc]
  · exact resolve_congr o fun s ↦ by rw [Layer.get?_merge, Layer.get?_empty, Option.or_none]
  · exact resolve_congr o fun s ↦ by rw [Layer.get?_merge, Layer.get?_empty, Option.none_or]
  · exact resolve_congr o fun s ↦ by rw [Assembly.get?_layer, Layer.get?_stack]

end ChartFeed
