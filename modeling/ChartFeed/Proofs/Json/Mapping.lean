import ChartFeed.Json.Mapping
import ChartFeed.Proofs.Json.Restoring
import ChartFeed.Proofs.Json.RoundTrip
import ChartFeed.Proofs.Listing

/-!
# A repeated key keeps its first place and its last value

A mapping is read from text entry by entry: the value of a key that is already there is replaced
where it stands, and any other entry is appended.  Reading can also take the way over a JSON value,
whose objects have been resolved before by another hand.

## What is here

* `FirstPlaceLastValue` — what a mapping has to do with the entries it is read from; there is only
  one such mapping (`FirstPlaceLastValue.unique`).
* `FirstPlaceLastValue.concat` — one more entry; `firstPlaceLastValue_ofEntries` — all of them.
* `Json.merged_merged` — what has been resolved has nothing left to resolve.
* `FirstPlaceLastValue.reread` — values that are resolved first are read to the same mapping.
* `Json.readObject_text`, `OrderedMap.ofText_toJson` — what a mapping is written as is read back, if
  its values are (`Shape.Rereads`).
* `OrderedMap.exists_ofText` — all of it for a text whose values can be read.
* `OrderedMap.ofText_lawful` — all of it, with the readers of texts, truth values and JSON values of
  which more is known, and
  `OrderedMap.hugeNumber_repeatedField_exceptions`: numbers are values that may not be read back,
  and a reader may see what has not been resolved.
-/

set_option autoImplicit false

namespace ChartFeed

open Dict (get? keys mapValues)

variable {α : Type} {reader : Reader α}

/-! ## First places and last values -/

/-- The dictionary has every key of the entries once, in the order of their first mention, each with
what is read at its last mention. -/
structure FirstPlaceLastValue (reader : Reader α) (entries : List (String × Json)) (d : Dict α) :
    Prop where
  inOrder : Collects (fun _ ↦ True) (keys entries) (keys d)
  last : ∀ {before after : List (String × Json)} {key : String} {v : Json},
    entries = before ++ (key, v) :: after → key ∉ keys after →
      ∃ a, reader v = .ok a ∧ get? d key = some a

/-- Every key has a last mention. -/
theorem exists_last_mention {entries : List (String × Json)} {key : String}
    (h : key ∈ keys entries) :
    ∃ before v after, entries = before ++ (key, v) :: after ∧ key ∉ keys after := by
  induction entries with
  | nil => cases h
  | cons entry rest ih =>
    by_cases hrest : key ∈ keys rest
    · obtain ⟨before, v, after, rfl, hafter⟩ := ih hrest
      exact ⟨entry :: before, v, after, rfl, hafter⟩
    · have hkey : key = entry.1 := (List.mem_cons.1 h).resolve_right hrest
      exact ⟨[], entry.2, rest, by rw [hkey]; rfl, hrest⟩

namespace FirstPlaceLastValue

variable {entries : List (String × Json)} {d : Dict α}

theorem nodup (h : FirstPlaceLastValue reader entries d) : (keys d).Nodup := h.inOrder.nodup

theorem empty (reader : Reader α) : FirstPlaceLastValue reader [] [] where
  inOrder := ⟨by simp [keys], .nil⟩
  last h := by simp at h

/-- **One more entry** replaces the value of its key where that stands, or comes last. -/
theorem concat (h : FirstPlaceLastValue reader entries d) (key : String) {v : Json} {a : α}
    (ha : reader v = .ok a) :
    FirstPlaceLastValue reader (entries ++ [(key, v)]) (Dict.insert d key a) where
  inOrder := by
    have hkeys : keys (Dict.insert d key a) =
        if True ∧ key ∉ keys d then keys d ++ [key] else keys d := by
      rw [Dict.keys_insert]
      by_cases hkey : key ∈ keys d <;> simp [hkey]
    rw [Dict.keys_append, hkeys]
    exact h.inOrder.concat key
  last {before after k w} hsplit hlater := by
    rcases List.eq_nil_or_concat after with rfl | ⟨after, final, rfl⟩
    · obtain ⟨-, hfinal⟩ := List.append_inj' hsplit rfl
      cases hfinal
      exact ⟨a, ha, Dict.get?_insert_self d key a⟩
    · rw [List.concat_eq_append, ← List.cons_append, ← List.append_assoc] at hsplit
      obtain ⟨hentries, hfinal⟩ := List.append_inj' hsplit rfl
      cases hfinal
      rw [List.concat_eq_append, Dict.keys_append, List.mem_append, not_or] at hlater
      have hne : key ≠ k := fun e ↦ hlater.2 (by simp [keys, e])
      rw [Dict.get?_insert_of_ne hne]
      exact h.last hentries hlater.1

/-- The rest of the entries, whatever came before. -/
theorem insertAll {rest : List (String × Json)} {as : Dict α}
    (h : FirstPlaceLastValue reader entries d) (has : Shape.eachField reader rest = .ok as) :
    FirstPlaceLastValue reader (entries ++ rest) (Dict.insertAll d as) := by
  induction rest generalizing entries d as with
  | nil =>
    cases has
    rwa [List.append_nil]
  | cons entry rest ih =>
    simp only [Shape.eachField, bind_eq_ok, pure_eq_ok] at has
    obtain ⟨a, ha, as, has, rfl⟩ := has
    have hstep := ih (h.concat entry.1 ha) has
    rwa [List.append_assoc, List.singleton_append] at hstep

/-- There is only one such dictionary. -/
theorem unique {e : Dict α} (hd : FirstPlaceLastValue reader entries d)
    (he : FirstPlaceLastValue reader entries e) : d = e := by
  refine Dict.eq_of_keys_of_get? hd.nodup (hd.inOrder.unique he.inOrder) fun key hkey ↦ ?_
  obtain ⟨before, v, after, hsplit, hlater⟩ :=
    exists_last_mention ((hd.inOrder.mem_iff key).1 hkey).1
  obtain ⟨a, ha, hda⟩ := hd.last hsplit hlater
  obtain ⟨b, hb, heb⟩ := he.last hsplit hlater
  rw [hda, heb, Except.ok.inj (ha.symm.trans hb)]

end FirstPlaceLastValue

/-- **Entries that can all be read make such a mapping.** -/
theorem firstPlaceLastValue_ofEntries {entries : List (String × Json)} {as : Dict α}
    (h : Shape.eachField reader entries = .ok as) :
    FirstPlaceLastValue reader entries (Dict.ofEntries as) :=
  (FirstPlaceLastValue.empty reader).insertAll h

theorem Shape.exists_eachField {entries : List (String × Json)}
    (h : ∀ entry ∈ entries, ∃ a, reader entry.2 = .ok a) :
    ∃ as, Shape.eachField reader entries = .ok as := by
  induction entries with
  | nil => exact ⟨[], rfl⟩
  | cons entry rest ih =>
    obtain ⟨⟨a, ha⟩, hrest⟩ := List.forall_mem_cons.1 h
    obtain ⟨as, has⟩ := ih hrest
    refine ⟨(entry.1, a) :: as, ?_⟩
    simp only [Shape.eachField, bind_eq_ok, pure_eq_ok]
    exact ⟨a, ha, as, has, rfl⟩

/-! ## Values with repeated keys resolved -/

namespace Json

theorem mergedFields_eq (d : Dict Json) : mergedFields d = mapValues merged d := by
  induction d with
  | nil => rfl
  | cons entry rest ih =>
    rw [mergedFields, ih]
    rfl

theorem merged_obj (d : Dict Json) :
    (Json.obj d).merged = .obj (Dict.ofEntries (mapValues merged d)) := by
  rw [merged, mergedFields_eq]

mutual

/-- **What has been resolved has nothing left to resolve.** -/
theorem merged_merged (v : Json) : v.merged.merged = v.merged := by
  match v with
  | .null | .bool _ | .num _ | .str _ => rfl
  | .arr items => rw [merged, merged, mergedItems_mergedItems items]
  | .obj d =>
    have hcommute : mapValues merged (Dict.ofEntries (mapValues merged d)) =
        Dict.ofEntries (mapValues merged d) := by
      rw [Dict.ofEntries, Dict.mapValues_insertAll, mapValues_merged_merged d]
      rfl
    rw [merged_obj, merged_obj, hcommute, Dict.ofEntries_eq_self (Dict.nodup_keys_ofEntries _)]

theorem mergedItems_mergedItems (items : List Json) :
    mergedItems (mergedItems items) = mergedItems items := by
  match items with
  | [] => rfl
  | v :: rest =>
    rw [mergedItems, mergedItems, merged_merged v, mergedItems_mergedItems rest]

theorem mapValues_merged_merged (d : Dict Json) :
    mapValues merged (mapValues merged d) = mapValues merged d := by
  match d with
  | [] => rfl
  | (key, v) :: rest =>
    have hrest := mapValues_merged_merged rest
    have hcons (e : Dict Json) (w : Json) :
        mapValues merged ((key, w) :: e) = (key, w.merged) :: mapValues merged e := rfl
    rw [hcons, hcons, merged_merged v, hrest]

end

end Json

namespace Shape

/-- What is read of a value does not change when the keys that repeat inside it are resolved. -/
def Settles (reader : Reader α) : Prop :=
  ∀ {v a}, reader v = .ok a → reader v.merged = .ok a

/-- A reader that takes neither arrays nor objects. -/
theorem settles_scalar (harr : ∀ vs a, reader (.arr vs) ≠ .ok a)
    (hobj : ∀ d a, reader (.obj d) ≠ .ok a) : Settles reader := by
  intro v a h
  cases v with
  | arr vs => exact absurd h (harr vs a)
  | obj d => exact absurd h (hobj d a)
  | null | bool | num | str => exact h

theorem settles_text : Settles text := settles_scalar nofun nofun

theorem settles_boolean : Settles boolean := settles_scalar nofun nofun

theorem settles_resolved : Settles resolved := by
  intro v a h
  rw [← h, resolved, resolved, Json.merged_merged]

theorem eachField_resolved (d : Dict Json) :
    eachField resolved d = .ok (mapValues Json.merged d) := by
  induction d with
  | nil => rfl
  | cons entry rest ih =>
    simp only [eachField, bind_eq_ok, pure_eq_ok]
    exact ⟨entry.2.merged, rfl, _, ih, rfl⟩

end Shape

/-- **Values that are resolved first are read to the same mapping.** -/
theorem FirstPlaceLastValue.reread {entries : List (String × Json)} {d : Dict Json}
    (h : FirstPlaceLastValue Shape.resolved entries d)
    (hvalues : ∀ entry ∈ entries, ∃ a, reader entry.2 = .ok a ∧ reader entry.2.merged = .ok a) :
    ∃ as, Shape.eachField reader d = .ok as ∧ FirstPlaceLastValue reader entries as := by
  -- what stands under a key is the last value of this key in the entries
  have hstands {key : String} {w : Json} (hw : get? d key = some w) :
      ∃ before v after,
        entries = before ++ (key, v) :: after ∧ key ∉ keys after ∧ w = v.merged := by
    have hkey : key ∈ keys d := by
      by_contra hkey
      rw [Dict.get?_eq_none_iff.2 hkey] at hw
      cases hw
    obtain ⟨before, v, after, hsplit, hlater⟩ :=
      exists_last_mention ((h.inOrder.mem_iff key).1 hkey).1
    obtain ⟨w', hresolved, hw'⟩ := h.last hsplit hlater
    cases hresolved
    exact ⟨before, v, after, hsplit, hlater, Option.some.inj (hw.symm.trans hw')⟩
  have hread : ∀ entry ∈ d, ∃ a, reader entry.2 = .ok a := by
    intro entry hentry
    obtain ⟨before, v, after, hsplit, -, hv⟩ := hstands (Dict.get?_of_mem h.nodup hentry)
    obtain ⟨a, -, ha⟩ := hvalues (entry.1, v) (by simp [hsplit])
    exact ⟨a, by rw [hv, ha]⟩
  obtain ⟨as, has⟩ := Shape.exists_eachField hread
  refine ⟨as, has, Shape.keys_of_eachField has ▸ h.inOrder,
    fun {before after key v} hsplit hlater ↦ ?_⟩
  obtain ⟨a, ha, hmerged⟩ := hvalues (key, v) (by simp [hsplit])
  obtain ⟨w, hresolved, hw⟩ := h.last hsplit hlater
  cases hresolved
  refine ⟨a, ha, ?_⟩
  rcases Shape.related_of_eachField has key with ⟨hnone, -⟩ | ⟨w, b, hdw, hb, hwb⟩
  · rw [hnone] at hw
    cases hw
  · cases hw.symm.trans hdw
    rw [hb, Except.ok.inj (hwb.symm.trans hmerged)]

/-! ## Texts of mappings -/

/-- A value is written without too much nesting and with numbers that are read back, and is found
again in what is written. -/
structure Shape.Rereads (reader : Reader α) (write : α → Json) (a : α) : Prop where
  readable : Json.Readable (Json.depthLimit - 1) (write a)
  read_write : reader (write a) = .ok a

theorem Shape.rereads_text (s : String) : Rereads text .str s := ⟨.str _ s, rfl⟩

theorem Shape.rereads_boolean (b : Bool) : Rereads boolean .bool b := ⟨.bool _ b, rfl⟩

theorem Json.read_of_readObject {s : String} {fields : List (String × Json)}
    (h : readObject s = .ok fields) : Json.read s = .ok (.obj fields) := by
  rw [readObject] at h
  split at h
  · cases h
  · cases h
  · cases h
  · cases h
  · split at h
    · next hread =>
      cases h
      exact hread
    · cases h
    · cases h

/-- **The text of an object is read as its fields.** -/
theorem Json.readObject_text {n : Nat} {d : Dict Json} (h : Readable n (.obj d))
    (hn : n ≤ depthLimit) : readObject (Json.obj d).text = .ok d := by
  have hread := read_text h hn
  have hscan : ∃ tokens, Token.scan (Json.obj d).text.toList = .openBrace :: tokens := by
    refine ⟨Token.scanFrom .between (charsFields d ++ ['\x7d']), ?_⟩
    rw [text, String.toList_ofList, chars]
    rfl
  obtain ⟨tokens, htokens⟩ := hscan
  rw [Json.read, htokens] at hread
  rw [readObject, htokens]
  simp only [hread]

namespace OrderedMap

theorem eq_of_entries_eq {m m' : OrderedMap α} (h : m.entries = m'.entries) : m = m' := by
  cases m
  cases m'
  cases h
  rfl

theorem eachField_mapValues {write : α → Json} {d : Dict α}
    (h : ∀ entry ∈ d, reader (write entry.2) = .ok entry.2) :
    Shape.eachField reader (mapValues write d) = .ok d := by
  induction d with
  | nil => rfl
  | cons entry rest ih =>
    obtain ⟨hentry, hrest⟩ := List.forall_mem_cons.1 h
    have hcons : mapValues write (entry :: rest) =
        (entry.1, write entry.2) :: mapValues write rest := rfl
    simp only [hcons, Shape.eachField, bind_eq_ok, pure_eq_ok]
    exact ⟨entry.2, hentry, rest, ih hrest, rfl⟩

/-- The mapping that a text with these entries spells. -/
theorem ofText_eq_ok {s : String} {entries : List (String × Json)} {as : Dict α}
    (hs : Json.readObject s = .ok entries) (has : Shape.eachField reader entries = .ok as) :
    ofText reader s = .ok (ofEntries as) := by
  have hmapping : Shape.mapping reader (.obj entries) = .ok (ofEntries as) := by
    rw [Shape.mapping, has]
    rfl
  simp only [ofText, hs, hmapping]

/-- **What a mapping is written as is read back**, if its values are. -/
theorem ofText_toJson {write : α → Json} {m : OrderedMap α}
    (h : ∀ entry ∈ m.entries, Shape.Rereads reader write entry.2) :
    ofText reader (m.toJson write).text = .ok m := by
  have hreadable : Json.Readable Json.depthLimit (m.toJson write) := by
    refine .obj fun entry hentry ↦ ?_
    obtain ⟨old, hold, rfl⟩ := List.mem_map.1 hentry
    exact (h old hold).readable
  have has := eachField_mapValues fun entry hentry ↦ (h entry hentry).read_write
  rw [toJson] at hreadable ⊢
  rw [ofText_eq_ok (Json.readObject_text hreadable le_rfl) has]
  exact congrArg _ (eq_of_entries_eq (Dict.ofEntries_eq_self m.nodup))

/-- Mappings of texts are always read back. -/
theorem ofText_toJson_texts (m : OrderedMap String) :
    ofText Shape.text (m.toJson .str).text = .ok m :=
  ofText_toJson fun entry _ ↦ Shape.rereads_text entry.2

/-- So are mappings of truth values. -/
theorem ofText_toJson_booleans (m : OrderedMap Bool) :
    ofText Shape.boolean (m.toJson .bool).text = .ok m :=
  ofText_toJson fun entry _ ↦ Shape.rereads_boolean entry.2

/-- So are mappings of JSON values without repeated keys, if their numbers are read back. -/
theorem ofText_toJson_values {m : OrderedMap Json}
    (h : ∀ entry ∈ m.entries, Json.Readable (Json.depthLimit - 1) entry.2 ∧
      entry.2.merged = entry.2) : ofText Shape.resolved (m.toJson id).text = .ok m :=
  ofText_toJson fun entry hentry ↦ ⟨(h entry hentry).1, congrArg Except.ok (h entry hentry).2⟩

/-- **A text whose values can all be read spells a mapping**: every key once, in the order of first
mention, with its last value.  The same mapping is read when the text is first read as a JSON value,
if no key repeats inside a value or if it does not matter to the reader.  And the mapping is read
back from what it is written as, if its values are. -/
theorem exists_ofText {s : String} {entries : List (String × Json)}
    (hs : Json.readObject s = .ok entries)
    (hvalues : ∀ entry ∈ entries, ∃ a, reader entry.2 = .ok a) :
    ∃ m : OrderedMap α, ofText reader s = .ok m ∧
      FirstPlaceLastValue reader entries m.entries ∧
      ((∀ entry ∈ entries, entry.2.merged = entry.2) ∨ Shape.Settles reader →
        ∃ v, Json.parse s = .ok v ∧ Shape.mapping reader v = .ok m) ∧
      ∀ write : α → Json, (∀ entry ∈ m.entries, Shape.Rereads reader write entry.2) →
        ofText reader (m.toJson write).text = .ok m := by
  obtain ⟨as, has⟩ := Shape.exists_eachField hvalues
  have hlaw : FirstPlaceLastValue reader entries (ofEntries as).entries :=
    firstPlaceLastValue_ofEntries has
  refine ⟨ofEntries as, ofText_eq_ok hs has, hlaw, fun hsettled ↦ ?_, fun write ↦ ofText_toJson⟩
  have hboth : ∀ entry ∈ entries, ∃ a, reader entry.2 = .ok a ∧ reader entry.2.merged = .ok a := by
    intro entry hentry
    obtain ⟨a, ha⟩ := hvalues entry hentry
    rcases hsettled with hplain | hsettles
    · exact ⟨a, ha, by rw [hplain entry hentry, ha]⟩
    · exact ⟨a, ha, hsettles ha⟩
  have hresolved := firstPlaceLastValue_ofEntries (Shape.eachField_resolved entries)
  obtain ⟨bs, hbs, hlaw'⟩ := hresolved.reread hboth
  refine ⟨.obj (Dict.ofEntries (mapValues Json.merged entries)), ?_, ?_⟩
  · rw [Json.parse, Json.read_of_readObject hs, ← Json.merged_obj]
    rfl
  · rw [Shape.mapping, hbs]
    refine congrArg Except.ok (eq_of_entries_eq ?_)
    exact (Dict.ofEntries_eq_self hlaw'.nodup).trans (hlaw'.unique hlaw)

/-- **The laws of mappings in texts.**  Every text whose values can all be read spells a mapping as
`exists_ofText` says.  It does not matter to the readers of texts, of truth values and of resolved
JSON values whether keys repeat inside a value.  Mappings of texts and of truth values are always
read back, and mappings of resolved JSON values are if their numbers are. -/
theorem ofText_lawful (reader : Reader α) :
    (∀ (s : String) (entries : List (String × Json)), Json.readObject s = .ok entries →
      (∀ entry ∈ entries, ∃ a, reader entry.2 = .ok a) →
      ∃ m : OrderedMap α, ofText reader s = .ok m ∧
        FirstPlaceLastValue reader entries m.entries ∧
        ((∀ entry ∈ entries, entry.2.merged = entry.2) ∨ Shape.Settles reader →
          ∃ v, Json.parse s = .ok v ∧ Shape.mapping reader v = .ok m) ∧
        ∀ write : α → Json, (∀ entry ∈ m.entries, Shape.Rereads reader write entry.2) →
          ofText reader (m.toJson write).text = .ok m) ∧
    Shape.Settles Shape.text ∧ Shape.Settles Shape.boolean ∧ Shape.Settles Shape.resolved ∧
    (∀ m : OrderedMap String, ofText Shape.text (m.toJson .str).text = .ok m) ∧
    (∀ m : OrderedMap Bool, ofText Shape.boolean (m.toJson .bool).text = .ok m) ∧
    ∀ m : OrderedMap Json, (∀ entry ∈ m.entries, Json.Readable (Json.depthLimit - 1) entry.2 ∧
      entry.2.merged = entry.2) → ofText Shape.resolved (m.toJson id).text = .ok m :=
  ⟨fun _ _ hs hvalues ↦ exists_ofText hs hvalues, Shape.settles_text, Shape.settles_boolean,
    Shape.settles_resolved, ofText_toJson_texts, ofText_toJson_booleans,
    fun _ h ↦ ofText_toJson_values h⟩

/-- Options in which keys are repeated, also inside a value. -/
def repeatedOptions : String :=
  "\x7b\"cut\": \x7b\"q\": 5, \"q\": 10\x7d, \"top\": null, " ++
    "\"cut\": \x7b\"q\": 25, \"q\": 50\x7d\x7d"

theorem repeatedOptions_lawful : ∃ m : OrderedMap Json,
    ofText Shape.resolved repeatedOptions = .ok m ∧
      m.entries = [("cut", .obj [("q", .int 50)]), ("top", .null)] ∧
      (∃ v, Json.parse repeatedOptions = .ok v ∧ Shape.mapping Shape.resolved v = .ok m) ∧
      ofText Shape.resolved (m.toJson id).text = .ok m := by
  have hs : Json.readObject repeatedOptions =
      .ok [("cut", .obj [("q", .int 5), ("q", .int 10)]), ("top", .null),
        ("cut", .obj [("q", .int 25), ("q", .int 50)])] := by decide +kernel
  have hvalues (v : Json) : ∃ w, Shape.resolved v = .ok w := ⟨v.merged, rfl⟩
  obtain ⟨hlawful, -, -, hsettles, -, -, hvaluesBack⟩ := ofText_lawful Shape.resolved
  obtain ⟨m, hm, -, hparsed, -⟩ := hlawful _ _ hs fun entry _ ↦ hvalues entry.2
  have hentries : ofText Shape.resolved repeatedOptions =
      .ok ⟨[("cut", .obj [("q", .int 50)]), ("top", .null)], by decide⟩ := by decide +kernel
  cases Except.ok.inj (hm.symm.trans hentries)
  refine ⟨_, hm, rfl, hparsed (.inr hsettles), hvaluesBack _ ?_⟩
  have hfifty : (Number.int 50).ReadsBack := by decide +kernel
  refine List.forall_mem_cons.2
    ⟨⟨.obj ?_, rfl⟩, List.forall_mem_singleton.2 ⟨.null _, rfl⟩⟩
  exact List.forall_mem_singleton.2 (.num _ hfifty)

/-- **Neither holds of all values.**  The first text is read as the double that is nearest to it.
That is written as `3e+23`, which is read as a neighbour, since there the power of ten is rounded
before the product is.  And a reader that keeps all fields of an object inside finds more in the
second text than in the JSON value. -/
theorem hugeNumber_repeatedField_exceptions :
    (∃ m : OrderedMap Json,
      ofText Shape.resolved "\x7b\"x\":300000000000000000000000\x7d" = .ok m ∧
        (m.toJson id).text = "\x7b\"x\":3e+23\x7d" ∧
        ofText Shape.resolved (m.toJson id).text ≠ .ok m) ∧
    ∃ m : OrderedMap Json, ∃ v,
      ofText Shape.any "\x7b\"x\":\x7b\"q\":5,\"q\":10\x7d\x7d" = .ok m ∧
        Json.parse "\x7b\"x\":\x7b\"q\":5,\"q\":10\x7d\x7d" = .ok v ∧
        Shape.mapping Shape.any v ≠ .ok m := by
  refine ⟨⟨⟨[("x", .num (.float 3e23))], by decide⟩, ?_, ?_, ?_⟩,
    ⟨[("x", .obj [("q", .int 5), ("q", .int 10)])], by decide⟩, .obj [("x", .obj [("q", .int 10)])],
    ?_, ?_, ?_⟩ <;> decide +kernel

end OrderedMap

end ChartFeed
