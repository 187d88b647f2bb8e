import ChartFeed.Proofs.Json.Reordering
import ChartFeed.Proofs.Json.Unambiguous

/-!
# Canonical texts

The canonical text of a value is the text of the value with the fields of all its objects sorted.
It forgets the order of fields and nothing else.

* `same_of_alike` — values that sort to one value are rearrangements of each other, by recursion on
  the first one;
* `same_iff_sorted_eq` — rearranging is what sorting forgets;
* `canonicalText_eq_iff_same` — **two values have one canonical text exactly if one is the other
  with fields rearranged**, at any level.

That a text belongs to one value only is shown with the texts; neither half looks at characters.
-/

set_option autoImplicit false

namespace ChartFeed.Json

open Dict (keys)

/-! ## Values that sort to one value -/

theorem eq_nil_of_alike {e : Dict Json} (h : Dict.Alike [] e) : e = [] := by
  cases e with
  | nil => rfl
  | cons entry rest =>
    have hkey : entry.1 ∈ keys (entry :: rest) := List.mem_cons_self
    exact absurd ((h.mem_keys_iff entry.1).2 hkey) List.not_mem_nil

/-- The field that is alike to the first one can be taken out wherever it stands, and the others
are alike then. -/
theorem exists_of_alike_cons {key : String} {v : Json} {d e : Dict Json}
    (hd : (keys ((key, v) :: d)).Nodup) (he : (keys e).Nodup)
    (h : Dict.Alike ((key, v) :: d) e) :
    ∃ before w after, e = before ++ (key, w) :: after ∧ Alike v w ∧
      (keys (before ++ after)).Nodup ∧ Dict.Alike d (before ++ after) := by
  have hfirst : Dict.get? ((key, v) :: d) key = some v := by rw [Dict.get?_cons, if_pos rfl]
  rcases h key with ⟨hnone, -⟩ | ⟨v', w, hv, hw, hvw⟩
  · cases hnone.symm.trans hfirst
  cases hv.symm.trans hfirst
  obtain ⟨before, after, rfl⟩ := List.append_of_mem (Dict.mem_of_get? hw)
  have hperm : (before ++ (key, w) :: after).Perm ((key, w) :: (before ++ after)) :=
    List.perm_middle
  have hnodup : (keys ((key, w) :: (before ++ after))).Nodup := (hperm.map Prod.fst).nodup_iff.1 he
  have halike : Dict.Alike ((key, v) :: d) ((key, w) :: (before ++ after)) := h.of_perm he hperm
  exact ⟨before, w, after, rfl, hvw, (List.nodup_cons.1 hnodup).2,
    halike.tail (List.nodup_cons.1 hd).1 (List.nodup_cons.1 hnodup).1⟩

mutual

/-- **Values that sort to one value are rearrangements of each other.** -/
theorem same_of_alike {v w : Json} (h : Alike v w) : Same v w := by
  match v with
  | .null | .bool _ | .num _ | .str _ =>
    cases h.view
    exact same_refl _
  | .arr vs =>
    cases h.view with
    | scalar harr => exact absurd rfl (harr vs)
    | @arr _ ws hitems =>
      rw [Same]
      exact ⟨ws, rfl, sameItems_of_alike hitems⟩
  | .obj d =>
    cases h.view with
    | scalar _ hobj => exact absurd rfl (hobj d)
    | @obj _ e hd he hfields =>
      rw [Same]
      exact ⟨e, rfl, sameFields_of_alike (wellFormed_obj_iff.1 hd).1 (wellFormed_obj_iff.1 he).1
        hfields⟩

theorem sameItems_of_alike {vs ws : List Json} (h : List.Forall₂ Alike vs ws) :
    SameItems vs ws := by
  match vs with
  | [] =>
    cases h
    rw [SameItems]
  | v :: vs =>
    cases h with
    | @cons _ w _ rest hvw hrest =>
      rw [SameItems]
      exact ⟨w, rest, rfl, same_of_alike hvw, sameItems_of_alike hrest⟩

theorem sameFields_of_alike {d e : Dict Json} (hd : (keys d).Nodup) (he : (keys e).Nodup)
    (h : Dict.Alike d e) : SameFields d e := by
  match d with
  | [] => rw [eq_nil_of_alike h, SameFields]
  | (key, v) :: rest =>
    obtain ⟨before, w, after, rfl, hvw, hnodup, hrest⟩ := exists_of_alike_cons hd he h
    rw [SameFields]
    exact ⟨before, w, after, rfl, same_of_alike hvw,
      sameFields_of_alike (List.nodup_cons.1 hd).2 hnodup hrest⟩

end

/-- Rearranging fields is what sorting forgets. -/
theorem same_iff_sorted_eq {v w : Json} (hv : v.WellFormed) (hw : w.WellFormed) :
    Same v w ↔ sorted v = sorted w :=
  ⟨fun h ↦ (alike_of_same hv h).sorted_eq, fun h ↦ same_of_alike ⟨hv, hw, h⟩⟩

/-! ## Canonical texts -/

/-- **Two values have one canonical text exactly if they differ at most in the order of fields**, at
any level.  The order of items, the kind of a number and every character of a string count. -/
theorem canonicalText_eq_iff_same {v w : Json} (hv : v.WellFormed) (hw : w.WellFormed) :
    canonicalText v = canonicalText w ↔ Same v w := by
  rw [canonicalText_eq_iff, same_iff_sorted_eq hv hw]

/-- An object with an object inside a list. -/
def nested : Json := .obj [
  ("b", .arr [.obj [("x", .num (.int 1)), ("y", .null)], .bool true]), ("a", .num (.float 1))]

/-- The fields are rearranged inside and out. -/
def nestedOtherwise : Json := .obj [
  ("a", .num (.float 1)), ("b", .arr [.obj [("y", .null), ("x", .num (.int 1))], .bool true])]

theorem canonicalText_eq_iff_same_nested :
    nested.WellFormed ∧ nestedOtherwise.WellFormed ∧
      canonicalText nested = canonicalText nestedOtherwise ∧ Same nested nestedOtherwise := by
  have hone : Number.Representable (.int 1) ∧ Number.Representable (.float 1) := by
    simp only [Number.Representable, int64Min, uint64Max]
    decide
  have hv : nested.WellFormed := by
    simp [nested, WellFormed, WellFormedItems, WellFormedFields, Dict.keys, hone]
  have hw : nestedOtherwise.WellFormed := by
    simp [nestedOtherwise, WellFormed, WellFormedItems, WellFormedFields, Dict.keys, hone]
  have hsorted : sorted nested = sorted nestedOtherwise := by
    simp [sorted, sortedItems, sortedFields, Dict.sortKeys, Dict.insertSorted, nested,
      nestedOtherwise]
  have htext := canonicalText_eq_iff.2 hsorted
  exact ⟨hv, hw, htext, (canonicalText_eq_iff_same hv hw).1 htext⟩

end ChartFeed.Json
