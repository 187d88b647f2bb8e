import Mathlib.Data.List.TakeWhile
import ChartFeed.Cache.Key

/-!
# Keys of different kinds never meet

Cache keys are put together from texts that may hold anything, also colons, slashes and what looks
like a digest.  They can still be told apart: the kind of a key from its first characters, and the
rest from its end, because the digest there has a fixed length.

## What is here

* `IsDigest` — thirty-two hexadecimal digits, and `Json.isDigest_digest`: so is every fingerprint.
* `CacheKey.IsCore` — what is left of a path without the slashes around it, and
  `CacheKey.isCore_iff`: this is what trimming finds.
* `CacheKey.framed_inj` — texts between a fixed beginning and a separator, with a digest behind.
* `CacheKey.keyspaces_apart` — keys of different kinds differ, and equal keys of one kind are made
  from the same texts and digests.
-/

set_option autoImplicit false

namespace ChartFeed

/-! ## Digests -/

/-- Thirty-two digits to base sixteen, in small letters. -/
def IsDigest (s : String) : Prop :=
  s.length = 32 ∧ ∀ c ∈ s.toList, c ∈ "0123456789abcdef".toList

instance (s : String) : Decidable (IsDigest s) :=
  -- look at the characters of the text, not at all characters
  have : Decidable (∀ c ∈ s.toList, c ∈ "0123456789abcdef".toList) := List.decidableBAll _ _
  inferInstanceAs (Decidable (_ ∧ _))

theorem IsDigest.length_eq {d d' : String} (h : IsDigest d) (h' : IsDigest d') :
    d.length = d'.length :=
  h.1.trans h'.1.symm

namespace Md5

@[simp] theorem length_littleEndian (n count : Nat) : (littleEndian n count).length = count := by
  simp [littleEndian]

theorem length_flatMap_hexByte (bytes : List UInt8) :
    (bytes.flatMap hexByte).length = 2 * bytes.length := by
  induction bytes with
  | nil => rfl
  | cons b rest ih =>
    rw [List.flatMap_cons, List.length_append, ih, List.length_cons, hexByte]
    simp only [List.length_cons, List.length_nil]
    omega

theorem mem_of_mem_hexByte {b : UInt8} {c : Char} (h : c ∈ hexByte b) :
    c ∈ "0123456789abcdef".toList := by
  have hdigit : ∀ n < 16, Nat.digitChar n ∈ "0123456789abcdef".toList := by decide
  have hb : b.toNat < 256 := b.toNat_lt
  rw [hexByte, List.mem_cons, List.mem_singleton] at h
  rcases h with rfl | rfl
  · exact hdigit _ (by omega)
  · exact hdigit _ (Nat.mod_lt _ (by omega))

/-- The digest of a text has thirty-two digits. -/
theorem isDigest_hex (text : String) : IsDigest (hex text) := by
  rw [IsDigest, hex, hexOfBytes, String.length_ofList, String.toList_ofList]
  refine ⟨?_, fun c hc ↦ ?_⟩
  · rw [length_flatMap_hexByte]
    simp
  · obtain ⟨b, -, hcb⟩ := List.mem_flatMap.1 hc
    exact mem_of_mem_hexByte hcb

end Md5

theorem Json.isDigest_digest (v : Json) : IsDigest v.digest := Md5.isDigest_hex _

namespace CacheKey

/-! ## Slashes around a path -/

/-- The second text is the first without the slashes around it. -/
structure IsCore (path core : List Char) : Prop where
  /-- Nothing but slashes is left off. -/
  around : ∃ before after, path = before ++ core ++ after ∧
    (∀ c ∈ before, c = '/') ∧ ∀ c ∈ after, c = '/'
  /-- No slash is left at the beginning. -/
  head : ∀ c ∈ core.head?, c ≠ '/'
  /-- Nor is one left at the end. -/
  last : ∀ c ∈ core.getLast?, c ≠ '/'

/-- Slashes are dropped up to the first other character. -/
theorem dropWhile_slashes {before cs : List Char} (hbefore : ∀ c ∈ before, c = '/')
    (hcs : ∀ c ∈ cs.head?, c ≠ '/') : (before ++ cs).dropWhile (· == '/') = cs := by
  rw [List.dropWhile_append_of_pos fun c hc ↦ beq_iff_eq.2 (hbefore c hc)]
  cases cs with
  | nil => rfl
  | cons c rest => exact List.dropWhile_cons_of_neg (by simpa using hcs c rfl)

theorem exists_dropWhile_slashes (cs : List Char) : ∃ before,
    cs = before ++ cs.dropWhile (· == '/') ∧ (∀ c ∈ before, c = '/') ∧
      ∀ c ∈ (cs.dropWhile (· == '/')).head?, c ≠ '/' := by
  refine ⟨cs.takeWhile (· == '/'), List.takeWhile_append_dropWhile.symm,
    fun c hc ↦ by simpa using List.mem_takeWhile_imp hc, fun c hc ↦ ?_⟩
  have hhead := List.head?_dropWhile_not (· == '/') cs
  rw [Option.mem_def.1 hc] at hhead
  simpa using hhead

theorem isCore_trimSlashes (path : List Char) : IsCore path (trimSlashes path) := by
  obtain ⟨before, hpath, hbefore, hhead⟩ := exists_dropWhile_slashes path
  obtain ⟨after, hrest, hafter, hlast⟩ :=
    exists_dropWhile_slashes (path.dropWhile (· == '/')).reverse
  rw [← List.reverse_inj, List.reverse_reverse, List.reverse_append] at hrest
  refine ⟨⟨before, after.reverse, ?_, hbefore, fun c hc ↦ hafter c (List.mem_reverse.1 hc)⟩,
    fun c hc ↦ hhead c ?_, fun c hc ↦ hlast c ?_⟩
  · rw [List.append_assoc, trimSlashes, ← hrest, ← hpath]
  · rw [hrest, List.head?_append]
    exact Option.mem_def.2 (by rw [← trimSlashes, Option.mem_def.1 hc, Option.some_or])
  · rwa [trimSlashes, List.getLast?_reverse] at hc

/-- **Trimming finds the core of a path**, and there is no other. -/
theorem isCore_iff {path core : List Char} : IsCore path core ↔ core = trimSlashes path := by
  refine ⟨fun h ↦ ?_, fun h ↦ h ▸ isCore_trimSlashes path⟩
  obtain ⟨before, after, rfl, hbefore, hafter⟩ := h.around
  have hafter' : ∀ c ∈ after.reverse, c = '/' := fun c hc ↦ hafter c (List.mem_reverse.1 hc)
  have hlast : ∀ c ∈ core.reverse.head?, c ≠ '/' := fun c hc ↦
    h.last c (by rwa [List.head?_reverse] at hc)
  have hend : (core ++ after).reverse.dropWhile (· == '/') = core.reverse := by
    rw [List.reverse_append]
    exact dropWhile_slashes hafter' hlast
  cases core with
  | nil =>
    -- all of the path is slashes, and nothing tells where the core was
    have hall : (before ++ [] ++ after ++ []).dropWhile (· == '/') = [] :=
      dropWhile_slashes (by simpa [or_imp, forall_and] using ⟨hbefore, hafter⟩) nofun
    rw [List.append_nil] at hall
    rw [trimSlashes, hall]
    rfl
  | cons c rest =>
    have hstart : (before ++ (c :: rest ++ after)).dropWhile (· == '/') = c :: rest ++ after :=
      dropWhile_slashes hbefore h.head
    rw [trimSlashes, List.append_assoc, hstart, hend, List.reverse_reverse]

/-! ## Taking keys apart -/

/-- A text is taken apart from its end when the length of the end is known. -/
theorem append_inj_of_length {a a' b b' : String} (hlength : b.length = b'.length) :
    a ++ b = a' ++ b' ↔ a = a' ∧ b = b' := by
  refine ⟨fun h ↦ ?_, fun ⟨ha, hb⟩ ↦ ha ▸ hb ▸ rfl⟩
  have htoList : a.toList ++ b.toList = a'.toList ++ b'.toList := by
    rw [← String.toList_append, ← String.toList_append, h]
  obtain ⟨ha, hb⟩ := List.append_inj' htoList (by simpa only [String.length_toList] using hlength)
  exact ⟨String.toList_inj.1 ha, String.toList_inj.1 hb⟩

/-- A text between a fixed beginning and a separator, with a digest behind, can be anything. -/
theorem framed_inj {lead separator middle middle' d d' : String} (hd : IsDigest d)
    (hd' : IsDigest d') :
    lead ++ middle ++ separator ++ d = lead ++ middle' ++ separator ++ d' ↔
      middle = middle' ∧ d = d' := by
  rw [append_inj_of_length (hd.length_eq hd'), append_inj_of_length rfl, String.append_right_inj]
  simp

/-- The first four characters of a key. -/
def mark (key : String) : List Char := key.toList.take 4

theorem mark_chart (digest : String) : mark (chart digest) = ['v', '1', ':', 'c'] := by
  simp [mark, chart, version]

theorem mark_memo (space digest : String) : mark (memo space digest) = ['v', '1', ':', 'm'] := by
  simp [mark, memo, version]

theorem mark_view (path : String) (args : Dict Json) :
    mark (view path args) = ['v', 'i', 'e', 'w'] := by
  simp [mark, view]

theorem ne_of_mark_ne {key key' : String} (h : mark key ≠ mark key') : key ≠ key' :=
  fun e ↦ h (e ▸ rfl)

/-- **Keyspaces do not overlap.**  Keys of chart payloads, of memoised results and of views are
different, whatever texts they are made of.  Two keys of one kind are the same exactly when they are
made of the same texts, where of a path only the core counts, and of the same digests. -/
theorem keyspaces_apart {d d' : String} (hd : IsDigest d) (hd' : IsDigest d')
    (space space' path path' lead lead' : String) (args args' : Dict Json) (v v' : Json) :
    (chart d ≠ memo space d' ∧ chart d ≠ view path args ∧ memo space d ≠ view path args) ∧
    (chart d = chart d' ↔ d = d') ∧
    (memo space d = memo space' d' ↔ space = space' ∧ d = d') ∧
    (view path args = view path' args' ↔
      (∃ core, IsCore path.toList core ∧ IsCore path'.toList core) ∧
        (Json.obj args).digest = (Json.obj args').digest) ∧
    (ofValue v lead = ofValue v' lead' ↔ lead = lead' ∧ v.digest = v'.digest) := by
  refine ⟨⟨?_, ?_, ?_⟩, ?_, framed_inj hd hd', ?_, ?_⟩
  · refine ne_of_mark_ne ?_
    rw [mark_chart, mark_memo]
    decide
  · refine ne_of_mark_ne ?_
    rw [mark_chart, mark_view]
    decide
  · refine ne_of_mark_ne ?_
    rw [mark_memo, mark_view]
    decide
  · exact String.append_right_inj _
  · rw [view, view, framed_inj (Json.isDigest_digest _) (Json.isDigest_digest _),
      String.ofList_inj]
    refine and_congr_left fun _ ↦ ?_
    simp only [isCore_iff, exists_eq_left]
  · exact append_inj_of_length ((Json.isDigest_digest v).length_eq (Json.isDigest_digest v'))

/-- The digest of null. -/
def nullDigest : String := "37a6259cc0c1dae299a7866489dff0bd"

/-- The digest of the empty object. -/
def emptyDigest : String := "99914b932bd37a50b983c5e7c90ae93b"

/-- A name may end like a digest, and slashes around a path do not matter. -/
theorem keyspaces_apart_lookalikes : IsDigest nullDigest ∧ IsDigest emptyDigest ∧
    memo ("sum:" ++ nullDigest) emptyDigest ≠ memo "sum" nullDigest ∧
    chart nullDigest ≠ memo "chart" emptyDigest ∧ view "//sales/map/" [] = view "sales/map" [] := by
  have hnull : IsDigest nullDigest := by decide
  have hempty : IsDigest emptyDigest := by decide
  obtain ⟨-, -, hmemo, -, -⟩ := keyspaces_apart hempty hnull ("sum:" ++ nullDigest) "sum"
    "" "" "" "" [] [] .null .null
  obtain ⟨⟨hfamily, -, -⟩, -, -, hview, -⟩ := keyspaces_apart hnull hempty "chart" "chart"
    "//sales/map/" "sales/map" "" "" [] [] .null .null
  refine ⟨hnull, hempty, fun h ↦ ?_, hfamily, hview.2 ⟨⟨"sales/map".toList, ?_, ?_⟩, rfl⟩⟩
  · exact absurd (hmemo.1 h).1 (by decide)
  · exact isCore_iff.2 (by decide)
  · exact isCore_iff.2 (by decide)

end CacheKey

end ChartFeed
