import ChartFeed.Json.Reader
import ChartFeed.Proofs.Json.Scanning

/-!
# JSON text is read as the value that was printed

The compact text of a value is read as this very value, with its fields in their order, when it is
not nested too deeply and its numbers are read back one by one.

## What is here

* `Json.Readable` — a value that nests at most so deeply and whose numbers are read back;
* `Readable.takesIn` — the reader takes in the text of a value where a value has to come;
* `Json.read_text` — so a whole text is read as the value that was printed.
-/

set_option autoImplicit false

namespace ChartFeed.Json

open Token (scanFrom Closed)

/-- A value with at most so many containers inside of one another, whose numbers are read back. -/
inductive Readable : Nat → Json → Prop
  | null (n : Nat) : Readable n .null
  | bool (n : Nat) (b : Bool) : Readable n (.bool b)
  | num (n : Nat) {m : Number} (h : m.ReadsBack) : Readable n (.num m)
  | str (n : Nat) (s : String) : Readable n (.str s)
  | arr {n : Nat} {items : List Json} (h : ∀ v ∈ items, Readable n v) :
    Readable (n + 1) (.arr items)
  | obj {n : Nat} {fields : List (String × Json)} (h : ∀ entry ∈ fields, Readable n entry.2) :
    Readable (n + 1) (.obj fields)

/-! ## Taking in a value -/

theorem closed_moreItems (rest : List Json) (r : List Char) :
    Closed (moreItems rest ++ ']' :: r) := by
  cases rest with
  | nil => exact Token.closed_cons (.inr (.inl rfl))
  | cons w rest => exact Token.closed_cons (.inl rfl)

theorem closed_moreFields (rest : List (String × Json)) (r : List Char) :
    Closed (moreFields rest ++ '}' :: r) := by
  cases rest with
  | nil => exact Token.closed_cons (.inr (.inr rfl))
  | cons w rest => exact Token.closed_cons (.inl rfl)

namespace Reading

/-- The reader takes in the text of this value wherever a value has to come, when no more than so
many containers are left to open. -/
def TakesIn (n : Nat) (v : Json) : Prop :=
  ∀ {stack : List Frame} {r : List Char} {expecting : Expecting},
    stack.length + n ≤ depthLimit → Closed r → expecting = .value ∨ expecting = .firstItem →
      run ⟨stack, expecting⟩ (scanFrom .between (chars v ++ r)) =
        run (supply stack v) (scanFrom .between r)

/-- Where the end of an array may stand, any other token is that of a value. -/
theorem run_value {stack : List Frame} {expecting : Expecting} {token : Token} {next : Reading}
    (hexpecting : expecting = .value ∨ expecting = .firstItem) (hclose : token ≠ .closeBracket)
    (htoken : readValue stack token = .ok next) (tokens : List Token) :
    run ⟨stack, expecting⟩ (token :: tokens) = run next tokens := by
  have hstep : step ⟨stack, expecting⟩ token = .ok next := by
    rw [← htoken]
    rcases hexpecting with rfl | rfl
    · rfl
    · cases token with
      | closeBracket => exact absurd rfl hclose
      | openBrace | closeBrace | openBracket | colon | comma | string | number | word | broken =>
        rfl
  rw [run, hstep]

/-- A value of one token is taken in. -/
theorem takesIn_token (n : Nat) (v : Json) (token : Token) (hclose : token ≠ .closeBracket)
    (hscan : ∀ {r : List Char}, Closed r →
      scanFrom .between (chars v ++ r) = token :: scanFrom .between r)
    (htoken : ∀ stack, readValue stack token = .ok (supply stack v)) : TakesIn n v := by
  intro stack r expecting hstack hr hexpecting
  rw [hscan hr]
  exact run_value hexpecting hclose (htoken stack) _

theorem takesIn_word (n : Nat) (v : Json) (word : Option Bool) (hv : chars v = wordChars word)
    (htoken : ∀ stack, readValue stack (.word word) = .ok (supply stack v)) : TakesIn n v := by
  refine takesIn_token n v (.word word) (by simp) (fun _ ↦ ?_) htoken
  rw [hv, Token.scanFrom_append, Token.scanned_word]
  rfl

theorem ifShallow_of_lt {stack : List Frame} {n : Nat} (h : stack.length + (n + 1) ≤ depthLimit)
    (next : Reading) : ifShallow stack next = .ok next :=
  if_pos (by omega)

/-- The items behind the first, each with a comma, and the end of their array. -/
theorem run_moreItems {n : Nat} {rest : List Json} (hrest : ∀ v ∈ rest, TakesIn n v)
    (done : List Json) {stack : List Frame} (hstack : stack.length + (n + 1) ≤ depthLimit)
    (r : List Char) :
    run ⟨.array done :: stack, .separator⟩ (scanFrom .between (moreItems rest ++ ']' :: r)) =
      run (supply stack (.arr (done.reverse ++ rest))) (scanFrom .between r) := by
  induction rest generalizing done with
  | nil =>
    rw [List.append_nil]
    rfl
  | cons v rest ih =>
    obtain ⟨hv, hrest⟩ := List.forall_mem_cons.1 hrest
    rw [moreItems, charsItems_cons, List.cons_append, List.append_assoc]
    show run ⟨.array done :: stack, .value⟩ (scanFrom .between (chars v ++ _)) = _
    rw [hv (by rw [List.length_cons]; omega) (closed_moreItems rest r) (.inl rfl)]
    show run ⟨.array (v :: done) :: stack, .separator⟩ _ = _
    rw [ih hrest]
    simp

theorem takesIn_arr {n : Nat} {items : List Json} (h : ∀ v ∈ items, TakesIn n v) :
    TakesIn (n + 1) (.arr items) := by
  intro stack r expecting hstack hr hexpecting
  have hopen : readValue stack .openBracket = .ok ⟨.array [] :: stack, .firstItem⟩ :=
    ifShallow_of_lt hstack _
  have hchars : chars (.arr items) ++ r = '[' :: (charsItems items ++ ']' :: r) := by simp [chars]
  rw [hchars]
  show run ⟨stack, expecting⟩ (.openBracket :: scanFrom .between (charsItems items ++ ']' :: r)) = _
  rw [run_value hexpecting (by simp) hopen]
  cases items with
  | nil => rfl
  | cons v rest =>
    obtain ⟨hv, hrest⟩ := List.forall_mem_cons.1 h
    rw [charsItems_cons, List.append_assoc,
      hv (by rw [List.length_cons]; omega) (closed_moreItems rest r) (.inr rfl)]
    exact run_moreItems hrest [v] hstack r

/-- A field is taken in where a key has to come. -/
theorem run_field {n : Nat} {v : Json} (hv : TakesIn n v) (key : String)
    (done : List (String × Json)) (first : Bool) {stack : List Frame}
    (hstack : stack.length + (n + 1) ≤ depthLimit) {r : List Char} (hr : Closed r) :
    run ⟨stack, .key done first⟩ (scanFrom .between (quoted key ++ ':' :: (chars v ++ r))) =
      run ⟨.object ((key, v) :: done) key :: stack, .separator⟩ (scanFrom .between r) := by
  rw [Token.scanFrom_append, Token.scanned_quoted]
  have hkey : run ⟨stack, .key done first⟩
      (.string key :: scanFrom .between (':' :: (chars v ++ r))) =
        run ⟨.object done key :: stack, .value⟩ (scanFrom .between (chars v ++ r)) := by
    cases first <;> rfl
  exact hkey.trans (hv (by rw [List.length_cons]; omega) hr (.inl rfl))

/-- The fields behind the first, each with a comma, and the end of their object. -/
theorem run_moreFields {n : Nat} {rest : List (String × Json)}
    (hrest : ∀ entry ∈ rest, TakesIn n entry.2) (done : List (String × Json)) (key : String)
    {stack : List Frame} (hstack : stack.length + (n + 1) ≤ depthLimit) (r : List Char) :
    run ⟨.object done key :: stack, .separator⟩ (scanFrom .between (moreFields rest ++ '}' :: r)) =
      run (supply stack (.obj (done.reverse ++ rest))) (scanFrom .between r) := by
  induction rest generalizing done key with
  | nil =>
    rw [List.append_nil]
    rfl
  | cons entry rest ih =>
    obtain ⟨name, v⟩ := entry
    obtain ⟨hv, hrest⟩ := List.forall_mem_cons.1 hrest
    rw [moreFields, charsFields_cons, List.cons_append, List.append_assoc, List.cons_append,
      List.append_assoc]
    show run ⟨stack, .key done false⟩ (scanFrom .between (quoted name ++ ':' :: (chars v ++ _))) = _
    rw [run_field hv name done false hstack (closed_moreFields rest r), ih hrest]
    simp

theorem takesIn_obj {n : Nat} {fields : List (String × Json)}
    (h : ∀ entry ∈ fields, TakesIn n entry.2) : TakesIn (n + 1) (.obj fields) := by
  intro stack r expecting hstack hr hexpecting
  have hopen : readValue stack .openBrace = .ok ⟨stack, .key [] true⟩ := ifShallow_of_lt hstack _
  have hchars : chars (.obj fields) ++ r = '\x7b' :: (charsFields fields ++ '}' :: r) := by
    simp [chars]
  rw [hchars]
  show run ⟨stack, expecting⟩ (.openBrace :: scanFrom .between (charsFields fields ++ '}' :: r)) = _
  rw [run_value hexpecting (by simp) hopen]
  cases fields with
  | nil => rfl
  | cons entry rest =>
    obtain ⟨name, v⟩ := entry
    obtain ⟨hv, hrest⟩ := List.forall_mem_cons.1 h
    rw [charsFields_cons, List.append_assoc, List.cons_append, List.append_assoc,
      run_field hv name [] true hstack (closed_moreFields rest r)]
    exact run_moreFields hrest [(name, v)] name hstack r

end Reading

open Reading in
/-- **Readable values are taken in.** -/
theorem Readable.takesIn {n : Nat} {v : Json} (h : Readable n v) : TakesIn n v := by
  induction h with
  | null n => exact takesIn_word n .null none rfl fun _ ↦ rfl
  | bool n b => exact takesIn_word n (.bool b) (some b) rfl fun _ ↦ rfl
  | @num n m hm =>
    exact takesIn_token n (.num m) (.number m) (by simp) (Token.scanFrom_number hm) fun _ ↦ rfl
  | str n s =>
    refine takesIn_token n (.str s) (.string s) (by simp) (fun _ ↦ ?_) fun _ ↦ rfl
    rw [chars, Token.scanFrom_append, Token.scanned_quoted]
    rfl
  | arr _ ih => exact takesIn_arr ih
  | obj _ ih => exact takesIn_obj ih

/-- **A text is read as the value that was printed.** -/
theorem read_text {n : Nat} {v : Json} (h : Readable n v) (hn : n ≤ depthLimit) :
    read v.text = .ok v := by
  have hrun : Reading.run ⟨[], .value⟩ (scanFrom .between (chars v ++ [])) = _ :=
    h.takesIn (by simpa using hn) Token.closed_nil (.inl rfl)
  rw [List.append_nil] at hrun
  rw [read, ofTokens, text, String.toList_ofList, Token.scan, hrun]
  rfl

end ChartFeed.Json
