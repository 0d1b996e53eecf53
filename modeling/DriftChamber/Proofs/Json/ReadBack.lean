/-
# Reading JSON back

Every value without broken parts is read back from its text (`Json.parse_written`): strings with any
characters in them, numbers as they are written, lists and objects of any length and depth.  The
layout makes no difference, as long as it puts in blanks only (`Json.Spacing.Blank`), so this covers
the compact text and the one with an item to a line.  What is read does not depend on what stands
behind a value, as long as it does not go on with a number; so the text of a list is read item by
item.
-/
import Mathlib
import DriftChamber.Json.Printer
import DriftChamber.Json.Reader
import DriftChamber.Proofs.Decimal.ReadBack

namespace DriftChamber.Json

/-! ## Strings -/

/-- A code point in front of those that are read from the rest of a string. -/
def addCodePoint (n : Nat) : Option (List Nat × List Char) → Option (List Nat × List Char) :=
  Option.map fun (ns, after) => (n :: ns, after)

/-- How a character may be written: by a letter after a backslash, by its number in the case of
the other control characters, or as it is. -/
theorem escape_cases (c : Char) :
    (∃ letter, escape c = ['\\', letter] ∧ letter ≠ 'u' ∧ escapeValue? letter = some c.toNat) ∨
      (c.toNat < 32 ∧ escape c =
        ['\\', 'u', '0', '0', hexChar (c.toNat / 16), hexChar (c.toNat % 16)]) ∨
      (escape c = [c] ∧ c ≠ '"' ∧ c ≠ '\\' ∧ ¬ c.toNat < 32) := by
  unfold escape
  split_ifs with hquote hslash hn ht hr hb hf hcontrol
  · exact .inl ⟨_, rfl, by decide, by rw [hquote]; rfl⟩
  · exact .inl ⟨_, rfl, by decide, by rw [hslash]; rfl⟩
  · exact .inl ⟨_, rfl, by decide, by rw [hn]; rfl⟩
  · exact .inl ⟨_, rfl, by decide, by rw [ht]; rfl⟩
  · exact .inl ⟨_, rfl, by decide, by rw [hr]; rfl⟩
  · exact .inl ⟨_, rfl, by decide, by rw [hb]; rfl⟩
  · exact .inl ⟨_, rfl, by decide, by rw [hf]; rfl⟩
  · exact .inr (.inl ⟨hcontrol, rfl⟩)
  · exact .inr (.inr ⟨rfl, hquote, hslash, hcontrol⟩)

/-- Two hexadecimal digits name any control character. -/
theorem hex4?_hexChar : ∀ n < 32,
    hex4? '0' '0' (hexChar (n / 16)) (hexChar (n % 16)) = some n := by
  decide

theorem codePoints_letter {letter : Char} {n : Nat} (hletter : letter ≠ 'u')
    (hvalue : escapeValue? letter = some n) (rest : List Char) :
    codePoints ('\\' :: letter :: rest) = addCodePoint n (codePoints rest) := by
  rw [codePoints.eq_4 letter rest fun _ _ _ _ _ hu _ => hletter hu, hvalue]
  cases codePoints rest <;> rfl

theorem codePoints_number {a b c d : Char} {n : Nat} (hvalue : hex4? a b c d = some n)
    (rest : List Char) :
    codePoints ('\\' :: 'u' :: a :: b :: c :: d :: rest) = addCodePoint n (codePoints rest) := by
  rw [codePoints, hvalue]
  cases codePoints rest <;> rfl

theorem codePoints_plain {c : Char} (hquote : c ≠ '"') (hslash : c ≠ '\\')
    (hcontrol : ¬ c.toNat < 32) (rest : List Char) :
    codePoints (c :: rest) = addCodePoint c.toNat (codePoints rest) := by
  rw [codePoints.eq_5 c rest hquote (fun _ _ _ _ _ h _ => hslash h) fun _ _ h _ => hslash h,
    if_neg hcontrol]
  cases codePoints rest <;> rfl

/-- However a character is written, its code point is read. -/
theorem codePoints_escape (c : Char) (rest : List Char) :
    codePoints (escape c ++ rest) = addCodePoint c.toNat (codePoints rest) := by
  rcases escape_cases c with ⟨letter, hescape, hletter, hvalue⟩ | ⟨hcontrol, hescape⟩ |
    ⟨hescape, hquote, hslash, hcontrol⟩
  · rw [hescape]
    exact codePoints_letter hletter hvalue rest
  · rw [hescape]
    exact codePoints_number (hex4?_hexChar _ hcontrol) rest
  · rw [hescape]
    exact codePoints_plain hquote hslash hcontrol rest

theorem codePoints_flatMap_escape (cs rest : List Char) :
    codePoints (cs.flatMap escape ++ '"' :: rest) = some (cs.map Char.toNat, rest) := by
  induction cs with
  | nil => exact codePoints.eq_2 rest
  | cons c cs ih =>
      rw [List.flatMap_cons, List.append_assoc, codePoints_escape, ih]
      rfl

/-- No character is half of a surrogate pair. -/
theorem isHalf_toNat (c : Char) : isHighHalf c.toNat = false ∧ isLowHalf c.toNat = false := by
  have hvalid : c.toNat < 0xd800 ∨ 0xdfff < c.toNat ∧ c.toNat < 0x110000 := c.valid
  simp only [isHighHalf, isLowHalf, Bool.and_eq_false_iff, decide_eq_false_iff_not]
  omega

/-- Code points of characters are joined to the same characters. -/
theorem joinHalves_map_toNat (cs : List Char) : joinHalves (cs.map Char.toNat) = some cs := by
  induction cs with
  | nil => rfl
  | cons c cs ih =>
      obtain ⟨hhigh, hlow⟩ := isHalf_toNat c
      rw [List.map_cons, joinHalves.eq_def]
      simp [hhigh, hlow, ih, Char.ofNat_toNat]

theorem quote_append (s : String) (rest : List Char) :
    quote s ++ rest = '"' :: (s.toList.flatMap escape ++ '"' :: rest) := by
  simp [quote]

/-- A string is read back from what stands between its quotes. -/
theorem readString_flatMap_escape (s : String) (rest : List Char) :
    readString (s.toList.flatMap escape ++ '"' :: rest) = some (some s, rest) := by
  rw [readString, codePoints_flatMap_escape, Option.map_some]
  simp only [joinHalves_map_toNat, Option.map_some, String.ofList_toList]

/-! ## Blanks -/

/-- A text of blanks only. -/
def Blanks (cs : List Char) : Prop := ∀ c ∈ cs, isBlank c = true

/-- A layout that puts in nothing but blanks. -/
structure Spacing.Blank (s : Spacing) : Prop where
  /-- In front of items and of the end of a list. -/
  line : ∀ level, Blanks (s.line level)
  /-- Behind the colon of a key. -/
  gap : Blanks s.gap

theorem blank_tight : Spacing.tight.Blank := ⟨fun _ => nofun, nofun⟩

theorem blank_lines : Spacing.lines.Blank where
  line level c hc := by
    rcases List.mem_cons.mp hc with rfl | hc
    · rfl
    · rw [List.eq_of_mem_replicate hc]
      rfl
  gap c hc := by
    rw [List.mem_singleton.mp hc]
    rfl

/-- Blanks in front of a text are skipped with those that it starts with. -/
theorem skipBlanks_append {blanks : List Char} (h : Blanks blanks) (cs : List Char) :
    skipBlanks (blanks ++ cs) = skipBlanks cs :=
  List.dropWhile_append_of_pos h

/-- A text that starts with no blank has none skipped. -/
theorem skipBlanks_cons {c : Char} (h : isBlank c = false) (cs : List Char) :
    skipBlanks (c :: cs) = c :: cs := by
  rw [skipBlanks, List.dropWhile_cons_of_neg (by simp [h])]

/-- Both at once. -/
theorem skipBlanks_append_cons {blanks : List Char} (h : Blanks blanks) {c : Char}
    (hc : isBlank c = false) (cs : List Char) : skipBlanks (blanks ++ c :: cs) = c :: cs := by
  rw [skipBlanks_append h, skipBlanks_cons hc]

/-- Blanks in front of a value make no difference. -/
theorem readValue_append {blanks : List Char} (h : Blanks blanks) (steps : Nat) (cs : List Char) :
    readValue steps (blanks ++ cs) = readValue steps cs := by
  cases steps with
  | zero => rfl
  | succ steps => rw [readValue, readValue, skipBlanks_append h]

/-- A number does not go on with a blank. -/
theorem ends_append {blanks rest : List Char} (h : Blanks blanks) (hrest : Numeral.Ends rest) :
    Numeral.Ends (blanks ++ rest) := by
  cases blanks with
  | nil => exact hrest
  | cons c cs =>
      have hc : ((c = ' ' ∨ c = '\n') ∨ c = '\t') ∨ c = '\r' := by
        simpa [isBlank] using h c List.mem_cons_self
      refine Numeral.ends_cons ?_
      rcases hc with ((rfl | rfl) | rfl) | rfl <;> decide

/-- What stands between the parts of a value is no part of a number. -/
theorem ends_punctuation (rest : List Char) :
    Numeral.Ends (',' :: rest) ∧ Numeral.Ends (']' :: rest) ∧ Numeral.Ends ('\x7d' :: rest) :=
  ⟨Numeral.ends_cons (by decide), Numeral.ends_cons (by decide), Numeral.ends_cons (by decide)⟩

/-! ## Values -/

/-- Values without broken parts. -/
inductive Whole : Json → Prop
  | null : Whole .null
  | bool (b : Bool) : Whole (.bool b)
  | number (n : Numeral) : Whole (.number n)
  | string (s : String) : Whole (.string s)
  | array {items : List Json} : (∀ item ∈ items, Whole item) → Whole (.array items)
  | object {fields : List (String × Json)} : (∀ field ∈ fields, Whole field.2) →
      Whole (.object fields)

/-- A value is read back from its text at any level of a layout, whatever follows, if the number of
steps allowed is more than twice the number of characters. -/
def ReadsBack (s : Spacing) (j : Json) : Prop :=
  ∀ (level steps : Nat) (rest : List Char), 2 * (written s level j).length < steps →
    Numeral.Ends rest → readValue steps (written s level j ++ rest) = some (j, rest)

variable {s : Spacing}

/-- The first step is always there. -/
theorem readsBack_of_succ {j : Json}
    (h : ∀ level steps rest, 2 * (written s level j).length ≤ steps → Numeral.Ends rest →
      readValue (steps + 1) (written s level j ++ rest) = some (j, rest)) : ReadsBack s j := by
  intro level steps rest hsteps hrest
  obtain ⟨steps, rfl⟩ := Nat.exists_eq_succ_of_ne_zero (Nat.ne_zero_of_lt hsteps)
  exact h level steps rest (Nat.le_of_lt_succ hsteps) hrest

/-- A text that starts as no other value does is read as a number. -/
theorem readValue_of_not_mem {c : Char} (steps : Nat) (cs : List Char) (hblank : isBlank c = false)
    (hc : c ∉ ['n', 't', 'f', '"', '[', '\x7b']) :
    readValue (steps + 1) (c :: cs) =
      (Numeral.read (c :: cs)).map fun read => (.number read.1, read.2) := by
  rw [readValue, skipBlanks_cons hblank]
  -- Every branch but the last is for one of the characters that are ruled out.
  split
  case h_7 => rfl
  all_goals
    next heq =>
      rw [(List.cons.inj heq).1] at hc
      exact absurd (by decide) hc

/-- A numeral starts with neither a blank nor the first character of another value. -/
theorem exists_print_eq_cons (n : Numeral) :
    ∃ c cs, n.print = c :: cs ∧ isBlank c = false ∧ c ∉ ['n', 't', 'f', '"', '[', '\x7b', ']'] := by
  have hdigit : ∀ d : Digit, isBlank d.toChar = false ∧
      d.toChar ∉ ['n', 't', 'f', '"', '[', '\x7b', ']'] := by
    decide
  obtain ⟨c, cs, hprint, rfl | ⟨d, rfl⟩⟩ := n.exists_print_eq_cons
  · exact ⟨'-', cs, hprint, by decide, by decide⟩
  · exact ⟨d.toChar, cs, hprint, hdigit d⟩

theorem readsBack_number (n : Numeral) : ReadsBack s (.number n) := by
  refine readsBack_of_succ fun level steps rest _ hrest => ?_
  obtain ⟨c, cs, hprint, hblank, hc⟩ := exists_print_eq_cons n
  have hnumber := readValue_of_not_mem steps (cs ++ rest) hblank
    fun hmem => hc (by simp only [List.mem_cons] at hmem ⊢; tauto)
  rw [written, hprint, List.cons_append, hnumber, ← List.cons_append, ← hprint,
    n.read_print hrest, Option.map_some]

theorem readsBack_string (text : String) : ReadsBack s (.string text) := by
  refine readsBack_of_succ fun level steps rest _ _ => ?_
  rw [written, quote_append, readValue, skipBlanks_cons (by decide)]
  simp only [readString_flatMap_escape, Option.map_some, Option.getD_some]

/-- The text of a value starts with neither a blank nor the end of a list. -/
theorem exists_written_eq_cons (level : Nat) (j : Json) :
    ∃ c cs, written s level j = c :: cs ∧ isBlank c = false ∧ c ≠ ']' := by
  cases j with
  | null => exact ⟨_, _, rfl, by decide⟩
  | bool b => cases b <;> exact ⟨_, _, rfl, by decide⟩
  | number n =>
      obtain ⟨c, cs, hprint, hblank, hc⟩ := exists_print_eq_cons n
      exact ⟨c, cs, hprint, hblank, fun h => hc (by simp [h])⟩
  | string text => exact ⟨_, _, rfl, by decide⟩
  | array items => cases items <;> exact ⟨_, _, rfl, by decide⟩
  | object fields => cases fields <;> exact ⟨_, _, rfl, by decide⟩
  | broken => exact ⟨_, _, rfl, by decide⟩

section Layout

variable (hs : s.Blank)
include hs

/-! ## Lists -/

/-- Items are read back up to the end of their list. -/
theorem readItems_writtenItems {items : List Json} (hitems : ∀ item ∈ items, ReadsBack s item)
    (hne : items ≠ []) (level steps : Nat)
    (hsteps : 2 * (writtenItems s level items).length + 1 < steps) {blanks : List Char}
    (hblanks : Blanks blanks) (rest : List Char) :
    readItems steps (writtenItems s level items ++ (blanks ++ ']' :: rest)) =
      some (items, rest) := by
  induction items generalizing steps with
  | nil => exact absurd rfl hne
  | cons item items ih =>
      obtain ⟨hitem, hitems⟩ := List.forall_mem_cons.mp hitems
      obtain ⟨steps, rfl⟩ := Nat.exists_eq_succ_of_ne_zero (Nat.ne_zero_of_lt hsteps)
      cases items with
      | nil =>
          rw [writtenItems, List.length_append] at hsteps
          have hends := ends_append hblanks (ends_punctuation rest).2.1
          rw [writtenItems, List.append_assoc, readItems, readValue_append (hs.line level),
            hitem level _ _ (by omega) hends]
          simp only [skipBlanks_append_cons hblanks (c := ']') rfl]
      | cons next items =>
          -- The step that the item takes is paid for by the comma behind it.
          rw [writtenItems.eq_3 s level item (next :: items) nofun] at hsteps ⊢
          simp only [List.length_append, List.length_cons] at hsteps
          have hrest := ih hitems (List.cons_ne_nil _ _) steps (by omega)
          simp only [List.append_assoc, List.cons_append]
          rw [readItems, readValue_append (hs.line level),
            hitem level _ _ (by omega) (ends_punctuation _).1]
          simp only [skipBlanks_cons (c := ',') rfl, hrest, Option.map_some]

/-- The text of items goes on, behind its first blanks, with no end of a list. -/
theorem exists_skipBlanks_writtenItems (level : Nat) (item : Json) (items : List Json)
    (rest : List Char) :
    ∃ c cs, skipBlanks (writtenItems s level (item :: items) ++ rest) = c :: cs ∧ c ≠ ']' := by
  obtain ⟨after, hafter⟩ : ∃ after, writtenItems s level (item :: items) ++ rest =
      s.line level ++ (written s level item ++ after) := by
    cases items with
    | nil => exact ⟨rest, by rw [writtenItems, List.append_assoc]⟩
    | cons next items =>
        rw [writtenItems.eq_3 s level item (next :: items) nofun]
        simp only [List.append_assoc]
        exact ⟨_, rfl⟩
  obtain ⟨c, cs, hitem, hblank, hc⟩ := exists_written_eq_cons (s := s) level item
  refine ⟨c, cs ++ after, ?_, hc⟩
  rw [hafter, hitem, List.cons_append, skipBlanks_append_cons (hs.line level) hblank]

theorem readsBack_array {items : List Json} (hitems : ∀ item ∈ items, ReadsBack s item) :
    ReadsBack s (.array items) := by
  refine readsBack_of_succ fun level steps rest hsteps _ => ?_
  cases items with
  | nil => rfl
  | cons item items =>
      rw [written.eq_6 s level (item :: items) nofun] at hsteps ⊢
      simp only [List.length_append, List.length_cons, List.length_nil] at hsteps
      simp only [List.append_assoc, List.cons_append, List.nil_append]
      rw [readValue, skipBlanks_cons (by decide)]
      have hread := readItems_writtenItems hs hitems (List.cons_ne_nil _ _) (level + 1) steps
        (by omega) (hs.line level) rest
      obtain ⟨c, cs, hstart, hclose⟩ := exists_skipBlanks_writtenItems hs (level + 1) item items
        (s.line level ++ ']' :: rest)
      simp only [hstart, hread, Option.map_some]
      split
      · next heq => exact absurd (List.cons.inj heq).1 hclose
      · rfl

/-! ## Objects -/

/-- A key and its value are read back with the comma behind them. -/
theorem readFields_of_comma (level : Nat) {steps : Nat} {value : Json} {rest after : List Char}
    (key : String) (hvalue : readValue steps rest = some (value, ',' :: after)) :
    readFields (steps + 1) (s.line level ++ (quote key ++ ':' :: (s.gap ++ rest))) =
      (readFields steps after).map fun read => ((some key, value) :: read.1, read.2) := by
  rw [quote_append, readFields, skipBlanks_append_cons (hs.line level) (by decide)]
  simp only [readString_flatMap_escape, skipBlanks_cons (c := ':') rfl, readValue_append hs.gap,
    hvalue, skipBlanks_cons (c := ',') rfl]

/-- A key and its value are read back with the end of the object behind them. -/
theorem readFields_of_close (level : Nat) {steps : Nat} {value : Json}
    {rest blanks after : List Char} (hblanks : Blanks blanks) (key : String)
    (hvalue : readValue steps rest = some (value, blanks ++ '\x7d' :: after)) :
    readFields (steps + 1) (s.line level ++ (quote key ++ ':' :: (s.gap ++ rest))) =
      some ([(some key, value)], after) := by
  rw [quote_append, readFields, skipBlanks_append_cons (hs.line level) (by decide)]
  simp only [readString_flatMap_escape, skipBlanks_cons (c := ':') rfl, readValue_append hs.gap,
    hvalue, skipBlanks_append_cons hblanks (c := '\x7d') rfl]

/-- Keys and values are read back up to the end of their object. -/
theorem readFields_writtenFields {fields : List (String × Json)}
    (hfields : ∀ field ∈ fields, ReadsBack s field.2) (hne : fields ≠ []) (level steps : Nat)
    (hsteps : 2 * (writtenFields s level fields).length + 1 < steps) {blanks : List Char}
    (hblanks : Blanks blanks) (rest : List Char) :
    readFields steps (writtenFields s level fields ++ (blanks ++ '\x7d' :: rest)) =
      some (fields.map fun field => (some field.1, field.2), rest) := by
  induction fields generalizing steps with
  | nil => exact absurd rfl hne
  | cons field fields ih =>
      obtain ⟨key, value⟩ := field
      obtain ⟨(hvalue : ReadsBack s value), hfields⟩ := List.forall_mem_cons.mp hfields
      obtain ⟨steps, rfl⟩ := Nat.exists_eq_succ_of_ne_zero (Nat.ne_zero_of_lt hsteps)
      cases fields with
      | nil =>
          rw [writtenFields] at hsteps ⊢
          simp only [List.length_append, List.length_cons] at hsteps
          simp only [List.append_assoc, List.cons_append]
          have hends := ends_append hblanks (ends_punctuation rest).2.2
          exact readFields_of_close hs level hblanks key (hvalue level _ _ (by omega) hends)
      | cons next fields =>
          rw [writtenFields.eq_3 s level key value (next :: fields) nofun] at hsteps ⊢
          simp only [List.length_append, List.length_cons] at hsteps
          have hrest := ih hfields (List.cons_ne_nil _ _) steps (by omega)
          simp only [List.append_assoc, List.cons_append]
          rw [readFields_of_comma hs level key
            (hvalue level _ _ (by omega) (ends_punctuation _).1), hrest, Option.map_some]
          rfl

/-- The text of fields goes on, behind its first blanks, with the quote of a key. -/
theorem exists_skipBlanks_writtenFields (level : Nat) (field : String × Json)
    (fields : List (String × Json)) (rest : List Char) :
    ∃ cs, skipBlanks (writtenFields s level (field :: fields) ++ rest) = '"' :: cs := by
  obtain ⟨key, value⟩ := field
  obtain ⟨after, hafter⟩ : ∃ after, writtenFields s level ((key, value) :: fields) ++ rest =
      s.line level ++ '"' :: after := by
    cases fields with
    | nil =>
        rw [writtenFields]
        simp only [List.append_assoc, quote_append]
        exact ⟨_, rfl⟩
    | cons next fields =>
        rw [writtenFields.eq_3 s level key value (next :: fields) nofun]
        simp only [List.append_assoc, quote_append]
        exact ⟨_, rfl⟩
  exact ⟨after, by rw [hafter, skipBlanks_append_cons (hs.line level) (by decide)]⟩

omit hs in
/-- A list is decoded from its encoding if its values are. -/
theorem mapM_map_eq_some {β γ : Type} {encode : β → γ} {decode : γ → Option β} {values : List β}
    (h : ∀ v ∈ values, decode (encode v) = some v) :
    (values.map encode).mapM decode = some values := by
  induction values with
  | nil => rfl
  | cons v values ih =>
      obtain ⟨hv, hvalues⟩ := List.forall_mem_cons.mp h
      rw [List.map_cons, List.mapM_cons, hv, ih hvalues]
      rfl

omit hs in
/-- Keys that are no broken strings make an object. -/
theorem ofFields_map_some (fields : List (String × Json)) :
    ofFields (fields.map fun field => (some field.1, field.2)) = .object fields := by
  have hkeys : (fields.map fun field => (some field.1, field.2)).mapM
      (fun field => field.1.map fun key => (key, field.2)) = some fields :=
    mapM_map_eq_some fun field _ => rfl
  rw [ofFields, hkeys]

theorem readsBack_object {fields : List (String × Json)}
    (hfields : ∀ field ∈ fields, ReadsBack s field.2) : ReadsBack s (.object fields) := by
  refine readsBack_of_succ fun level steps rest hsteps _ => ?_
  cases fields with
  | nil => rfl
  | cons field fields =>
      rw [written.eq_8 s level (field :: fields) nofun] at hsteps ⊢
      simp only [List.length_append, List.length_cons, List.length_nil] at hsteps
      simp only [List.append_assoc, List.cons_append, List.nil_append]
      rw [readValue, skipBlanks_cons (by decide)]
      have hread := readFields_writtenFields hs hfields (List.cons_ne_nil _ _) (level + 1) steps
        (by omega) (hs.line level) rest
      obtain ⟨cs, hstart⟩ := exists_skipBlanks_writtenFields hs (level + 1) field fields
        (s.line level ++ '\x7d' :: rest)
      simp only [hstart, hread, Option.map_some, ofFields_map_some]
      rfl

/-! ## Whole texts -/

/-- Every value without broken parts is read back from its text. -/
theorem Whole.readsBack {j : Json} (h : Whole j) : ReadsBack s j := by
  induction h with
  | null => exact readsBack_of_succ fun _ _ _ _ _ => rfl
  | bool b =>
      refine readsBack_of_succ fun level steps rest _ _ => ?_
      cases b <;> rfl
  | number n => exact readsBack_number n
  | string text => exact readsBack_string text
  | array _ ih => exact readsBack_array hs ih
  | object _ ih => exact readsBack_object hs ih

/-- The text of a value without broken parts, with blanks behind it, is the text of that value. -/
theorem parse_written {j : Json} (h : Whole j) {blanks : List Char} (hblanks : Blanks blanks) :
    Json.parse (String.ofList (written s 0 j ++ blanks)) = some j := by
  have hends := ends_append hblanks Numeral.ends_nil
  have hlength : 2 * (written s 0 j).length < 2 * (written s 0 j ++ blanks).length + 2 := by
    rw [List.length_append]
    omega
  have hskip := skipBlanks_append hblanks []
  rw [List.append_nil] at hends hskip
  have hread := h.readsBack hs 0 _ blanks hlength hends
  simp only [Json.parse, String.toList_ofList, hread, hskip]
  rfl

end Layout

/-- A value without broken parts is read back from its compact text. -/
theorem parse_compactText {j : Json} (h : Whole j) : Json.parse j.compactText = some j := by
  have hnone : Blanks [] := nofun
  have hparse := parse_written blank_tight h hnone
  rwa [List.append_nil] at hparse

/-- It is read back from a printed line of text with one item to a line. -/
theorem parse_prettyText_append {j : Json} (h : Whole j) :
    Json.parse (j.prettyText ++ "\n") = some j := by
  have hnewline : Blanks ['\n'] := by simp [Blanks, isBlank]
  have hparse := parse_written blank_lines h hnewline
  rwa [String.ofList_append] at hparse

end DriftChamber.Json
