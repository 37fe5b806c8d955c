import CapabilityGate.Proofs.Wire.Float

/-!
# Documents read back

Everything that `Json.compact` writes is read again, whatever it holds, and `Json.reread` says as
what: the same tree, with each number as its own text is read. Strings come back unchanged, whatever
characters are in them.
-/
namespace CapabilityGate.Json

/-! ## Strings -/

/-- The part that a character is written as: a control character without a letter of its own is
written by its number. -/
def partOf (c : Char) : Part :=
  if c.toNat < 32 ∧ c.toNat ∉ [8, 9, 10, 12, 13] then .unit c.toNat else .char c

/-- A part in front of what was read. -/
def pushPart (p : Part) (read : List Part × List Char) : List Part × List Char :=
  (p :: read.1, read.2)

theorem readParts_plain {c : Char} (quote : c ≠ '"') (backslash : c ≠ '\\')
    (printable : ¬ c.toNat < 32) (cs : List Char) :
    readParts (c :: cs) = (readParts cs).map (pushPart (.char c)) := by
  rw [readParts]
  · simp only [printable, backslash, or_self, if_false]
    cases readParts cs <;> rfl
  all_goals
    intros
    simp_all

theorem readParts_letter {e c : Char} (he : escaped? e = some c) (cs : List Char) :
    readParts ('\\' :: e :: cs) = (readParts cs).map (pushPart (.char c)) := by
  rw [readParts]
  · simp only [he]
    cases readParts cs <;> rfl
  · rintro _ _ _ _ _ ⟨⟩
    cases he

theorem readParts_unit {n : Nat} (h : n < 32) (cs : List Char) :
    readParts ('\\' :: 'u' :: '0' :: '0' :: hexDigit (n / 16) :: hexDigit (n % 16) :: cs) =
      (readParts cs).map (pushPart (.unit n)) := by
  have table : ∀ n < 32, hexUnit? '0' '0' (hexDigit (n / 16)) (hexDigit (n % 16)) = some n := by
    decide
  rw [readParts, table n h]
  cases readParts cs <;> rfl

theorem readParts_escapeChar (c : Char) (cs : List Char) :
    readParts (escapeChar c ++ cs) = (readParts cs).map (pushPart (partOf c)) := by
  have byNumber : ∀ n, c.toNat = n → c = Char.ofNat n := fun n h => by rw [← h, Char.ofNat_toNat]
  by_cases quote : c = '"'
  · subst quote
    exact readParts_letter rfl cs
  by_cases backslash : c = '\\'
  · subst backslash
    exact readParts_letter rfl cs
  by_cases newline : c = '\n'
  · subst newline
    exact readParts_letter rfl cs
  by_cases back : c = '\r'
  · subst back
    exact readParts_letter rfl cs
  by_cases tab : c = '\t'
  · subst tab
    exact readParts_letter rfl cs
  by_cases eight : c.toNat = 8
  · obtain rfl := byNumber 8 eight
    exact readParts_letter rfl cs
  by_cases twelve : c.toNat = 12
  · obtain rfl := byNumber 12 twelve
    exact readParts_letter rfl cs
  have unlettered : c.toNat ∉ [8, 9, 10, 12, 13] := by
    simp only [List.mem_cons, List.not_mem_nil, or_false, not_or]
    exact ⟨eight, fun h => tab (byNumber 9 h), fun h => newline (byNumber 10 h), twelve,
      fun h => back (byNumber 13 h)⟩
  by_cases control : c.toNat < 32
  · simp only [escapeChar, quote, backslash, newline, back, tab, eight, twelve, control, if_true,
      if_false, partOf, unlettered, not_false_eq_true, and_self]
    exact readParts_unit control cs
  · simp only [escapeChar, quote, backslash, newline, back, tab, eight, twelve, control, if_false,
      partOf, false_and]
    exact readParts_plain quote backslash control cs

/-- The parts of a string that was written join to its characters. -/
theorem joinParts_map_partOf (cs : List Char) : joinParts (cs.map partOf) = some cs := by
  induction cs with
  | nil => rfl
  | cons c cs ih =>
    rw [List.map_cons, partOf]
    split
    · rename_i control
      have high : isHighHalf c.toNat = false := by simp [isHighHalf]; omega
      have low : isLowHalf c.toNat = false := by simp [isLowHalf]; omega
      rw [joinParts.eq_def]
      simp [high, low, ih]
    · simp [joinParts, ih]

/-- **A string is read as itself**, whatever characters it has. -/
theorem readString_quote (s : String) (rest : List Char) :
    readString (s.toList.flatMap escapeChar ++ '"' :: rest) = some (some s, rest) := by
  have parts : ∀ cs : List Char,
      readParts (cs.flatMap escapeChar ++ '"' :: rest) = some (cs.map partOf, rest) := by
    intro cs
    induction cs with
    | nil => rfl
    | cons c cs ih =>
      rw [List.flatMap_cons, List.append_assoc, readParts_escapeChar, ih]
      rfl
  rw [readString, parts, Option.map_some]
  dsimp only
  rw [joinParts_map_partOf, Option.map_some, String.ofList_toList]

/-! ## Documents -/

mutual

/-- **`j.reread`** — the document that the text of a document is read as. Only numbers may change:
each is what its own text is read as. What has no meaning is written as null. -/
def reread : Json → Json
  | null => null
  | bool b => bool b
  | int n => rereadNumber (Decimal.signedDigits n)
  | float x => rereadNumber (Decimal.jsonText x)
  | string s => string s
  | array items => array (rereadItems items)
  | object entries => object (rereadEntries entries)
  | unreadable => null

/-- The items of an array that is read back. -/
def rereadItems : List Json → List Json
  | [] => []
  | item :: items => reread item :: rereadItems items

/-- The entries of an object that is read back. -/
def rereadEntries : List (String × Json) → List (String × Json)
  | [] => []
  | (key, value) :: entries => (key, reread value) :: rereadEntries entries

end

/-- The text of a document starts with something that is neither blank nor the end of an array. -/
theorem exists_cons_of_write (level : Nat) (j : Json) :
    ∃ c cs, writeWith false level j = c :: cs ∧ isBlank c = false ∧ c ≠ ']' := by
  cases j with
  | null => exact ⟨'n', _, rfl, rfl, by decide⟩
  | bool b => cases b <;> exact ⟨_, _, rfl, rfl, by decide⟩
  | int n =>
    rw [writeWith, ← Numeral.text_ofInt]
    exact (Numeral.wellFormed_ofInt n).exists_cons
  | float x =>
    rw [writeWith]
    cases finite : x.isFinite with
    | true =>
      obtain ⟨n, hn, text, -⟩ := Decimal.jsonText_eq_numeral finite
      rw [text]
      exact hn.exists_cons
    | false => exact ⟨'n', _, Decimal.jsonText_of_not_isFinite finite, rfl, by decide⟩
  | string s => exact ⟨'"', _, by rw [writeWith, quote], rfl, by decide⟩
  | array items => cases items <;> exact ⟨'[', _, rfl, rfl, by decide⟩
  | object entries =>
    cases entries with
    | nil => exact ⟨'\x7b', _, rfl, rfl, by decide⟩
    | cons e es => exact ⟨'\x7b', _, rfl, rfl, by decide⟩
  | unreadable => exact ⟨'n', _, rfl, rfl, by decide⟩

theorem skipBlanks_write (level : Nat) (j : Json) (rest : List Char) :
    skipBlanks (writeWith false level j ++ rest) = writeWith false level j ++ rest := by
  obtain ⟨c, cs, text, blank, -⟩ := exists_cons_of_write level j
  rw [text, List.cons_append, skipBlanks_cons blank]

theorem afterWord?_append (word : String) (rest : List Char) :
    afterWord? word (word.toList ++ rest) = some rest := by
  have prefixed : word.toList.isPrefixOf (word.toList ++ rest) = true := by simp
  rw [afterWord?, if_pos prefixed, ← String.length_toList, List.drop_left]

/-- A numeral's text is read up to what follows. -/
theorem readValue_int (n : Int) {rest : List Char} (hrest : EndsNumber rest) (fuel : Nat) :
    readValue (fuel + 1) (Decimal.signedDigits n ++ rest) =
      some (rereadNumber (Decimal.signedDigits n), rest) := by
  rw [← Numeral.text_ofInt]
  exact readValue_number (Numeral.wellFormed_ofInt n) hrest fuel

theorem readValue_null (rest : List Char) (fuel : Nat) :
    readValue (fuel + 1) ("null".toList ++ rest) = some (null, rest) := by
  have after := afterWord?_append "null" rest
  rw [show "null".toList ++ rest = 'n' :: 'u' :: 'l' :: 'l' :: rest from rfl] at after ⊢
  simp [readValue, after]

theorem readValue_bool (b : Bool) (rest : List Char) (fuel : Nat) :
    readValue (fuel + 1) ((if b then "true".toList else "false".toList) ++ rest) =
      some (bool b, rest) := by
  cases b with
  | true =>
    have after := afterWord?_append "true" rest
    rw [show "true".toList ++ rest = 't' :: 'r' :: 'u' :: 'e' :: rest from rfl] at after
    simp [readValue, after]
  | false =>
    have after := afterWord?_append "false" rest
    rw [show "false".toList ++ rest = 'f' :: 'a' :: 'l' :: 's' :: 'e' :: rest from rfl] at after
    simp [readValue, after]

theorem readValue_float (x : Binary64) {rest : List Char} (hrest : EndsNumber rest) (fuel : Nat) :
    readValue (fuel + 1) (Decimal.jsonText x ++ rest) =
      some (rereadNumber (Decimal.jsonText x), rest) := by
  cases finite : x.isFinite with
  | true =>
    obtain ⟨n, hn, text, -⟩ := Decimal.jsonText_eq_numeral finite
    rw [text]
    exact readValue_number hn hrest fuel
  | false =>
    rw [Decimal.jsonText_of_not_isFinite finite, rereadNumber_null]
    exact readValue_null rest fuel

/-! ## Every document is read again -/

/-- So much fuel is enough for documents of up to half the length. -/
def ReadsValues (fuel : Nat) : Prop :=
  ∀ level j rest, EndsNumber rest → 2 * (writeWith false level j).length ≤ fuel →
    readValue fuel (writeWith false level j ++ rest) = some (j.reread, rest)

/-- So much fuel is enough for the items of an array. -/
def ReadsItems (fuel : Nat) : Prop :=
  ∀ level item items rest,
    2 * ((writeWith false level item).length + (writeItems false level items).length + 1) ≤ fuel →
    readItems fuel (writeWith false level item ++ (writeItems false level items ++ ']' :: rest)) =
      some (reread item :: rereadItems items, rest)

/-- An entry with its key. -/
def writeEntry (level : Nat) (key : String) (value : Json) : List Char :=
  quote key ++ ':' :: writeWith false level value

/-- So much fuel is enough for the entries of an object. -/
def ReadsEntries (fuel : Nat) : Prop :=
  ∀ level key value entries rest,
    2 * ((writeEntry level key value).length + (writeEntries false level entries).length + 1) ≤
      fuel →
    readEntries fuel (writeEntry level key value ++
        (writeEntries false level entries ++ '\x7d' :: rest)) =
      some ((some key, reread value) :: (rereadEntries entries).map fun e => (some e.1, e.2), rest)

variable {fuel : Nat}

theorem readsItems_succ (values : ReadsValues fuel) (items : ReadsItems fuel) :
    ReadsItems (fuel + 1) := by
  intro level item others rest hfuel
  cases others with
  | nil =>
    have first := values level item (']' :: rest)
      (endsNumber_cons rfl (by decide) (by decide) (by decide)) (by omega)
    simp only [writeItems, List.nil_append, readItems, first]
    rfl
  | cons next others =>
    have first := values level item
      (',' :: (writeWith false level next ++ (writeItems false level others ++ ']' :: rest)))
      (endsNumber_cons rfl (by decide) (by decide) (by decide)) (by omega)
    have second := items level next others rest (by
      simp only [writeItems, lineBreak, List.length_cons, List.length_append] at hfuel
      omega)
    have shape : writeItems false level (next :: others) ++ ']' :: rest =
        ',' :: (writeWith false level next ++ (writeItems false level others ++ ']' :: rest)) := by
      simp [writeItems, lineBreak]
    rw [shape, readItems, first]
    dsimp only
    rw [skipBlanks_cons rfl]
    change Option.map _ (readItems fuel (skipBlanks _)) = _
    rw [skipBlanks_write, second]
    rfl

theorem skipBlanks_quote (s : String) (rest : List Char) :
    skipBlanks (quote s ++ rest) = quote s ++ rest :=
  skipBlanks_cons rfl _

/-- What comes after an entry: the end of the object, or a comma and the next entry. -/
def afterEntry (fuel : Nat) (entry : Option String × Json) :
    List Char → Option (List (Option String × Json) × List Char)
  | '\x7d' :: rest => some ([entry], rest)
  | ',' :: cs => (readEntries fuel (skipBlanks cs)).map fun read => (entry :: read.1, read.2)
  | _ => none

/-- A key is read, a colon, and the value. -/
theorem readEntries_writeEntry (values : ReadsValues fuel) (level : Nat) (key : String)
    (value : Json) {c : Char} (rest : List Char) (hrest : EndsNumber (c :: rest))
    (blank : isBlank c = false) (hfuel : 2 * (writeEntry level key value).length ≤ fuel) :
    readEntries (fuel + 1) (writeEntry level key value ++ c :: rest) =
      afterEntry fuel (some key, value.reread) (c :: rest) := by
  have string := readString_quote key (':' :: (writeWith false level value ++ c :: rest))
  have first := values level value (c :: rest) hrest (by
    simp only [writeEntry, List.length_append, List.length_cons] at hfuel
    omega)
  have shape : writeEntry level key value ++ c :: rest =
      '"' :: (key.toList.flatMap escapeChar ++
        '"' :: ':' :: (writeWith false level value ++ c :: rest)) := by
    simp [writeEntry, quote]
  rw [shape, readEntries, string]
  dsimp only
  rw [skipBlanks_cons rfl]
  simp only [skipBlanks_write, first]
  rw [skipBlanks_cons blank]
  rfl

theorem readsEntries_succ (values : ReadsValues fuel) (entries : ReadsEntries fuel) :
    ReadsEntries (fuel + 1) := by
  intro level key value others rest hfuel
  cases others with
  | nil =>
    have first := readEntries_writeEntry values level key value rest
      (endsNumber_cons (c := '\x7d') rfl (by decide) (by decide) (by decide)) rfl (by omega)
    rw [writeEntries, List.nil_append, first]
    rfl
  | cons next others =>
    obtain ⟨nextKey, nextValue⟩ := next
    have shape : writeEntries false level ((nextKey, nextValue) :: others) ++ '\x7d' :: rest =
        ',' :: (writeEntry level nextKey nextValue ++
          (writeEntries false level others ++ '\x7d' :: rest)) := by
      simp [writeEntries, writeEntry, lineBreak, Json.blank]
    have length : (writeEntries false level ((nextKey, nextValue) :: others)).length =
        (writeEntry level nextKey nextValue).length +
          (writeEntries false level others).length + 1 := by
      simp [writeEntries, writeEntry, lineBreak, Json.blank]
      omega
    have first := readEntries_writeEntry values level key value
      (writeEntry level nextKey nextValue ++ (writeEntries false level others ++ '\x7d' :: rest))
      (endsNumber_cons (c := ',') rfl (by decide) (by decide) (by decide)) rfl (by omega)
    have second := entries level nextKey nextValue others rest (by omega)
    rw [shape, first]
    change Option.map _ (readEntries fuel (skipBlanks _)) = _
    rw [writeEntry, List.append_assoc, skipBlanks_quote, ← List.append_assoc, ← writeEntry, second]
    rfl

theorem ofEntries_some (entries : List (String × Json)) :
    ofEntries (entries.map fun e => (some e.1, e.2)) = object entries := by
  have keys : (entries.map fun e => (some e.1, e.2)).mapM (fun e : Option String × Json =>
      e.1.map fun key => (key, e.2)) = some entries := by
    induction entries with
    | nil => rfl
    | cons e es ih => simp [ih]
  rw [ofEntries, keys]

/-- An array that does not end at once. -/
theorem readValue_array {c : Char} (blank : isBlank c = false) (inside : c ≠ ']')
    (cs : List Char) :
    readValue (fuel + 1) ('[' :: c :: cs) =
      (readItems fuel (c :: cs)).map fun read => (array read.1, read.2) := by
  rw [readValue, skipBlanks_cons blank]
  split
  · rename_i h
    exact absurd (List.cons.inj h).1 inside
  · rfl

theorem readsValues_succ (items : ReadsItems fuel) (entries : ReadsEntries fuel) :
    ReadsValues (fuel + 1) := by
  intro level j rest hrest hfuel
  -- One case for each sort of document; only arrays and objects have documents in them.
  cases j with
  | null => exact readValue_null rest fuel
  | bool b => exact readValue_bool b rest fuel
  | int n => exact readValue_int n hrest fuel
  | float x => exact readValue_float x hrest fuel
  | unreadable => exact readValue_null rest fuel
  | string s =>
    have read := readString_quote s rest
    have shape : writeWith false level (string s) ++ rest =
        '"' :: (s.toList.flatMap escapeChar ++ '"' :: rest) := by
      simp [writeWith, quote]
    rw [shape, readValue, read]
    rfl
  | array js =>
    cases js with
    | nil => rfl
    | cons item others =>
      have shape : writeWith false level (array (item :: others)) ++ rest =
          '[' :: (writeWith false (level + 1) item ++
            (writeItems false (level + 1) others ++ ']' :: rest)) := by
        simp [writeWith, lineBreak]
      have length : (writeWith false level (array (item :: others))).length =
          (writeWith false (level + 1) item).length +
            (writeItems false (level + 1) others).length + 2 := by
        simp [writeWith, lineBreak]
        omega
      have inner := items (level + 1) item others rest (by omega)
      obtain ⟨c, cs, first, blank, inside⟩ := exists_cons_of_write (level + 1) item
      rw [first, List.cons_append] at inner
      rw [shape, first, List.cons_append, readValue_array blank inside, inner]
      rfl
  | object es =>
    cases es with
    | nil => rfl
    | cons e others =>
      obtain ⟨key, value⟩ := e
      have shape : writeWith false level (object ((key, value) :: others)) ++ rest =
          '\x7b' :: (writeEntry (level + 1) key value ++
            (writeEntries false (level + 1) others ++ '\x7d' :: rest)) := by
        simp [writeWith, writeEntry, lineBreak, blank]
      have length : (writeWith false level (object ((key, value) :: others))).length =
          (writeEntry (level + 1) key value).length +
            (writeEntries false (level + 1) others).length + 2 := by
        simp [writeWith, writeEntry, lineBreak, blank]
        omega
      have inner := entries (level + 1) key value others rest (by omega)
      rw [writeEntry, List.append_assoc] at inner
      rw [shape, readValue, writeEntry, List.append_assoc, skipBlanks_quote]
      change Option.map _ (readEntries fuel (quote key ++ _)) = _
      rw [inner]
      have keys := ofEntries_some ((key, value.reread) :: rereadEntries others)
      rw [List.map_cons] at keys
      simp [keys, reread, rereadEntries]

theorem reads_all (fuel : Nat) : ReadsValues fuel ∧ ReadsItems fuel ∧ ReadsEntries fuel := by
  -- On the fuel: every reader calls the others with one unit less.
  induction fuel with
  | zero =>
    refine ⟨fun level j rest _ short => ?_, fun _ _ _ _ short => ?_, fun _ _ _ _ _ short => ?_⟩
    · obtain ⟨c, cs, text, -⟩ := exists_cons_of_write level j
      rw [text, List.length_cons] at short
      omega
    · omega
    · omega
  | succ fuel ih =>
    obtain ⟨values, items, entries⟩ := ih
    exact ⟨readsValues_succ items entries, readsItems_succ values items,
      readsEntries_succ values entries⟩

/-- **What is written can be read.** The text of every document is one document again. -/
theorem parse_compact (j : Json) : parse j.compact = some j.reread := by
  have blanks := skipBlanks_write 0 j []
  have read := (reads_all (2 * (writeWith false 0 j).length + 2)).1 0 j [] endsNumber_nil (by omega)
  rw [List.append_nil] at blanks read
  rw [parse, compact, String.toList_ofList, blanks, read]
  rfl

end CapabilityGate.Json
