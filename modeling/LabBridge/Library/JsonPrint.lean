import LabBridge.Library.Json

/-!
# A compact JSON printer and its parser

Documents are printed without white space and with the shortest escapes; other bytes of a
string are copied. The parser skips white space, keeps the fields of an object in key order
and lets the last of several equal keys win. It gives back every canonical document that
was printed, so both make a `JsonCodec`.
-/

namespace JsonText

open ByteText

/-- The hexadecimal digit of a number below sixteen. -/
def hexDigit (n : ℕ) : UInt8 := if n < 10 then UInt8.ofNat (48 + n) else UInt8.ofNat (87 + n)

/-- The number of a hexadecimal digit. -/
def hexValue (b : UInt8) : Option ℕ :=
  if 48 ≤ b ∧ b ≤ 57 then some (b.toNat - 48)
  else if 97 ≤ b ∧ b ≤ 102 then some (b.toNat - 87)
  else if 65 ≤ b ∧ b ≤ 70 then some (b.toNat - 55)
  else none

/-- The escapes of one letter, with the byte each stands for. -/
def letterEscapes : List (UInt8 × UInt8) :=
  [(byte '"', byte '"'), (byte '\\', byte '\\'), (8, byte 'b'), (12, byte 'f'), (10, byte 'n'),
    (13, byte 'r'), (9, byte 't')]

/-- One byte of a string as it is printed. -/
def escapeByte (b : UInt8) : Bytes :=
  match letterEscapes.find? fun escape => escape.1 == b with
  | some escape => [byte '\\', escape.2]
  | none =>
    if b < 32 then
      [byte '\\', byte 'u', byte '0', byte '0', hexDigit (b.toNat / 16), hexDigit (b.toNat % 16)]
    else [b]

/-- A printed string. -/
def printString (value : Bytes) : Bytes :=
  byte '"' :: (value.flatMap escapeByte ++ [byte '"'])

mutual

/-- A printed document. -/
def print : Json → Bytes
  | .null => text "null"
  | .bool true => text "true"
  | .bool false => text "false"
  | .int value => decimalInt value
  | .real literal => literal
  | .str value => printString value
  | .arr [] => text "[]"
  | .arr (item :: rest) => byte '[' :: (print item ++ printItems rest)
  | .obj [] => [byte '\x7b', byte '\x7d']
  | .obj ((key, value) :: rest) =>
    byte '\x7b' :: (printString key ++ byte ':' :: (print value ++ printFields rest))

/-- The further items of an array. -/
def printItems : List Json → Bytes
  | [] => [byte ']']
  | item :: rest => byte ',' :: (print item ++ printItems rest)

/-- The further fields of an object. -/
def printFields : List (Bytes × Json) → Bytes
  | [] => [byte '\x7d']
  | (key, value) :: rest =>
    byte ',' :: (printString key ++ byte ':' :: (print value ++ printFields rest))

end

/-- White space between tokens. -/
def isSpace (b : UInt8) : Bool := b == 32 || b == 9 || b == 10 || b == 13

/-- A text after leading white space. -/
def skipSpace (input : Bytes) : Bytes := input.dropWhile isSpace

/-- The bytes of the character that four hexadecimal digits name; surrogates name none. -/
def unicodeEscape (a b c d : UInt8) : Option Bytes := do
  let code := ((← hexValue a) * 16 + (← hexValue b)) * 256 + (← hexValue c) * 16 + (← hexValue d)
  if 0xD800 ≤ code ∧ code ≤ 0xDFFF then none else some (String.utf8EncodeChar (Char.ofNat code))

/-- The byte that a one-letter escape stands for. -/
def letterEscape (letter : UInt8) : Option UInt8 :=
  if letter = byte '/' then some letter
  else (letterEscapes.find? fun escape => escape.2 == letter).map Prod.fst

/-- The rest of a string after its opening quote. -/
def readString : Bytes → Option (Bytes × Bytes)
  | [] => none
  | b :: rest =>
    if b = byte '"' then some ([], rest)
    else if b = byte '\\' then
      match rest with
      | [] => none
      | letter :: tail =>
        if letter = byte 'u' then
          match tail with
          | a :: b :: c :: d :: tail =>
            (unicodeEscape a b c d).bind fun found =>
              (readString tail).map fun read => (found ++ read.1, read.2)
          | _ => none
        else (letterEscape letter).bind fun found =>
          (readString tail).map fun read => (found :: read.1, read.2)
    else if b < 32 then none
    else (readString rest).map fun read => (b :: read.1, read.2)

/-- The bytes a number is written with. -/
def isNumberByte (b : UInt8) : Bool :=
  decide (IsDigit b) || b == byte '-' || b == byte '+' || b == byte '.' || b == byte 'e' ||
    b == byte 'E'

/-- The integer an integer literal denotes. -/
def integerOf (literal : Bytes) : ℤ :=
  if literal.head? = some (byte '-') then -(numeralValue literal.tail : ℤ)
  else numeralValue literal

/-- Digits, at least one, and what follows them. -/
def dropDigits (literal : Bytes) : Option Bytes :=
  let rest := literal.dropWhile fun b => decide (IsDigit b)
  if rest.length < literal.length then some rest else none

/-- An exponent or nothing. -/
def isExponent : Bytes → Bool
  | [] => true
  | mark :: rest =>
    (mark == byte 'e' || mark == byte 'E') &&
      dropDigits (if rest.head? = some (byte '-') ∨ rest.head? = some (byte '+') then rest.tail
        else rest) == some []

/-- A number that is not written as a canonical integer. -/
def isRealLiteral (literal : Bytes) : Bool :=
  let unsigned := if literal.head? = some (byte '-') then literal.tail else literal
  match dropDigits unsigned with
  | none => false
  | some rest =>
    (unsigned.head? != some (byte '0') || unsigned.length == rest.length + 1) &&
      if rest.head? = some (byte '.') then (dropDigits rest.tail).any isExponent
      else isExponent rest

/-- The number of a literal. -/
def numberOf (literal : Bytes) : Option Json :=
  if decimalInt (integerOf literal) = literal ∧ -(2 ^ 63) ≤ integerOf literal ∧
      integerOf literal < 2 ^ 64 then some (.int (integerOf literal))
  else if isRealLiteral literal then some (.real literal)
  else none

/-- Put a field in front of later ones, in key order; a later field of the same key wins. -/
def insertField (key : Bytes) (value : Json) : List (Bytes × Json) → List (Bytes × Json)
  | [] => [(key, value)]
  | (other, kept) :: rest =>
    if Json.keyLt key other then (key, value) :: (other, kept) :: rest
    else if key = other then (other, kept) :: rest
    else (other, kept) :: insertField key value rest

/-- Read a literal name. -/
def readName (name : Bytes) (document : Json) (input : Bytes) : Option (Json × Bytes) :=
  if name.isPrefixOf input then some (document, input.drop name.length) else none

mutual

/-- Read a document. -/
def readValue : ℕ → Bytes → Option (Json × Bytes)
  | 0, _ => none
  | fuel + 1, input =>
    match skipSpace input with
    | [] => none
    | b :: rest =>
      if b = byte '"' then (readString rest).map fun read => (.str read.1, read.2)
      else if b = byte '[' then
        match skipSpace rest with
        | [] => none
        | c :: tail =>
          if c = byte ']' then some (.arr [], tail)
          else (readItems fuel (c :: tail)).map fun read => (.arr read.1, read.2)
      else if b = byte '\x7b' then
        match skipSpace rest with
        | [] => none
        | c :: tail =>
          if c = byte '\x7d' then some (.obj [], tail)
          else (readFields fuel (c :: tail)).map fun read => (.obj read.1, read.2)
      else if b = byte 'n' then readName (text "null") .null (b :: rest)
      else if b = byte 't' then readName (text "true") (.bool true) (b :: rest)
      else if b = byte 'f' then readName (text "false") (.bool false) (b :: rest)
      else (numberOf ((b :: rest).takeWhile isNumberByte)).map fun number =>
        (number, (b :: rest).dropWhile isNumberByte)

/-- Read the items of an array up to its closing bracket. -/
def readItems : ℕ → Bytes → Option (List Json × Bytes)
  | 0, _ => none
  | fuel + 1, input =>
    (readValue fuel input).bind fun first =>
      match skipSpace first.2 with
      | [] => none
      | c :: tail =>
        if c = byte ']' then some ([first.1], tail)
        else if c = byte ',' then
          (readItems fuel tail).map fun read => (first.1 :: read.1, read.2)
        else none

/-- Read the fields of an object up to its closing brace. -/
def readFields : ℕ → Bytes → Option (List (Bytes × Json) × Bytes)
  | 0, _ => none
  | fuel + 1, input =>
    match skipSpace input with
    | [] => none
    | b :: rest =>
      if b = byte '"' then
        (readString rest).bind fun key =>
          match skipSpace key.2 with
          | [] => none
          | c :: tail =>
            if c = byte ':' then
              (readValue fuel tail).bind fun first =>
                match skipSpace first.2 with
                | [] => none
                | c :: tail =>
                  if c = byte '\x7d' then some ([(key.1, first.1)], tail)
                  else if c = byte ',' then
                    (readFields fuel tail).map fun read =>
                      (insertField key.1 first.1 read.1, read.2)
                  else none
            else none
      else none

end

/-- Read a text that holds one document. -/
def readDocument (input : Bytes) : Option Json :=
  (readValue (input.length + 1) input).bind fun read =>
    if skipSpace read.2 = [] then some read.1 else none

example : (readDocument (text " \x7b \"b\" : [1, -2.5e3] , \"a\" : \"\\u0041\\n\", \"b\" : null \x7d ")).map
    print = some (text "\x7b\"a\":\"A\\n\",\"b\":null\x7d") := by decide +kernel

/-- Text that does not go on with a number. -/
def EndsNumber (rest : Bytes) : Prop := ∀ b ∈ rest.head?, isNumberByte b = false

/-- The escape of a control character is read back. -/
theorem unicodeEscape_control : ∀ n < 32, unicodeEscape (byte '0') (byte '0') (hexDigit (n / 16))
    (hexDigit (n % 16)) = some [UInt8.ofNat n] := by decide +kernel

/-- Each escape of one letter is read back. -/
theorem letterEscape_of_mem : ∀ escape ∈ letterEscapes, letterEscape escape.2 = some escape.1 ∧
    escape.2 ≠ byte 'u' := by
  intro escape hescape
  simp only [letterEscapes, List.mem_cons, List.not_mem_nil, or_false] at hescape
  rcases hescape with rfl | rfl | rfl | rfl | rfl | rfl | rfl <;>
    exact ⟨by rfl, by decide⟩

/-- The closing quote ends a string. -/
theorem readString_quote (rest : Bytes) : readString (byte '"' :: rest) = some ([], rest) := by
  rw [readString.eq_def]
  rfl

/-- A byte that needs no escape is read as it is. -/
theorem readString_plain {b : UInt8} (hquote : b ≠ byte '"') (hbackslash : b ≠ byte '\\')
    (hcontrol : ¬b < 32) (rest : Bytes) :
    readString (b :: rest) = (readString rest).map fun read => (b :: read.1, read.2) := by
  rw [readString.eq_def]
  simp only [if_neg hquote, if_neg hbackslash, if_neg hcontrol]

/-- An escape of one letter is read as its byte. -/
theorem readString_letter {letter b : UInt8} (hread : letterEscape letter = some b)
    (hne : letter ≠ byte 'u') (rest : Bytes) :
    readString (byte '\\' :: letter :: rest) =
      (readString rest).map fun read => (b :: read.1, read.2) := by
  rw [readString.eq_def]
  simp only [if_neg (show byte '\\' ≠ byte '"' by decide), if_pos, if_neg hne, hread,
    Option.bind_some]

/-- An escape of four digits is read as the bytes of its character. -/
theorem readString_unicode {a b c d : UInt8} {found : Bytes}
    (hread : unicodeEscape a b c d = some found) (rest : Bytes) :
    readString (byte '\\' :: byte 'u' :: a :: b :: c :: d :: rest) =
      (readString rest).map fun read => (found ++ read.1, read.2) := by
  rw [readString.eq_def]
  simp only [if_neg (show byte '\\' ≠ byte '"' by decide), if_pos, hread, Option.bind_some]

/-- One printed byte of a string is read back. -/
theorem readString_escapeByte (b : UInt8) (rest : Bytes) :
    readString (escapeByte b ++ rest) = (readString rest).map fun read => (b :: read.1, read.2) := by
  unfold escapeByte
  split
  · rename_i escape hescape
    obtain ⟨hread, hne⟩ := letterEscape_of_mem escape (List.mem_of_find?_eq_some hescape)
    rw [show escape.1 = b by simpa using List.find?_some hescape] at hread
    exact readString_letter hread hne rest
  · rename_i hplain
    have hescapes := List.find?_eq_none.mp hplain
    split
    · rename_i hcontrol
      have hread := unicodeEscape_control b.toNat (UInt8.lt_iff_toNat_lt.mp hcontrol)
      rw [UInt8.ofNat_toNat] at hread
      exact readString_unicode hread rest
    · rename_i hcontrol
      refine readString_plain ?_ ?_ hcontrol rest
      · rintro rfl
        exact hescapes (byte '"', byte '"') (by decide) (by decide)
      · rintro rfl
        exact hescapes (byte '\\', byte '\\') (by decide) (by decide)

/-- A printed string is read back. -/
theorem readString_printed (value rest : Bytes) :
    readString (value.flatMap escapeByte ++ byte '"' :: rest) = some (value, rest) := by
  induction value with
  | nil => exact readString_quote rest
  | cons b value ih =>
    rw [List.flatMap_cons, List.append_assoc, readString_escapeByte, ih]
    rfl

/-- Reading a canonical integer literal. -/
theorem numberOf_decimalInt {value : ℤ} (low : -(2 ^ 63) ≤ value) (high : value < 2 ^ 63) :
    numberOf (decimalInt value) = some (.int value) := by
  have hvalue : integerOf (decimalInt value) = value := by
    cases value with
    | ofNat n =>
      have hhead : (decimal n).head? ≠ some (byte '-') := by
        intro h
        exact absurd (isDigit_of_mem_decimal (List.mem_of_mem_head? h)) (by decide)
      simp [integerOf, decimalInt, hhead]
    | negSucc n => simp [integerOf, decimalInt, Int.negSucc_eq]
  unfold numberOf
  rw [hvalue, if_pos ⟨rfl, low, by omega⟩]

/-- The bytes of an integer literal belong to a number. -/
theorem isNumberByte_of_mem_decimalInt {value : ℤ} {b : UInt8} (h : b ∈ decimalInt value) :
    isNumberByte b = true := by
  have hdecimal {n : ℕ} (h : b ∈ decimal n) : isNumberByte b = true := by
    simp [isNumberByte, isDigit_of_mem_decimal h]
  cases value with
  | ofNat n => exact hdecimal h
  | negSucc n =>
    rcases List.mem_cons.mp h with rfl | h
    · decide
    · exact hdecimal h

/-- A byte that is no white space stays first. -/
theorem skipSpace_cons {b : UInt8} (h : isSpace b = false) (rest : Bytes) :
    skipSpace (b :: rest) = b :: rest := by
  simp [skipSpace, h]

/-- A printed document starts with a byte that is neither white space nor a bracket that
closes. -/
theorem print_head {document : Json} (h : document.Canonical) :
    ∃ b tail, print document = b :: tail ∧ isSpace b = false ∧ b ≠ byte ']' := by
  cases h with
  | null => exact ⟨_, _, rfl, by decide, by decide⟩
  | bool value => cases value <;> exact ⟨_, _, rfl, by decide, by decide⟩
  | int value low high =>
    rcases hprint : decimalInt value with _ | ⟨b, tail⟩
    · exact absurd hprint (decimalInt_ne_nil value)
    · have hnumber : isNumberByte b = true :=
        isNumberByte_of_mem_decimalInt (by rw [hprint]; exact List.mem_cons_self)
      refine ⟨b, tail, by rw [print, hprint], ?_, ?_⟩
      · refine Bool.eq_false_iff.mpr fun hspace => ?_
        simp only [isSpace, Bool.or_eq_true, beq_iff_eq] at hspace
        rcases hspace with ((rfl | rfl) | rfl) | rfl <;> exact absurd hnumber (by decide)
      · rintro rfl
        exact absurd hnumber (by decide)
  | str value => exact ⟨_, _, rfl, by decide, by decide⟩
  | arr items each => cases items <;> exact ⟨_, _, rfl, by decide, by decide⟩
  | obj fields ordered each =>
    rcases fields with _ | ⟨⟨key, value⟩, rest⟩ <;> exact ⟨_, _, rfl, by decide, by decide⟩

/-- With fuel for its length, the printed document is read before any text that ends it. -/
def Reads (document : Json) : Prop :=
  ∀ fuel rest, (print document).length < fuel → EndsNumber rest →
    readValue fuel (print document ++ rest) = some (document, rest)

/-- Integers are read back. -/
theorem reads_int {value : ℤ} (low : -(2 ^ 63) ≤ value) (high : value < 2 ^ 63) :
    Reads (.int value) := by
  intro fuel rest hfuel hrest
  obtain ⟨b, tail, hprint, hspace, -⟩ := print_head (.int value low high)
  obtain ⟨fuel, rfl⟩ := Nat.exists_eq_add_of_lt hfuel
  have hnumber : ∀ c ∈ print (.int value), isNumberByte c = true :=
    fun c hc => isNumberByte_of_mem_decimalInt hc
  have hb : isNumberByte b = true := hnumber b (by rw [hprint]; exact List.mem_cons_self)
  have hne {c : UInt8} (hc : isNumberByte c = false) : b ≠ c := by
    rintro rfl
    rw [hb] at hc
    cases hc
  have hends : rest.takeWhile isNumberByte = [] ∧ rest.dropWhile isNumberByte = rest := by
    cases rest with
    | nil => exact ⟨rfl, rfl⟩
    | cons c rest =>
      have hc := hrest c (by simp)
      simp [hc]
  have htake : (b :: (tail ++ rest)).takeWhile isNumberByte = decimalInt value := by
    rw [← List.cons_append, ← hprint, List.takeWhile_append_of_pos hnumber, hends.1,
      List.append_nil, print]
  have hdrop : (b :: (tail ++ rest)).dropWhile isNumberByte = rest := by
    rw [← List.cons_append, ← hprint, List.dropWhile_append_of_pos hnumber, hends.2]
  rw [hprint, List.cons_append, readValue, skipSpace_cons hspace]
  simp only [if_neg (hne (show isNumberByte (byte '"') = false by decide)),
    if_neg (hne (show isNumberByte (byte '[') = false by decide)),
    if_neg (hne (show isNumberByte (byte '\x7b') = false by decide)),
    if_neg (hne (show isNumberByte (byte 'n') = false by decide)),
    if_neg (hne (show isNumberByte (byte 't') = false by decide)),
    if_neg (hne (show isNumberByte (byte 'f') = false by decide)), htake, hdrop,
    numberOf_decimalInt low high, Option.map_some]

/-- Items follow a comma or close the array. -/
theorem endsNumber_printItems (items : List Json) (rest : Bytes) :
    EndsNumber (printItems items ++ rest) := by
  cases items <;> simp only [printItems, EndsNumber, List.cons_append, List.head?_cons] <;>
    decide +kernel

/-- Fields follow a comma or close the object. -/
theorem endsNumber_printFields (fields : List (Bytes × Json)) (rest : Bytes) :
    EndsNumber (printFields fields ++ rest) := by
  rcases fields with _ | ⟨⟨key, value⟩, fields⟩ <;>
    simp only [printFields, EndsNumber, List.cons_append, List.head?_cons] <;>
    decide +kernel

/-- The items of an array are read back. -/
theorem readItems_printed {first : Json} {items : List Json}
    (each : ∀ item ∈ first :: items, Reads item) {fuel : ℕ} {rest : Bytes}
    (hfuel : (print first ++ printItems items).length < fuel) :
    readItems fuel (print first ++ (printItems items ++ rest)) = some (first :: items, rest) := by
  induction items generalizing first fuel with
  | nil =>
    obtain ⟨fuel, rfl⟩ := Nat.exists_eq_add_one_of_ne_zero (Nat.ne_zero_of_lt hfuel)
    have hread := each first (by simp) fuel (printItems [] ++ rest)
      (by simp [printItems] at hfuel; omega) (endsNumber_printItems _ _)
    rw [readItems, hread]
    rfl
  | cons second items ih =>
    obtain ⟨fuel, rfl⟩ := Nat.exists_eq_add_one_of_ne_zero (Nat.ne_zero_of_lt hfuel)
    simp only [printItems, List.length_append, List.length_cons] at hfuel
    have hread := each first (by simp) fuel (printItems (second :: items) ++ rest) (by omega)
      (endsNumber_printItems _ _)
    have hrest : readItems fuel (print second ++ (printItems items ++ rest)) =
        some (second :: items, rest) :=
      ih (fun item hitem => each item (by simp [hitem])) (by rw [List.length_append]; omega)
    rw [readItems, hread, Option.bind_some]
    simp only [printItems, List.cons_append, List.append_assoc]
    rw [skipSpace_cons (by decide)]
    simp only [if_neg (show byte ',' ≠ byte ']' by decide), if_pos, hrest, Option.map_some]

/-- A field in front of fields with greater keys stays in front. -/
theorem insertField_of_lt {key : Bytes} {value : Json} {rest : List (Bytes × Json)}
    (h : ∀ field ∈ rest, Json.keyLt key field.1 = true) :
    insertField key value rest = (key, value) :: rest := by
  rcases rest with _ | ⟨⟨other, kept⟩, rest⟩
  · rfl
  · rw [insertField, if_pos (h (other, kept) (by simp))]

/-- The fields of an object are read back. -/
theorem readFields_printed {key : Bytes} {value : Json} {fields : List (Bytes × Json)}
    (each : ∀ field ∈ (key, value) :: fields, Reads field.2)
    (ordered : ((key, value) :: fields).Pairwise fun left right =>
      Json.keyLt left.1 right.1 = true) {fuel : ℕ} {rest : Bytes}
    (hfuel : (print value ++ printFields fields).length + 2 < fuel) :
    readFields fuel (printString key ++ byte ':' :: (print value ++ (printFields fields ++ rest))) =
      some ((key, value) :: fields, rest) := by
  induction fields generalizing key value fuel with
  | nil =>
    obtain ⟨fuel, rfl⟩ := Nat.exists_eq_add_one_of_ne_zero (Nat.ne_zero_of_lt hfuel)
    have hvalue : Reads value := each (key, value) (by simp)
    have hread := hvalue fuel (printFields [] ++ rest) (by simp [printFields] at hfuel; omega)
      (endsNumber_printFields _ _)
    rw [readFields, printString, List.cons_append, skipSpace_cons (by decide)]
    simp only [if_pos, List.append_assoc, List.singleton_append]
    rw [readString_printed, Option.bind_some, skipSpace_cons (by decide)]
    simp only [if_pos, hread, Option.bind_some]
    rfl
  | cons field fields ih =>
    obtain ⟨other, kept⟩ := field
    obtain ⟨fuel, rfl⟩ := Nat.exists_eq_add_one_of_ne_zero (Nat.ne_zero_of_lt hfuel)
    simp only [printFields, List.length_append, List.length_cons] at hfuel
    have hvalue : Reads value := each (key, value) (by simp)
    have hread := hvalue fuel (printFields ((other, kept) :: fields) ++ rest) (by omega)
      (endsNumber_printFields _ _)
    have hrest : readFields fuel
        (printString other ++ byte ':' :: (print kept ++ (printFields fields ++ rest))) =
          some ((other, kept) :: fields, rest) :=
      ih (fun field hfield => each field (List.mem_cons_of_mem _ hfield)) ordered.of_cons
        (by rw [List.length_append]; omega)
    rw [readFields, printString, List.cons_append, skipSpace_cons (by decide)]
    simp only [if_pos, List.append_assoc, List.singleton_append]
    rw [readString_printed, Option.bind_some, skipSpace_cons (by decide)]
    simp only [if_pos, hread, Option.bind_some]
    simp only [printFields, List.cons_append, List.append_assoc]
    rw [skipSpace_cons (by decide)]
    simp only [if_neg (show byte ',' ≠ byte '\x7d' by decide), if_pos, hrest, Option.map_some]
    rw [insertField_of_lt (List.pairwise_cons.mp ordered).1]

/-- Every canonical document is read back. -/
theorem reads_of_canonical {document : Json} (h : document.Canonical) : Reads document := by
  induction h with
  | null =>
    intro fuel rest hfuel hrest
    obtain ⟨fuel, rfl⟩ := Nat.exists_eq_add_one_of_ne_zero (Nat.ne_zero_of_lt hfuel)
    rfl
  | bool value =>
    intro fuel rest hfuel hrest
    obtain ⟨fuel, rfl⟩ := Nat.exists_eq_add_one_of_ne_zero (Nat.ne_zero_of_lt hfuel)
    cases value <;> rfl
  | int value low high => exact reads_int low high
  | str value =>
    intro fuel rest hfuel hrest
    obtain ⟨fuel, rfl⟩ := Nat.exists_eq_add_one_of_ne_zero (Nat.ne_zero_of_lt hfuel)
    rw [print, printString, List.cons_append, readValue, skipSpace_cons (by decide)]
    simp only [if_pos, List.append_assoc, List.singleton_append, readString_printed,
      Option.map_some]
  | arr items each ih =>
    intro fuel rest hfuel hrest
    obtain ⟨fuel, rfl⟩ := Nat.exists_eq_add_one_of_ne_zero (Nat.ne_zero_of_lt hfuel)
    cases items with
    | nil => rfl
    | cons first items =>
      obtain ⟨b, tail, hprint, hspace, hclose⟩ := print_head (each first (by simp))
      have hitems : readItems fuel (print first ++ (printItems items ++ rest)) =
          some (first :: items, rest) :=
        readItems_printed ih (by simp [print] at hfuel ⊢; omega)
      rw [hprint, List.cons_append] at hitems
      rw [print, List.cons_append, readValue, skipSpace_cons (by decide)]
      simp only [if_neg (show byte '[' ≠ byte '"' by decide), if_pos]
      rw [hprint, List.cons_append, List.cons_append, skipSpace_cons hspace]
      simp only [if_neg hclose, List.append_assoc, hitems, Option.map_some]
  | obj fields ordered each ih =>
    intro fuel rest hfuel hrest
    obtain ⟨fuel, rfl⟩ := Nat.exists_eq_add_one_of_ne_zero (Nat.ne_zero_of_lt hfuel)
    rcases fields with _ | ⟨⟨key, value⟩, fields⟩
    · rfl
    · have hfields : readFields fuel
          (printString key ++ byte ':' :: (print value ++ (printFields fields ++ rest))) =
            some ((key, value) :: fields, rest) :=
        readFields_printed ih ordered (by simp [print, printString] at hfuel ⊢; omega)
      rw [printString, List.cons_append] at hfields
      rw [print, List.cons_append, readValue, skipSpace_cons (by decide)]
      simp only [if_neg (show byte '\x7b' ≠ byte '"' by decide),
        if_neg (show byte '\x7b' ≠ byte '[' by decide), if_pos]
      rw [printString, List.cons_append, List.cons_append, skipSpace_cons (by decide)]
      simp only [if_neg (show byte '"' ≠ byte '\x7d' by decide), List.append_assoc,
        List.cons_append] at hfields ⊢
      rw [hfields, Option.map_some]

/-- No hexadecimal digit is the zero byte. -/
theorem hexDigit_ne_zero : ∀ n < 16, hexDigit n ≠ 0 := by decide

/-- No byte is escaped with a zero byte. -/
theorem zero_notMem_escapeByte (b : UInt8) : (0 : UInt8) ∉ escapeByte b := by
  unfold escapeByte
  split
  · rename_i escape hfound
    have hletters : ∀ escape ∈ letterEscapes, (0 : UInt8) ∉ [byte '\\', escape.2] := by
      simp [letterEscapes, byte]
    exact hletters escape (List.mem_of_find?_eq_some hfound)
  · have hlow := hexDigit_ne_zero (b.toNat % 16) (Nat.mod_lt _ (by decide))
    have hhigh := hexDigit_ne_zero (b.toNat / 16) (by have := b.toNat_lt; omega)
    have hfixed : ∀ fixed ∈ [byte '\\', byte 'u', byte '0'], (0 : UInt8) ≠ fixed := by
      simp [byte]
    split
    · simp only [List.mem_cons, List.not_mem_nil, or_false, not_or]
      exact ⟨hfixed _ (by simp), hfixed _ (by simp), hfixed _ (by simp), hfixed _ (by simp),
        hhigh.symm, hlow.symm⟩
    · rename_i hprinted
      rw [List.mem_singleton]
      rintro rfl
      exact hprinted (by decide)

theorem zero_notMem_printString (value : Bytes) : (0 : UInt8) ∉ printString value := by
  have hquote : (0 : UInt8) ≠ byte '"' := by decide
  rw [printString, List.mem_cons, List.mem_append, List.mem_flatMap, List.mem_singleton]
  rintro (h | ⟨b, -, h⟩ | h)
  · exact hquote h
  · exact zero_notMem_escapeByte b h
  · exact hquote h

theorem zero_notMem_printItems {items : List Json}
    (h : ∀ item ∈ items, (0 : UInt8) ∉ print item) : (0 : UInt8) ∉ printItems items := by
  induction items with
  | nil => decide
  | cons item rest ih =>
    have hcomma : (0 : UInt8) ≠ byte ',' := by decide
    have hrest := ih fun other hother => h other (List.mem_cons_of_mem _ hother)
    simp [printItems, hcomma, h item, hrest]

theorem zero_notMem_printFields {fields : List (Bytes × Json)}
    (h : ∀ field ∈ fields, (0 : UInt8) ∉ print field.2) : (0 : UInt8) ∉ printFields fields := by
  induction fields with
  | nil => decide
  | cons field rest ih =>
    obtain ⟨key, value⟩ := field
    have hcomma : (0 : UInt8) ≠ byte ',' := by decide
    have hcolon : (0 : UInt8) ≠ byte ':' := by decide
    have hrest := ih fun other hother => h other (List.mem_cons_of_mem _ hother)
    have hvalue := h (key, value) List.mem_cons_self
    simp [printFields, hcomma, hcolon, zero_notMem_printString, hvalue, hrest]

/-- A printed document holds no zero byte. -/
theorem zero_notMem_print {document : Json} (h : document.Canonical) :
    (0 : UInt8) ∉ print document := by
  induction h with
  | null => decide
  | bool value => cases value <;> decide
  | int value low high =>
    intro hzero
    exact absurd (isNumberByte_of_mem_decimalInt hzero) (by decide)
  | str value => exact zero_notMem_printString value
  | arr items each ih =>
    cases items with
    | nil => decide
    | cons first rest =>
      have hbracket : (0 : UInt8) ≠ byte '[' := by decide
      have hrest := zero_notMem_printItems fun item hitem => ih item (List.mem_cons_of_mem _ hitem)
      have hfirst := ih first List.mem_cons_self
      simp [print, hbracket, hfirst, hrest]
  | obj fields ordered each ih =>
    cases fields with
    | nil => decide
    | cons first rest =>
      obtain ⟨key, value⟩ := first
      have hbrace : (0 : UInt8) ≠ byte '\x7b' := by decide
      have hcolon : (0 : UInt8) ≠ byte ':' := by decide
      have hrest := zero_notMem_printFields fun field hfield =>
        ih field (List.mem_cons_of_mem _ hfield)
      have hvalue := ih (key, value) List.mem_cons_self
      simp [print, hbrace, hcolon, zero_notMem_printString, hvalue, hrest]

/-- The printer and its parser as a library. -/
def compactJson : JsonCodec where
  dump document := if document.utf8 then some (print document) else none
  parse := readDocument
  dump_isSome document := by cases h : document.utf8 <;> simp
  parse_dump := by
    intro document printed canonical h
    split at h
    · cases h
      have hread := reads_of_canonical canonical ((print document).length + 1) []
        (Nat.lt_succ_self _) (by simp [EndsNumber])
      rw [List.append_nil] at hread
      rw [readDocument, hread]
      rfl
    · cases h

end JsonText
