import LabBridge.Agent.CsvParser

/-!
# The lines that the machine accepts

From every state the machine accepts exactly the remainders that complete a line of the
grammar. A remainder ends at once or goes on behind a comma, which makes the way through the
states unique.
-/

namespace LabBridge.Agent

open ByteText CsvGrammar

/-- What may follow a complete field: nothing, or a comma and a further line. -/
def EndsField (rest : Bytes) (fields : List Bytes) : Prop :=
  rest = [] ∧ fields = [] ∨ ∃ line, rest = comma :: line ∧ CsvLine line fields

/-- The remainders accepted in a state, with the fields that the line then has. -/
def Completes : FieldState → List Bytes → Bytes → Bytes → List Bytes → Prop
  | .start, done, _, rest, result => ∃ fields, CsvLine rest fields ∧ result = done ++ fields
  | .unquoted, done, field, rest, result => ∃ plain tail fields,
      rest = plain ++ tail ∧ Plain plain ∧ EndsField tail fields ∧
        result = done ++ (field ++ plain) :: fields
  | .quoted, done, field, rest, result => ∃ body tail fields,
      rest = doubled body ++ quote :: tail ∧ EndsField tail fields ∧
        result = done ++ (field ++ body) :: fields
  | .quoteClosed, done, field, rest, result => ∃ fields,
      EndsField rest fields ∧ result = done ++ field :: fields

/-- A field does not end before a byte that is no comma. -/
theorem not_endsField_cons {b : UInt8} (h : b ≠ comma) (rest : Bytes) (fields : List Bytes) :
    ¬EndsField (b :: rest) fields := by
  rintro (⟨hnil, -⟩ | ⟨line, hline, -⟩)
  · cases hnil
  · exact h (List.cons.inj hline).1

/-- Behind the comma that ends a field stands the rest of the line. -/
theorem endsField_comma {rest : Bytes} {fields : List Bytes} :
    EndsField (comma :: rest) fields ↔ CsvLine rest fields := by
  simp [EndsField]

/-- The field that ends a line is its last. -/
theorem endsField_nil {fields : List Bytes} : EndsField [] fields ↔ fields = [] := by
  simp [EndsField]

/-- A line is a written field and what follows it. -/
theorem csvLine_iff {line : Bytes} {fields : List Bytes} :
    CsvLine line fields ↔ ∃ written field tail rest, line = written ++ tail ∧
      WritesField written field ∧ EndsField tail rest ∧ fields = field :: rest := by
  constructor
  · intro h
    cases h with
    | last h => exact ⟨_, _, [], [], by simp, h, Or.inl ⟨rfl, rfl⟩, rfl⟩
    | more h rest => exact ⟨_, _, _, _, rfl, h, Or.inr ⟨_, rfl, rest⟩, rfl⟩
  · rintro ⟨written, field, tail, rest, rfl, h, ⟨rfl, rfl⟩ | ⟨line, rfl, hline⟩, rfl⟩
    · rw [List.append_nil]
      exact .last h
    · exact .more h hline

/-! ## One byte in each state -/

/-- A line is a written field and what follows it. -/
theorem completes_start {done : List Bytes} {rest : Bytes} {result : List Bytes} :
    Completes .start done [] rest result ↔
      Completes .unquoted done [] rest result ∨ ∃ tail, rest = quote :: tail ∧
        Completes .quoted done [] tail result := by
  simp only [Completes, csvLine_iff, List.nil_append]
  constructor
  · rintro ⟨_, ⟨written, field, tail, fields, rfl, ⟨rfl, hplain⟩ | rfl, htail, rfl⟩, rfl⟩
    · exact Or.inl ⟨_, tail, fields, rfl, hplain, htail, rfl⟩
    · exact Or.inr ⟨doubled field ++ quote :: tail, by simp [quoted], field, tail, fields, rfl,
        htail, rfl⟩
  · rintro (⟨plain, tail, fields, rfl, hplain, htail, rfl⟩ |
      ⟨_, rfl, body, tail, fields, rfl, htail, rfl⟩)
    · exact ⟨_, ⟨plain, plain, tail, fields, rfl, Or.inl ⟨rfl, hplain⟩, htail, rfl⟩, rfl⟩
    · exact ⟨_, ⟨quoted body, body, tail, fields, by simp [quoted], Or.inr rfl, htail, rfl⟩, rfl⟩

/-- The line may end behind the closing quote. -/
theorem completes_quoteClosed_nil {done result : List Bytes} {field : Bytes} :
    Completes .quoteClosed done field [] result ↔ result = done ++ [field] := by
  simp [Completes, endsField_nil]

/-- A comma behind the closing quote begins the next field. -/
theorem completes_quoteClosed_comma {done result : List Bytes} {field rest : Bytes} :
    Completes .quoteClosed done field (comma :: rest) result ↔
      Completes .start (done ++ [field]) [] rest result := by
  simp [Completes, endsField_comma]

/-- No other byte may follow the closing quote. -/
theorem not_completes_quoteClosed {done result : List Bytes} {field rest : Bytes} {b : UInt8}
    (h : b ≠ comma) : ¬Completes .quoteClosed done field (b :: rest) result := by
  rintro ⟨fields, hends, -⟩
  exact not_endsField_cons h rest fields hends

/-- An unquoted field goes on with a byte that is neither a comma nor a quote, or ends. -/
theorem completes_unquoted {done result : List Bytes} {field rest : Bytes} :
    Completes .unquoted done field rest result ↔ Completes .quoteClosed done field rest result ∨
      ∃ b tail, rest = b :: tail ∧ b ≠ comma ∧ b ≠ quote ∧
        Completes .unquoted done (field ++ [b]) tail result := by
  simp only [Completes]
  constructor
  · rintro ⟨plain, tail, fields, rfl, hplain, htail, rfl⟩
    cases plain with
    | nil => exact Or.inl ⟨fields, htail, by simp⟩
    | cons b plain =>
      obtain ⟨hcomma, hquote⟩ := hplain b List.mem_cons_self
      exact Or.inr ⟨b, plain ++ tail, rfl, hcomma, hquote, plain, tail, fields, rfl,
        fun c hc => hplain c (List.mem_cons_of_mem _ hc), htail, by simp⟩
  · rintro (⟨fields, htail, rfl⟩ | ⟨b, _, rfl, hcomma, hquote, plain, tail, fields, rfl, hplain,
      htail, rfl⟩)
    · exact ⟨[], rest, fields, rfl, fun b hb => absurd hb List.not_mem_nil, htail, by simp⟩
    · refine ⟨b :: plain, tail, fields, rfl, fun c hc => ?_, htail, by simp⟩
      rcases List.mem_cons.mp hc with rfl | hmem
      · exact ⟨hcomma, hquote⟩
      · exact hplain c hmem

/-- A quoted field ends with a quote, or goes on with a doubled quote or another byte. -/
theorem completes_quoted {done result : List Bytes} {field rest : Bytes} :
    Completes .quoted done field rest result ↔
      (∃ tail, rest = quote :: tail ∧ Completes .quoteClosed done field tail result) ∨
      (∃ tail, rest = quote :: quote :: tail ∧
        Completes .quoted done (field ++ [quote]) tail result) ∨
      ∃ b tail, rest = b :: tail ∧ b ≠ quote ∧
        Completes .quoted done (field ++ [b]) tail result := by
  simp only [Completes]
  constructor
  · rintro ⟨body, tail, fields, rfl, htail, rfl⟩
    cases body with
    | nil => exact Or.inl ⟨tail, rfl, fields, htail, by simp⟩
    | cons b body =>
      by_cases hquote : b = quote
      · subst hquote
        exact Or.inr (Or.inl ⟨_, by simp, body, tail, fields, rfl, htail, by simp⟩)
      · refine Or.inr (Or.inr ⟨b, _, ?_, hquote, body, tail, fields, rfl, htail, by simp⟩)
        rw [doubled_cons hquote]
        rfl
  · rintro (⟨tail, rfl, fields, htail, rfl⟩ | ⟨_, rfl, body, tail, fields, rfl, htail, rfl⟩ |
      ⟨b, _, rfl, hquote, body, tail, fields, rfl, htail, rfl⟩)
    · exact ⟨[], tail, fields, rfl, htail, by simp⟩
    · exact ⟨quote :: body, tail, fields, by simp, htail, by simp⟩
    · exact ⟨b :: body, tail, fields, by rw [doubled_cons hquote]; rfl, htail, by simp⟩

/-- A plain field may end the line. -/
theorem completes_unquoted_nil {done result : List Bytes} {field : Bytes} :
    Completes .unquoted done field [] result ↔ result = done ++ [field] := by
  rw [completes_unquoted, completes_quoteClosed_nil, or_iff_left]
  rintro ⟨b, tail, h, -⟩
  cases h

/-- A comma ends a plain field. -/
theorem completes_unquoted_comma {done result : List Bytes} {field rest : Bytes} :
    Completes .unquoted done field (comma :: rest) result ↔
      Completes .start (done ++ [field]) [] rest result := by
  rw [completes_unquoted, completes_quoteClosed_comma, or_iff_left]
  rintro ⟨b, tail, h, hcomma, -⟩
  exact hcomma (List.cons.inj h).1.symm

/-- The two bytes that steer the reader differ. -/
theorem quote_ne_comma : quote ≠ comma := by decide

/-- A plain field holds no quote. -/
theorem not_completes_unquoted_quote {done result : List Bytes} {field rest : Bytes} :
    ¬Completes .unquoted done field (quote :: rest) result := by
  rw [completes_unquoted]
  rintro (h | ⟨b, tail, h, -, hquote, -⟩)
  · exact not_completes_quoteClosed quote_ne_comma h
  · exact hquote (List.cons.inj h).1.symm

/-- Any other byte belongs to the plain field. -/
theorem completes_unquoted_cons {done result : List Bytes} {field rest : Bytes} {b : UInt8}
    (hcomma : b ≠ comma) (hquote : b ≠ quote) :
    Completes .unquoted done field (b :: rest) result ↔
      Completes .unquoted done (field ++ [b]) rest result := by
  rw [completes_unquoted, or_iff_right (not_completes_quoteClosed hcomma)]
  constructor
  · rintro ⟨c, tail, h, -, -, hrest⟩
    obtain ⟨rfl, rfl⟩ := List.cons.inj h
    exact hrest
  · exact fun h => ⟨b, rest, rfl, hcomma, hquote, h⟩

/-- A line that ends where a field begins ends with an empty field. -/
theorem completes_start_nil {done result : List Bytes} :
    Completes .start done [] [] result ↔ result = done ++ [[]] := by
  rw [completes_start, completes_unquoted_nil, or_iff_left]
  rintro ⟨tail, h, -⟩
  cases h

/-- A comma where a field begins leaves an empty field. -/
theorem completes_start_comma {done result : List Bytes} {rest : Bytes} :
    Completes .start done [] (comma :: rest) result ↔
      Completes .start (done ++ [[]]) [] rest result := by
  rw [completes_start, completes_unquoted_comma, or_iff_left]
  rintro ⟨tail, h, -⟩
  exact quote_ne_comma (List.cons.inj h).1.symm

/-- A quote where a field begins opens a quoted field. -/
theorem completes_start_quote {done result : List Bytes} {rest : Bytes} :
    Completes .start done [] (quote :: rest) result ↔ Completes .quoted done [] rest result := by
  rw [completes_start, or_iff_right not_completes_unquoted_quote]
  constructor
  · rintro ⟨tail, h, hrest⟩
    obtain ⟨-, rfl⟩ := List.cons.inj h
    exact hrest
  · exact fun h => ⟨rest, rfl, h⟩

/-- Any other byte begins a plain field. -/
theorem completes_start_cons {done result : List Bytes} {rest : Bytes} {b : UInt8}
    (hcomma : b ≠ comma) (hquote : b ≠ quote) :
    Completes .start done [] (b :: rest) result ↔ Completes .unquoted done [b] rest result := by
  rw [completes_start, completes_unquoted_cons hcomma hquote, or_iff_left]
  · rfl
  · rintro ⟨tail, h, -⟩
    exact hquote (List.cons.inj h).1

/-- The line may not end inside a quoted field. -/
theorem not_completes_quoted_nil {done result : List Bytes} {field : Bytes} :
    ¬Completes .quoted done field [] result := by
  rintro ⟨body, tail, fields, h, -⟩
  simp at h

/-- A quote that is not doubled closes the field. -/
theorem completes_quoted_quote {done result : List Bytes} {field rest : Bytes}
    (h : rest.head? ≠ some quote) : Completes .quoted done field (quote :: rest) result ↔
      Completes .quoteClosed done field rest result := by
  rw [completes_quoted]
  constructor
  · rintro (⟨tail, heq, hrest⟩ | ⟨tail, heq, -⟩ | ⟨b, tail, heq, hb, -⟩)
    · obtain ⟨-, rfl⟩ := List.cons.inj heq
      exact hrest
    · rw [(List.cons.inj heq).2] at h
      exact absurd rfl h
    · exact absurd (List.cons.inj heq).1.symm hb
  · exact fun hrest => Or.inl ⟨rest, rfl, hrest⟩

/-- A doubled quote is a quote of the field. -/
theorem completes_quoted_doubled {done result : List Bytes} {field rest : Bytes} :
    Completes .quoted done field (quote :: quote :: rest) result ↔
      Completes .quoted done (field ++ [quote]) rest result := by
  rw [completes_quoted]
  constructor
  · rintro (⟨tail, heq, hrest⟩ | ⟨tail, heq, hrest⟩ | ⟨b, tail, heq, hb, -⟩)
    · obtain ⟨-, rfl⟩ := List.cons.inj heq
      exact absurd hrest (not_completes_quoteClosed quote_ne_comma)
    · obtain ⟨-, heq⟩ := List.cons.inj heq
      obtain ⟨-, rfl⟩ := List.cons.inj heq
      exact hrest
    · exact absurd (List.cons.inj heq).1.symm hb
  · exact fun hrest => Or.inr (Or.inl ⟨rest, rfl, hrest⟩)

/-- Any other byte belongs to the quoted field. -/
theorem completes_quoted_cons {done result : List Bytes} {field rest : Bytes} {b : UInt8}
    (hquote : b ≠ quote) : Completes .quoted done field (b :: rest) result ↔
      Completes .quoted done (field ++ [b]) rest result := by
  rw [completes_quoted]
  constructor
  · rintro (⟨tail, heq, -⟩ | ⟨tail, heq, -⟩ | ⟨c, tail, heq, -, hrest⟩)
    · exact absurd (List.cons.inj heq).1 hquote
    · exact absurd (List.cons.inj heq).1 hquote
    · obtain ⟨rfl, rfl⟩ := List.cons.inj heq
      exact hrest
  · exact fun hrest => Or.inr (Or.inr ⟨b, rest, rfl, hquote, hrest⟩)

/-! ## The whole machine -/

/-- Two accepted results agree when their fields do. -/
theorem fields_eq_iff {left right : List Bytes} :
    ({ fields := left } : CsvLineParseResult) = { fields := right } ↔ right = left := by
  simp [eq_comm]

/-- A result with an error is not an accepted one. -/
theorem error_ne {fields result : List Bytes} {error : Bytes} (h : error ≠ []) :
    ({ fields, error } : CsvLineParseResult) ≠ { fields := result } := by
  simp [h]

/-- From every state the machine accepts exactly what completes a line. -/
theorem scanCsvLine_iff (state : FieldState) (done : List Bytes) (field rest : Bytes)
    (hfield : state = .start → field = []) (result : List Bytes) :
    scanCsvLine state done field rest = { fields := result } ↔
      Completes state done field rest result := by
  fun_induction scanCsvLine state done field rest with
  | case1 done field => simpa using not_completes_quoted_nil
  | case2 state done field hopen =>
    rw [fields_eq_iff]
    cases state with
    | start =>
      obtain rfl := hfield rfl
      exact completes_start_nil.symm
    | unquoted => exact completes_unquoted_nil.symm
    | quoted => exact absurd rfl hopen
    | quoteClosed => exact completes_quoteClosed_nil.symm
  | case3 done field rest ih =>
    obtain rfl := hfield rfl
    rw [ih fun _ => rfl, completes_start_comma]
  | case4 done field rest _ ih =>
    obtain rfl := hfield rfl
    rw [ih (by simp), completes_start_quote]
  | case5 done field ch rest hcomma hquote ih =>
    obtain rfl := hfield rfl
    rw [ih (by simp), completes_start_cons hcomma hquote]
    rfl
  | case6 done field rest ih => rw [ih fun _ => rfl, completes_unquoted_comma]
  | case7 done field rest =>
    exact iff_of_false (error_ne (by decide +kernel)) not_completes_unquoted_quote
  | case8 done field ch rest hcomma hquote ih =>
    rw [ih (by simp), completes_unquoted_cons hcomma hquote]
  | case9 done field further ih => rw [ih (by simp), completes_quoted_doubled]
  | case10 done field next further hnext ih =>
    rw [ih (by simp), completes_quoted_quote (by simpa using hnext)]
  | case11 done field ih => rw [ih (by simp), completes_quoted_quote (by simp)]
  | case12 done field ch rest hquote ih => rw [ih (by simp), completes_quoted_cons hquote]
  | case13 done field rest ih => rw [ih fun _ => rfl, completes_quoteClosed_comma]
  | case14 done field ch rest hcomma =>
    exact iff_of_false (error_ne (by decide +kernel)) (not_completes_quoteClosed hcomma)

/-- A line is accepted with its fields exactly when it is written from them. -/
theorem parseCsvLine_iff (line : Bytes) (fields : List Bytes) :
    parseCsvLine line = { fields } ↔ CsvLine line fields := by
  rw [parseCsvLine, scanCsvLine_iff _ _ _ _ (fun _ => rfl)]
  simp [Completes]

/-- The machine accepts exactly the lines of the grammar and gives back the fields they are
written from, in particular those of every line of quoted fields. -/
theorem csv_line_grammar :
    (∀ line : Bytes, ((parseCsvLine line).error = [] ∧ (parseCsvLine line).unclosedQuote = false) ↔
      ∃ fields, CsvLine line fields) ∧
    (∀ (line : Bytes) (fields : List Bytes), CsvLine line fields →
      (parseCsvLine line).fields = fields) ∧
    ∀ fields : List Bytes, fields ≠ [] → parseCsvLine (quotedLine fields) = { fields } := by
  refine ⟨fun line => ?_, fun line fields h => ?_, fun fields h => ?_⟩
  · constructor
    · rintro ⟨herror, hclosed⟩
      refine ⟨(parseCsvLine line).fields, (parseCsvLine_iff _ _).mp ?_⟩
      rcases hparsed : parseCsvLine line with ⟨fields, error, unclosedQuote⟩
      simp_all
    · rintro ⟨fields, h⟩
      rw [(parseCsvLine_iff _ _).mpr h]
      exact ⟨rfl, rfl⟩
  · rw [(parseCsvLine_iff _ _).mpr h]
  · exact (parseCsvLine_iff _ _).mpr (csvLine_quotedLine h)

example : parseCsvLine (text "a,\"b,\"\"c\",") = { fields := [text "a", text "b,\"c", []] } := by
  decide +kernel

end LabBridge.Agent
