import LabBridge.Library.JsonPrint

/-!
# The members of an object in their own order

A JSON library may sort the members of an object. Here an object of strings is read member by
member, so that the order of its text is kept.
-/

namespace JsonText

open ByteText

/-- A text that denotes a string. -/
def StringLiteral (literal value : Bytes) : Prop :=
  ∃ body, literal = byte '"' :: (body ++ [byte '"']) ∧
    ∀ rest, readString (body ++ byte '"' :: rest) = some (value, rest)

/-- Read one member of an object of strings. -/
def readStringMember : Bytes → Option ((Bytes × Bytes) × Bytes)
  | [] => none
  | first :: rest =>
    if first = byte '"' then
      (readString rest).bind fun key =>
        match key.2 with
        | colon :: second :: rest =>
          if colon = byte ':' ∧ second = byte '"' then
            (readString rest).map fun value => ((key.1, value.1), value.2)
          else none
        | _ => none
    else none

/-- Read the members up to the end of the object. -/
def readStringMembers : ℕ → Bytes → Option (List (Bytes × Bytes))
  | 0, _ => none
  | fuel + 1, input => (readStringMember input).bind fun found =>
    match found.2 with
    | [] => none
    | next :: rest =>
      if next = byte ',' then (readStringMembers fuel rest).map fun members => found.1 :: members
      else if next = byte '\x7d' ∧ rest = [] then some [found.1]
      else none

/-- Read an object of strings. -/
def readStringObject : Bytes → Option (List (Bytes × Bytes))
  | [] => none
  | first :: rest =>
    if first = byte '\x7b' then
      if rest = [byte '\x7d'] then some [] else readStringMembers rest.length rest
    else none

/-- The text of a member. -/
def memberText (key value : Bytes) : Bytes := key ++ byte ':' :: value

/-- The text of the members of an object. -/
def membersText (literals : List (Bytes × Bytes)) : Bytes :=
  (text ",").intercalate (literals.map fun literal => memberText literal.1 literal.2)

/-- The literals of a member denote its key and value. -/
def DenotesMember (literal member : Bytes × Bytes) : Prop :=
  StringLiteral literal.1 member.1 ∧ StringLiteral literal.2 member.2

/-- A member is read from its literals. -/
theorem readStringMember_literal {literal member : Bytes × Bytes}
    (h : DenotesMember literal member) (rest : Bytes) :
    readStringMember (memberText literal.1 literal.2 ++ rest) = some (member, rest) := by
  obtain ⟨⟨key, hkey, hreadKey⟩, value, hvalue, hreadValue⟩ := h
  rw [memberText, hkey, hvalue]
  simp only [List.cons_append, List.append_assoc, List.nil_append, readStringMember, if_true]
  rw [hreadKey, Option.bind_some]
  simp only [and_self, if_true]
  rw [hreadValue]
  rfl

theorem length_memberText_pos (literal : Bytes × Bytes) :
    0 < (memberText literal.1 literal.2).length := by
  rw [memberText, List.length_append, List.length_cons]
  omega

/-- The members are read from their literals in order. -/
theorem readStringMembers_literals {first : Bytes × Bytes} {literals : List (Bytes × Bytes)}
    {member : Bytes × Bytes} {members : List (Bytes × Bytes)}
    (hfirst : DenotesMember first member) (h : List.Forall₂ DenotesMember literals members)
    {fuel : ℕ} (hfuel : literals.length < fuel) :
    readStringMembers fuel (membersText (first :: literals) ++ [byte '\x7d']) =
      some (member :: members) := by
  induction h generalizing fuel first member with
  | nil =>
    obtain ⟨fuel, rfl⟩ := Nat.exists_eq_add_one_of_ne_zero (Nat.ne_zero_of_lt hfuel)
    have htext : membersText [first] = memberText first.1 first.2 := by
      simp [membersText, List.intercalate]
    have hcomma : byte '\x7d' ≠ byte ',' := by decide
    rw [htext, readStringMembers, readStringMember_literal hfirst, Option.bind_some]
    simp only [if_neg hcomma, and_self, if_true]
  | @cons next following literals members hnext hrest ih =>
    obtain ⟨fuel, rfl⟩ := Nat.exists_eq_add_one_of_ne_zero (Nat.ne_zero_of_lt hfuel)
    have hcomma : text "," = [byte ','] := by decide +kernel
    have htext : membersText (first :: next :: literals) ++ [byte '\x7d'] =
        memberText first.1 first.2 ++
          byte ',' :: (membersText (next :: literals) ++ [byte '\x7d']) := by
      simp [membersText, List.intercalate, hcomma]
    rw [htext, readStringMembers, readStringMember_literal hfirst, Option.bind_some]
    simp only [if_true]
    rw [ih hnext (by simpa using hfuel)]
    rfl

/-- Every member has at least a byte. -/
theorem length_membersText (first : Bytes × Bytes) (literals : List (Bytes × Bytes)) :
    literals.length ≤ (membersText (first :: literals)).length := by
  induction literals generalizing first with
  | nil => exact Nat.zero_le _
  | cons next literals ih =>
    have htext : membersText (first :: next :: literals) =
        memberText first.1 first.2 ++ (text "," ++ membersText (next :: literals)) := by
      simp [membersText, List.intercalate]
    have hfirst := length_memberText_pos first
    have hrest := ih next
    rw [htext, List.length_append, List.length_append, List.length_cons]
    omega

/-- An object of strings is read from the literals of its members, in their order. -/
theorem readStringObject_literals {literals members : List (Bytes × Bytes)}
    (h : List.Forall₂ DenotesMember literals members) :
    readStringObject (byte '\x7b' :: (membersText literals ++ [byte '\x7d'])) = some members := by
  cases h with
  | nil => decide +kernel
  | @cons first member literals members hfirst hrest =>
    have hfuel : literals.length < (membersText (first :: literals) ++ [byte '\x7d']).length := by
      rw [List.length_append, List.length_singleton]
      exact Nat.lt_succ_of_le (length_membersText first literals)
    have hmore : membersText (first :: literals) ++ [byte '\x7d'] ≠ [byte '\x7d'] := by
      intro h
      have hread := readStringMembers_literals hfirst hrest hfuel
      rw [h] at hread
      have hnone : readStringMembers 1 [byte '\x7d'] = none := by decide +kernel
      rw [List.length_singleton, hnone] at hread
      cases hread
    rw [readStringObject]
    simp only [if_true, if_neg hmore]
    exact readStringMembers_literals hfirst hrest hfuel

end JsonText
