import Vx6.Go.Encoding

/-!
# JSON strings

How `encoding/json` writes strings and objects, with the HTML escapes that `json.Marshal` turns on.
Each escape can be read back from the front of a text (`jsonUnescape_jsonEscape`), so a string is
self-delimiting: equal texts that start with a string start with the same one
(`jsonString_append_inj`). `len_jsonString_le` and `len_jsonObject_le` bound the texts.
-/

set_option autoImplicit false

namespace Vx6.Go

/-! ## Writing -/

/-- The characters written as `\u00` and two hexadecimal digits. -/
def isHexEscaped (c : Char) : Bool := c.toNat < 0x20 || c = '<' || c = '>' || c = '&'

/-- The escape of one character of a string. -/
def jsonEscape (c : Char) : List Char :=
  if c = '"' ∨ c = '\\' then ['\\', c]
  else if c = '\n' then ['\\', 'n']
  else if c = '\r' then ['\\', 'r']
  else if c = '\t' then ['\\', 't']
  else if c = '\x08' then ['\\', 'b']
  else if c = '\x0c' then ['\\', 'f']
  else if isHexEscaped c then
    ['\\', 'u', '0', '0', hexDigit (c.toNat / 16), hexDigit (c.toNat % 16)]
  else if c = '\u2028' then ['\\', 'u', '2', '0', '2', '8']
  else if c = '\u2029' then ['\\', 'u', '2', '0', '2', '9']
  else [c]

/-- A JSON string. -/
def jsonString (s : String) : String := "\"" ++ String.ofList (s.toList.flatMap jsonEscape) ++ "\""

/-- The members of an object in order, each a name and the text of its value. -/
def jsonMembers : List (String × String) → String
  | [] => ""
  | [m] => jsonString m.1 ++ (":" ++ m.2)
  | m :: rest => jsonString m.1 ++ (":" ++ (m.2 ++ ("," ++ jsonMembers rest)))

/-- A JSON object. -/
def jsonObject (members : List (String × String)) : String :=
  "\x7b" ++ (jsonMembers members ++ "\x7d")

/-! ## Reading back -/

/-- The character behind a backslash, and what follows it. -/
def unescapeTail : List Char → Option (Char × List Char)
  | [] => none
  | 'u' :: a :: b :: c :: d :: rest => do
      let a ← hexValue a
      let b ← hexValue b
      let c ← hexValue c
      let d ← hexValue d
      return (Char.ofNat (16 * (16 * (16 * a + b) + c) + d), rest)
  | c :: rest =>
      if c = 'n' then some ('\n', rest)
      else if c = 'r' then some ('\r', rest)
      else if c = 't' then some ('\t', rest)
      else if c = 'b' then some ('\x08', rest)
      else if c = 'f' then some ('\x0c', rest)
      else if c = 'u' then none
      else some (c, rest)

/-- The first character of a string body, and what follows it; nothing at the closing quote. -/
def jsonUnescape : List Char → Option (Char × List Char)
  | [] => none
  | c :: rest =>
      if c = '"' then none
      else if c = '\\' then unescapeTail rest
      else some (c, rest)

theorem jsonUnescape_quote (rest : List Char) : jsonUnescape ('"' :: rest) = none := rfl

/-- The hexadecimal escapes are read back. -/
theorem jsonUnescape_hex {c : Char} (h : isHexEscaped c = true) (rest : List Char) :
    jsonUnescape ('\\' :: 'u' :: '0' :: '0' :: hexDigit (c.toNat / 16) :: hexDigit (c.toNat % 16) ::
      rest) = some (c, rest) := by
  simp only [isHexEscaped, Bool.or_eq_true, decide_eq_true_eq] at h
  rcases h with ((h | rfl) | rfl) | rfl
  · -- the control characters are checked one by one
    obtain ⟨n, hn, rfl⟩ : ∃ n, n < 0x20 ∧ c = Char.ofNat n := ⟨c.toNat, h, (Char.ofNat_toNat c).symm⟩
    clear h
    interval_cases n <;> rfl
  · rfl
  · rfl
  · rfl

/-- An escape is read back from the front of a text. -/
theorem jsonUnescape_jsonEscape (c : Char) (rest : List Char) :
    jsonUnescape (jsonEscape c ++ rest) = some (c, rest) := by
  unfold jsonEscape
  split_ifs with h1 h2 h3 h4 h5 h6 h7 h8 h9
  · rcases h1 with rfl | rfl <;> rfl
  · subst h2; rfl
  · subst h3; rfl
  · subst h4; rfl
  · subst h5; rfl
  · subst h6; rfl
  · exact jsonUnescape_hex h7 rest
  · subst h8; rfl
  · subst h9; rfl
  · rw [not_or] at h1
    simp [jsonUnescape, h1.1, h1.2]

/-- A string body followed by its closing quote determines both the body and the rest. -/
theorem flatMap_jsonEscape_inj :
    ∀ {l l' : List Char} {r r' : List Char},
      l.flatMap jsonEscape ++ '"' :: r = l'.flatMap jsonEscape ++ '"' :: r' → l = l' ∧ r = r' := by
  intro l
  induction l with
  | nil =>
    intro l' r r' h
    cases l' with
    | nil => exact ⟨rfl, by simpa using h⟩
    | cons c l' =>
      have hu := congrArg jsonUnescape h
      simp [List.flatMap_cons, List.append_assoc, jsonUnescape_jsonEscape, jsonUnescape_quote] at hu
  | cons c l ih =>
    intro l' r r' h
    have hu := congrArg jsonUnescape h
    cases l' with
    | nil =>
      simp [List.flatMap_cons, List.append_assoc, jsonUnescape_jsonEscape, jsonUnescape_quote] at hu
    | cons d l' =>
      simp only [List.flatMap_cons, List.append_assoc, jsonUnescape_jsonEscape, Option.some.injEq,
        Prod.mk.injEq] at hu
      obtain ⟨rfl, hrest⟩ := ih hu.2
      exact ⟨by rw [hu.1], hrest⟩

theorem jsonString_toList (s : String) :
    (jsonString s).toList = '"' :: (s.toList.flatMap jsonEscape ++ ['"']) := by
  simp [jsonString]

/-- Equal texts that start with a JSON string start with the same one. -/
theorem jsonString_append_inj {s s' r r' : String} (h : jsonString s ++ r = jsonString s' ++ r') :
    s = s' ∧ r = r' := by
  have hl := congrArg String.toList h
  simp only [String.toList_append, jsonString_toList, List.cons_append, List.append_assoc,
    List.nil_append, List.cons.injEq, true_and] at hl
  obtain ⟨hs, hr⟩ := flatMap_jsonEscape_inj hl
  exact ⟨String.toList_inj.1 hs, String.toList_inj.1 hr⟩

theorem jsonObject_ne_empty (members : List (String × String)) : jsonObject members ≠ "" := by
  intro h
  simpa [jsonObject] using congrArg String.toList h

/-- Objects that start with a string under one name and have further members agree on it and on the
members that follow. -/
theorem jsonMembers_append_inj {name s s' : String} {m m' : String × String}
    {rest rest' : List (String × String)} {r r' : String}
    (h : jsonMembers ((name, jsonString s) :: m :: rest) ++ r =
      jsonMembers ((name, jsonString s') :: m' :: rest') ++ r') :
    s = s' ∧ jsonMembers (m :: rest) ++ r = jsonMembers (m' :: rest') ++ r' := by
  simp only [jsonMembers, String.append_assoc] at h
  obtain ⟨hs, hr⟩ := jsonString_append_inj (String.append_right_inj _ |>.1
    (jsonString_append_inj h).2)
  exact ⟨hs, String.append_right_inj _ |>.1 hr⟩

/-! ## Lengths -/

theorem len_ofList_le (cs : List Char) : len (String.ofList cs) ≤ 4 * cs.length := by
  rw [len_ofList]
  induction cs with
  | nil => exact le_refl 0
  | cons c cs ih =>
    have hc := c.utf8Size_le_four
    rw [List.utf8Encode_cons, ByteArray.size_append, List.utf8Encode_singleton, List.size_toByteArray,
      String.length_utf8EncodeChar, List.length_cons]
    omega

theorem length_jsonEscape_le (c : Char) : (jsonEscape c).length ≤ 6 := by
  unfold jsonEscape
  split_ifs <;> simp

/-- A character is escaped by at most six characters of four bytes. -/
theorem len_jsonString_le (s : String) : len (jsonString s) ≤ 24 * len s + 2 := by
  have hescaped : (s.toList.flatMap jsonEscape).length ≤ 6 * s.toList.length := by
    induction s.toList with
    | nil => exact le_refl 0
    | cons c cs ih =>
      have hc := length_jsonEscape_le c
      rw [List.flatMap_cons, List.length_append, List.length_cons]
      omega
  have hbytes := len_ofList_le (s.toList.flatMap jsonEscape)
  have hchars := length_le_len s
  have hquote : len "\"" = 1 := by decide
  rw [jsonString, len_append, len_append, hquote]
  omega

/-- A bound for the bytes of a member and of the signs around it. -/
def memberBound (m : String × String) : Nat := 24 * len m.1 + len m.2 + 4

theorem len_jsonObject_le (members : List (String × String)) :
    len (jsonObject members) ≤ (members.map memberBound).sum + 2 := by
  have hmembers : len (jsonMembers members) ≤ (members.map memberBound).sum := by
    fun_induction jsonMembers members with
    | case1 => decide
    | case2 m =>
      have hname := len_jsonString_le m.1
      have hcolon : len ":" = 1 := by decide
      rw [len_append, len_append, List.map_singleton, List.sum_singleton, memberBound]
      omega
    | case3 m rest hrest ih =>
      have hname := len_jsonString_le m.1
      have hcolon : len ":" = 1 := by decide
      have hcomma : len "," = 1 := by decide
      rw [len_append, len_append, len_append, len_append, List.map_cons, List.sum_cons, memberBound]
      omega
  have hopen : len "\x7b" = 1 := by decide
  have hclose : len "\x7d" = 1 := by decide
  rw [jsonObject, len_append, len_append]
  omega
end Vx6.Go
