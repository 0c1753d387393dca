import Vx6.Go.Json

/-!
# Reading JSON

A reader of the texts that `json.Marshal` writes: objects, arrays, strings, numbers and literals without
white space. It is not `json.Unmarshal`, which accepts many more texts; where the program decodes what a
remote side sends, the decoder is a parameter. As in `encoding/json` a scanner finds the end of a value
first, and the value is then read according to the type of the field it belongs to.

The scanner counts brackets and skips strings (`Scan.next`). A text is `Closed` when the scanner comes
out of it as it went in and finds no separator at the top. What `json.Marshal` writes is closed, so
objects and arrays of such texts are taken apart as they were put together (`readObject_jsonObject`,
`readArray_jsonArray`).
-/

set_option autoImplicit false

namespace Vx6.Go

/-! ## Scanning -/

/-- Where the scanner is: outside of strings, inside of one, or behind a backslash. -/
inductive ScanMode where
  | outside
  | quoted
  | escaped
  deriving DecidableEq, Repr

/-- The state of the scanner. -/
structure Scan where
  depth : Nat
  mode : ScanMode
  deriving DecidableEq, Repr

/-- Between two tokens at a depth. -/
def Scan.level (depth : Nat) : Scan := ⟨depth, .outside⟩

/-- The scanner reads a character. -/
def Scan.next (s : Scan) (c : Char) : Scan :=
  match s.mode with
  | .outside =>
    if c = '"' then ⟨s.depth, .quoted⟩
    else if c = '\x7b' ∨ c = '[' then ⟨s.depth + 1, .outside⟩
    else if c = '\x7d' ∨ c = ']' then ⟨s.depth - 1, .outside⟩
    else s
  | .quoted => if c = '"' then ⟨s.depth, .outside⟩ else if c = '\\' then ⟨s.depth, .escaped⟩ else s
  | .escaped => ⟨s.depth, .quoted⟩

/-- Put characters in front of the first piece. -/
def glue (v : List Char) : List (List Char) → List (List Char)
  | [] => [v]
  | piece :: rest => (v ++ piece) :: rest

/-- The pieces between the commas that stand outside of strings and brackets. -/
def splitTop : Scan → List Char → List (List Char)
  | _, [] => [[]]
  | s, c :: cs =>
    if s = Scan.level 0 ∧ c = ',' then [] :: splitTop s cs else glue [c] (splitTop (s.next c) cs)

/-- Texts joined by commas. -/
def joinComma : List (List Char) → List Char
  | [] => []
  | [v] => v
  | v :: rest => v ++ ',' :: joinComma rest

/-- The scanner passes the text at a depth and is as before. -/
def PassedAt (depth : Nat) (v : List Char) : Prop :=
  ∀ r, splitTop (.level depth) (v ++ r) = glue v (splitTop (.level depth) r)

/-- The text of a value: the scanner passes it at every depth. -/
def Closed (v : List Char) : Prop := ∀ depth, PassedAt depth v

theorem glue_glue (v w : List Char) (l : List (List Char)) : glue v (glue w l) = glue (v ++ w) l := by
  cases l with
  | nil => rfl
  | cons piece rest => simp [glue]

theorem glue_nil {l : List (List Char)} (h : l ≠ []) : glue [] l = l := by
  cases l with
  | nil => exact absurd rfl h
  | cons piece rest => rfl

theorem splitTop_ne_nil (s : Scan) (cs : List Char) : splitTop s cs ≠ [] := by
  cases cs with
  | nil => exact List.cons_ne_nil _ _
  | cons c cs =>
    rw [splitTop]
    split
    · exact List.cons_ne_nil _ _
    · cases splitTop (s.next c) cs <;> exact List.cons_ne_nil _ _

theorem splitTop_cons {s : Scan} {c : Char} (h : ¬ (s = Scan.level 0 ∧ c = ',')) (cs : List Char) :
    splitTop s (c :: cs) = glue [c] (splitTop (s.next c) cs) := by
  rw [splitTop, if_neg h]

section Passing

variable {depth : Nat} {v w : List Char}

theorem PassedAt.nil (depth : Nat) : PassedAt depth [] := by
  intro r
  rw [glue_nil (splitTop_ne_nil _ _), List.nil_append]

theorem PassedAt.append (hv : PassedAt depth v) (hw : PassedAt depth w) : PassedAt depth (v ++ w) := by
  intro r
  rw [List.append_assoc, hv, hw, glue_glue]

/-- A character that is no token of its own, or a comma inside of brackets. -/
theorem PassedAt.char {c : Char} (hcomma : c = ',' → depth ≠ 0)
    (hnext : (Scan.level depth).next c = .level depth) : PassedAt depth [c] := by
  intro r
  have hne : ¬ (Scan.level depth = Scan.level 0 ∧ c = ',') := fun h => hcomma h.2 (congrArg Scan.depth h.1)
  rw [List.singleton_append, splitTop_cons hne, hnext]

/-- The characters that the scanner does not look at outside of strings. -/
def isPlain (c : Char) : Bool :=
  c ≠ '"' && c ≠ '\x7b' && c ≠ '[' && c ≠ '\x7d' && c ≠ ']' && c ≠ ','

theorem next_plain {c : Char} (h : isPlain c = true) (depth : Nat) :
    (Scan.level depth).next c = .level depth := by
  simp only [isPlain, Bool.and_eq_true, decide_eq_true_eq] at h
  simp [Scan.level, Scan.next, h]

theorem closed_plain (h : ∀ c ∈ v, isPlain c = true) : Closed v := by
  intro depth
  induction v with
  | nil => exact .nil depth
  | cons c v ih =>
    have hc := h c List.mem_cons_self
    refine PassedAt.append (v := [c]) (.char (fun he => ?_) (next_plain hc depth)) (ih fun d hd => h d
      (List.mem_cons_of_mem _ hd))
    rw [he] at hc
    cases hc

theorem Closed.append (hv : Closed v) (hw : Closed w) : Closed (v ++ w) :=
  fun depth => (hv depth).append (hw depth)

/-- Brackets around what the scanner passes inside of brackets. -/
theorem closed_brackets {a b : Char} (hopen : a = '\x7b' ∨ a = '[') (hclose : b = '\x7d' ∨ b = ']')
    (hv : ∀ depth, PassedAt (depth + 1) v) : Closed (a :: (v ++ [b])) := by
  intro depth r
  have ha : (Scan.level depth).next a = .level (depth + 1) := by
    rcases hopen with rfl | rfl <;> rfl
  have hb : (Scan.level (depth + 1)).next b = .level depth := by
    rcases hclose with rfl | rfl <;> rfl
  have hne : ¬ (Scan.level depth = Scan.level 0 ∧ a = ',') := by
    rintro ⟨-, rfl⟩
    rcases hopen with h | h <;> cases h
  have hne' : ¬ (Scan.level (depth + 1) = Scan.level 0 ∧ b = ',') :=
    fun h => Nat.succ_ne_zero _ (congrArg Scan.depth h.1)
  rw [List.cons_append, List.append_assoc, List.singleton_append, splitTop_cons hne, ha, hv,
    splitTop_cons hne', hb, glue_glue, glue_glue]
  rfl

theorem passedAt_joinComma {items : List (List Char)} (h : ∀ v ∈ items, Closed v) (depth : Nat) :
    PassedAt (depth + 1) (joinComma items) := by
  fun_induction joinComma items with
  | case1 => exact .nil _
  | case2 v => exact h v List.mem_cons_self _
  | case3 v rest hrest ih =>
    have hcomma : PassedAt (depth + 1) [','] := .char (fun _ => Nat.succ_ne_zero _) rfl
    have hrest := ih fun w hw => h w (List.mem_cons_of_mem _ hw)
    exact (h v List.mem_cons_self _).append (hcomma.append hrest)

/-- Closed texts between commas are found again. -/
theorem splitTop_joinComma {items : List (List Char)} (hne : items ≠ []) (h : ∀ v ∈ items, Closed v) :
    splitTop (.level 0) (joinComma items) = items := by
  fun_induction joinComma items with
  | case1 => exact absurd rfl hne
  | case2 v =>
    have hpass := h v List.mem_cons_self 0 []
    rw [List.append_nil] at hpass
    rw [hpass]
    simp [splitTop, glue]
  | case3 v rest hrest ih =>
    have hrest' : rest ≠ [] := fun he => hrest he
    rw [h v List.mem_cons_self 0, splitTop, if_pos ⟨rfl, rfl⟩,
      ih hrest' fun w hw => h w (List.mem_cons_of_mem _ hw)]
    simp [glue]

end Passing

/-! ## Strings -/

/-- The scanner passes the text inside of a string. -/
def Inside (v : List Char) : Prop :=
  ∀ depth r, splitTop ⟨depth, .quoted⟩ (v ++ r) = glue v (splitTop ⟨depth, .quoted⟩ r)

theorem not_level_of_mode {s : Scan} {c : Char} (h : s.mode ≠ .outside) : ¬ (s = Scan.level 0 ∧ c = ',') :=
  fun hs => h (congrArg Scan.mode hs.1)

theorem Inside.append {v w : List Char} (hv : Inside v) (hw : Inside w) : Inside (v ++ w) := by
  intro depth r
  rw [List.append_assoc, hv, hw, glue_glue]

theorem inside_char {c : Char} (hquote : c ≠ '"') (hslash : c ≠ '\\') : Inside [c] := by
  intro depth r
  rw [List.singleton_append, splitTop_cons (not_level_of_mode ScanMode.noConfusion)]
  simp [Scan.next, hquote, hslash]

theorem inside_escape (c : Char) : Inside ['\\', c] := by
  intro depth r
  show splitTop ⟨depth, .quoted⟩ ('\\' :: c :: r) = _
  rw [splitTop_cons (not_level_of_mode ScanMode.noConfusion),
    splitTop_cons (s := Scan.next ⟨depth, .quoted⟩ '\\') (not_level_of_mode ScanMode.noConfusion),
    glue_glue]
  rfl

theorem hexDigit_ne {n : Nat} (h : n < 16) : hexDigit n ≠ '"' ∧ hexDigit n ≠ '\\' := by
  interval_cases n <;> exact ⟨by decide, by decide⟩

theorem inside_jsonEscape (c : Char) : Inside (jsonEscape c) := by
  unfold jsonEscape
  split_ifs with h1 h2 h3 h4 h5 h6 h7 h8 h9
  · exact inside_escape c
  · exact inside_escape 'n'
  · exact inside_escape 'r'
  · exact inside_escape 't'
  · exact inside_escape 'b'
  · exact inside_escape 'f'
  · -- two digits of a character below 128
    have hsmall : c.toNat < 128 := by
      simp only [isHexEscaped, Bool.or_eq_true, decide_eq_true_eq] at h7
      rcases h7 with ((h | rfl) | rfl) | rfl
      · omega
      · decide
      · decide
      · decide
    obtain ⟨hq, hs⟩ := hexDigit_ne (n := c.toNat / 16) (by omega)
    obtain ⟨hq', hs'⟩ := hexDigit_ne (n := c.toNat % 16) (by omega)
    have hzero : Inside ['0'] := inside_char (by decide) (by decide)
    exact (inside_escape 'u').append (hzero.append (hzero.append ((inside_char hq hs).append
      (inside_char hq' hs'))))
  · exact (inside_escape 'u').append ((inside_char (c := '2') (by decide) (by decide)).append
      ((inside_char (c := '0') (by decide) (by decide)).append
        ((inside_char (c := '2') (by decide) (by decide)).append
          (inside_char (c := '8') (by decide) (by decide)))))
  · exact (inside_escape 'u').append ((inside_char (c := '2') (by decide) (by decide)).append
      ((inside_char (c := '0') (by decide) (by decide)).append
        ((inside_char (c := '2') (by decide) (by decide)).append
          (inside_char (c := '9') (by decide) (by decide)))))
  · rw [not_or] at h1
    exact inside_char h1.1 h1.2

theorem inside_flatMap (cs : List Char) : Inside (cs.flatMap jsonEscape) := by
  induction cs with
  | nil =>
    intro depth r
    rw [List.flatMap_nil, List.nil_append, glue_nil (splitTop_ne_nil _ _)]
  | cons c cs ih => exact (inside_jsonEscape c).append ih

theorem closed_jsonString (s : String) : Closed (jsonString s).toList := by
  intro depth r
  have hquote : ∀ s : Scan, ¬ (s = Scan.level 0 ∧ '"' = ',') := by
    rintro s ⟨-, h⟩
    cases h
  rw [jsonString_toList, List.cons_append, List.append_assoc, List.singleton_append,
    splitTop_cons (hquote _)]
  show glue ['"'] (splitTop ⟨depth, .quoted⟩ (s.toList.flatMap jsonEscape ++ '"' :: r)) = _
  rw [inside_flatMap, splitTop_cons (hquote _), glue_glue, glue_glue]
  rfl

/-- What follows the closing quote of a string. -/
def afterQuote : List Char → Option (List Char)
  | '"' :: rest => some rest
  | _ => none

/-- The characters of a string up to its closing quote, and what follows it. -/
def readBody : Nat → List Char → Option (List Char × List Char)
  | 0, _ => none
  | fuel + 1, cs =>
    match jsonUnescape cs with
    | some (c, rest) => (readBody fuel rest).map fun p => (c :: p.1, p.2)
    | none => (afterQuote cs).map fun rest => ([], rest)

theorem readBody_flatMap {fuel : Nat} {cs : List Char} (h : cs.length < fuel) (r : List Char) :
    readBody fuel (cs.flatMap jsonEscape ++ '"' :: r) = some (cs, r) := by
  induction cs generalizing fuel with
  | nil =>
    cases fuel with
    | zero => exact absurd h (Nat.not_lt_zero _)
    | succ fuel => rfl
  | cons c cs ih =>
    cases fuel with
    | zero => exact absurd h (Nat.not_lt_zero _)
    | succ fuel =>
      have hrest := ih (Nat.lt_of_succ_lt_succ h)
      rw [readBody, List.flatMap_cons, List.append_assoc, jsonUnescape_jsonEscape]
      show (readBody fuel _).map _ = _
      rw [hrest]
      rfl

/-- The string at the front of a text, and what follows it. -/
def readQuoted : List Char → Option (String × List Char)
  | '"' :: cs => (readBody (cs.length + 1) cs).map fun p => (String.ofList p.1, p.2)
  | _ => none

theorem length_le_flatMap (cs : List Char) : cs.length ≤ (cs.flatMap jsonEscape).length := by
  induction cs with
  | nil => exact le_refl 0
  | cons c cs ih =>
    have hpos : 1 ≤ (jsonEscape c).length := by
      unfold jsonEscape
      split_ifs <;> simp
    rw [List.flatMap_cons, List.length_append, List.length_cons]
    omega

theorem readQuoted_jsonString (s : String) (r : List Char) :
    readQuoted ((jsonString s).toList ++ r) = some (s, r) := by
  have hlen := length_le_flatMap s.toList
  rw [jsonString_toList, List.cons_append, List.append_assoc, List.singleton_append, readQuoted,
    readBody_flatMap (by rw [List.length_append]; omega), Option.map_some, String.ofList_toList]

/-! ## Values -/

/-- A string value. -/
def readString (text : String) : Option String :=
  match readQuoted text.toList with
  | some (s, []) => some s
  | _ => none

/-- A number value. -/
def readNat (text : String) : Option Nat := parseDigits text.toList

/-- The literals `true` and `false`. -/
def readBool (text : String) : Option Bool :=
  if text = "true" then some true else if text = "false" then some false else none

/-- The text of a literal. -/
def jsonBool (b : Bool) : String := if b then "true" else "false"

/-- The text of a number. -/
def jsonNat (n : Nat) : String := formatInt n

/-- A JSON array of texts. -/
def jsonArray (items : List String) : String :=
  "[" ++ String.ofList (joinComma (items.map String.toList)) ++ "]"

/-- The member at the front of a piece: a name, a colon, and the text of the value. -/
def readMember (piece : List Char) : Option (String × String) :=
  match readQuoted piece with
  | some (name, ':' :: value) => some (name, String.ofList value)
  | _ => none

/-- The text between a pair of brackets. -/
def between (a b : Char) (text : String) : Option (List Char) :=
  match text.toList with
  | [] => none
  | c :: cs => if c = a ∧ cs.getLast? = some b then some cs.dropLast else none

/-- The members of an object. -/
def readObject (text : String) : Option (List (String × String)) := do
  let body ← between '\x7b' '\x7d' text
  if body = [] then some [] else (splitTop (.level 0) body).mapM readMember

/-- The items of an array. -/
def readArray (text : String) : Option (List String) := do
  let body ← between '[' ']' text
  if body = [] then some [] else some ((splitTop (.level 0) body).map String.ofList)

theorem readString_jsonString (s : String) : readString (jsonString s) = some s := by
  have h := readQuoted_jsonString s []
  rw [List.append_nil] at h
  rw [readString, h]

theorem digits_jsonNat (n : Nat) : (jsonNat n).toList = Nat.toDigits 10 n := Nat.toList_repr

theorem readNat_jsonNat (n : Nat) : readNat (jsonNat n) = some n := by
  have hdigit : ∀ c ∈ Nat.toDigits 10 n, c.isDigit = true :=
    fun c hc => Nat.isDigit_of_mem_toDigits (by decide) (by decide) hc
  rw [readNat, digits_jsonNat, parseDigits_eq Nat.toDigits_ne_nil hdigit, Nat.ofDigitChars_ten_toDigits]

theorem readBool_jsonBool (b : Bool) : readBool (jsonBool b) = some b := by
  cases b <;> decide

theorem closed_jsonNat (n : Nat) : Closed (jsonNat n).toList := by
  refine closed_plain fun c hc => ?_
  rw [digits_jsonNat] at hc
  have hdigit := Nat.isDigit_of_mem_toDigits (by decide) (by decide) hc
  simp only [isPlain, Bool.and_eq_true, decide_eq_true_eq]
  refine ⟨⟨⟨⟨⟨?_, ?_⟩, ?_⟩, ?_⟩, ?_⟩, ?_⟩ <;> (rintro rfl; exact absurd hdigit (by decide))

theorem closed_jsonBool (b : Bool) : Closed (jsonBool b).toList := by
  cases b <;> exact closed_plain (forall_mem_of_all (by decide))

theorem between_brackets {a b : Char} {text : String} {body : List Char}
    (h : text.toList = a :: (body ++ [b])) : between a b text = some body := by
  rw [between, h]
  simp

/-- The piece of a member. -/
def memberChars (m : String × String) : List Char := (jsonString m.1).toList ++ ':' :: m.2.toList

theorem closed_memberChars {m : String × String} (h : Closed m.2.toList) : Closed (memberChars m) :=
  (closed_jsonString m.1).append (Closed.append (v := [':']) (closed_plain (forall_mem_of_all (by decide))) h)

theorem readMember_memberChars (m : String × String) : readMember (memberChars m) = some m := by
  rw [readMember, memberChars, readQuoted_jsonString]
  exact congrArg some (Prod.ext rfl String.ofList_toList)

theorem jsonMembers_toList (members : List (String × String)) :
    (jsonMembers members).toList = joinComma (members.map memberChars) := by
  fun_induction jsonMembers members with
  | case1 => rfl
  | case2 m => simp [joinComma, memberChars]
  | case3 m rest hrest ih =>
    cases rest with
    | nil => exact absurd rfl hrest
    | cons m' rest =>
      simp only [String.toList_append, ih, List.map_cons, joinComma, memberChars]
      simp

theorem jsonObject_toList (members : List (String × String)) :
    (jsonObject members).toList = '\x7b' :: (joinComma (members.map memberChars) ++ ['\x7d']) := by
  rw [jsonObject, String.toList_append, String.toList_append, jsonMembers_toList]
  rfl

section Members

variable {members : List (String × String)} (h : ∀ m ∈ members, Closed m.2.toList)
include h

theorem closed_members : ∀ v ∈ members.map memberChars, Closed v := by
  intro v hv
  obtain ⟨m, hm, rfl⟩ := List.mem_map.1 hv
  exact closed_memberChars (h m hm)

theorem closed_jsonObject : Closed (jsonObject members).toList := by
  rw [jsonObject_toList]
  exact closed_brackets (.inl rfl) (.inl rfl) (passedAt_joinComma (closed_members h))

/-- An object is taken apart as it was put together. -/
theorem readObject_jsonObject : readObject (jsonObject members) = some members := by
  have hbetween := between_brackets (jsonObject_toList members)
  rw [readObject, hbetween, Option.bind_eq_bind, Option.bind_some]
  cases hms : members with
  | nil => rfl
  | cons m rest =>
    have hne : joinComma (List.map memberChars (m :: rest)) ≠ [] := by
      cases rest <;> simp [joinComma, memberChars, jsonString_toList]
    rw [hms] at h
    have hread : (fun m => readMember (memberChars m)) = fun m => pure m := funext readMember_memberChars
    rw [if_neg hne, splitTop_joinComma (by simp) (closed_members h), List.mapM_map]
    show List.mapM (fun m => readMember (memberChars m)) (m :: rest) = _
    rw [hread, List.mapM_pure, List.map_id']
    rfl

end Members

section Items

variable {items : List String} (h : ∀ v ∈ items, Closed v.toList)
include h

theorem closed_items : ∀ v ∈ items.map String.toList, Closed v := by
  intro v hv
  obtain ⟨s, hs, rfl⟩ := List.mem_map.1 hv
  exact h s hs

theorem closed_jsonArray : Closed (jsonArray items).toList := by
  have hlist : (jsonArray items).toList = '[' :: (joinComma (items.map String.toList) ++ [']']) := by
    simp [jsonArray]
  rw [hlist]
  exact closed_brackets (.inr rfl) (.inr rfl) (passedAt_joinComma (closed_items h))

/-- An array of texts that are not empty is taken apart as it was put together. -/
theorem readArray_jsonArray (hne : ∀ v ∈ items, v ≠ "") : readArray (jsonArray items) = some items := by
  have hlist : (jsonArray items).toList = '[' :: (joinComma (items.map String.toList) ++ [']']) := by
    simp [jsonArray]
  rw [readArray, between_brackets hlist, Option.bind_eq_bind, Option.bind_some]
  cases hitems : items with
  | nil => rfl
  | cons v rest =>
    rw [hitems] at h hne
    have hv : v.toList ≠ [] := fun he => hne v List.mem_cons_self (String.toList_inj.1 he)
    have hbody : joinComma (List.map String.toList (v :: rest)) ≠ [] := by
      cases rest <;> simp [joinComma, hv]
    rw [if_neg hbody, splitTop_joinComma (by simp) (closed_items h), List.map_map]
    simp

end Items

/-! ## Texts from bytes -/

/-- The conversion of received bytes to a text. -/
def textOf (payload : Bytes) : Option String := String.fromUTF8? ⟨payload.toArray⟩

theorem textOf_bytes (s : String) : textOf (bytes s) = some s := by
  have harray : (⟨(bytes s).toArray⟩ : ByteArray) = s.toByteArray := by
    rw [bytes]
  rw [textOf, harray, String.fromUTF8?, dif_pos s.isValidUTF8]
  rfl

theorem bytes_injective : Function.Injective bytes := by
  intro s t h
  have htext : some s = some t := by rw [← textOf_bytes s, ← textOf_bytes t, h]
  exact Option.some.inj htext

/-! ## Exact lengths -/

/-- The bytes of a member with the colon and the comma or bracket behind it. -/
def memberLen (m : String × String) : Nat := len (jsonString m.1) + len m.2 + 2

theorem len_jsonObject {members : List (String × String)} (hne : members ≠ []) :
    len (jsonObject members) = (members.map memberLen).sum + 1 := by
  have hcolon : len ":" = 1 := by decide
  have hcomma : len "," = 1 := by decide
  have hmembers : len (jsonMembers members) + 1 = (members.map memberLen).sum := by
    fun_induction jsonMembers members with
    | case1 => exact absurd rfl hne
    | case2 m =>
      rw [len_append, len_append, List.map_singleton, List.sum_singleton, memberLen]
      omega
    | case3 m rest hrest ih =>
      have ih := ih fun h => hrest h
      rw [len_append, len_append, len_append, len_append, List.map_cons, List.sum_cons, memberLen]
      omega
  have hopen : len "\x7b" = 1 := by decide
  have hclose : len "\x7d" = 1 := by decide
  rw [jsonObject, len_append, len_append]
  omega

/-- The ASCII characters that are written as themselves. -/
def isBare (c : Char) : Bool :=
  decide (' ' ≤ c ∧ c ≤ '~') && c != '"' && c != '\\' && c != '<' && c != '>' && c != '&'

theorem ascii_of_isBare {c : Char} (h : isBare c = true) : c.toNat < 128 := by
  simp only [isBare, Bool.and_eq_true, decide_eq_true_eq] at h
  exact Nat.lt_of_le_of_lt h.1.1.1.1.1.2 (by decide)

theorem len_of_isBare {s : String} (h : ∀ c ∈ s.toList, isBare c = true) : len s = s.toList.length := by
  rw [← String.ofList_toList (s := s), len_ascii, String.ofList_toList]
  intro c hc
  exact ascii_of_isBare (h c hc)

/-! ## Fields of a structure -/

/-- The value under a name. A later member under the same name replaces an earlier one. -/
def lookupMember : List (String × String) → String → Option String
  | [], _ => none
  | m :: rest, name => (lookupMember rest name).or (if m.1 = name then some m.2 else none)

/-- A member that `omitempty` leaves out. -/
def omitEmpty (empty : Bool) (m : String × String) : List (String × String) := if empty then [] else [m]

theorem lookupMember_append (l l' : List (String × String)) (name : String) :
    lookupMember (l ++ l') name = (lookupMember l' name).or (lookupMember l name) := by
  induction l with
  | nil => simp [lookupMember]
  | cons m l ih => rw [List.cons_append, lookupMember, ih, lookupMember, Option.or_assoc]

theorem lookupMember_omitEmpty (empty : Bool) (m : String × String) (name : String) :
    lookupMember (omitEmpty empty m) name = if !empty ∧ m.1 = name then some m.2 else none := by
  cases empty <;> simp [omitEmpty, lookupMember]

/-- A field of a structure keeps its zero value when the object has no member for it. -/
def readField {α : Type} (read : String → Option α) (zero : α) (members : List (String × String))
    (name : String) : Option α :=
  match lookupMember members name with
  | none => some zero
  | some text => read text

section Fields

variable {α : Type} {read : String → Option α} {zero a : α} {members : List (String × String)}
  {name text : String}

theorem readField_of_some (h : lookupMember members name = some text) (hread : read text = some a) :
    readField read zero members name = some a := by
  rw [readField, h]
  exact hread

/-- A field that is left out when it is empty is read back as it was. -/
theorem readField_of_omitEmpty (empty : Bool)
    (h : lookupMember members name = if empty then none else some text) (hread : read text = some a)
    (hempty : empty = true → a = zero) : readField read zero members name = some a := by
  cases empty with
  | true =>
    rw [readField, h, hempty rfl]
    rfl
  | false => exact readField_of_some h hread

end Fields

end Vx6.Go
