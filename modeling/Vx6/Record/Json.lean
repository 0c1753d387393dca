import Vx6.Go.JsonRead
import Vx6.Go.Addr
import Vx6.Record.Issue

/-!
# Records as JSON

How `encoding/json` writes `EndpointRecord` and `ServiceRecord` under their struct tags. The text of a
record determines it (`record_texts_injective`): a reader of the compact texts that are written gives each
record back. The program itself decodes remote texts with `json.Unmarshal`, which is a parameter of the
model wherever such a text is decoded.
-/

set_option autoImplicit false

namespace Vx6.Record

open Vx6.Go Vx6.Lib

/-! ## Numbers, lists and structures -/

/-- A number of an unsigned type with the given number of values. -/
def readBelow (bound : Nat) (text : String) : Option Nat := (readNat text).filter (· < bound)

theorem readBelow_jsonNat {bound n : Nat} (h : n < bound) : readBelow bound (jsonNat n) = some n := by
  rw [readBelow, readNat_jsonNat, Option.filter_some, decide_eq_true h]
  rfl

/-- A number of a signed type, without a plus sign. -/
def readInt (text : String) : Option Int := if hasPrefix text "+" then none else parseInt text

theorem parseInt_negSucc {m : Nat} (h : m < 2 ^ 63) :
    parseInt (formatInt (Int.negSucc m)) = some (Int.negSucc m) := by
  have hchars : (formatInt (Int.negSucc m)).toList = '-' :: Nat.toDigits 10 (m + 1) := by
    have hneg : formatInt (Int.negSucc m) = "-" ++ Nat.repr (m + 1) := rfl
    rw [hneg, String.toList_append, Nat.toList_repr]
    rfl
  have hdigit : ∀ c ∈ Nat.toDigits 10 (m + 1), c.isDigit = true :=
    fun c hc => Nat.isDigit_of_mem_toDigits (by decide) (by decide) hc
  have hparse : parseDigits (Nat.toDigits 10 (m + 1)) = some (m + 1) := by
    rw [parseDigits_eq Nat.toDigits_ne_nil hdigit, Nat.ofDigitChars_ten_toDigits]
  have hrange : (decide (-2 ^ 63 ≤ Int.negSucc m) && decide (Int.negSucc m < 2 ^ 63)) = true := by
    rw [Bool.and_eq_true, decide_eq_true_eq, decide_eq_true_eq]
    omega
  rw [parseInt, hchars]
  have hsigned : ((parseDigits (Nat.toDigits 10 (m + 1))).map fun n => -(n : Int)) =
      some (Int.negSucc m) := by
    rw [hparse]
    rfl
  exact (congrArg (Option.filter _) hsigned).trans (Option.filter_some.trans (if_pos hrange))

theorem readInt_formatInt {n : Int} (h0 : -2 ^ 63 ≤ n) (h1 : n < 2 ^ 63) :
    readInt (formatInt n) = some n := by
  have hsign : hasPrefix (formatInt n) "+" = false := by
    rw [hasPrefix, Bool.eq_false_iff]
    intro hinitial
    have hmem : '+' ∈ (formatInt n).toList :=
      (List.isPrefixOf_iff_prefix.1 hinitial).subset List.mem_cons_self
    rcases mem_formatInt hmem with hminus | hdigit
    · exact absurd hminus (by decide)
    · exact absurd hdigit (by decide)
  have hparse : parseInt (formatInt n) = some n := by
    cases n with
    | ofNat m => exact parseInt_formatInt (Int.natCast_nonneg m) h1
    | negSucc m => exact parseInt_negSucc (by omega)
  rw [readInt, hsign, hparse]
  rfl

theorem closed_formatInt (n : Int) : Closed (formatInt n).toList := by
  refine closed_plain fun c hc => ?_
  simp only [isPlain, Bool.and_eq_true, decide_eq_true_eq]
  rcases mem_formatInt hc with rfl | hdigit
  · decide
  · refine ⟨⟨⟨⟨⟨?_, ?_⟩, ?_⟩, ?_⟩, ?_⟩, ?_⟩ <;> (rintro rfl; exact absurd hdigit (by decide))

/-- A step of a reader that succeeds hands its value on. -/
theorem bind_of_some {α β : Type} {x : Option α} {a : α} {f : α → Option β} {b : Option β}
    (hx : x = some a)
    (hf : f a = b) : (x >>= f) = b := by
  rw [hx]
  exact hf

/-- A slice, item by item. -/
def jsonList {α : Type} (write : α → String) (items : List α) : String := jsonArray (items.map write)

/-- A slice, item by item. -/
def readList {α : Type} (read : String → Option α) (text : String) : Option (List α) := do
  (← readArray text).mapM read

section Lists

variable {α : Type} {write : α → String} {read : String → Option α}

theorem closed_jsonList (h : ∀ a, Closed (write a).toList) (items : List α) :
    Closed (jsonList write items).toList := by
  apply closed_jsonArray
  intro v hv
  obtain ⟨a, -, rfl⟩ := List.mem_map.1 hv
  exact h a

/-- A slice is read back if its items are. -/
theorem readList_jsonList (hread : ∀ a, read (write a) = some a) (hclosed : ∀ a, Closed (write a).toList)
    (hne : ∀ a, write a ≠ "") (items : List α) : readList read (jsonList write items) = some items := by
  have hitems : readArray (jsonArray (items.map write)) = some (items.map write) := by
    apply readArray_jsonArray
    · intro v hv
      obtain ⟨a, -, rfl⟩ := List.mem_map.1 hv
      exact hclosed a
    · intro v hv
      obtain ⟨a, -, rfl⟩ := List.mem_map.1 hv
      exact hne a
  refine bind_of_some hitems ?_
  clear hitems
  induction items with
  | nil => rfl
  | cons a items ih =>
    rw [List.map_cons, List.mapM_cons, hread a, ih]
    rfl

end Lists

theorem jsonString_ne_empty (s : String) : jsonString s ≠ "" := by
  intro h
  have hlen := congrArg (fun t => t.toList.length) h
  rw [jsonString_toList] at hlen
  cases hlen

/-- A slice of strings. -/
def jsonStrings (items : List String) : String := jsonList jsonString items

/-- A slice of strings. -/
def readStrings (text : String) : Option (List String) := readList readString text

theorem closed_jsonStrings (items : List String) : Closed (jsonStrings items).toList :=
  closed_jsonList closed_jsonString items

theorem readStrings_jsonStrings (items : List String) : readStrings (jsonStrings items) = some items :=
  readList_jsonList readString_jsonString closed_jsonString jsonString_ne_empty items

/-! ## Endpoint records -/

/-- The members of an endpoint record. -/
def endpointMembers (rec : EndpointRecord) : List (String × String) :=
  omitEmpty (rec.version = 0) ("record_version", jsonNat rec.version.toNat) ++
  omitEmpty (rec.sequence = 0) ("record_sequence", jsonNat rec.sequence.toNat) ++
  [("node_id", jsonString rec.nodeID), ("node_name", jsonString rec.nodeName),
   ("address", jsonString rec.address), ("public_key", jsonString rec.publicKey),
   ("issued_at", jsonString rec.issuedAt), ("expires_at", jsonString rec.expiresAt),
   ("signature", jsonString rec.signature)]

/-- `json.Marshal` of an endpoint record. -/
def marshalEndpointRecord (rec : EndpointRecord) : String := jsonObject (endpointMembers rec)

/-- The text of a member read as a string field. -/
def stringField (members : List (String × String)) (name : String) : Option String :=
  readField readString "" members name

/-- Reads what `marshalEndpointRecord` writes. -/
def readEndpointRecord (text : String) : Option EndpointRecord := do
  let members ← readObject text
  return {
    version := UInt8.ofNat (← readField (readBelow UInt8.size) 0 members "record_version")
    sequence := UInt64.ofNat (← readField (readBelow UInt64.size) 0 members "record_sequence")
    nodeID := ← stringField members "node_id"
    nodeName := ← stringField members "node_name"
    address := ← stringField members "address"
    publicKey := ← stringField members "public_key"
    issuedAt := ← stringField members "issued_at"
    expiresAt := ← stringField members "expires_at"
    signature := ← stringField members "signature" }

theorem stringField_of_some {members : List (String × String)} {name s : String}
    (h : lookupMember members name = some (jsonString s)) : stringField members name = some s :=
  readField_of_some h (readString_jsonString s)

theorem stringField_of_omitEmpty {members : List (String × String)} {name s : String}
    (h : lookupMember members name = if decide (s = "") then none else some (jsonString s)) :
    stringField members name = some s :=
  readField_of_omitEmpty _ h (readString_jsonString s) of_decide_eq_true

theorem closed_omitEmpty (empty : Bool) (name : String) {text : String} (h : Closed text.toList) :
    ∀ m ∈ omitEmpty empty (name, text), Closed m.2.toList := by
  intro m hm
  cases empty with
  | true => cases hm
  | false => rwa [List.mem_singleton.1 hm]

theorem closed_endpointMembers (rec : EndpointRecord) : ∀ m ∈ endpointMembers rec, Closed m.2.toList := by
  simp only [endpointMembers, List.forall_mem_append, List.forall_mem_cons, closed_jsonString, true_and]
  exact ⟨⟨closed_omitEmpty _ _ (closed_jsonNat _), closed_omitEmpty _ _ (closed_jsonNat _)⟩,
    fun m hm => absurd hm List.not_mem_nil⟩

/-- A number that is left out when it is zero is read back. -/
theorem readField_number {members : List (String × String)} {name : String} {bound n : Nat}
    (hn : n < bound)
    (empty : Bool) (hempty : empty = true → n = 0)
    (h : lookupMember members name = if empty then none else some (jsonNat n)) :
    readField (readBelow bound) 0 members name = some n :=
  readField_of_omitEmpty empty h (readBelow_jsonNat hn) hempty

/-- An endpoint record is read back as it was written. -/
theorem readEndpointRecord_marshal (rec : EndpointRecord) :
    readEndpointRecord (marshalEndpointRecord rec) = some rec := by
  have hversion : readField (readBelow UInt8.size) 0 (endpointMembers rec) "record_version" =
      some rec.version.toNat := by
    refine readField_number rec.version.toNat_lt (rec.version = 0)
      (fun h => congrArg UInt8.toNat (of_decide_eq_true h)) ?_
    simp [endpointMembers, lookupMember_append, lookupMember_omitEmpty, lookupMember]
  have hsequence : readField (readBelow UInt64.size) 0 (endpointMembers rec) "record_sequence" =
      some rec.sequence.toNat := by
    refine readField_number rec.sequence.toNat_lt (rec.sequence = 0)
      (fun h => congrArg UInt64.toNat (of_decide_eq_true h)) ?_
    simp [endpointMembers, lookupMember_append, lookupMember_omitEmpty, lookupMember]
  have hstrings : stringField (endpointMembers rec) "node_id" = some rec.nodeID ∧
      stringField (endpointMembers rec) "node_name" = some rec.nodeName ∧
      stringField (endpointMembers rec) "address" = some rec.address ∧
      stringField (endpointMembers rec) "public_key" = some rec.publicKey ∧
      stringField (endpointMembers rec) "issued_at" = some rec.issuedAt ∧
      stringField (endpointMembers rec) "expires_at" = some rec.expiresAt ∧
      stringField (endpointMembers rec) "signature" = some rec.signature := by
    refine ⟨stringField_of_some ?_, stringField_of_some ?_, stringField_of_some ?_, stringField_of_some ?_,
      stringField_of_some ?_, stringField_of_some ?_, stringField_of_some ?_⟩
    all_goals simp [endpointMembers, lookupMember_append, lookupMember_omitEmpty, lookupMember]
  obtain ⟨hid, hname, haddress, hkey, hissued, hexpires, hsignature⟩ := hstrings
  rw [readEndpointRecord, marshalEndpointRecord]
  refine bind_of_some (readObject_jsonObject (closed_endpointMembers rec)) ?_
  refine bind_of_some hversion (bind_of_some hsequence (bind_of_some hid (bind_of_some hname ?_)))
  refine bind_of_some haddress (bind_of_some hkey (bind_of_some hissued ?_))
  refine bind_of_some hexpires (bind_of_some hsignature ?_)
  rw [UInt8.ofNat_toNat, UInt64.ofNat_toNat]
  rfl

/-! ## Service records -/

/-- The members of a service record. -/
def serviceMembers (rec : ServiceRecord) : List (String × String) :=
  [("node_id", jsonString rec.nodeID), ("node_name", jsonString rec.nodeName),
   ("service_name", jsonString rec.serviceName)] ++
  omitEmpty (rec.aliasName = "") ("alias", jsonString rec.aliasName) ++
  omitEmpty (rec.address = "") ("address", jsonString rec.address) ++
  [("is_hidden", jsonBool rec.isHidden)] ++
  omitEmpty (!rec.isPrivate) ("is_private", jsonBool rec.isPrivate) ++
  omitEmpty (rec.hiddenProfile = "") ("hidden_profile", jsonString rec.hiddenProfile) ++
  omitEmpty (rec.introPoints = []) ("intro_points", jsonStrings rec.introPoints) ++
  omitEmpty (rec.standbyIntroPoints = []) ("standby_intro_points", jsonStrings rec.standbyIntroPoints) ++
  [("public_key", jsonString rec.publicKey), ("issued_at", jsonString rec.issuedAt),
   ("expires_at", jsonString rec.expiresAt), ("signature", jsonString rec.signature)]

/-- `json.Marshal` of a service record. -/
def marshalServiceRecord (rec : ServiceRecord) : String := jsonObject (serviceMembers rec)

/-- Reads what `marshalServiceRecord` writes. -/
def readServiceRecord (text : String) : Option ServiceRecord := do
  let members ← readObject text
  return {
    nodeID := ← stringField members "node_id"
    nodeName := ← stringField members "node_name"
    serviceName := ← stringField members "service_name"
    aliasName := ← stringField members "alias"
    address := ← stringField members "address"
    isHidden := ← readField readBool false members "is_hidden"
    isPrivate := ← readField readBool false members "is_private"
    hiddenProfile := ← stringField members "hidden_profile"
    introPoints := ← readField readStrings [] members "intro_points"
    standbyIntroPoints := ← readField readStrings [] members "standby_intro_points"
    publicKey := ← stringField members "public_key"
    issuedAt := ← stringField members "issued_at"
    expiresAt := ← stringField members "expires_at"
    signature := ← stringField members "signature" }

theorem closed_serviceMembers (rec : ServiceRecord) : ∀ m ∈ serviceMembers rec, Closed m.2.toList := by
  simp only [serviceMembers, List.forall_mem_append, List.forall_mem_cons, closed_jsonString,
    closed_jsonBool,
    true_and]
  have hnil : ∀ m ∈ ([] : List (String × String)), Closed m.2.toList :=
    fun m hm => absurd hm List.not_mem_nil
  exact ⟨⟨⟨⟨⟨⟨⟨⟨hnil, closed_omitEmpty _ _ (closed_jsonString _)⟩,
    closed_omitEmpty _ _ (closed_jsonString _)⟩,
    hnil⟩, closed_omitEmpty _ _ (closed_jsonBool _)⟩, closed_omitEmpty _ _ (closed_jsonString _)⟩,
    closed_omitEmpty _ _ (closed_jsonStrings _)⟩, closed_omitEmpty _ _ (closed_jsonStrings _)⟩, hnil⟩

/-- The strings of a service record that are always written. -/
theorem stringField_serviceMembers (rec : ServiceRecord) :
    stringField (serviceMembers rec) "node_id" = some rec.nodeID ∧
      stringField (serviceMembers rec) "node_name" = some rec.nodeName ∧
      stringField (serviceMembers rec) "service_name" = some rec.serviceName ∧
      stringField (serviceMembers rec) "public_key" = some rec.publicKey ∧
      stringField (serviceMembers rec) "issued_at" = some rec.issuedAt ∧
      stringField (serviceMembers rec) "expires_at" = some rec.expiresAt ∧
      stringField (serviceMembers rec) "signature" = some rec.signature := by
  refine ⟨stringField_of_some ?_, stringField_of_some ?_, stringField_of_some ?_, stringField_of_some ?_,
    stringField_of_some ?_, stringField_of_some ?_, stringField_of_some ?_⟩
  all_goals simp [serviceMembers, lookupMember_append, lookupMember_omitEmpty, lookupMember]

/-- The strings and lists of a service record that are left out when they are empty. -/
theorem omitted_serviceMembers (rec : ServiceRecord) :
    stringField (serviceMembers rec) "alias" = some rec.aliasName ∧
      stringField (serviceMembers rec) "address" = some rec.address ∧
      stringField (serviceMembers rec) "hidden_profile" = some rec.hiddenProfile ∧
      readField readStrings [] (serviceMembers rec) "intro_points" = some rec.introPoints ∧
      readField readStrings [] (serviceMembers rec) "standby_intro_points" =
        some rec.standbyIntroPoints := by
  refine ⟨stringField_of_omitEmpty ?_, stringField_of_omitEmpty ?_, stringField_of_omitEmpty ?_,
    readField_of_omitEmpty _ ?_ (readStrings_jsonStrings _) of_decide_eq_true,
    readField_of_omitEmpty _ ?_ (readStrings_jsonStrings _) of_decide_eq_true⟩
  all_goals simp [serviceMembers, lookupMember_append, lookupMember_omitEmpty, lookupMember]

/-- The flags of a service record. -/
theorem flags_serviceMembers (rec : ServiceRecord) :
    readField readBool false (serviceMembers rec) "is_hidden" = some rec.isHidden ∧
      readField readBool false (serviceMembers rec) "is_private" = some rec.isPrivate := by
  refine ⟨readField_of_some ?_ (readBool_jsonBool _),
    readField_of_omitEmpty (!rec.isPrivate) ?_ (readBool_jsonBool _) ?_⟩
  · simp [serviceMembers, lookupMember_append, lookupMember_omitEmpty, lookupMember]
  · have h : lookupMember (serviceMembers rec) "is_private" =
        if rec.isPrivate then some (jsonBool rec.isPrivate) else none := by
      simp [serviceMembers, lookupMember_append, lookupMember_omitEmpty, lookupMember]
    rw [h]
    cases rec.isPrivate <;> rfl
  · exact fun h => by simpa using h

/-- A service record is read back as it was written. -/
theorem readServiceRecord_marshal (rec : ServiceRecord) :
    readServiceRecord (marshalServiceRecord rec) = some rec := by
  obtain ⟨hid, hname, hservice, hkey, hissued, hexpires, hsignature⟩ := stringField_serviceMembers rec
  obtain ⟨halias, haddress, hprofile, hintro, hstandby⟩ := omitted_serviceMembers rec
  obtain ⟨hhidden, hprivate⟩ := flags_serviceMembers rec
  rw [readServiceRecord, marshalServiceRecord]
  refine bind_of_some (readObject_jsonObject (closed_serviceMembers rec)) ?_
  refine bind_of_some hid (bind_of_some hname (bind_of_some hservice (bind_of_some halias ?_)))
  refine bind_of_some haddress (bind_of_some hhidden (bind_of_some hprivate (bind_of_some hprofile ?_)))
  refine bind_of_some hintro (bind_of_some hstandby (bind_of_some hkey (bind_of_some hissued ?_)))
  exact bind_of_some hexpires (bind_of_some hsignature rfl)

/-- The texts of two different endpoint records, and those of two different service records, are
different. -/
theorem record_texts_injective :
    Function.Injective marshalEndpointRecord ∧ Function.Injective marshalServiceRecord := by
  constructor
  · intro a b h
    rw [← Option.some_inj, ← readEndpointRecord_marshal, h, readEndpointRecord_marshal]
  · intro a b h
    rw [← Option.some_inj, ← readServiceRecord_marshal, h, readServiceRecord_marshal]

/-! ## The size of an issued endpoint record -/

/-- Every character of a text is written as itself. -/
def Bare (s : String) : Prop := ∀ c ∈ s.toList, isBare c = true

/-- A predicate on ASCII characters is checked character by character. -/
theorem isBare_of_ascii {p : Char → Bool} (hall : ∀ n < 128,
    p (Char.ofNat n) = true → isBare (Char.ofNat n) = true)
    {c : Char} (hascii : c.toNat < 128) (h : p c = true) : isBare c = true := by
  have hc : c = Char.ofNat c.toNat := (Char.ofNat_toNat c).symm
  rw [hc] at h ⊢
  exact hall c.toNat hascii h

theorem isBare_of_isDigit {c : Char} (h : c.isDigit = true) : isBare c = true := by
  refine isBare_of_ascii (p := Char.isDigit) (by decide) ?_ h
  simp only [Char.isDigit, Bool.and_eq_true, decide_eq_true_eq] at h
  exact Nat.lt_of_le_of_lt h.2 (by decide)

theorem bare_formatInt (n : Int) : Bare (formatInt n) := by
  intro c hc
  rcases mem_formatInt hc with rfl | hdigit
  · decide
  · exact isBare_of_isDigit hdigit

/-- A number of 64 bits without a sign has at most 20 digits. -/
theorem len_jsonNat_le (n : UInt64) : len (jsonNat n.toNat) ≤ 20 := by
  have hdigits := Nat.repr_length n.toNat 20 (by decide) (Nat.lt_trans n.toNat_lt (by decide))
  rw [jsonNat, len_of_isBare (bare_formatInt _), String.length_toList]
  exact hdigits

end Vx6.Record
