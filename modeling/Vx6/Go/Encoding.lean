import Vx6.Go.Text
import Mathlib.Data.List.DropRight

/-!
# Encoded texts

What the encodings of `Text.lean` write: the length of a text in bytes, the characters of a hexadecimal, a
decimal and a base64 text, and that decoding such a text gives back what was encoded.
-/

set_option autoImplicit false

namespace Vx6.Go

/-- A property of all characters of a fixed text is checked by going through it. `decide` on the
statement itself may go through all characters there are. -/
theorem forall_mem_of_all {p : Char → Prop} [DecidablePred p] {cs : List Char}
    (h : (cs.all fun c => decide (p c)) = true) : ∀ c ∈ cs, p c := by
  intro c hc
  exact of_decide_eq_true (List.all_eq_true.1 h c hc)

/-! ## Lengths -/

theorem len_append (s t : String) : len (s ++ t) = len s + len t := by
  simp [len, bytes]

theorem len_ofList (cs : List Char) : len (String.ofList cs) = cs.utf8Encode.size := by
  have hbytes : cs.utf8Encode = (String.ofList cs).toByteArray := by
    rw [← String.utf8Encode_toList, String.toList_ofList]
  rw [hbytes]
  simp [len, bytes]

/-- A text of ASCII characters has as many bytes as characters. -/
theorem len_ascii {cs : List Char} (h : ∀ c ∈ cs, c.toNat < 128) : len (String.ofList cs) = cs.length := by
  have key : cs.utf8Encode.size = cs.length := by
    induction cs with
    | nil => rfl
    | cons c cs ih =>
      have hc : c.utf8Size = 1 := by
        have := h c List.mem_cons_self
        simp only [Char.utf8Size, UInt32.le_iff_toNat_le]
        rw [if_pos]
        exact Nat.le_of_lt_succ this
      rw [List.utf8Encode_cons, ByteArray.size_append, List.utf8Encode_singleton, List.size_toByteArray,
        String.length_utf8EncodeChar, hc, ih fun c hc => h c (List.mem_cons_of_mem _ hc), List.length_cons,
        Nat.add_comm]
  rw [len_ofList, key]

/-- A text is cut at the first separator. -/
theorem cut_append {a : String} {sep : Char} (h : sep ∉ a.toList) (b : String) :
    cut (a ++ String.singleton sep ++ b) sep = some (a, b) := by
  have hchars : (a ++ String.singleton sep ++ b).toList = a.toList ++ sep :: b.toList := by simp
  have hbefore : ∀ c ∈ a.toList, decide (c ≠ sep) = true := by
    intro c hc
    exact decide_eq_true (fun heq => h (heq ▸ hc))
  rw [cut, hchars, List.takeWhile_append_of_pos hbefore, List.dropWhile_append_of_pos hbefore]
  simp

/-! ## Hexadecimal -/

theorem hexValue_hexDigit {n : Nat} (h : n < 16) : hexValue (hexDigit n) = some n := by
  interval_cases n <;> decide

theorem toLowerChar_hexDigit {n : Nat} (h : n < 16) : toLowerChar (hexDigit n) = hexDigit n := by
  interval_cases n <;> decide

theorem hexDigit_ascii {n : Nat} (h : n < 16) : (hexDigit n).toNat < 128 := by
  interval_cases n <;> decide

/-- The characters of a hexadecimal text. -/
def hexChars (bs : Bytes) : List Char :=
  bs.flatMap fun b => [hexDigit (b.toNat / 16), hexDigit (b.toNat % 16)]

theorem hexEncode_eq (bs : Bytes) : hexEncode bs = String.ofList (hexChars bs) := rfl

theorem mem_hexChars {bs : Bytes} {c : Char} (hc : c ∈ hexChars bs) : ∃ n < 16, c = hexDigit n := by
  obtain ⟨b, -, hc⟩ := List.mem_flatMap.1 hc
  have hb := b.toNat_lt
  rcases List.mem_cons.1 hc with rfl | hc
  · exact ⟨_, by omega, rfl⟩
  · exact ⟨_, by omega, List.mem_singleton.1 hc⟩

theorem length_hexChars (bs : Bytes) : (hexChars bs).length = 2 * bs.length := by
  simp [hexChars, List.length_flatMap, Nat.mul_comm]

theorem len_hexEncode (bs : Bytes) : len (hexEncode bs) = 2 * bs.length := by
  rw [hexEncode_eq, len_ascii, length_hexChars]
  intro c hc
  obtain ⟨n, hn, rfl⟩ := mem_hexChars hc
  exact hexDigit_ascii hn

theorem toLower_hexEncode (bs : Bytes) : toLower (hexEncode bs) = hexEncode bs := by
  rw [toLower, hexEncode_eq, String.toList_ofList]
  congr 1
  refine List.map_congr_left (fun c hc => ?_) |>.trans (List.map_id _)
  obtain ⟨n, hn, rfl⟩ := mem_hexChars hc
  exact toLowerChar_hexDigit hn

theorem hexDecode_hexEncode (bs : Bytes) : hexDecode (hexEncode bs) = some bs := by
  rw [hexDecode, hexEncode_eq, String.toList_ofList]
  induction bs with
  | nil => rfl
  | cons b bs ih =>
    have hb := b.toNat_lt
    have hbyte : UInt8.ofNat (16 * (b.toNat / 16) + b.toNat % 16) = b := by
      rw [Nat.div_add_mod, UInt8.ofNat_toNat]
    rw [hexChars, List.flatMap_cons] at *
    simp only [List.cons_append, List.nil_append, hexDecodeChars]
    rw [hexValue_hexDigit (by omega), hexValue_hexDigit (by omega), ih]
    change some (UInt8.ofNat (16 * (b.toNat / 16) + b.toNat % 16) :: bs) = some (b :: bs)
    rw [hbyte]

/-- A text that decodes has hexadecimal digits only. -/
theorem hexValue_of_hexDecode {cs : List Char} {bs : Bytes} (h : hexDecodeChars cs = some bs) :
    ∀ c ∈ cs, (hexValue c).isSome = true := by
  induction cs using hexDecodeChars.induct generalizing bs with
  | case1 => exact fun c hc => absurd hc List.not_mem_nil
  | case2 c => cases h
  | case3 a b cs ih =>
    simp only [hexDecodeChars, Option.bind_eq_bind, Option.bind_eq_some_iff, pure, Option.some.injEq] at h
    obtain ⟨hi, ha, lo, hb, rest, hrest, -⟩ := h
    intro c hc
    rcases List.mem_cons.1 hc with rfl | hc
    · rw [ha]
      rfl
    · rcases List.mem_cons.1 hc with rfl | hc
      · rw [hb]
        rfl
      · exact ih hrest c hc

/-! ## Decimal -/

/-- A decimal text has digits and perhaps a sign. -/
theorem mem_formatInt {n : Int} {c : Char} (hc : c ∈ (formatInt n).toList) :
    c = '-' ∨ c.isDigit = true := by
  cases n with
  | ofNat m =>
    have hdigits : (formatInt (Int.ofNat m)).toList = Nat.toDigits 10 m := Nat.toList_repr
    rw [hdigits] at hc
    exact .inr (Nat.isDigit_of_mem_toDigits (by decide) (by decide) hc)
  | negSucc m =>
    have hdigits : (formatInt (Int.negSucc m)).toList = '-' :: Nat.toDigits 10 (m + 1) := by
      have : formatInt (Int.negSucc m) = "-" ++ Nat.repr (m + 1) := rfl
      rw [this, String.toList_append, Nat.toList_repr]
      rfl
    rw [hdigits] at hc
    rcases List.mem_cons.1 hc with rfl | hc
    · exact .inl rfl
    · exact .inr (Nat.isDigit_of_mem_toDigits (by decide) (by decide) hc)

theorem printable_formatInt {n : Int} {c : Char} (hc : c ∈ (formatInt n).toList) : '!' ≤ c ∧ c ≤ '~' := by
  rcases mem_formatInt hc with rfl | hdigit
  · decide
  · simp only [Char.isDigit, Bool.and_eq_true, decide_eq_true_eq] at hdigit
    exact ⟨UInt32.le_trans (by decide) hdigit.1, UInt32.le_trans hdigit.2 (by decide)⟩

theorem digitValue_of_isDigit {c : Char} (h : c.isDigit = true) :
    digitValue c = some (c.toNat - '0'.toNat) := by
  simp only [Char.isDigit, Bool.and_eq_true, decide_eq_true_eq] at h
  exact if_pos h

theorem parseDigits_eq {cs : List Char} (hne : cs ≠ []) (h : ∀ c ∈ cs, c.isDigit = true) :
    parseDigits cs = some (Nat.ofDigitChars 10 cs 0) := by
  have key : ∀ (cs : List Char) (n : Nat), (∀ c ∈ cs, c.isDigit = true) →
      cs.foldl (fun acc d => do some (10 * (← acc) + (← digitValue d))) (some n) =
        some (Nat.ofDigitChars 10 cs n) := by
    intro cs
    induction cs with
    | nil => intro n _; rfl
    | cons c cs ih =>
      intro n hcs
      have hc : digitValue c = some (c.toNat - '0'.toNat) :=
        digitValue_of_isDigit (hcs c List.mem_cons_self)
      have hstep : (do some (10 * (← some n) + (← digitValue c))) =
          some (10 * n + (c.toNat - '0'.toNat)) := by
        rw [hc]
        rfl
      rw [List.foldl_cons, hstep, ih _ fun d hd => hcs d (List.mem_cons_of_mem _ hd),
        Nat.ofDigitChars_cons]
  cases cs with
  | nil => exact absurd rfl hne
  | cons c cs => exact key (c :: cs) 0 h

/-- `ParseInt` gives back what `FormatInt` wrote, for numbers that are not negative. -/
theorem parseInt_formatInt {n : Int} (h0 : 0 ≤ n) (h1 : n < 2 ^ 63) : parseInt (formatInt n) = some n := by
  obtain ⟨m, rfl⟩ := Int.eq_ofNat_of_zero_le h0
  have hchars : (formatInt (m : Int)).toList = Nat.toDigits 10 m := Nat.toList_repr
  have hdigit : ∀ c ∈ Nat.toDigits 10 m, c.isDigit = true :=
    fun c hc => Nat.isDigit_of_mem_toDigits (by decide) (by decide) hc
  have hparse : parseDigits (Nat.toDigits 10 m) = some m := by
    rw [parseDigits_eq Nat.toDigits_ne_nil hdigit, Nat.ofDigitChars_ten_toDigits]
  have hrange : (decide (-2 ^ 63 ≤ (m : Int)) && decide ((m : Int) < 2 ^ 63)) = true := by
    rw [Bool.and_eq_true, decide_eq_true_eq, decide_eq_true_eq]
    omega
  rw [parseInt, hchars]
  -- the first character is a digit and therefore no sign
  cases hds : Nat.toDigits 10 m with
  | nil => exact absurd hds Nat.toDigits_ne_nil
  | cons c cs =>
    rw [hds] at hparse hdigit
    have hc := hdigit c List.mem_cons_self
    split
    · rename_i heq
      cases heq
      exact absurd hc (by decide)
    · rename_i heq
      cases heq
      exact absurd hc (by decide)
    · rw [hparse]
      have hcast : (Option.map (fun n : Int => n) do let a ← some m; pure (a : Int)) =
        some (m : Int) := rfl
      rw [hcast, Option.filter_some, hrange]
      rfl

/-- A number of 64 bits has at most 20 characters. -/
theorem len_formatInt_le (n : Int64) : len (formatInt n.toInt) ≤ 20 := by
  have hascii : len (formatInt n.toInt) = (formatInt n.toInt).length := by
    rw [← String.ofList_toList (s := formatInt n.toInt), len_ascii, String.length_ofList]
    intro c hc
    exact Nat.lt_of_le_of_lt (printable_formatInt hc).2 (by decide)
  rw [hascii]
  have hmin : -9223372036854775808 ≤ n.toInt := n.minValue_le_toInt
  have hmax : n.toInt ≤ 9223372036854775807 := n.toInt_le
  generalize n.toInt = m at hmin hmax ⊢
  cases m with
  | ofNat m =>
    have hrepr : formatInt (Int.ofNat m) = Nat.repr m := rfl
    rw [hrepr]
    exact Nat.repr_length m 20 (by decide) (by rw [Int.ofNat_eq_natCast] at hmax; omega)
  | negSucc m =>
    have hrepr : formatInt (Int.negSucc m) = "-" ++ Nat.repr (m + 1) := rfl
    rw [hrepr, String.length_append]
    have hdigits := Nat.repr_length (m + 1) 19 (by decide) (by omega)
    have hsign : "-".length = 1 := rfl
    omega

/-! ## Base64 -/

namespace Base64

/-- The characters of an alphabet stand for their values, and none of them is a padding or a line break. -/
structure Proper (enc : Base64) : Prop where
  value_char : ∀ n < 64, enc.value (enc.char n) = some n
  plain : ∀ n < 64, enc.char n ≠ '=' ∧ enc.char n ≠ '\n' ∧ enc.char n ≠ '\r'
  printable : ∀ n < 64, '!' ≤ enc.char n ∧ enc.char n ≤ '~'

theorem proper_std : stdEncoding.Proper where
  value_char n hn := by interval_cases n <;> decide
  plain n hn := by interval_cases n <;> decide
  printable n hn := by interval_cases n <;> decide

theorem proper_rawURL : rawURLEncoding.Proper where
  value_char n hn := by interval_cases n <;> decide
  plain n hn := by interval_cases n <;> decide
  printable n hn := by interval_cases n <;> decide

variable {enc : Base64}

theorem mem_encodeChars {bs : Bytes} {c : Char} (hc : c ∈ enc.encodeChars bs) :
    (∃ n < 64, c = enc.char n) ∨ c = '=' := by
  induction bs using encodeChars.induct with
  | case1 => cases hc
  | case2 a =>
    have ha := a.toNat_lt
    simp only [encodeChars, List.mem_append, List.mem_cons, List.not_mem_nil, or_false] at hc
    rcases hc with (rfl | rfl) | hpad
    · exact .inl ⟨_, by omega, rfl⟩
    · exact .inl ⟨_, by omega, rfl⟩
    · split_ifs at hpad
      · exact .inr (by simpa using hpad)
      · cases hpad
  | case3 a b =>
    have ha := a.toNat_lt
    have hb := b.toNat_lt
    simp only [encodeChars, List.mem_append, List.mem_cons, List.not_mem_nil, or_false] at hc
    rcases hc with (rfl | rfl | rfl) | hpad
    · exact .inl ⟨_, by omega, rfl⟩
    · exact .inl ⟨_, by omega, rfl⟩
    · exact .inl ⟨_, by omega, rfl⟩
    · split_ifs at hpad
      · exact .inr (by simpa using hpad)
      · cases hpad
  | case4 a b c rest ih =>
    have ha := a.toNat_lt
    have hb := b.toNat_lt
    have hc' := c.toNat_lt
    simp only [encodeChars, List.mem_cons] at hc
    rcases hc with rfl | rfl | rfl | rfl | hc
    · exact .inl ⟨_, by omega, rfl⟩
    · exact .inl ⟨_, by omega, rfl⟩
    · exact .inl ⟨_, by omega, rfl⟩
    · exact .inl ⟨_, by omega, rfl⟩
    · exact ih hc

/-- Encoded bytes are printable. -/
theorem printable_encodeToString (h : enc.Proper) {bs : Bytes} {c : Char}
    (hc : c ∈ (enc.encodeToString bs).toList) : '!' ≤ c ∧ c ≤ '~' := by
  rw [encodeToString, String.toList_ofList] at hc
  rcases mem_encodeChars hc with ⟨n, hn, rfl⟩ | rfl
  · exact h.printable n hn
  · decide

theorem length_encodeChars_le (bs : Bytes) : 3 * (enc.encodeChars bs).length ≤ 4 * (bs.length + 2) := by
  induction bs using encodeChars.induct with
  | case1 => simp [encodeChars]
  | case2 a => cases hpad : enc.padded <;> simp [encodeChars, hpad]
  | case3 a b => cases hpad : enc.padded <;> simp [encodeChars, hpad]
  | case4 a b c rest ih =>
    simp only [encodeChars, List.length_cons]
    omega

/-- Four characters stand for three bytes. -/
theorem len_encodeToString_le (h : enc.Proper) (bs : Bytes) :
    3 * len (enc.encodeToString bs) ≤ 4 * (bs.length + 2) := by
  rw [encodeToString, len_ascii]
  · exact length_encodeChars_le bs
  · intro c hc
    have hprintable := printable_encodeToString h (c := c) (by rwa [encodeToString, String.toList_ofList])
    exact Nat.lt_of_le_of_lt hprintable.2 (by decide)

theorem ofNat_eq_byte {n : Nat} {a : UInt8} (h : n % 256 = a.toNat) : UInt8.ofNat n = a := by
  rw [← UInt8.toNat_inj, UInt8.toNat_ofNat']
  exact h

/-- Decoding gives back what was encoded. -/
theorem decodeChars_encodeChars (h : enc.Proper) (bs : Bytes) :
    enc.decodeChars (enc.encodeChars bs) = some bs := by
  induction bs using encodeChars.induct with
  | case1 => rfl
  | case2 a =>
    have ha := a.toNat_lt
    have hbyte : UInt8.ofNat ((64 * (16 * a.toNat / 64) + 16 * a.toNat % 64) / 16) = a :=
      ofNat_eq_byte (by omega)
    rw [encodeChars]
    cases hpad : enc.padded with
    | true =>
      simp only [if_true, List.cons_append, List.nil_append, decodeChars, hpad]
      rw [h.value_char _ (by omega), h.value_char _ (by omega)]
      simpa using hbyte
    | false =>
      simp only [Bool.false_eq_true, if_false, List.append_nil, decodeChars, hpad]
      rw [h.value_char _ (by omega), h.value_char _ (by omega)]
      simpa using hbyte
  | case3 a b =>
    have ha := a.toNat_lt
    have hb := b.toNat_lt
    set n := 4 * (256 * a.toNat + b.toNat) with hn
    have hmid : 64 * (64 * (n / 4096) + n / 64 % 64) + n % 64 = n := by omega
    have hbytes : [UInt8.ofNat (n / 1024), UInt8.ofNat (n / 4)] = [a, b] := by
      rw [ofNat_eq_byte (a := a) (by omega), ofNat_eq_byte (a := b) (by omega)]
    rw [encodeChars]
    cases hpad : enc.padded with
    | true =>
      simp only [if_true, List.cons_append, List.nil_append, decodeChars, hpad, ← hn]
      rw [h.value_char _ (by omega), h.value_char _ (by omega), h.value_char _ (by omega)]
      simp only [(h.plain (n % 64) (by omega)).1, false_and, and_false, if_false, and_self, if_true,
        Option.bind_eq_bind, Option.bind_some, hmid, hbytes]
      rfl
    | false =>
      simp only [Bool.false_eq_true, if_false, List.append_nil, decodeChars, hpad, ← hn]
      rw [h.value_char _ (by omega), h.value_char _ (by omega), h.value_char _ (by omega)]
      have hsum : 4096 * (n / 4096) + 64 * (n / 64 % 64) + n % 64 = n := by omega
      simp only [Option.bind_eq_bind, Option.bind_some, hsum, hbytes]
      rfl
  | case4 a b c rest ih =>
    have ha := a.toNat_lt
    have hb := b.toNat_lt
    have hc := c.toNat_lt
    set n := 65536 * a.toNat + 256 * b.toNat + c.toNat with hn
    have hsum : 64 * (64 * (64 * (n / 262144) + n / 4096 % 64) + n / 64 % 64) + n % 64 = n := by omega
    have h1 : UInt8.ofNat (n / 65536) = a := ofNat_eq_byte (by omega)
    have h2 : UInt8.ofNat (n / 256) = b := ofNat_eq_byte (by omega)
    have h3 : UInt8.ofNat n = c := ofNat_eq_byte (by omega)
    rw [encodeChars]
    simp only [decodeChars, ← hn]
    rw [h.value_char _ (by omega), h.value_char _ (by omega), h.value_char _ (by omega),
      h.value_char _ (by omega), ih]
    simp only [(h.plain (n / 64 % 64) (by omega)).1, (h.plain (n % 64) (by omega)).1, false_and, and_false,
      if_false, Option.bind_eq_bind, Option.bind_some, hsum, h1, h2, h3]
    rfl

/-- `DecodeString` gives back what `EncodeToString` wrote. -/
theorem decodeString_encodeToString (h : enc.Proper) (bs : Bytes) :
    enc.decodeString (enc.encodeToString bs) = some bs := by
  rw [decodeString, encodeToString, String.toList_ofList, List.filter_eq_self.2, decodeChars_encodeChars h]
  intro c hc
  rcases mem_encodeChars hc with ⟨n, hn, rfl⟩ | rfl
  · simp [(h.plain n hn).2]
  · decide

end Base64

end Vx6.Go
