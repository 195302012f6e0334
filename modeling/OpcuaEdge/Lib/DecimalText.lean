import OpcuaEdge.Lib.CNumber

/-!
# Texts that denote integers

`Denotes` is the grammar of a decimal integer in a text of its own: white space, an optional sign
and digits. `strtoul` reads such a text to its end; what it returns is the number modulo `2 ^ 64`
(`strtoul_value_iff`), so a text that denotes a negative integer is read as a large number.
-/

namespace CStr

/-- White space, an optional sign and at least one digit. -/
def Denotes (text : Bytes) (z : Int) : Prop :=
  ∃ white sign digits : Bytes, text = white ++ (sign ++ digits) ∧
    (∀ c ∈ white, isSpace c = true) ∧ digits ≠ [] ∧ (∀ c ∈ digits, isDigit c = true) ∧
    (sign = lit "-" ∧ z = -(numeral 10 digits : Int) ∨
      (sign = [] ∨ sign = lit "+") ∧ z = numeral 10 digits)

theorem isDigit_ne {c : UInt8} (h : isDigit c = true) : isSpace c = false ∧ c ≠ 45 ∧ c ≠ 43 := by
  have hbounds : 48 ≤ c.toNat ∧ c.toNat ≤ 57 := by
    simpa [isDigit, UInt8.le_iff_toNat_le] using h
  refine ⟨?_, ?_, ?_⟩
  · have hspace : ¬ (c = 32 ∨ 9 ≤ c ∧ c ≤ 13) := by
      rw [UInt8.le_iff_toNat_le, UInt8.le_iff_toNat_le, ← UInt8.toNat_inj]
      have h32 : (32 : UInt8).toNat = 32 := rfl
      have h13 : (13 : UInt8).toNat = 13 := rfl
      omega
    simpa [isSpace] using hspace
  · rintro rfl
    exact absurd hbounds.1 (by decide)
  · rintro rfl
    exact absurd hbounds.1 (by decide)

/-- At most one sign is taken, and only a minus is remembered. -/
theorem takeSign_spec (text : Bytes) :
    ∃ sign, text = sign ++ (takeSign text).2 ∧
      (sign = lit "-" ∧ (takeSign text).1 = true ∨
        (sign = [] ∨ sign = lit "+") ∧ (takeSign text).1 = false) := by
  cases text with
  | nil => exact ⟨[], rfl, .inr ⟨.inl rfl, rfl⟩⟩
  | cons c rest =>
    rw [takeSign]
    split_ifs with hminus hplus
    · exact ⟨lit "-", congrArg (· :: rest) hminus, .inl ⟨rfl, rfl⟩⟩
    · exact ⟨lit "+", congrArg (· :: rest) hplus, .inr ⟨.inr rfl, rfl⟩⟩
    · exact ⟨[], rfl, .inr ⟨.inl rfl, rfl⟩⟩

/-- The sign and the digits of a text, as `strtoul` finds them. -/
theorem takeSign_of_denotes {text white sign digits : Bytes}
    (htext : text = white ++ (sign ++ digits)) (hwhite : ∀ c ∈ white, isSpace c = true)
    (hne : digits ≠ []) (hdigits : ∀ c ∈ digits, isDigit c = true)
    (hsign : sign = lit "-" ∨ sign = [] ∨ sign = lit "+") :
    takeSign (text.dropWhile isSpace) = (decide (sign = lit "-"), digits) := by
  obtain ⟨c, rest, rfl⟩ := List.exists_cons_of_ne_nil hne
  obtain ⟨hspace, hminus, hplus⟩ := isDigit_ne (hdigits c List.mem_cons_self)
  rw [htext, List.dropWhile_append_of_pos hwhite]
  rcases hsign with rfl | rfl | rfl
  · rfl
  · rw [List.nil_append, List.dropWhile_cons, hspace, if_neg (by decide), takeSign, if_neg hminus,
      if_neg hplus]
    rfl
  · rfl

/-- A text denotes a number exactly if, after blanks and at most one sign, it is a numeral and
nothing else. -/
theorem denotes_iff {text : Bytes} {z : Int} :
    Denotes text z ↔ (takeSign (text.dropWhile isSpace)).2 ≠ [] ∧
      (∀ c ∈ (takeSign (text.dropWhile isSpace)).2, isDigit c = true) ∧
      z = if (takeSign (text.dropWhile isSpace)).1 = true
        then -(numeral 10 (takeSign (text.dropWhile isSpace)).2 : Int)
        else numeral 10 (takeSign (text.dropWhile isSpace)).2 := by
  constructor
  · rintro ⟨white, sign, digits, htext, hwhite, hne, hdigits, hvalue⟩
    have hsign : sign = lit "-" ∨ sign = [] ∨ sign = lit "+" := hvalue.imp And.left And.left
    rw [takeSign_of_denotes htext hwhite hne hdigits hsign]
    refine ⟨hne, hdigits, ?_⟩
    rcases hvalue with ⟨rfl, hz⟩ | ⟨rfl | rfl, hz⟩ <;> exact hz
  · rintro ⟨hne, hdigits, hz⟩
    -- the white space, the sign and the digits are what the conversion takes off in turn
    have hsplit : text.takeWhile isSpace ++ text.dropWhile isSpace = text :=
      List.takeWhile_append_dropWhile
    obtain ⟨sign, hrest, hsign⟩ := takeSign_spec (text.dropWhile isSpace)
    have hwhite : ∀ c ∈ text.takeWhile isSpace, isSpace c = true :=
      fun c hc => List.mem_takeWhile_imp hc
    refine ⟨_, sign, _, hrest ▸ hsplit.symm, hwhite, hne, hdigits, ?_⟩
    rcases hsign with ⟨rfl, hneg⟩ | ⟨hplus, hneg⟩
    · rw [hneg, if_pos rfl] at hz
      exact .inl ⟨rfl, hz⟩
    · rw [hneg, if_neg Bool.false_ne_true] at hz
      exact .inr ⟨hplus, hz⟩

/-- A text denotes at most one integer. -/
theorem Denotes.unique {text : Bytes} {z z' : Int} (h : Denotes text z) (h' : Denotes text z') :
    z = z' :=
  (denotes_iff.mp h).2.2.trans (denotes_iff.mp h').2.2.symm

/-- `strtoul` takes the whole text and reports no overflow. -/
structure ReadsWhole (text : Bytes) (v : Nat) : Prop where
  converted : (strtoul text).converted = true
  rest : (strtoul text).rest = []
  inRange : (strtoul text).erange = false
  value : (strtoul text).value = v

/-- What strtoul reads of such a text: the numeral must not overflow, and a minus is applied modulo
2^64. -/
theorem readsWhole_iff {text : Bytes} {v : Nat} :
    ReadsWhole text v ↔ (takeSign (text.dropWhile isSpace)).2 ≠ [] ∧
      (∀ c ∈ (takeSign (text.dropWhile isSpace)).2, isDigit c = true) ∧
      numeral 10 (takeSign (text.dropWhile isSpace)).2 ≤ ulongMax ∧
      (if (takeSign (text.dropWhile isSpace)).1 = true
        then (2 ^ 64 - numeral 10 (takeSign (text.dropWhile isSpace)).2) % 2 ^ 64
        else numeral 10 (takeSign (text.dropWhile isSpace)).2) = v := by
  generalize hsigned : takeSign (text.dropWhile isSpace) = signed
  have hunfold : strtoul text =
      if signed.2.takeWhile isDigit = [] then
        { value := 0, rest := text, converted := false, erange := false }
      else if ulongMax < numeral 10 (signed.2.takeWhile isDigit) then
        { value := ulongMax, rest := signed.2.dropWhile isDigit, converted := true, erange := true }
      else
        { value := if signed.1 then (2 ^ 64 - numeral 10 (signed.2.takeWhile isDigit)) % 2 ^ 64
            else numeral 10 (signed.2.takeWhile isDigit)
          rest := signed.2.dropWhile isDigit, converted := true, erange := false } := by
    rw [← hsigned]
    rfl
  constructor
  · rintro ⟨hconverted, hrest, hrange, hvalue⟩
    rw [hunfold] at hconverted hrest hrange hvalue
    -- a conversion without digits and one out of range say so
    by_cases hnone : signed.2.takeWhile isDigit = []
    · rw [if_pos hnone] at hconverted
      cases hconverted
    by_cases hlarge : ulongMax < numeral 10 (signed.2.takeWhile isDigit)
    · rw [if_neg hnone, if_pos hlarge] at hrange
      cases hrange
    rw [if_neg hnone, if_neg hlarge] at hrest hvalue
    have hdigits := List.dropWhile_eq_nil_iff.mp hrest
    have htake : signed.2.takeWhile isDigit = signed.2 := List.takeWhile_eq_self_iff.mpr hdigits
    rw [htake] at hnone hlarge hvalue
    exact ⟨hnone, hdigits, not_lt.mp hlarge, hvalue⟩
  · rintro ⟨hne, hdigits, hle, hvalue⟩
    rw [List.takeWhile_eq_self_iff.mpr hdigits, List.dropWhile_eq_nil_iff.mpr hdigits, if_neg hne,
      if_neg (not_lt.mpr hle)] at hunfold
    constructor <;> rw [hunfold]
    exact hvalue

/-- **What `strtoul` reads** is the number that the text denotes, or that number plus `2 ^ 64` where
the text denotes a negative one. -/
theorem strtoul_value_iff {text : Bytes} {v : Nat} (hv : v < 2 ^ 64) :
    ReadsWhole text v ↔ Denotes text v ∨ 0 < v ∧ Denotes text ((v : Int) - 2 ^ 64) := by
  have hmax : ulongMax = 2 ^ 64 - 1 := rfl
  rw [readsWhole_iff, denotes_iff, denotes_iff]
  generalize takeSign (text.dropWhile isSpace) = signed
  generalize numeral 10 signed.2 = n
  cases signed.1 with
  | false =>
    simp only [Bool.false_eq_true, if_false]
    constructor
    · rintro ⟨hne, hdigits, -, hvalue⟩
      exact .inl ⟨hne, hdigits, by omega⟩
    · rintro (⟨hne, hdigits, hvalue⟩ | ⟨hpos, hne, hdigits, hvalue⟩)
      · exact ⟨hne, hdigits, by omega, by omega⟩
      · -- the difference is negative
        omega
  | true =>
    simp only [if_true]
    constructor
    · rintro ⟨hne, hdigits, hle, hvalue⟩
      by_cases hzero : n = 0
      · exact .inl ⟨hne, hdigits, by omega⟩
      · exact .inr ⟨by omega, hne, hdigits, by omega⟩
    · rintro (⟨hne, hdigits, hvalue⟩ | ⟨hpos, hne, hdigits, hvalue⟩)
      · exact ⟨hne, hdigits, by omega, by omega⟩
      · exact ⟨hne, hdigits, by omega, by omega⟩

/-! ## `%u`

The decimal numeral that `printf` writes. It has digits only, and is read back as the number. -/

theorem isDigit_ofChar {c : Char} (h : c.isDigit = true) : isDigit c.toNat.toUInt8 = true := by
  have hbounds : 48 ≤ c.toNat ∧ c.toNat ≤ 57 := by
    simpa [Char.isDigit, UInt32.le_iff_toNat_le] using h
  have hsmall : c.toNat.toUInt8.toNat = c.toNat := Nat.mod_eq_of_lt (by omega)
  simp only [isDigit, UInt8.le_iff_toNat_le, hsmall, Bool.and_eq_true, decide_eq_true_eq]
  exact hbounds

/-- Every byte of it is a digit. -/
theorem isDigit_of_mem_decimal {n : Nat} {c : UInt8} (h : c ∈ decimal n) : isDigit c = true := by
  obtain ⟨d, hd, rfl⟩ := List.mem_map.mp h
  exact isDigit_ofChar (Nat.isDigit_of_mem_toDigits (by decide) (by decide) hd)

theorem decimal_ne_nil (n : Nat) : decimal n ≠ [] :=
  fun h => Nat.toDigits_ne_nil (List.map_eq_nil_iff.mp h)

/-- Its value is the number it was written for. Induction on the digits, from the last. -/
theorem numeral_decimal (n : Nat) : numeral 10 (decimal n) = n := by
  have hvalue : ∀ (digits : List Char), (∀ c ∈ digits, c.isDigit = true) → ∀ acc,
      (digits.map fun c => c.toNat.toUInt8).foldl (fun acc c => acc * 10 + digitValue c) acc =
        Nat.ofDigitChars 10 digits acc := by
    intro digits
    induction digits with
    | nil => intro _ acc; rfl
    | cons c rest ih =>
      intro hdigits acc
      obtain ⟨hc, hrest⟩ := List.forall_mem_cons.mp hdigits
      -- a digit's code is below 58, so the cast to a byte keeps it
      have hbounds : 48 ≤ c.toNat ∧ c.toNat ≤ 57 := by
        simpa [Char.isDigit, UInt32.le_iff_toNat_le] using hc
      have hsmall : c.toNat.toUInt8.toNat = c.toNat := Nat.mod_eq_of_lt (by omega)
      rw [List.map_cons, List.foldl_cons, ih hrest, Nat.ofDigitChars_cons]
      congr 1
      rw [digitValue, if_pos (isDigit_ofChar hc), hsmall, Nat.mul_comm]
      rfl
  rw [numeral, decimal, hvalue _ fun c hc => Nat.isDigit_of_mem_toDigits (by decide) (by decide) hc]
  exact Nat.ofDigitChars_ten_toDigits

/-- What `%u` prints denotes the number. -/
theorem denotes_decimal (n : Nat) : Denotes (decimal n) n :=
  ⟨[], [], decimal n, rfl, List.forall_mem_nil _, decimal_ne_nil n,
    fun _ => isDigit_of_mem_decimal, .inr ⟨.inl rfl, by rw [numeral_decimal]⟩⟩

theorem decimal_injective : Function.Injective decimal := by
  intro a b h
  rw [← numeral_decimal a, ← numeral_decimal b, h]

end CStr
