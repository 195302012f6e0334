import OpcuaEdge.Lib.CNumber

/-!
# Texts that `strtod` reads as an infinity or a NaN

Only a word does that (`strtod_special_iff`): a number too large for a double is an infinity as
well, but reported as out of range.
-/

namespace CStr

/-- The characters of the tag that a NaN may carry. -/
def isTagChar (c : UInt8) : Bool := isDigit c || (97 ≤ toLower c && toLower c ≤ 122) || c = 95

/-- White space and a sign, then `inf`, `infinity` or `nan` with or without a tag, in upper or lower
case, and nothing else. -/
def SpellsNonFinite (text : Bytes) : Prop :=
  let word := (takeSign (text.dropWhile isSpace)).2
  word.map toLower = lit "inf" ∨ word.map toLower = lit "infinity" ∨
    lit "nan" <+: word.map toLower ∧
      (word.drop 3 = [] ∨
        ∃ tag, word.drop 3 = 40 :: (tag ++ [41]) ∧ ∀ c ∈ tag, isTagChar c = true)

theorem stripNoCase_eq (pat text : Bytes) :
    stripNoCase pat text =
      if pat <+: text.map toLower then some (text.drop pat.length) else none := by
  unfold stripNoCase
  refine if_congr ?_ rfl rfl
  rw [List.prefix_iff_eq_take, ← List.map_take]
  exact eq_comm

/-- Nothing is left of the tag of a NaN exactly if there was none, or one that is closed at the
end. -/
theorem skipNanTag_eq_nil_iff (text : Bytes) :
    skipNanTag text = [] ↔
      text = [] ∨ ∃ tag, text = 40 :: (tag ++ [41]) ∧ ∀ c ∈ tag, isTagChar c = true := by
  have hclose : ∀ {rest after : Bytes}, rest.dropWhile isTagChar = 41 :: after →
      rest.takeWhile isTagChar ++ 41 :: after = rest := by
    intro rest after h
    rw [← h]
    exact List.takeWhile_append_dropWhile
  have htag : ∀ tag : Bytes, (∀ c ∈ tag, isTagChar c = true) →
      (tag ++ [41]).dropWhile isTagChar = [41] := by
    intro tag htag
    rw [List.dropWhile_append_of_pos htag]
    rfl
  -- an open bracket with its tag and its end, one without, and no bracket at all
  unfold skipNanTag
  dsimp only
  split
  · next rest =>
    split
    · next after hrest =>
      have hrest : rest.dropWhile isTagChar = 41 :: after := hrest
      constructor
      · rintro rfl
        exact .inr ⟨_, congrArg _ (hclose hrest).symm, fun c hc => List.mem_takeWhile_imp hc⟩
      · rintro (hnil | ⟨tag, heq, hchars⟩)
        · cases hnil
        · rw [(List.cons.inj heq).2, htag tag hchars] at hrest
          exact (List.cons.inj hrest).2.symm
    · next hnone =>
      have hnone : ∀ after, rest.dropWhile isTagChar = 41 :: after → False := hnone
      constructor
      · exact nofun
      · rintro (hnil | ⟨tag, heq, hchars⟩)
        · cases hnil
        · rw [(List.cons.inj heq).2] at hnone
          exact absurd (htag tag hchars) (hnone [])
  · next hopen =>
    constructor
    · exact .inl
    · rintro (hnil | ⟨tag, rfl, -⟩)
      · exact hnil
      · exact absurd rfl (hopen _)

/-- A word is spelled in full if nothing follows it. -/
theorem drop_length_eq_nil_iff {pat text : Bytes} (h : pat <+: text.map toLower) :
    text.drop pat.length = [] ↔ text.map toLower = pat := by
  rw [List.drop_eq_nil_iff]
  constructor
  · intro hle
    refine (h.eq_of_length (le_antisymm h.length_le ?_)).symm
    rwa [List.length_map]
  · intro heq
    rw [← heq, List.length_map]

/-- `strtod` takes the whole text and gives no number, without reporting that it is out of range. -/
structure ReadsSpecial (text : Bytes) : Prop where
  rest : (strtod text).rest = []
  inRange : (strtod text).erange = false
  value : ∀ q, (strtod text).value ≠ .fin q

theorem finiteResult_special (neg : Bool) (q : ℚ) (rest : Bytes) :
    (finiteResult neg q rest).erange = true ∨ ∃ r, (finiteResult neg q rest).value = .fin r := by
  unfold finiteResult
  by_cases hlarge : (2 : ℚ) ^ 1024 - 2 ^ 970 ≤ q
  · rw [if_pos hlarge]
    exact .inl rfl
  · rw [if_neg hlarge]
    exact .inr ⟨_, rfl⟩

/-- Whether a conversion read something that is not finite. -/
theorem readsSpecial_iff_of_eq {text : Bytes} {c : Conversion Double} (h : strtod text = c) :
    ReadsSpecial text ↔ c.rest = [] ∧ c.erange = false ∧ ∀ q, c.value ≠ .fin q := by
  subst h
  exact ⟨fun h => ⟨h.rest, h.inRange, h.value⟩, fun h => ⟨h.1, h.2.1, h.2.2⟩⟩

/-- Two words that begin one text begin one another. -/
theorem not_prefix_of_prefix {a b text : Bytes} (ha : a <+: text) (hab : ¬ a <+: b)
    (hba : ¬ b <+: a) : ¬ b <+: text := fun hb =>
  (List.prefix_or_prefix_of_prefix ha hb).elim hab hba

/-- **Only a word is read as an infinity or a NaN.** -/
theorem strtod_special_iff (text : Bytes) : ReadsSpecial text ↔ SpellsNonFinite text := by
  unfold SpellsNonFinite
  have hunfold : strtod text = strtod text := rfl
  conv_rhs at hunfold => unfold strtod
  dsimp only at hunfold ⊢
  generalize takeSign (text.dropWhile isSpace) = signed at hunfold ⊢
  rw [stripNoCase_eq, stripNoCase_eq, stripNoCase_eq] at hunfold
  have hself : ∀ {pat : Bytes}, signed.2.map toLower = pat → pat <+: signed.2.map toLower :=
    fun h => h ▸ List.prefix_refl _
  by_cases hinfinity : lit "infinity" <+: signed.2.map toLower
  · rw [if_pos hinfinity] at hunfold
    have hnan := not_prefix_of_prefix hinfinity (b := lit "nan") (by decide) (by decide)
    have hinf : signed.2.map toLower ≠ lit "inf" := fun h => by
      rw [h] at hinfinity
      revert hinfinity
      decide
    rw [readsSpecial_iff_of_eq hunfold]
    simp [drop_length_eq_nil_iff hinfinity, hnan, hinf]
  rw [if_neg hinfinity] at hunfold
  have hwhole : signed.2.map toLower ≠ lit "infinity" := fun h => hinfinity (hself h)
  by_cases hinf : lit "inf" <+: signed.2.map toLower
  · rw [if_pos hinf] at hunfold
    have hnan := not_prefix_of_prefix hinf (b := lit "nan") (by decide) (by decide)
    rw [readsSpecial_iff_of_eq hunfold]
    simp [drop_length_eq_nil_iff hinf, hnan, hwhole]
  rw [if_neg hinf] at hunfold
  have hword : signed.2.map toLower ≠ lit "inf" := fun h => hinf (hself h)
  by_cases hnan : lit "nan" <+: signed.2.map toLower
  · rw [if_pos hnan] at hunfold
    have hlength : (lit "nan").length = 3 := by decide
    rw [readsSpecial_iff_of_eq hunfold]
    simp [hlength, skipNanTag_eq_nil_iff, hnan, hwhole, hword]
  rw [if_neg hnan] at hunfold
  -- what is left is a number, or no conversion
  have hnone : ¬ ReadsSpecial text := by
    rw [readsSpecial_iff_of_eq hunfold]
    rintro ⟨-, hrange, hvalue⟩
    cases hnumber : strtodNumber signed.2 with
    | none =>
      rw [hnumber] at hvalue
      exact hvalue 0 rfl
    | some number =>
      rw [hnumber] at hvalue hrange
      obtain hlarge | ⟨r, hr⟩ := finiteResult_special signed.1 number.1 number.2
      · exact absurd (hrange.symm.trans hlarge) (by decide)
      · exact hvalue r hr
  simp [hnone, hnan, hwhole, hword]

theorem ReadsSpecial.converted {text : Bytes} (h : ReadsSpecial text) :
    (strtod text).converted = true := by
  have hvalue := h.value
  unfold strtod at hvalue ⊢
  dsimp only at hvalue ⊢
  split at hvalue
  · rfl
  · rfl
  · rfl
  · unfold finiteResult
    split_ifs <;> rfl
  · exact absurd rfl (hvalue 0)

/-- After white space and a sign the text goes on with an `i` or an `n`. -/
def beginsWord (text : Bytes) : Bool :=
  let head := ((takeSign (text.dropWhile isSpace)).2.map toLower).head?
  head = some 105 || head = some 110

/-- It begins, after blanks and a sign, with the first letter of its word. -/
theorem SpellsNonFinite.begins {text : Bytes} (h : SpellsNonFinite text) :
    beginsWord text = true := by
  unfold beginsWord
  rcases h with hinf | hinfinity | ⟨⟨rest, hnan⟩, -⟩
  · rw [hinf]
    rfl
  · rw [hinfinity]
    rfl
  · rw [← hnan]
    rfl

end CStr
