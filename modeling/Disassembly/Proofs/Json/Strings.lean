import Disassembly.Json.Grammar
import Disassembly.Proofs.Json.Scalars
/-!
# Strings of the grammar, read

A well-formed string is read up to its closing quote and to the characters it spells, or not at
all. So no string spells two things, and what a string was read as it spells.
-/
namespace Disassembly.Json

variable {text string digits rest left : List Char} {n : Nat} {c d : Char}

theorem shortEscape?_u : shortEscape? 'u' = none := rfl

theorem readHex4_of_hex4 (h : Hex4 digits n) (rest : List Char) :
    readHex4 (digits ++ rest) = .ok (n, rest) := by
  cases h with
  | intro ha hb hc hd => simp only [List.cons_append, List.nil_append, readHex4, ha, hb, hc, hd]

theorem readEscape_short (hc : shortEscape? c = some d) (rest : List Char) :
    readEscape (c :: rest) = .ok (d, rest) := by
  rw [readEscape, hc]

theorem readEscape_unit (h : Hex4 digits n) (hleading : isLeadingSurrogate n = false)
    (htrailing : isTrailingSurrogate n = false) (rest : List Char) :
    readEscape ('u' :: (digits ++ rest)) = .ok (.ofNat n, rest) := by
  simp only [readEscape, shortEscape?_u, if_true, readCodePoint, readHex4_of_hex4 h, hleading,
    htrailing, Bool.false_eq_true, if_false]

theorem not_trailing_of_leading (h : isLeadingSurrogate n = true) :
    isTrailingSurrogate n = false := by
  simp only [isLeadingSurrogate, isTrailingSurrogate, Bool.and_eq_true, decide_eq_true_eq,
    Bool.and_eq_false_iff, decide_eq_false_iff_not] at h ⊢
  omega

theorem readEscape_pair {digits' : List Char} {m : Nat} (h : Hex4 digits n)
    (hleading : isLeadingSurrogate n = true) (h' : Hex4 digits' m)
    (htrailing : isTrailingSurrogate m = true) (rest : List Char) :
    readEscape ('u' :: (digits ++ '\\' :: 'u' :: (digits' ++ rest))) =
      .ok (joinSurrogates n m, rest) := by
  simp only [readEscape, shortEscape?_u, if_true, readCodePoint, readHex4_of_hex4 h, hleading,
    not_trailing_of_leading hleading, Bool.false_eq_true, if_false, expect, readHex4_of_hex4 h',
    htrailing]

/-- What a string spells is read up to the closing quote. -/
theorem Spells.readString (h : Spells text string) (rest : List Char) :
    readString (text ++ '"' :: rest) = .ok (string, rest) := by
  induction h with
  | nil =>
    rw [List.nil_append, Json.readString]
    rfl
  | plain hquote hbackslash hcontrol _ ih => exact readString_plain hquote hbackslash hcontrol ih
  | escape hc _ ih => exact readString_escaped (readEscape_short hc _) ih
  | unit hdigits hleading htrailing _ ih =>
    rw [List.cons_append, List.cons_append, List.append_assoc]
    exact readString_escaped (readEscape_unit hdigits hleading htrailing _) ih
  | pair hdigits hleading hdigits' htrailing _ ih =>
    rw [List.cons_append, List.cons_append, List.append_assoc, List.cons_append, List.cons_append,
      List.append_assoc]
    exact readString_escaped (readEscape_pair hdigits hleading hdigits' htrailing _) ih

theorem Spells.isString (h : Spells text string) : IsString text := by
  induction h with
  | nil => exact .nil
  | plain hquote hbackslash hcontrol _ ih => exact .plain hquote hbackslash hcontrol ih
  | escape hc _ ih => exact .escape hc ih
  | unit hdigits _ _ _ ih => exact .unit hdigits ih
  | pair hdigits _ hdigits' _ _ ih => exact .unit hdigits (.unit hdigits' ih)

theorem Spells.unique {string' : List Char} (h : Spells text string) (h' : Spells text string') :
    string = string' := by
  have hread := h.readString []
  rw [h'.readString []] at hread
  cases hread
  rfl

theorem exists_of_readString_plain (hquote : c ≠ '"') (hbackslash : c ≠ '\\')
    (h : readString (c :: text) = .ok (string, left)) :
    ∃ tail, readString text = .ok (tail, left) ∧ string = c :: tail := by
  rw [readString, if_neg hquote, if_neg hbackslash] at h
  by_cases hcontrol : c.toNat < 0x20
  · rw [if_pos hcontrol] at h
    cases h
  · rw [if_neg hcontrol] at h
    cases hread : readString text with
    | error fault =>
      rw [hread] at h
      cases h
    | ok result =>
      rw [hread] at h
      cases h
      exact ⟨_, rfl, rfl⟩

theorem exists_of_readString_escaped (h : readString ('\\' :: text) = .ok (string, left)) :
    ∃ d behind tail, readEscape text = .ok (d, behind) ∧ readString behind = .ok (tail, left) ∧
      string = d :: tail := by
  rw [readString, if_neg (by decide), if_pos rfl] at h
  split at h
  · cases h
  · next d behind hescape =>
    cases hread : readString behind with
    | error fault =>
      rw [hread] at h
      cases h
    | ok result =>
      rw [hread] at h
      cases h
      exact ⟨d, behind, _, hescape, hread, rfl⟩

theorem eq_append_of_expect {word : List Char} (h : expect word text = .ok rest) :
    text = word ++ rest := by
  induction word generalizing text with
  | nil =>
    cases h
    rfl
  | cons c word ih =>
    cases text with
    | nil => cases h
    | cons d text =>
      rw [expect] at h
      by_cases hc : c = d
      · rw [if_pos hc] at h
        rw [hc, ih h, List.cons_append]
      · rw [if_neg hc] at h
        cases h

theorem cases_of_readEscape_unit {behind : List Char} (hdigits : Hex4 digits n)
    (h : readEscape ('u' :: (digits ++ rest)) = .ok (d, behind)) :
    (isLeadingSurrogate n = false ∧ isTrailingSurrogate n = false ∧ d = .ofNat n ∧ behind = rest) ∨
      ∃ second m, isLeadingSurrogate n = true ∧ rest = '\\' :: 'u' :: second ∧
        readHex4 second = .ok (m, behind) ∧ isTrailingSurrogate m = true ∧
        d = joinSurrogates n m := by
  simp only [readEscape, shortEscape?_u, if_true, readCodePoint, readHex4_of_hex4 hdigits] at h
  -- A trailing half alone is refused, and a leading one needs the other half behind it.
  by_cases htrailing : isTrailingSurrogate n = true
  · rw [if_pos htrailing] at h
    cases h
  · rw [if_neg htrailing] at h
    by_cases hleading : isLeadingSurrogate n = true
    · rw [if_pos hleading] at h
      split at h
      · cases h
      · next second hsecond =>
        split at h
        · cases h
        · next m behind' hread =>
          by_cases hm : isTrailingSurrogate m = true
          · rw [if_pos hm] at h
            simp only [Except.ok.injEq, Prod.mk.injEq] at h
            obtain ⟨hd, rfl⟩ := h
            exact .inr ⟨second, m, hleading, eq_append_of_expect hsecond, hread, hm, hd.symm⟩
          · rw [if_neg hm] at h
            cases h
    · rw [if_neg hleading] at h
      cases h
      simp only [Bool.not_eq_true] at htrailing hleading
      exact .inl ⟨hleading, htrailing, rfl, rfl⟩

/-- A well-formed string that was read spells what was read, up to its closing quote. -/
theorem IsString.spells_of_readString (h : IsString text) {rest : List Char}
    (hread : Json.readString (text ++ '"' :: rest) = .ok (string, left)) :
    Spells text string ∧ left = rest := by
  -- the second half of a pair is read with the first, so the induction is on the length
  induction hlength : text.length using Nat.strongRecOn generalizing text string with
  | ind length ih =>
    subst hlength
    cases h with
    | nil =>
      rw [List.nil_append, Json.readString, if_pos rfl] at hread
      cases hread
      exact ⟨.nil, rfl⟩
    | plain hquote hbackslash hcontrol htext =>
      obtain ⟨tail, htail, rfl⟩ := exists_of_readString_plain hquote hbackslash hread
      obtain ⟨hspells, rfl⟩ := ih _ (by simp) htext htail rfl
      exact ⟨.plain hquote hbackslash hcontrol hspells, rfl⟩
    | escape hc htext =>
      rw [List.cons_append, List.cons_append] at hread
      obtain ⟨d, behind, tail, hescape, htail, rfl⟩ := exists_of_readString_escaped hread
      rw [readEscape_short hc] at hescape
      cases hescape
      obtain ⟨hspells, rfl⟩ := ih _ (by simp only [List.length_cons]; omega) htext htail rfl
      exact ⟨.escape hc hspells, rfl⟩
    | @unit digits text n hdigits htext =>
      rw [List.cons_append, List.cons_append, List.append_assoc] at hread
      obtain ⟨d, behind, tail, hescape, htail, rfl⟩ := exists_of_readString_escaped hread
      rcases cases_of_readEscape_unit hdigits hescape with
        ⟨hleading, htrailing, rfl, rfl⟩ | ⟨second, m, hleading, hsecond, hm, htrailing, hd⟩
      · obtain ⟨hspells, rfl⟩ :=
          ih _ (by simp only [List.length_cons, List.length_append]; omega) htext htail rfl
        exact ⟨.unit hdigits hleading htrailing hspells, rfl⟩
      · cases htext with
        | nil => cases hsecond
        | plain _ hbackslash _ _ =>
          rw [List.cons_append] at hsecond
          exact absurd (List.cons_eq_cons.mp hsecond).1 hbackslash
        | escape hc _ =>
          rw [List.cons_append, List.cons_append] at hsecond
          cases hsecond
          cases hc
        | unit hdigits' htext =>
          rw [List.cons_append, List.cons_append, List.append_assoc] at hsecond
          cases hsecond
          rw [readHex4_of_hex4 hdigits'] at hm
          cases hm
          obtain ⟨hspells, rfl⟩ :=
            ih _ (by simp only [List.length_cons, List.length_append]; omega) htext htail rfl
          rw [hd]
          exact ⟨.pair hdigits hleading hdigits' htrailing hspells, rfl⟩

end Disassembly.Json
