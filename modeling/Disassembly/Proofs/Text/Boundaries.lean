import Disassembly.Proofs.Text.Fields
import Disassembly.Proofs.Text.Words
/-!
# Boundaries between characters

Seen from the bytes, an offset is a boundary at either end of a text and wherever no character goes
on. These are the offsets at which a text can be cut, and the search for one from some offset
downwards stops behind the longest prefix that fits.
-/
namespace Disassembly

namespace Text

structure LongestPrefix (condition : List Char → Prop) (text kept : List Char) : Prop where
  front : kept <+: text
  holds : condition kept
  longest : ∀ other, other <+: text → condition other → other <+: kept

variable {condition : List Char → Prop} {text kept other : List Char}

theorem LongestPrefix.unique (h : LongestPrefix condition text kept)
    (k : LongestPrefix condition text other) : kept = other := by
  have hle := k.longest kept h.front h.holds
  have hge := h.longest other k.front k.holds
  exact hle.eq_of_length_le hge.length_le

theorem longestPrefix_takeWhile (p : Char → Bool) (text : List Char) :
    LongestPrefix (fun kept => ∀ c ∈ kept, p c = true) text (text.takeWhile p) := by
  refine ⟨List.takeWhile_prefix p, fun c hc => List.mem_takeWhile_imp hc, ?_⟩
  rintro other ⟨rest, rfl⟩ hother
  rw [List.takeWhile_append_of_pos hother]
  exact List.prefix_append _ _

end Text

namespace Utf8

open Text (LongestPrefix)

/-- A byte in which a character goes on that started before it. -/
def continues (byte : UInt8) : Bool := decide (128 ≤ byte.toNat) && decide (byte.toNat < 192)

def isBoundary (bytes : List UInt8) (offset : Nat) : Bool :=
  match bytes[offset]? with
  | some byte => offset == 0 || !continues byte
  | none => offset == bytes.length

/-- The first boundary from an offset downwards. There is none if not even the start is one. -/
def boundaryUpTo? (bytes : List UInt8) : Nat → Option Nat
  | 0 => if isBoundary bytes 0 then some 0 else none
  | offset + 1 =>
    if isBoundary bytes (offset + 1) then some (offset + 1) else boundaryUpTo? bytes offset

variable {text a b : List Char} {bytes : List UInt8} {offset budget m n : Nat}

theorem encode_cons_eq (c : Char) (rest : List Char) :
    encode (c :: rest) = String.utf8EncodeChar c ++ encode rest := rfl

/-- Of the bytes of a character all but the first go on with it. -/
theorem exists_encodeChar (c : Char) : ∃ first rest,
    String.utf8EncodeChar c = first :: rest ∧ continues first = false ∧
      ∀ byte ∈ rest, continues byte = true := by
  rw [String.utf8EncodeChar]
  repeat' split
  all_goals
    refine ⟨_, _, rfl, ?_, ?_⟩
    · simp only [continues, UInt8.toNat_ofNat', Bool.and_eq_false_iff, decide_eq_false_iff_not]
      omega
    · simp only [List.forall_mem_cons, List.not_mem_nil, false_implies, implies_true, and_true,
        continues, Bool.and_eq_true, decide_eq_true_eq, UInt8.toNat_ofNat'] <;> omega

theorem isBoundary_zero (bytes : List UInt8) : isBoundary bytes 0 = true := by
  cases bytes <;> rfl

theorem isBoundary_cons_add (c : Char) (rest : List Char) (offset : Nat) :
    isBoundary (encode (c :: rest)) (c.utf8Size + offset) = isBoundary (encode rest) offset := by
  have hlength : (String.utf8EncodeChar c).length = c.utf8Size := String.length_utf8EncodeChar c
  have hpos := c.utf8Size_pos
  have hget : (encode (c :: rest))[c.utf8Size + offset]? = (encode rest)[offset]? := by
    rw [encode_cons_eq, List.getElem?_append_right (by omega), hlength, Nat.add_sub_cancel_left]
  have hstart : (c.utf8Size + offset == 0) = false := by
    rw [beq_eq_false_iff_ne]
    omega
  rw [isBoundary, isBoundary, hget, hstart]
  cases hbyte : (encode rest)[offset]? with
  | none =>
    rw [encode_cons_eq, List.length_append, hlength]
    simp
  | some byte =>
    rcases Nat.eq_zero_or_pos offset with rfl | hoffset
    · -- The first byte of a character starts it.
      cases rest with
      | nil => cases hbyte
      | cons d rest =>
        obtain ⟨first, others, hd, hfirst, -⟩ := exists_encodeChar d
        rw [encode_cons_eq, hd] at hbyte
        cases hbyte
        simp [hfirst]
    · have hne : (offset == 0) = false := beq_eq_false_iff_ne.2 (by omega)
      rw [hne]

theorem isBoundary_cons_inside (c : Char) (rest : List Char) (hpos : 0 < offset)
    (hinside : offset < c.utf8Size) : isBoundary (encode (c :: rest)) offset = false := by
  obtain ⟨first, others, hc, -, hothers⟩ := exists_encodeChar c
  have hlength : (first :: others).length = c.utf8Size := hc ▸ String.length_utf8EncodeChar c
  obtain ⟨offset, rfl⟩ := Nat.exists_eq_succ_of_ne_zero (by omega : offset ≠ 0)
  rw [List.length_cons] at hlength
  have hlt : offset < others.length := by omega
  have hget : (encode (c :: rest))[offset.succ]? = some others[offset] := by
    rw [encode_cons_eq, hc, List.cons_append, List.getElem?_cons_succ,
      List.getElem?_append_left hlt, List.getElem?_eq_getElem hlt]
  rw [isBoundary, hget]
  simp [hothers _ (List.getElem_mem hlt)]

/-- The boundaries are the lengths of the prefixes. -/
theorem isBoundary_encode_iff :
    isBoundary (encode text) offset = true ↔ ∃ front, front <+: text ∧ byteSize front = offset := by
  induction text generalizing offset with
  | nil =>
    constructor
    · intro h
      have hzero : offset = 0 := by simpa [isBoundary, encode] using h
      exact ⟨[], List.nil_prefix, hzero.symm⟩
    · rintro ⟨front, hfront, rfl⟩
      rw [List.prefix_nil.1 hfront]
      rfl
  | cons c rest ih =>
    rcases Nat.eq_zero_or_pos offset with rfl | hpos
    · exact ⟨fun _ => ⟨[], List.nil_prefix, rfl⟩, fun _ => isBoundary_zero _⟩
    -- Inside of the first character there is no boundary; behind it the rest decides.
    · by_cases hinside : offset < c.utf8Size
      · rw [isBoundary_cons_inside c rest hpos hinside]
        constructor
        · intro h
          cases h
        · rintro ⟨front, hfront, rfl⟩
          rcases List.prefix_cons_iff.1 hfront with rfl | ⟨front, rfl, -⟩
          · cases hpos
          · rw [byteSize] at hinside
            omega
      · obtain ⟨offset, rfl⟩ := Nat.exists_eq_add_of_le (Nat.not_lt.1 hinside)
        rw [isBoundary_cons_add, ih]
        constructor
        · rintro ⟨front, hfront, rfl⟩
          exact ⟨c :: front, List.cons_prefix_cons.2 ⟨rfl, hfront⟩, rfl⟩
        · rintro ⟨front, hfront, hsize⟩
          rcases List.prefix_cons_iff.1 hfront with rfl | ⟨front, rfl, hrest⟩
          · rw [byteSize] at hsize
            omega
          · rw [byteSize] at hsize
            exact ⟨front, hrest, by omega⟩

theorem byteSize_front_le (h : a <+: b) : byteSize a ≤ byteSize b := by
  obtain ⟨rest, rfl⟩ := h
  rw [byteSize_append]
  omega

theorem isBoundary_byteSize (h : a <+: text) : isBoundary (encode text) (byteSize a) = true :=
  isBoundary_encode_iff.2 ⟨a, h, rfl⟩

theorem encode_front (h : a <+: text) : encode a = (encode text).take (byteSize a) := by
  obtain ⟨rest, rfl⟩ := h
  have hsplit : encode (a ++ rest) = encode a ++ encode rest := List.flatMap_append
  rw [hsplit, ← length_encode, List.take_left]

theorem eq_of_byteSize_eq (ha : a <+: text) (hb : b <+: text) (h : byteSize a = byteSize b) :
    a = b := by
  have hbytes : encode a = encode b := by rw [encode_front ha, encode_front hb, h]
  have htexts := congrArg decode? hbytes
  rw [decode?_encode, decode?_encode] at htexts
  exact Option.some.inj htexts

/-! ### Cuts -/

/-- A text can be cut at the boundaries and nowhere else. -/
theorem splitAt?_eq_some_iff : splitAt? offset text = some (a, b) ↔
    text = a ++ b ∧ byteSize a = offset := by
  constructor
  · intro h
    refine ⟨(Text.splitAt?_append h).symm, ?_⟩
    induction text generalizing offset a with
    | nil =>
      rw [splitAt?] at h
      split at h
      · next hzero =>
        cases h
        exact hzero.symm
      · cases h
    | cons c rest ih =>
      rw [splitAt?] at h
      split at h
      · next hzero =>
        cases h
        exact hzero.symm
      · split at h
        · next hle =>
          obtain ⟨⟨front, back⟩, hcut, heq⟩ := Option.map_eq_some_iff.1 h
          cases heq
          rw [byteSize, ih hcut]
          omega
        · cases h
  · rintro ⟨rfl, rfl⟩
    exact splitAt?_byteSize a b

theorem exists_splitAt? (h : isBoundary (encode text) offset = true) :
    ∃ a b, splitAt? offset text = some (a, b) := by
  obtain ⟨front, ⟨back, rfl⟩, rfl⟩ := isBoundary_encode_iff.1 h
  exact ⟨front, back, splitAt?_byteSize front back⟩

theorem splitAt?_eq_none (h : isBoundary (encode text) offset = false) :
    splitAt? offset text = none := by
  cases hcut : splitAt? offset text with
  | none => rfl
  | some cut =>
    obtain ⟨rfl, rfl⟩ := splitAt?_eq_some_iff.1 hcut
    rw [isBoundary_byteSize (List.prefix_append _ _)] at h
    cases h

/-! ### The longest prefix that fits -/

theorem prefix_takeBytes (h : a <+: text) (hfits : byteSize a ≤ budget) :
    a <+: takeBytes budget text := by
  induction text generalizing a budget with
  | nil => rwa [takeBytes]
  | cons c rest ih =>
    rcases List.prefix_cons_iff.1 h with rfl | ⟨a, rfl, ha⟩
    · exact List.nil_prefix
    · rw [byteSize] at hfits
      rw [takeBytes, if_pos (by omega)]
      exact List.cons_prefix_cons.2 ⟨rfl, ih ha (by omega)⟩

theorem longestPrefix_takeBytes (budget : Nat) (text : List Char) :
    LongestPrefix (fun kept => (encode kept).length ≤ budget) text (takeBytes budget text) := by
  refine ⟨?_, ?_, ?_⟩
  · exact takeBytes_prefix budget text
  · rw [length_encode]
    exact byteSize_takeBytes_le budget text
  · intro other hother hfits
    rw [length_encode] at hfits
    exact prefix_takeBytes hother hfits

theorem boundaryUpTo?_eq_some (hle : m ≤ n) (hm : isBoundary bytes m = true)
    (habove : ∀ k, m < k → k ≤ n → isBoundary bytes k = false) :
    boundaryUpTo? bytes n = some m := by
  induction n with
  | zero =>
    obtain rfl := Nat.le_zero.1 hle
    rw [boundaryUpTo?, if_pos hm]
  | succ n ih =>
    rcases Nat.eq_or_lt_of_le hle with rfl | hlt
    · rw [boundaryUpTo?, if_pos hm]
    · rw [boundaryUpTo?, if_neg (by simp [habove (n + 1) hlt (Nat.le_refl _)])]
      exact ih (Nat.lt_succ_iff.1 hlt) fun k hk hkn => habove k hk (Nat.le_succ_of_le hkn)

/-- The search from the last offset that fits ends where the longest prefix does. -/
theorem boundaryUpTo?_encode (budget : Nat) (text : List Char) :
    boundaryUpTo? (encode text) (min (encode text).length budget) =
      some (byteSize (takeBytes budget text)) := by
  have hfront := takeBytes_prefix budget text
  have hlength := byteSize_front_le hfront
  have hfits := byteSize_takeBytes_le budget text
  rw [length_encode]
  apply boundaryUpTo?_eq_some (by omega) (isBoundary_byteSize hfront)
  intro k hk hkle
  rw [Bool.eq_false_iff]
  intro hboundary
  obtain ⟨other, hother, rfl⟩ := isBoundary_encode_iff.1 hboundary
  have hle := byteSize_front_le (prefix_takeBytes hother (by omega : byteSize other ≤ budget))
  omega

end Utf8

end Disassembly
