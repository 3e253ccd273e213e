import DepositSync.Text.Utf8
import Mathlib.Tactic.SplitIfs

/-!
# DepositSync.Proofs.Utf8Text

The bytes that are written for a text are read as that text (`lossy_encode`). A character takes up
to four bytes. The first one tells how many, and between which limits the second one must lie
(`Opens`); the limits keep out longer forms than are needed, and surrogates, and the bytes of a
character are always within them.
-/

namespace DepositSync.Text.Utf8

variable {n v need value low high : Nat} {taken bs : List UInt8}

theorem toNat_byte (h : n < 256) : (UInt8.ofNat n).toNat = n :=
  UInt8.toNat_ofNat_of_lt h

/-- The last byte of a character that has begun. -/
theorem decodeFrom_last (hn : n < 256) (hlow : low ≤ n) (hhigh : n ≤ high)
    (hv : value * 64 + (n - 0x80) = v) :
    decodeFrom (some ⟨1, value, low, high, taken⟩) (UInt8.ofNat n :: bs) =
      .char (Char.ofNat v) :: decodeFrom none bs := by
  simp only [decodeFrom, toNat_byte hn, if_pos (And.intro hlow hhigh), hv]
  rfl

/-- A byte in the middle of a character. -/
theorem decodeFrom_next (hn : n < 256) (hlow : low ≤ n) (hhigh : n ≤ high)
    (hv : value * 64 + (n - 0x80) = v) :
    decodeFrom (some ⟨need + 2, value, low, high, taken⟩) (UInt8.ofNat n :: bs) =
      decodeFrom (some ⟨need + 1, v, 0x80, 0xBF, taken ++ [UInt8.ofNat n]⟩) bs := by
  simp only [decodeFrom, toNat_byte hn, if_pos (And.intro hlow hhigh), hv]
  exact if_neg (by omega)

/-- The byte `n` begins a character that needs `need` more bytes; it has the value so far, and takes
`next` as the next byte. -/
def Opens (n need value next : Nat) : Prop :=
  ∃ low high, lead (UInt8.ofNat n) = .opens ⟨need, value, low, high, [UInt8.ofNat n]⟩ ∧
    low ≤ next ∧ next ≤ high

theorem opens_two (h : 0x80 ≤ v) (h' : v < 0x800) :
    Opens (v / 64 % 32 + 192) 1 (v / 64) (v % 64 + 128) := by
  refine ⟨0x80, 0xBF, ?_, by omega, by omega⟩
  simp only [lead, toNat_byte (show v / 64 % 32 + 192 < 256 by omega)]
  have hvalue : v / 64 % 32 + 192 - 192 = v / 64 := by omega
  rw [if_neg (by omega), if_pos (by omega), hvalue]

theorem opens_three (h : 0x800 ≤ v) (h' : v < 0x10000) (hvalid : v < 0xD800 ∨ 0xDFFF < v) :
    Opens (v / 4096 % 16 + 224) 2 (v / 4096) (v / 64 % 64 + 128) := by
  have hvalue : v / 4096 % 16 + 224 - 224 = v / 4096 := by omega
  simp only [Opens, lead, toNat_byte (show v / 4096 % 16 + 224 < 256 by omega)]
  rw [if_neg (by omega), if_neg (by omega), hvalue]
  split_ifs with hfirst hsurrogate hrest
  · have hzero : v / 4096 = 0 := by omega
    exact ⟨0xA0, 0xBF, by rw [hzero], by omega, by omega⟩
  · have hthirteen : v / 4096 = 0xD := by omega
    exact ⟨0x80, 0x9F, by rw [hthirteen], by omega, by omega⟩
  · exact ⟨0x80, 0xBF, rfl, by omega, by omega⟩
  all_goals omega

theorem opens_four (h : 0x10000 ≤ v) (h' : v < 0x110000) :
    Opens (v / 262144 % 8 + 240) 3 (v / 262144) (v / 4096 % 64 + 128) := by
  have hvalue : v / 262144 % 8 + 240 - 240 = v / 262144 := by omega
  simp only [Opens, lead, toNat_byte (show v / 262144 % 8 + 240 < 256 by omega)]
  rw [if_neg (by omega), if_neg (by omega), if_neg (by omega), if_neg (by omega),
    if_neg (by omega), hvalue]
  split_ifs with hfirst hmiddle hlast
  · have hzero : v / 262144 = 0 := by omega
    exact ⟨0x90, 0xBF, by rw [hzero], by omega, by omega⟩
  · exact ⟨0x80, 0xBF, rfl, by omega, by omega⟩
  · have hfour : v / 262144 = 4 := by omega
    exact ⟨0x80, 0x8F, by rw [hfour], by omega, by omega⟩
  · omega

theorem decodeFrom_opens (h : Opens n need value v) :
    ∃ low high, low ≤ v ∧ v ≤ high ∧ decodeFrom none (UInt8.ofNat n :: bs) =
      decodeFrom (some ⟨need, value, low, high, [UInt8.ofNat n]⟩) bs := by
  obtain ⟨low, high, hlead, hlow, hhigh⟩ := h
  exact ⟨low, high, hlow, hhigh, by simp only [decodeFrom, hlead]⟩

/-- The bytes of a character are read as the character. -/
theorem decodeFrom_char (c : Char) :
    decodeFrom none (String.utf8EncodeChar c ++ bs) = .char c :: decodeFrom none bs := by
  have hvalid : c.toNat < 0xD800 ∨ 0xDFFF < c.toNat ∧ c.toNat < 0x110000 := c.valid
  have hv : c.val.toNat = c.toNat := rfl
  refine Eq.trans ?_ (congrArg (Symbol.char · :: decodeFrom none bs) (Char.ofNat_toNat c))
  simp only [String.utf8EncodeChar, hv]
  generalize c.toNat = v at hvalid
  split_ifs with hone htwo hthree <;> simp only [List.cons_append, List.nil_append]
  · have hlead : lead (UInt8.ofNat v) = .ascii (Char.ofNat v) := by
      simp only [lead, toNat_byte (show v < 256 by omega)]
      exact if_pos (by omega)
    simp only [decodeFrom, hlead]
  · obtain ⟨low, high, hlow, hhigh, hopens⟩ :=
      decodeFrom_opens (opens_two (v := v) (by omega) (by omega))
    rw [hopens]
    exact decodeFrom_last (by omega) hlow hhigh (by omega)
  · obtain ⟨low, high, hlow, hhigh, hopens⟩ :=
      decodeFrom_opens (opens_three (v := v) (by omega) (by omega) (by omega))
    rw [hopens, decodeFrom_next (by omega) hlow hhigh rfl]
    exact decodeFrom_last (by omega) (by omega) (by omega) (by omega)
  · obtain ⟨low, high, hlow, hhigh, hopens⟩ :=
      decodeFrom_opens (opens_four (v := v) (by omega) (by omega))
    rw [hopens, decodeFrom_next (by omega) hlow hhigh rfl,
      decodeFrom_next (by omega) (by omega) (by omega) rfl]
    exact decodeFrom_last (by omega) (by omega) (by omega) (by omega)

/-- The bytes of a text are read as its characters. -/
theorem decode_encode (cs : List Char) : decode (encode cs) = symbols cs := by
  rw [decode, encode, symbols]
  induction cs with
  | nil => rfl
  | cons c cs ih => rw [List.flatMap_cons, decodeFrom_char, ih, List.map_cons]

theorem lossy_encode (cs : List Char) : lossy (encode cs) = String.ofList cs := by
  rw [lossy, decode_encode, symbols, List.map_map]
  exact congrArg String.ofList (List.map_id cs)

end DepositSync.Text.Utf8
