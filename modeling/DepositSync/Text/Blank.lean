/-!
# DepositSync.Text.Blank

Blank characters, trimming, and the reading of an optional text in which a blank value counts as
absent. Blank means the Unicode property White_Space: no-break space, ideographic space and the
line separators are blank, while zero width space and the byte order mark are not.
-/

namespace DepositSync.Text

/-- Does the character have the Unicode property White_Space? -/
def isBlank (c : Char) : Bool :=
  let n := c.toNat
  (9 ≤ n && n ≤ 13) || n == 0x20 || n == 0x85 || n == 0xA0 || n == 0x1680 ||
    (0x2000 ≤ n && n ≤ 0x200A) || n == 0x2028 || n == 0x2029 || n == 0x202F || n == 0x205F ||
    n == 0x3000

/-- The text without the blank characters at its end. -/
def trimEnd (cs : List Char) : List Char :=
  (cs.reverse.dropWhile isBlank).reverse

/-- The text without the blank characters at either end. -/
def trimmed (cs : List Char) : List Char :=
  trimEnd (cs.dropWhile isBlank)

/-- The text without the blank characters at either end. -/
def trim (s : String) : String :=
  String.ofList (trimmed s.toList)

/-- Is every character blank? -/
def isBlankText (s : String) : Bool :=
  s.toList.all isBlank

/-- An optional text that is blank counts as absent; any other is kept as it is, untrimmed. -/
def nonBlank (value : Option String) : Option String :=
  value.filter fun s => !isBlankText s

@[simp] theorem nonBlank_none : nonBlank none = none := rfl

theorem nonBlank_some (s : String) :
    nonBlank (some s) = if isBlankText s then none else some s := by
  cases h : isBlankText s <;> simp [nonBlank, Option.filter, h]

/-- What `nonBlank` keeps is not blank. -/
theorem not_isBlankText_of_nonBlank {value : Option String} {s : String}
    (h : nonBlank value = some s) : isBlankText s = false := by
  cases value with
  | none => simp at h
  | some t =>
      rw [nonBlank_some] at h
      split at h
      · cases h
      · cases h; simpa using ‹¬isBlankText _ = true›

end DepositSync.Text
