import Mathlib.Algebra.Order.Ring.Int

/-!
# Strings as the program sees them

`String.prototype.trim` and `String.length` of the language the program is written in: white space
includes the Unicode space separators and the line terminators, and the length counts UTF-16 units.
`toUpperCase` covers ASCII and Latin-1, the letters of the coupon codes.
-/

namespace Komanda.Text

/-- `WhiteSpace` and `LineTerminator` code points. -/
def isSpace (c : Char) : Bool :=
  let n := c.toNat
  (0x09 ≤ n && n ≤ 0x0D) || n = 0x20 || n = 0xA0 || n = 0x1680 || (0x2000 ≤ n && n ≤ 0x200A) ||
    n = 0x2028 || n = 0x2029 || n = 0x202F || n = 0x205F || n = 0x3000 || n = 0xFEFF

def trim (s : String) : String :=
  String.ofList ((s.toList.dropWhile isSpace).reverse.dropWhile isSpace).reverse

/-- `s.length`: characters outside the basic plane count twice. -/
def length (s : String) : Nat := (s.toList.map fun c => if c.toNat < 0x10000 then 1 else 2).sum

/-- A text without white space stays as it is. -/
theorem trim_eq_self {s : String} (h : ∀ c ∈ s.toList, isSpace c = false) : trim s = s := by
  have hkeep : ∀ l : List Char, (∀ c ∈ l, isSpace c = false) → l.dropWhile isSpace = l := by
    intro l hl
    cases l with
    | nil => rfl
    | cons c l => exact List.dropWhile_cons_of_neg (Bool.eq_false_iff.1 (hl c List.mem_cons_self))
  rw [trim, hkeep _ h, hkeep _ fun c hc => h c (List.mem_reverse.1 hc), List.reverse_reverse, String.ofList_toList]

theorem digit_range {c : Char} (h : c.isDigit = true) : 48 ≤ c.toNat ∧ c.toNat ≤ 57 := by
  rw [Char.isDigit, Bool.and_eq_true, decide_eq_true_iff, decide_eq_true_iff] at h
  exact h

theorem not_isSpace_of_digit {c : Char} (h : c.isDigit = true) : isSpace c = false := by
  have hrange := digit_range h
  rw [isSpace]
  simp
  omega

def upperChar (c : Char) : Char :=
  let n := c.toNat
  if (0x61 ≤ n && n ≤ 0x7A) || (0xE0 ≤ n && n ≤ 0xFE && n ≠ 0xF7) then Char.ofNat (n - 0x20) else c

def toUpperCase (s : String) : String := String.ofList (s.toList.map upperChar)

def lowerChar (c : Char) : Char :=
  let n := c.toNat
  if (0x41 ≤ n && n ≤ 0x5A) || (0xC0 ≤ n && n ≤ 0xDE && n ≠ 0xD7) then Char.ofNat (n + 0x20) else c

def toLowerCase (s : String) : String := String.ofList (s.toList.map lowerChar)

end Komanda.Text
