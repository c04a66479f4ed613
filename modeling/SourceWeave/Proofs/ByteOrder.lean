import Mathlib.Algebra.Group.Nat.Defs
import Mathlib.Data.List.Lex

/-!
# The order of texts and of their bytes

Texts are compared character by character, and the names of options are kept in this order. It is
the order of the bytes that the texts are written in as well, `bytes_lt_bytes`: the first byte of a
character tells how many there are, more of them begin with a larger byte, and the others hold the
number of the character in groups of six bits, the most significant group first.
-/

namespace SourceWeave.Text

/-- The bytes that a text is written in. -/
def bytes (text : String) : List UInt8 :=
  text.toByteArray.data.toList

/-- How many bytes follow the first byte of the character with a number. -/
def followers (n : Nat) : Nat :=
  if n ≤ 0x7f then 0 else if n ≤ 0x7ff then 1 else if n ≤ 0xffff then 2 else 3

/-- What the first byte counts from if so many bytes follow it. -/
def firstBase : Nat → Nat
  | 0 => 0
  | 1 => 0xc0
  | 2 => 0xe0
  | _ => 0xf0

/-- The first byte of the character with a number. -/
def firstByte (n : Nat) : Nat :=
  n / 64 ^ followers n + firstBase (followers n)

/-- The bytes for the last `count` groups of six bits of a number. -/
def sixBitBytes : Nat → Nat → List UInt8
  | 0, _ => []
  | count + 1, n => UInt8.ofNat (n / 64 ^ count % 64 + 128) :: sixBitBytes count n

theorem bytes_eq_flatMap (text : String) :
    bytes text = text.toList.flatMap String.utf8EncodeChar := by
  rw [bytes, ← String.utf8Encode_toList, List.utf8Encode]
  simp

/-- A smaller first byte decides. -/
theorem cons_lt_cons_of_lt {m n : Nat} (h : m < n) (hn : n < 256) (front back : List UInt8) :
    UInt8.ofNat m :: front < UInt8.ofNat n :: back := by
  rw [List.cons_lt_cons_iff, UInt8.lt_iff_toNat_lt, UInt8.toNat_ofNat_of_lt' (h.trans hn),
    UInt8.toNat_ofNat_of_lt' hn]
  exact .inl h

/-- If the groups in front are the same, the other groups decide. -/
theorem sixBitBytes_append_lt {m n count : Nat} (h : m < n)
    (hsame : m / 64 ^ count = n / 64 ^ count) (front back : List UInt8) :
    sixBitBytes count m ++ front < sixBitBytes count n ++ back := by
  induction count with
  | zero =>
      simp only [Nat.pow_zero, Nat.div_one] at hsame
      omega
  | succ count ih =>
      rw [Nat.pow_succ, ← Nat.div_div_eq_div_mul, ← Nat.div_div_eq_div_mul] at hsame
      simp only [sixBitBytes, List.cons_append]
      rcases Nat.lt_or_eq_of_le (Nat.div_le_div_right (c := 64 ^ count) h.le) with hlt | heq
      · exact cons_lt_cons_of_lt (by omega) (by omega) _ _
      · rw [heq, List.cons_lt_cons_iff]
        exact .inr ⟨rfl, ih heq⟩

theorem firstByte_lt {n : Nat} (h : n < 0x110000) : firstByte n < 256 := by
  unfold firstByte followers
  split_ifs <;> simp only [firstBase] <;> omega

/-- More bytes begin with a larger one. -/
theorem firstByte_lt_firstByte {m n : Nat} (h : followers m < followers n) :
    firstByte m < firstByte n := by
  unfold followers at h
  unfold firstByte followers
  split_ifs at h ⊢ <;> simp only [firstBase] <;> omega

theorem followers_le_followers {m n : Nat} (h : m ≤ n) : followers m ≤ followers n := by
  unfold followers
  split_ifs <;> omega

theorem val_lt (c : Char) : c.val.toNat < 0x110000 := by
  have hvalid : c.val.toNat < 0xd800 ∨ 0xdfff < c.val.toNat ∧ c.val.toNat < 0x110000 := c.valid
  omega

theorem utf8EncodeChar_eq (c : Char) :
    String.utf8EncodeChar c =
      UInt8.ofNat (firstByte c.val.toNat) :: sixBitBytes (followers c.val.toNat) c.val.toNat := by
  have hmax := val_lt c
  rw [String.utf8EncodeChar]
  unfold firstByte followers
  generalize c.val.toNat = n at *
  split_ifs
  · simp [firstBase, sixBitBytes]
  · rw [Nat.mod_eq_of_lt (a := n / 64) (by omega)]
    simp [firstBase, sixBitBytes]
  · rw [Nat.mod_eq_of_lt (a := n / 4096) (by omega)]
    simp [firstBase, sixBitBytes]
  · rw [Nat.mod_eq_of_lt (a := n / 262144) (by omega)]
    simp [firstBase, sixBitBytes]

/-- The bytes of a smaller character are smaller, whatever follows. -/
theorem utf8EncodeChar_append_lt {c d : Char} (h : c < d) (front back : List UInt8) :
    String.utf8EncodeChar c ++ front < String.utf8EncodeChar d ++ back := by
  have hval : c.val.toNat < d.val.toNat := h
  have hfirst := firstByte_lt (val_lt d)
  rw [utf8EncodeChar_eq, utf8EncodeChar_eq]
  generalize c.val.toNat = m at *
  generalize d.val.toNat = n at *
  rw [List.cons_append, List.cons_append]
  rcases Nat.lt_or_eq_of_le (followers_le_followers hval.le) with hmore | hsame
  · exact cons_lt_cons_of_lt (firstByte_lt_firstByte hmore) hfirst _ _
  · -- with equally many bytes the number decides, in the first byte or behind it
    rw [firstByte, firstByte, hsame] at *
    rcases Nat.lt_or_eq_of_le (Nat.div_le_div_right (c := 64 ^ followers n) hval.le) with hlt | heq
    · exact cons_lt_cons_of_lt (Nat.add_lt_add_right hlt _) hfirst _ _
    · rw [heq, List.cons_lt_cons_iff]
      exact .inr ⟨rfl, sixBitBytes_append_lt hval heq front back⟩

/-- The bytes of a smaller text are smaller. -/
theorem bytes_lt_bytes {text other : String} (h : text < other) : bytes text < bytes other := by
  have hchars : text.toList < other.toList := h
  rw [bytes_eq_flatMap, bytes_eq_flatMap]
  generalize text.toList = cs at hchars
  generalize other.toList = ds at hchars
  induction cs generalizing ds with
  | nil =>
      cases ds with
      | nil => exact absurd hchars (by simp)
      | cons d ds =>
          rw [List.flatMap_nil, List.flatMap_cons]
          cases hbytes : String.utf8EncodeChar d with
          | nil => exact absurd hbytes String.utf8EncodeChar_ne_nil
          | cons first rest => exact List.nil_lt_cons _ _
  | cons c cs ih =>
      cases ds with
      | nil => exact absurd hchars (by simp)
      | cons d ds =>
          rw [List.flatMap_cons, List.flatMap_cons]
          rcases List.cons_lt_cons_iff.mp hchars with hlt | ⟨rfl, hrest⟩
          · exact utf8EncodeChar_append_lt hlt _ _
          · exact List.append_left_lt (ih _ hrest)

end SourceWeave.Text
