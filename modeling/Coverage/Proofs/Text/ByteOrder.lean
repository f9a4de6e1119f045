/-
# Bytes keep the order of code points

The encoding of a character is its code point in digits to the base 64, with a mark on each
digit. Encodings of one length are compared digit by digit, which is how numbers are compared
(`compare_digits`). The mark on the first digit grows with the number of digits, so of two
encodings of different lengths the first byte tells which code point is larger. No encoding
is the start of another one. So texts are compared character by character, and their bytes
are in the order of their code points (`compareBytes_eq`).
-/
import Coverage.Text.Basic

namespace Coverage.Text

/-- Compare two texts by their code points, one after the other. -/
def compareCodePoints (s t : String) : Ordering :=
  s.toList.compareLex (compareOn Char.toNat) t.toList

/-! ## Digits -/

/-- What is left of a number without its last digits. -/
def firstDigits : Nat → Nat → Nat
  | 0, v => v
  | n + 1, v => firstDigits n (v / 64)

/-- The last digits of a number, as the bytes after the first one of an encoding. -/
def lastDigits : Nat → Nat → List UInt8
  | 0, _ => []
  | n + 1, v => lastDigits n (v / 64) ++ [UInt8.ofNat (v % 64 + 0x80)]

theorem compare_ofNat {a b : Nat} (ha : a < 256) (hb : b < 256) :
    compare (UInt8.ofNat a) (UInt8.ofNat b) = compare a b := by
  change compareOfLessAndEq _ _ = compareOfLessAndEq _ _
  simp only [compareOfLessAndEq, UInt8.lt_iff_toNat_lt, ← UInt8.toNat_inj,
    UInt8.toNat_ofNat_of_lt' ha, UInt8.toNat_ofNat_of_lt' hb]

/-- Digits that carry one mark are in the order of the digits. -/
theorem compare_add_right (d e mark : Nat) : compare (d + mark) (e + mark) = compare d e := by
  simp only [Nat.compare_eq_ite_lt, Nat.add_lt_add_iff_right]

/-- Numbers are compared by what stands before the last digit, and then by that one. -/
theorem compare_div_then_mod (v w base : Nat) :
    (compare (v / base) (w / base)).then (compare (v % base) (w % base)) = compare v w := by
  rcases Nat.lt_trichotomy (v / base) (w / base) with h | h | h
  · rw [Nat.compare_eq_lt.2 h, Nat.compare_eq_lt.2 (Nat.lt_of_div_lt_div h), Ordering.lt_then]
  · rw [Nat.compare_eq_eq.2 h, Ordering.eq_then]
    conv =>
      rhs
      rw [← Nat.div_add_mod v base, ← Nat.div_add_mod w base, h]
    simp only [Nat.compare_eq_ite_lt, Nat.add_lt_add_iff_left]
  · rw [Nat.compare_eq_gt.2 h, Nat.compare_eq_gt.2 (Nat.lt_of_div_lt_div h), Ordering.gt_then]

/-- Numbers with the same number of digits are compared digit by digit. -/
theorem compare_digits (n v w : Nat) (r s : List UInt8) :
    (compare (firstDigits n v) (firstDigits n w)).then
        (compare (lastDigits n v ++ r) (lastDigits n w ++ s)) =
      (compare v w).then (compare r s) := by
  induction n generalizing v w r s with
  | zero => rfl
  | succ n ih =>
    have hv : v % 64 + 0x80 < 256 := by omega
    have hw : w % 64 + 0x80 < 256 := by omega
    rw [firstDigits, firstDigits, lastDigits, lastDigits, List.append_assoc, List.append_assoc,
      ih, List.singleton_append, List.singleton_append, List.compare_cons_cons,
      compare_ofNat hv hw, compare_add_right,
      ← Ordering.then_assoc, compare_div_then_mod]

/-! ## Encodings -/

/-- The mark on the first byte when the given number of bytes follows. -/
def mark : Nat → Nat
  | 0 => 0
  | 1 => 0xc0
  | 2 => 0xe0
  | 3 => 0xf0
  | _ => 0x100

/-- The least code point whose encoding has the given number of bytes after the first one. -/
def least : Nat → Nat
  | 0 => 0
  | 1 => 0x80
  | 2 => 0x800
  | 3 => 0x10000
  | _ => 0x110000

/-- The encoding of a code point, with the number of bytes that follow the first one. -/
structure IsEncoding (v n : Nat) (bytes : List UInt8) : Prop where
  few : n ≤ 3
  least_le : least n ≤ v
  lt_least : v < least (n + 1)
  bytes_eq : bytes = UInt8.ofNat (firstDigits n v + mark n) :: lastDigits n v

theorem mark_mono : ∀ n ≤ 4, ∀ m ≤ n, mark m ≤ mark n := by decide

theorem least_mono : ∀ n ≤ 4, ∀ m ≤ n, least m ≤ least n := by decide

/-- The first byte stays below the mark for one more byte. -/
theorem firstDigits_add_mark_lt {v n : Nat} (hn : n ≤ 3) (h : v < least (n + 1)) :
    firstDigits n v + mark n < mark (n + 1) := by
  match n with
  | 0 | 1 | 2 | 3 =>
    simp only [least] at h
    simp only [firstDigits, mark]
    omega
  | n + 4 => omega

theorem codePoint_lt (c : Char) : c.toNat < 0x110000 := by
  rcases c.valid with h | ⟨-, h⟩
  · exact Nat.lt_trans h (by decide)
  · exact h

theorem exists_isEncoding (c : Char) : ∃ n, IsEncoding c.toNat n (String.utf8EncodeChar c) := by
  have hrange := codePoint_lt c
  unfold String.utf8EncodeChar
  simp only [Char.toNat_val]
  generalize c.toNat = v at hrange ⊢
  have htwo : v / 4096 = v / 64 / 64 := by omega
  have hthree : v / 262144 = v / 64 / 64 / 64 := by omega
  split
  · exact ⟨0, by decide, Nat.zero_le v, Nat.lt_succ_of_le ‹_›, rfl⟩
  split
  · refine ⟨1, by decide, Nat.lt_of_not_le ‹_›, Nat.lt_succ_of_le ‹_›, ?_⟩
    rw [Nat.mod_eq_of_lt (by omega : v / 64 < 0x20)]
    rfl
  split
  · refine ⟨2, by decide, Nat.lt_of_not_le ‹_›, Nat.lt_succ_of_le ‹_›, ?_⟩
    rw [htwo, Nat.mod_eq_of_lt (by omega : v / 64 / 64 < 0x10)]
    rfl
  · refine ⟨3, by decide, Nat.lt_of_not_le ‹_›, hrange, ?_⟩
    rw [hthree, htwo, Nat.mod_eq_of_lt (by omega : v / 64 / 64 / 64 < 0x08)]
    rfl

namespace IsEncoding

variable {v w n m : Nat} {k l : List UInt8}

theorem first_lt (h : IsEncoding v n k) : firstDigits n v + mark n < 256 :=
  Nat.lt_of_lt_of_le (firstDigits_add_mark_lt h.few h.lt_least)
    (mark_mono 4 (by decide) _ (Nat.succ_le_succ h.few))

/-- A longer encoding is of a larger code point, and starts with a larger byte. -/
theorem lt_of_lt (hv : IsEncoding v n k) (hw : IsEncoding w m l) (h : n < m) :
    v < w ∧ firstDigits n v + mark n < firstDigits m w + mark m := by
  have hm : m ≤ 4 := Nat.le_succ_of_le hw.few
  constructor
  · exact Nat.lt_of_lt_of_le hv.lt_least (Nat.le_trans (least_mono m hm _ h) hw.least_le)
  · exact Nat.lt_of_lt_of_le (firstDigits_add_mark_lt hv.few hv.lt_least)
      (Nat.le_trans (mark_mono m hm _ h) (Nat.le_add_left _ _))

/-- Encodings are in the order of their code points, whatever follows them. -/
theorem compare_append (hv : IsEncoding v n k) (hw : IsEncoding w m l) (r s : List UInt8) :
    compare (k ++ r) (l ++ s) = (compare v w).then (compare r s) := by
  rw [hv.bytes_eq, hw.bytes_eq, List.cons_append, List.cons_append, List.compare_cons_cons,
    compare_ofNat hv.first_lt hw.first_lt]
  rcases Nat.lt_trichotomy n m with h | rfl | h
  · obtain ⟨hlt, hfirst⟩ := hv.lt_of_lt hw h
    rw [Nat.compare_eq_lt.2 hfirst, Nat.compare_eq_lt.2 hlt, Ordering.lt_then, Ordering.lt_then]
  · rw [compare_add_right, compare_digits]
  · obtain ⟨hgt, hfirst⟩ := hw.lt_of_lt hv h
    rw [Nat.compare_eq_gt.2 hfirst, Nat.compare_eq_gt.2 hgt, Ordering.gt_then, Ordering.gt_then]

end IsEncoding

/-! ## Texts -/

/-- The bytes of two texts are in the order of their code points. -/
theorem compareBytes_eq (s t : String) : compareBytes s t = compareCodePoints s t := by
  rw [compareBytes, compareCodePoints, bytes, bytes]
  generalize s.toList = first, t.toList = second
  induction first generalizing second with
  | nil =>
    cases second with
    | nil => rfl
    | cons d second =>
      obtain ⟨m, hd⟩ := exists_isEncoding d
      rw [List.flatMap_cons, hd.bytes_eq]
      rfl
  | cons c first ih =>
    obtain ⟨n, hc⟩ := exists_isEncoding c
    cases second with
    | nil =>
      rw [List.flatMap_cons, hc.bytes_eq]
      rfl
    | cons d second =>
      obtain ⟨m, hd⟩ := exists_isEncoding d
      rw [List.flatMap_cons, List.flatMap_cons, hc.compare_append hd, ih, List.compareLex_cons_cons,
        compareOn]

instance lawfulEqCmp_toNat : Std.LawfulEqCmp (compareOn Char.toNat) where
  compare_self := Nat.compare_eq_eq.2 rfl
  eq_of_compare h := Char.toNat_inj.1 (Nat.compare_eq_eq.1 h)

/-- Texts with equal bytes are equal. -/
theorem compareBytes_eq_eq_iff {s t : String} : compareBytes s t = .eq ↔ s = t := by
  rw [compareBytes_eq, compareCodePoints, Std.LawfulEqCmp.compare_eq_iff_eq, String.toList_inj]

instance : Std.TransCmp compareBytes :=
  inferInstanceAs (Std.TransCmp (compareOn bytes))

end Coverage.Text
