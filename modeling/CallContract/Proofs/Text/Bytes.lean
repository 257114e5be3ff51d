import Mathlib.Algebra.Group.Nat.Defs

/-!
# Texts and their bytes

Texts are compared character by character, and the bytes that write them in UTF-8 compare alike
(`lt_iff_bytes_lt`). A character is a first byte and the last digits of its code to base 64, one byte each
(`encode_cases`). A first byte that announces more bytes is larger, and so the first byte at which two characters
differ settles their order (`encode_append_lt`).
-/

namespace CallContract.Text

/-- The bytes of a text in UTF-8. -/
def bytes (s : String) : List UInt8 :=
  s.toUTF8.data.toList

theorem bytes_eq (s : String) : bytes s = s.toList.flatMap String.utf8EncodeChar := by
  rw [bytes, String.toUTF8, ← String.utf8Encode_toList, List.utf8Encode, List.data_toByteArray]

/-! ## Digits to base 64 -/

/-- The last `j` digits of a number to base 64, each as a byte that continues a character. -/
def continuation (n : Nat) : Nat → List UInt8
  | 0 => []
  | j + 1 => UInt8.ofNat (n / 64 ^ j % 64 + 128) :: continuation n j

theorem ofNat_lt {m n : Nat} (h : m < n) (hn : n < 256) : UInt8.ofNat m < UInt8.ofNat n := by
  rw [UInt8.lt_iff_toNat_lt, UInt8.toNat_ofNat', UInt8.toNat_ofNat']
  omega

/-- Digits are in the order of the number that they write, whatever comes behind them. -/
theorem continuation_append_lt {m n j : Nat} (h : m % 64 ^ j < n % 64 ^ j) (xs ys : List UInt8) :
    continuation m j ++ xs < continuation n j ++ ys := by
  induction j with
  | zero => omega
  | succ j ih =>
    rw [Nat.mod_pow_succ, Nat.mod_pow_succ] at h
    rcases Nat.lt_trichotomy (m / 64 ^ j % 64) (n / 64 ^ j % 64) with hlt | heq | hgt
    · exact .rel (ofNat_lt (by omega) (by omega))
    · rw [heq] at h
      rw [continuation, continuation, heq]
      exact .cons (ih (by omega))
    · -- a larger digit outweighs all that follow it
      have hrest : m % 64 ^ j < 64 ^ j := Nat.mod_lt _ (Nat.pow_pos (by decide))
      have hle := Nat.mul_le_mul_left (64 ^ j) hgt
      rw [Nat.mul_succ] at hle
      omega

/-! ## Characters -/

/-- A character is a first byte and the bytes that continue it, and the first byte tells how many these are. -/
theorem encode_cases (c : Char) : ∃ lead j, String.utf8EncodeChar c = UInt8.ofNat lead :: continuation c.toNat j ∧
    (j = 0 ∧ c.toNat < 0x80 ∧ lead = c.toNat ∨
      j = 1 ∧ 0x80 ≤ c.toNat ∧ c.toNat < 0x800 ∧ lead = c.toNat / 64 + 192 ∨
      j = 2 ∧ 0x800 ≤ c.toNat ∧ c.toNat < 0x10000 ∧ lead = c.toNat / 4096 + 224 ∨
      j = 3 ∧ 0x10000 ≤ c.toNat ∧ c.toNat < 0x110000 ∧ lead = c.toNat / 262144 + 240) := by
  have hvalid : c.toNat < 0xD800 ∨ 0xDFFF < c.toNat ∧ c.toNat < 0x110000 := c.valid
  unfold String.utf8EncodeChar
  simp only [Char.toNat_val]
  split
  · exact ⟨_, 0, rfl, by omega⟩
  split
  · refine ⟨_, 1, ?_, Or.inr (.inl ⟨rfl, by omega, by omega, rfl⟩)⟩
    rw [Nat.mod_eq_of_lt (show c.toNat / 64 < 32 by omega)]
    simp [continuation]
  split
  · refine ⟨_, 2, ?_, Or.inr (.inr (.inl ⟨rfl, by omega, by omega, rfl⟩))⟩
    rw [Nat.mod_eq_of_lt (show c.toNat / 4096 < 16 by omega)]
    simp [continuation]
  · refine ⟨_, 3, ?_, Or.inr (.inr (.inr ⟨rfl, by omega, by omega, rfl⟩))⟩
    rw [Nat.mod_eq_of_lt (show c.toNat / 262144 < 8 by omega)]
    simp [continuation]

theorem encode_append_lt {c d : Char} (h : c < d) (xs ys : List UInt8) :
    String.utf8EncodeChar c ++ xs < String.utf8EncodeChar d ++ ys := by
  have hlt : c.toNat < d.toNat := h
  obtain ⟨lead, j, hc, hj⟩ := encode_cases c
  obtain ⟨lead', j', hd, hj'⟩ := encode_cases d
  rw [hc, hd]
  by_cases hlead : lead < lead'
  · exact .rel (ofNat_lt hlead (by omega))
  · obtain ⟨rfl, rfl⟩ : lead = lead' ∧ j = j' := by omega
    refine .cons (continuation_append_lt ?_ xs ys)
    rcases hj with ⟨rfl, _⟩ | ⟨rfl, _⟩ | ⟨rfl, _⟩ | ⟨rfl, _⟩ <;> omega

/-! ## Texts -/

theorem flatMap_encode_lt {cs ds : List Char} (h : cs < ds) :
    cs.flatMap String.utf8EncodeChar < ds.flatMap String.utf8EncodeChar := by
  induction h with
  | @nil d ds =>
    obtain ⟨lead, j, hd, -⟩ := encode_cases d
    rw [List.flatMap_cons, hd]
    exact .nil
  | rel h => exact encode_append_lt h _ _
  | cons _ ih => exact List.append_left_lt ih

/-- **The order of texts is that of their bytes.** -/
theorem lt_iff_bytes_lt {s t : String} : s < t ↔ bytes s < bytes t := by
  have hlt : ∀ {u w : String}, u < w → bytes u < bytes w := by
    intro u w h
    rw [bytes_eq, bytes_eq]
    exact flatMap_encode_lt (String.lt_iff.1 h)
  constructor
  · exact hlt
  · intro h
    apply String.not_le.1
    intro hle
    by_cases heq : t = s
    · subst heq
      exact List.lt_irrefl _ h
    · exact List.lt_asymm h (hlt (String.not_le.1 fun hst => heq (String.le_antisymm hle hst)))

end CallContract.Text
