import Mathlib.Algebra.Ring.Nat

/-!
# Addresses and netmasks

The addresses of a host, as their bits, and the test for netmasks of `dns.rs`.

* `contiguousMask_iff`: a netmask is contiguous if its bits are ones and then zeros.
-/

namespace NexusOps.Discovery

/-- An address, from its most significant bit. -/
inductive IpAddr
  | v4 (bits : BitVec 32)
  | v6 (bits : BitVec 128)
  deriving DecidableEq, Repr

/-- Whether the bits of a netmask that are set come first. -/
def contiguousMask (mask : IpAddr) : Bool :=
  let (bits, width) := match mask with
    | .v4 value => (value.setWidth 128, 32)
    | .v6 value => (value, 128)
  let relevant := if width = 32 then bits <<< 96 else bits
  let inverted := ~~~relevant
  -- the addition wraps around
  inverted = 0 || inverted &&& (inverted + 1) = 0

/-- The bits are `k` ones and then zeros, from the most significant one. -/
def Leading {w : Nat} (bits : BitVec w) (k : Nat) : Prop :=
  k ≤ w ∧ ∀ i < w, bits.getMsbD i = decide (i < k)

/-- A number has no one in common with its successor if and only if its ones are at its end. -/
theorem and_add_one_eq_zero_iff {x : BitVec 128} :
    x &&& (x + 1) = 0 ↔ ∃ n ≤ 128, x.toNat + 1 = 2 ^ n := by
  have hlt := x.isLt
  by_cases hfull : x.toNat + 1 = 2 ^ 128
  · refine iff_of_true ?_ ⟨128, le_rfl, hfull⟩
    have hall : x + 1 = 0 := by
      apply BitVec.eq_of_toNat_eq
      rw [BitVec.toNat_add]
      change (x.toNat + 1) % 2 ^ 128 = 0
      rw [hfull, Nat.mod_self]
    rw [hall]
    exact BitVec.and_zero
  · have hsucc : (x + 1).toNat = x.toNat + 1 := by
      rw [BitVec.toNat_add]
      exact Nat.mod_eq_of_lt (by change x.toNat + 1 < 2 ^ 128; omega)
    rw [← BitVec.toNat_inj, BitVec.toNat_and, hsucc]
    change x.toNat &&& (x.toNat + 1) = 0 ↔ _
    rw [Nat.and_comm]
    refine (Nat.and_sub_one_eq_zero_iff_isPowerOfTwo (Nat.succ_ne_zero _)).trans ⟨?_, ?_⟩
    · rintro ⟨n, hn⟩
      refine ⟨n, ?_, hn⟩
      rw [← Nat.pow_le_pow_iff_right (a := 2) (by decide), ← hn]
      exact hlt
    · rintro ⟨n, -, hn⟩
      exact ⟨n, hn⟩

theorem toNat_add_one_eq_iff {x : BitVec 128} {n : Nat} (hn : n ≤ 128) :
    x.toNat + 1 = 2 ^ n ↔ ∀ i < 128, x.getLsbD i = decide (i < n) := by
  have hpow : 2 ^ n ≤ 2 ^ 128 := Nat.pow_le_pow_right (by decide) hn
  have hpos := Nat.two_pow_pos n
  constructor
  · intro h i _
    have hx : x.toNat = 2 ^ n - 1 := by omega
    rw [BitVec.getLsbD, hx, Nat.testBit_two_pow_sub_one]
  · intro h
    have hx : x = BitVec.ofNat 128 (2 ^ n - 1) := by
      refine BitVec.eq_of_getLsbD_eq fun i hi => ?_
      rw [h i hi, BitVec.getLsbD_ofNat, Nat.testBit_two_pow_sub_one, decide_eq_true hi,
        Bool.true_and]
    rw [hx, BitVec.toNat_ofNat, Nat.mod_eq_of_lt (by omega)]
    omega

/-- The bits that are not set are the least significant ones. -/
theorem contiguous_iff {x : BitVec 128} :
    (~~~x = 0 ∨ ~~~x &&& (~~~x + 1) = 0) ↔ ∃ k, Leading x k := by
  have hzero : ~~~x = 0 → ~~~x &&& (~~~x + 1) = 0 := fun h => by rw [h]; rfl
  rw [or_iff_right_of_imp hzero, and_add_one_eq_zero_iff]
  have hbit : ∀ i < 128, (~~~x).getLsbD i = !x.getMsbD (127 - i) := by
    intro i hi
    have hindex : 128 - 1 - (127 - i) = i := by omega
    rw [BitVec.getLsbD_not, BitVec.getMsbD, hindex]
    simp [hi]
    omega
  constructor
  · rintro ⟨n, hn, h⟩
    refine ⟨128 - n, Nat.sub_le .., fun i hi => ?_⟩
    have h' := (toNat_add_one_eq_iff hn).1 h (127 - i) (by omega)
    rw [hbit _ (by omega), show 127 - (127 - i) = i by omega] at h'
    rw [← Bool.not_not (x.getMsbD i), h', ← decide_not]
    exact decide_eq_decide.2 (by omega)
  · rintro ⟨k, hk, h⟩
    refine ⟨128 - k, Nat.sub_le .., (toNat_add_one_eq_iff (Nat.sub_le ..)).2 fun i hi => ?_⟩
    rw [hbit i hi, h _ (by omega), ← decide_not]
    exact decide_eq_decide.2 (by omega)

/-- An address of 32 bits stands before 96 zeros. -/
theorem leading_v4_iff {bits : BitVec 32} :
    (∃ k, Leading (bits.setWidth 128 <<< 96) k) ↔ ∃ k, Leading bits k := by
  have hbit : ∀ i < 128, (bits.setWidth 128 <<< 96).getMsbD i =
      (decide (i < 32) && bits.getMsbD i) := by
    intro i hi
    have hindex : 128 - 1 - i - 96 = 32 - 1 - i := by omega
    have hhigh : 128 - 1 - i < 96 ↔ ¬i < 32 := by omega
    simp only [BitVec.getMsbD, BitVec.getLsbD_shiftLeft, BitVec.getLsbD_setWidth, hindex, hhigh]
    by_cases hlow : i < 32
    · have hin : 128 - 1 - i < 128 := by omega
      have hin' : 32 - 1 - i < 128 := by omega
      simp [hi, hlow, hin, hin']
    · simp [hlow]
  constructor
  · rintro ⟨k, -, h⟩
    have hk : ¬32 < k := by
      intro hk
      have h' := h 32 (by decide)
      rw [hbit 32 (by decide)] at h'
      simp [hk] at h'
    refine ⟨k, not_lt.1 hk, fun i hi => ?_⟩
    rw [← h i (by omega), hbit i (by omega), decide_eq_true hi, Bool.true_and]
  · rintro ⟨k, hk, h⟩
    refine ⟨k, by omega, fun i hi => ?_⟩
    rw [hbit i hi]
    by_cases hlow : i < 32
    · rw [decide_eq_true hlow, Bool.true_and, h i hlow]
    · rw [decide_eq_false hlow, Bool.false_and]
      exact (decide_eq_false (by omega)).symm

/-- A mask is contiguous if it is some number of ones followed by zeros. -/
theorem contiguousMask_iff :
    (∀ bits, contiguousMask (.v4 bits) = true ↔ ∃ k, Leading bits k) ∧
    ∀ bits, contiguousMask (.v6 bits) = true ↔ ∃ k, Leading bits k := by
  constructor
  · intro bits
    rw [← leading_v4_iff, ← contiguous_iff]
    simp [contiguousMask]
  · intro bits
    rw [← contiguous_iff]
    simp [contiguousMask]

end NexusOps.Discovery
