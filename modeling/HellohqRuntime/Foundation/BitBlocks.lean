import Mathlib.Data.Nat.Bitwise

/-!
# Blocks of words with the same first bits

A block holds the words that agree with its network word in the first bits. Its
two other descriptions are proved here: the words whose masked value is the
network word, and an interval of numbers.
-/

namespace HellohqRuntime.Foundation.BitBlocks

/-- The word with the first so many bits set. -/
def frontMask (width length : Nat) : BitVec width := BitVec.allOnes width <<< (width - length)

theorem getMsbD_frontMask {width length i : Nat} (hlength : length ≤ width) :
    (frontMask width length).getMsbD i = decide (i < length) := by
  rw [frontMask, BitVec.getMsbD_shiftLeft, BitVec.getMsbD_allOnes]
  congr 1
  rw [eq_iff_iff]
  omega

/-- A network word, none of its bits set behind the first ones. -/
structure Block (width : Nat) where
  network : BitVec width
  length : Nat
  length_le : length ≤ width := by decide
  masked : network &&& frontMask width length = network := by decide

namespace Block

variable {width : Nat}

instance : Membership (BitVec width) (Block width) where
  mem block word := ∀ i < block.length, word.getMsbD i = block.network.getMsbD i

instance (word : BitVec width) (block : Block width) : Decidable (word ∈ block) :=
  inferInstanceAs (Decidable (∀ i < block.length, word.getMsbD i = block.network.getMsbD i))

/-- No bit of the network word is set behind its first ones. -/
theorem getMsbD_network (block : Block width) {i : Nat} (hi : block.length ≤ i) :
    block.network.getMsbD i = false := by
  rw [← block.masked, BitVec.getMsbD_and, getMsbD_frontMask block.length_le,
    decide_eq_false (Nat.not_lt.mpr hi), Bool.and_false]

/-- A word is in the block if its masked value is the network word. -/
theorem mem_iff_mask {word : BitVec width} {block : Block width} :
    word ∈ block ↔ word &&& frontMask width block.length = block.network := by
  constructor
  · intro hmem
    apply BitVec.eq_of_getMsbD_eq
    intro i _
    rw [BitVec.getMsbD_and, getMsbD_frontMask block.length_le]
    by_cases hi : i < block.length
    · rw [decide_eq_true hi, Bool.and_true, hmem i hi]
    · rw [decide_eq_false hi, Bool.and_false, block.getMsbD_network (Nat.not_lt.mp hi)]
  · intro hmask i hi
    rw [← hmask, BitVec.getMsbD_and, getMsbD_frontMask block.length_le, decide_eq_true hi,
      Bool.and_true]

/-- A word is in the block if the network word is left when the bits behind the first
ones are shifted out of both. -/
theorem mem_iff_shift {word : BitVec width} {block : Block width} :
    word ∈ block ↔
      word >>> (width - block.length) = block.network >>> (width - block.length) := by
  have hle := block.length_le
  constructor
  · intro hmem
    apply BitVec.eq_of_getMsbD_eq
    intro i hi
    rw [BitVec.getMsbD_ushiftRight, BitVec.getMsbD_ushiftRight]
    by_cases hshift : i < width - block.length
    · rw [decide_eq_true hshift, Bool.not_true, Bool.false_and, Bool.false_and]
    · rw [hmem (i - (width - block.length)) (by omega)]
  · intro hshift i hi
    have hbit := congrArg (·.getMsbD (i + (width - block.length))) hshift
    have hlow : ¬i + (width - block.length) < width - block.length :=
      Nat.not_lt.mpr (Nat.le_add_left _ i)
    have hhigh : i + (width - block.length) < width := by omega
    simpa [BitVec.getMsbD_ushiftRight, hlow, hhigh] using hbit

/-- The network word is a multiple of the size of its block. -/
theorem network_mod (block : Block width) :
    block.network.toNat % 2 ^ (width - block.length) = 0 := by
  apply Nat.eq_of_testBit_eq
  intro i
  rw [Nat.testBit_mod_two_pow, Nat.zero_testBit, BitVec.testBit_toNat]
  by_cases hi : i < width - block.length
  · rw [BitVec.getLsbD_eq_getMsbD, block.getMsbD_network (by omega), Bool.and_false,
      Bool.and_false]
  · rw [decide_eq_false hi, Bool.false_and]

/-- The words of a block are the numbers from its network word on, as many as the
bits behind the first ones can tell apart. -/
theorem mem_iff_range {word : BitVec width} {block : Block width} :
    word ∈ block ↔ block.network.toNat ≤ word.toNat ∧
      word.toNat < block.network.toNat + 2 ^ (width - block.length) := by
  have hsize : 0 < 2 ^ (width - block.length) := Nat.two_pow_pos _
  have hnetwork : block.network.toNat / 2 ^ (width - block.length) * 2 ^ (width - block.length) =
      block.network.toNat := Nat.div_mul_cancel (Nat.dvd_of_mod_eq_zero block.network_mod)
  rw [mem_iff_shift, ← BitVec.toNat_inj, BitVec.toNat_ushiftRight, BitVec.toNat_ushiftRight,
    Nat.shiftRight_eq_div_pow, Nat.shiftRight_eq_div_pow, Nat.div_eq_iff hsize, hnetwork]
  omega

end Block

/-- The number of two words one behind the other. -/
theorem toNat_append {front back : Nat} (x : BitVec front) (y : BitVec back) :
    (x ++ y).toNat = x.toNat * 2 ^ back + y.toNat := by
  rw [BitVec.toNat_append, ← Nat.shiftLeft_add_eq_or_of_lt y.isLt, Nat.shiftLeft_eq]

/-- The words that stand one behind the other can be told from the whole. -/
theorem append_inj {front back : Nat} {x x' : BitVec front} {y y' : BitVec back} :
    x ++ y = x' ++ y' ↔ x = x' ∧ y = y' := by
  constructor
  · intro heq
    constructor
    · rw [← @BitVec.extractLsb'_append_eq_left _ _ x y, heq, BitVec.extractLsb'_append_eq_left]
    · rw [← @BitVec.extractLsb'_append_eq_right _ _ x y, heq, BitVec.extractLsb'_append_eq_right]
  · rintro ⟨rfl, rfl⟩
    rfl

/-- Every word is its first bits with the others behind them. -/
theorem exists_append {front back : Nat} (word : BitVec (front + back)) :
    ∃ (x : BitVec front) (y : BitVec back), word = x ++ y :=
  ⟨word.extractLsb' back front, word.extractLsb' 0 back, BitVec.extractLsb'_append_extractLsb'.symm⟩

end HellohqRuntime.Foundation.BitBlocks
