import DownloadReport.PieceMap
import Mathlib.Algebra.GroupWithZero.Nat
import Mathlib.Data.List.Basic
import Mathlib.Data.Nat.Bitwise

/-! Counting pieces and asking for them come to the same. A piece is asked for with a mask, which lets
    one bit of its byte through (`and_mask`). The bits of a map, byte after byte, are its pieces in
    their order (`bits_eq_map_has`); so the bits that are set in its bytes are the pieces that have been
    retrieved, a map is complete when all of them are counted, and maps of one size differ in a piece
    (`counts_and_queries`). -/

namespace DownloadReport.PieceMap

variable {m : PieceMap} {i n : Nat}

/-- How many pieces the map has room for. -/
def capacity (m : PieceMap) : Nat := 8 * m.bytes.length

/-- The eight bits of a byte, the highest first. -/
def byteBits (byte : UInt8) : List Bool :=
  (List.range 8).map fun i => byte.toNat.testBit (7 - i)

/-- All bits of the map, byte after byte. -/
def bits (m : PieceMap) : List Bool := m.bytes.flatMap byteBits

/-! ### Pieces and bits -/

/-- Shifted to the place of a piece, the highest bit is a power of two. -/
theorem toNat_mask (i : Nat) : (mask i).toNat = 2 ^ (7 - i % 8) := by
  have hplaces : ∀ k < 8, ((0x80 : UInt8) >>> UInt8.ofNat k).toNat = 2 ^ (7 - k) := by decide
  exact hplaces (i % 8) (Nat.mod_lt i (by decide))

/-- A mask lets the bit of its piece through. -/
theorem and_mask (byte : UInt8) (i : Nat) :
    (byte &&& mask i != 0) = byte.toNat.testBit (7 - i % 8) := by
  rw [Bool.eq_iff_iff, bne_iff_ne, Ne, ← UInt8.toNat_inj, UInt8.toNat_and, toNat_mask, Nat.and_two_pow]
  cases byte.toNat.testBit (7 - i % 8) <;> simp

/-- A piece is a bit of its byte, the highest first. -/
theorem has_of_getElem? {byte : UInt8} (h : m.bytes[i / 8]? = some byte) :
    m.has i = byte.toNat.testBit (7 - i % 8) := by
  rw [has, h, Option.any_some, and_mask]

/-- Behind the last byte there are no pieces. -/
theorem has_of_capacity_le (h : m.capacity ≤ i) : m.has i = false := by
  have hbyte : m.bytes[i / 8]? = none := by
    rw [List.getElem?_eq_none_iff]
    unfold capacity at h
    omega
  rw [has, hbyte, Option.any_none]

/-- Within the map every piece has its byte. -/
theorem exists_byte (h : i < m.capacity) : ∃ byte, m.bytes[i / 8]? = some byte := by
  have hbyte : i / 8 < m.bytes.length := by
    unfold capacity at h
    omega
  exact ⟨_, List.getElem?_eq_getElem hbyte⟩

/-- The first byte holds the first eight pieces. -/
theorem has_cons_of_lt (byte : UInt8) (bytes : List UInt8) (h : i < 8) :
    (⟨byte :: bytes⟩ : PieceMap).has i = byte.toNat.testBit (7 - i) := by
  have hplace : i / 8 = 0 ∧ i % 8 = i := by omega
  have hbyte : (⟨byte :: bytes⟩ : PieceMap).bytes[i / 8]? = some byte := by
    rw [hplace.1]
    rfl
  rw [has_of_getElem? hbyte, hplace.2]

/-- The other bytes hold the pieces behind them. -/
theorem has_cons_add (byte : UInt8) (bytes : List UInt8) (i : Nat) :
    (⟨byte :: bytes⟩ : PieceMap).has (8 + i) = (⟨bytes⟩ : PieceMap).has i := by
  have hplace : (8 + i) / 8 = i / 8 + 1 ∧ (8 + i) % 8 = i % 8 := by omega
  rw [has, has, mask, mask, hplace.1, hplace.2, List.getElem?_cons_succ]

/-- The bits of the bytes are the pieces in their order. -/
theorem bits_eq_map_has (m : PieceMap) : m.bits = (List.range m.capacity).map m.has := by
  obtain ⟨bytes⟩ := m
  induction bytes with
  | nil => rfl
  | cons byte bytes ih =>
    have hfirst : byteBits byte = (List.range 8).map (⟨byte :: bytes⟩ : PieceMap).has := by
      refine List.map_congr_left fun i hi => ?_
      rw [has_cons_of_lt byte bytes (List.mem_range.1 hi)]
    have hcapacity : (⟨byte :: bytes⟩ : PieceMap).capacity = 8 + (⟨bytes⟩ : PieceMap).capacity := by
      simp only [capacity, List.length_cons]
      omega
    calc (⟨byte :: bytes⟩ : PieceMap).bits
      _ = byteBits byte ++ (⟨bytes⟩ : PieceMap).bits := rfl
      _ = (List.range 8).map (⟨byte :: bytes⟩ : PieceMap).has ++
            (List.range (⟨bytes⟩ : PieceMap).capacity).map (⟨bytes⟩ : PieceMap).has := by
          rw [hfirst, ih]
      _ = (List.range (⟨byte :: bytes⟩ : PieceMap).capacity).map
            (⟨byte :: bytes⟩ : PieceMap).has := by
          rw [hcapacity, List.range_add, List.map_append, List.map_map]
          simp only [Function.comp_def, has_cons_add]

/-! ### Counting -/

theorem countP_byteBits (byte : UInt8) : (byteBits byte).countP id = setBits byte := by
  have hall : ∀ n < 256, (byteBits (UInt8.ofNat n)).countP id = setBits (UInt8.ofNat n) := by
    decide +kernel
  simpa using hall byte.toNat byte.toNat_lt

theorem count_eq_sum (m : PieceMap) : m.count = (m.bytes.map setBits).sum := by
  rw [count, List.sum_eq_foldl, List.foldl_map]

/-- To count the bits byte by byte is to count them all. -/
theorem count_eq_countP_bits (m : PieceMap) : m.count = m.bits.countP id := by
  rw [count_eq_sum, bits, List.countP_flatMap]
  exact congrArg List.sum (List.map_congr_left fun byte _ => (countP_byteBits byte).symm)

/-- And the bits are the pieces. -/
theorem count_eq_countP (m : PieceMap) : m.count = (List.range m.capacity).countP m.has := by
  rw [count_eq_countP_bits, bits_eq_map_has, List.countP_map]
  rfl

/-- What does not hold behind a bound is counted up to the bound. -/
theorem countP_range_of_le {p : Nat → Bool} {k : Nat} (hk : n ≤ k) (h : ∀ i, n ≤ i → p i = false) :
    (List.range k).countP p = (List.range n).countP p := by
  obtain ⟨j, rfl⟩ := Nat.exists_eq_add_of_le hk
  have hnone : ((List.range j).map (n + ·)).countP p = 0 := by
    rw [List.countP_eq_zero]
    intro i hi
    obtain ⟨i, _, rfl⟩ := List.mem_map.1 hi
    simp [h (n + i) (Nat.le_add_right n i)]
  rw [List.range_add, List.countP_append, hnone, Nat.add_zero]

/-- The retrieved pieces among the first ones are those that the map holds before the bound. -/
theorem count_pieces (m : PieceMap) (n : Nat) :
    (m.pieces n).count true = (List.range m.capacity).countP fun i => decide (i < n) && m.has i := by
  have hwithin : ∀ i, m.capacity ≤ i → (decide (i < n) && m.has i) = false := fun i hi => by
    rw [has_of_capacity_le hi, Bool.and_false]
  have hbefore : ∀ i, n ≤ i → (decide (i < n) && m.has i) = false := fun i hi => by
    rw [decide_eq_false (Nat.not_lt.2 hi), Bool.false_and]
  calc (m.pieces n).count true
    _ = (List.range n).countP m.has := by
        rw [pieces, List.count, List.countP_map]
        exact List.countP_congr fun i _ => by simp
    _ = (List.range n).countP fun i => decide (i < n) && m.has i :=
        List.countP_congr fun i hi => by simp [List.mem_range.1 hi]
    _ = (List.range (max n m.capacity)).countP fun i => decide (i < n) && m.has i :=
        (countP_range_of_le (Nat.le_max_left _ _) hbefore).symm
    _ = (List.range m.capacity).countP fun i => decide (i < n) && m.has i :=
        countP_range_of_le (Nat.le_max_right _ _) hwithin

/-- The map holds the retrieved pieces among the first ones and those behind them. -/
theorem count_eq_add (m : PieceMap) (n : Nat) :
    m.count = (m.pieces n).count true +
      (List.range m.capacity).countP fun i => decide (n ≤ i) && m.has i := by
  rw [count_eq_countP, List.countP_eq_countP_filter_add _ m.has fun i => decide (i < n),
    List.countP_filter, List.countP_filter, count_pieces]
  simp only [Bool.and_comm, ← decide_not, Nat.not_lt]

/-! ### Complete maps -/

theorem isComplete_iff : m.isComplete n = true ↔ 0 < n ∧ ∀ p ∈ m.pieces n, p = true := by
  have hpieces : (∀ p ∈ m.pieces n, p = true) ↔ ∀ i < n, m.has i = true := by
    simp [pieces]
  rw [isComplete, Bool.and_eq_true, decide_eq_true_eq, Nat.all_eq_finRange_all, List.all_eq_true,
    hpieces]
  simp [Fin.forall_iff]

/-- A map that is too small lacks the first piece behind it. -/
theorem isComplete_of_capacity_lt (h : m.capacity < n) : m.isComplete n = false := by
  rw [Bool.eq_false_iff, Ne, isComplete_iff]
  rintro ⟨_, hall⟩
  have hlast : m.has m.capacity = true := hall _ (List.mem_map_of_mem (List.mem_range.2 h))
  rw [has_of_capacity_le (Nat.le_refl _)] at hlast
  exact nomatch hlast

theorem isComplete_of_isEmpty (h : m.isEmpty = true) (n : Nat) : m.isComplete n = false := by
  have hcapacity : m.capacity = 0 := by
    rw [capacity, List.isEmpty_iff.1 h, List.length_nil]
  rcases Nat.eq_zero_or_pos n with rfl | hn
  · rfl
  · exact isComplete_of_capacity_lt (hcapacity ▸ hn)

/-- What is complete is complete up to any piece before. -/
theorem isComplete_of_le {k : Nat} (h : m.isComplete n = true) (hk : 0 < k) (hkn : k ≤ n) :
    m.isComplete k = true := by
  rw [isComplete_iff] at h ⊢
  refine ⟨hk, fun p hp => h.2 p ?_⟩
  obtain ⟨i, hi, rfl⟩ := List.mem_map.1 hp
  exact List.mem_map_of_mem (List.mem_range.2 (Nat.lt_of_lt_of_le (List.mem_range.1 hi) hkn))

/-- When nothing is set behind the last piece, a map is complete when as many pieces are counted as
    there are. -/
theorem isComplete_iff_count (h : ∀ i, n ≤ i → m.has i = false) :
    m.isComplete n = true ↔ 0 < n ∧ m.count = n := by
  have hbehind : ((List.range m.capacity).countP fun i => decide (n ≤ i) && m.has i) = 0 := by
    rw [List.countP_eq_zero]
    intro i _
    by_cases hi : n ≤ i
    · simp [h i hi]
    · simp [hi]
  have hlength : (m.pieces n).length = n := by rw [pieces, List.length_map, List.length_range]
  have hall : (∀ p ∈ m.pieces n, p = true) ↔ (m.pieces n).count true = n := by
    have hfull := List.count_eq_length (a := true) (l := m.pieces n)
    rw [hlength] at hfull
    simp only [hfull, eq_comm]
  rw [isComplete_iff, count_eq_add m n, hbehind, Nat.add_zero, hall]

/-! ### Maps with the same pieces -/

/-- A byte is known by its bits. -/
theorem byte_ext {a b : UInt8} (h : ∀ j < 8, a.toNat.testBit j = b.toNat.testBit j) : a = b := by
  refine UInt8.toNat_inj.1 (Nat.eq_of_testBit_eq fun j => ?_)
  rcases Nat.lt_or_ge j 8 with hj | hj
  · exact h j hj
  · have hhigh : ∀ c : UInt8, c.toNat.testBit j = false := fun c =>
      Nat.testBit_lt_two_pow
        (Nat.lt_of_lt_of_le c.toNat_lt (Nat.pow_le_pow_right (by decide) hj))
    rw [hhigh a, hhigh b]

/-- Maps of one size with the same pieces are one map. -/
theorem ext_has {m' : PieceMap} (hlength : m'.bytes.length = m.bytes.length)
    (h : ∀ i, m'.has i = m.has i) : m' = m := by
  obtain ⟨bytes⟩ := m
  obtain ⟨bytes'⟩ := m'
  congr 1
  refine List.ext_getElem hlength fun k hk' hk => byte_ext fun j hj => ?_
  -- Bit `j` of byte `k` is the piece that stands `7 - j` places behind the first one of the byte.
  have hplace : (8 * k + (7 - j)) / 8 = k ∧ 7 - (8 * k + (7 - j)) % 8 = j := by omega
  have hpiece := h (8 * k + (7 - j))
  rw [has_of_getElem? (by rw [hplace.1]; exact List.getElem?_eq_getElem hk'),
    has_of_getElem? (by rw [hplace.1]; exact List.getElem?_eq_getElem hk), hplace.2] at hpiece
  exact hpiece

/-! ### Maps and what they answer -/

/-- What a map says of its pieces, counted or asked for. Piece after piece it is the bits of its bytes,
    the highest first, and behind the last byte there are no pieces. Counting the bits of the bytes
    counts the pieces, those among the first `n` and those behind them. The first `n` are complete when
    there are any and all are there, so never when the map is too small for them or empty, and with
    them any fewer; and when no bit is set behind them, this is to say that `n` pieces are counted.
    Maps of one size with the same pieces are the same. -/
theorem counts_and_queries (m : PieceMap) (n : Nat) :
    (∀ i < m.capacity, ∃ byte, m.bytes[i / 8]? = some byte ∧
        m.has i = byte.toNat.testBit (7 - i % 8)) ∧
      (∀ i, m.capacity ≤ i → m.has i = false) ∧
      m.count = (m.bytes.map setBits).sum ∧
      m.count = (List.range m.capacity).countP m.has ∧
      m.count = (m.pieces n).count true +
        (List.range m.capacity).countP (fun i => decide (n ≤ i) && m.has i) ∧
      (m.isComplete n = true ↔ 0 < n ∧ ∀ p ∈ m.pieces n, p = true) ∧
      (m.capacity < n ∨ m.isEmpty = true → m.isComplete n = false) ∧
      (∀ k, 0 < k → k ≤ n → m.isComplete n = true → m.isComplete k = true) ∧
      ((∀ i, n ≤ i → m.has i = false) → (m.isComplete n = true ↔ 0 < n ∧ m.count = n)) ∧
      ∀ m' : PieceMap, m'.bytes.length = m.bytes.length → (∀ i, m'.has i = m.has i) → m' = m := by
  refine ⟨fun i hi => ?_, fun i hi => has_of_capacity_le hi, count_eq_sum m,
    count_eq_countP m, count_eq_add m n, isComplete_iff, ?_, fun k hk hkn h => isComplete_of_le h hk hkn,
    isComplete_iff_count, fun m' hlength h => ext_has hlength h⟩
  · obtain ⟨byte, hbyte⟩ := exists_byte hi
    exact ⟨byte, hbyte, has_of_getElem? hbyte⟩
  · rintro (hsmall | hempty)
    · exact isComplete_of_capacity_lt hsmall
    · exact isComplete_of_isEmpty hempty n

/-- Ten pieces in two bytes. -/
theorem counts_and_queries_ten :
    ∃ m : PieceMap, m = ⟨[0xff, 0xc0]⟩ ∧ (∀ i, 10 ≤ i → m.has i = false) ∧
      (m.isComplete 10 = true ↔ 0 < 10 ∧ m.count = 10) ∧
      m.isComplete 10 = true ∧ m.isComplete 4 = true ∧
      m.capacity < 17 ∧ m.isComplete 17 = false := by
  have hbehind : ∀ i, 10 ≤ i → (⟨[0xff, 0xc0]⟩ : PieceMap).has i = false := by
    intro i hi
    rcases Nat.lt_or_ge i 16 with hlt | hge
    · have hall : ∀ i < 16, 10 ≤ i → (⟨[0xff, 0xc0]⟩ : PieceMap).has i = false := by decide
      exact hall i hlt hi
    · exact has_of_capacity_le hge
  obtain ⟨_, _, _, _, _, _, _, hfewer, hcount, _⟩ := counts_and_queries ⟨[0xff, 0xc0]⟩ 10
  obtain ⟨_, _, _, _, _, _, hsmall, _, _, _⟩ := counts_and_queries ⟨[0xff, 0xc0]⟩ 17
  have hten : (⟨[0xff, 0xc0]⟩ : PieceMap).isComplete 10 = true := by decide
  exact ⟨_, rfl, hbehind, hcount hbehind, hten, hfewer 4 (by decide) (by decide) hten, by decide,
    hsmall (.inl (by decide))⟩

end DownloadReport.PieceMap
