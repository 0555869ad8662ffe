import ShareOS.Erasure.DataBlocks

/-!
# Erasure — chunk size and stripe padding

`getChunkSize` of `src/cmd/erasure-utils.go`, and the law that ties it
to `writeDataBlocks`: the encode side cuts a stripe of `blockSize` bytes
into `dataBlocks` blocks of `getChunkSize blockSize dataBlocks` bytes,
zero-padding the last ones, and the decode side never emits the padding.

`getChunkSize` is computed in int64 arithmetic, so the model wraps the
sum and the quotient as Go does; under `blockSize + dataBlocks ≤ 2^63`
(every stripe that fits in memory) nothing wraps and the result is the
ceiling of `blockSize / dataBlocks` (`getChunkSize_of_fits`).
-/

namespace ShareOS

open ShareOS.Go

/-- chunkSize is roughly BlockSize/DataBlocks, calculated such that
chunkSize*DataBlocks accommodates BlockSize bytes:
`(blockSize + int64(dataBlocks) - 1) / int64(dataBlocks)`, each step in
int64 arithmetic. -/
def getChunkSize (blockSize dataBlocks : Int) : Except GoError Int :=
  goDiv64 (wrapInt64 (wrapInt64 (blockSize + dataBlocks) - 1)) dataBlocks

/-- The `n` consecutive `c`-byte pieces at the front of `xs`. -/
def splitPieces (c : Nat) : Nat → Bytes → List Bytes
  | 0, _ => []
  | n + 1, xs => xs.take c :: splitPieces c n (xs.drop c)

/-- The data blocks of one stripe as the encode side lays them out
(`reedsolomon`'s `Split`, outside this repository): `p` zero-padded to
`c * dataBlocks` bytes, cut into `dataBlocks` pieces of `c` bytes. -/
def stripeBlocks (p : Bytes) (dataBlocks c : Nat) : List Bytes :=
  splitPieces c dataBlocks (p ++ List.replicate (c * dataBlocks - p.length) 0)

/-! ## The ceiling division -/

/-- When the stripe fits in int64, nothing wraps: the chunk size is the
ceiling `⌈blockSize / dataBlocks⌉`, as a natural number. -/
theorem getChunkSize_of_fits {blockSize dataBlocks : Nat} (hd : 1 ≤ dataBlocks)
    (hfit : blockSize + dataBlocks ≤ 2 ^ 63) :
    getChunkSize blockSize dataBlocks =
      .ok (((blockSize + dataBlocks - 1) / dataBlocks : Nat) : Int) := by
  have hq : (blockSize + dataBlocks - 1) / dataBlocks < 2 ^ 63 :=
    lt_of_le_of_lt (Nat.div_le_self _ _) (by omega)
  have hwrap : wrapInt64 (((blockSize + dataBlocks - 1) / dataBlocks : Nat) : Int) =
      ((blockSize + dataBlocks - 1) / dataBlocks : Nat) :=
    wrapInt64_of_mem (by linarith [Int.natCast_nonneg ((blockSize + dataBlocks - 1) / dataBlocks)])
      (by exact_mod_cast hq)
  have hsum : wrapInt64 ((blockSize : Int) + dataBlocks - 1) = blockSize + dataBlocks - 1 :=
    wrapInt64_of_mem (by omega) (by omega)
  have hdiv : ((blockSize : Int) + dataBlocks - 1).tdiv dataBlocks =
      ((blockSize + dataBlocks - 1) / dataBlocks : Nat) := by
    have hcast : (blockSize : Int) + dataBlocks - 1 = ((blockSize + dataBlocks - 1 : Nat) : Int) := by
      omega
    rw [Int.tdiv_eq_ediv (by omega) (by omega), hcast]
    exact (Int.ofNat_ediv _ _).symm
  simp only [getChunkSize, goDiv64, wrapInt64_wrap_sub, hsum, hdiv, hwrap,
    if_neg (by omega : (dataBlocks : Int) ≠ 0)]

/-- The ceiling bounds: `c * d` covers the stripe with less than one byte
per block to spare. -/
theorem ceil_div_bounds (b d : Nat) (hd : 1 ≤ d) :
    b ≤ (b + d - 1) / d * d ∧ (b + d - 1) / d * d < b + d := by
  have h := Nat.div_add_mod (b + d - 1) d
  have hr := Nat.mod_lt (b + d - 1) (by omega : d > 0)
  rw [Nat.mul_comm]
  omega

/-- **int64 behaviour.** For a block size and a data-block count in the
int64 range, with at least one data block: while `blockSize + dataBlocks`
fits in int64 the chunk size is the ceiling of `blockSize / dataBlocks`
(the sum may reach `2^63` and wrap, but the `- 1` wraps it back); past
that the sum wraps negative and the chunk size is `≤ 0`, so no stripe of
`dataBlocks` chunks holds the block. -/
theorem getChunkSize_int64 (blockSize dataBlocks : Int) (hb : 0 ≤ blockSize)
    (hb' : blockSize < 2 ^ 63) (hd : 1 ≤ dataBlocks) (hd' : dataBlocks < 2 ^ 63) :
    (blockSize + dataBlocks ≤ 2 ^ 63 →
      getChunkSize blockSize dataBlocks = .ok ((blockSize + dataBlocks - 1) / dataBlocks)) ∧
    (2 ^ 63 < blockSize + dataBlocks →
      ∃ c ≤ 0, getChunkSize blockSize dataBlocks = .ok c) := by
  have hd0 : dataBlocks ≠ 0 := by omega
  constructor
  · intro hfit
    have hsum : wrapInt64 (wrapInt64 (blockSize + dataBlocks) - 1) =
        blockSize + dataBlocks - 1 := by
      rw [wrapInt64_wrap_sub, wrapInt64_of_mem (by omega) (by omega)]
    have hq0 : 0 ≤ (blockSize + dataBlocks - 1) / dataBlocks :=
      Int.ediv_nonneg (by omega) (by omega)
    have hq1 : (blockSize + dataBlocks - 1) / dataBlocks < 2 ^ 63 :=
      lt_of_le_of_lt (Int.ediv_le_self _ (by omega)) (by omega)
    have hdiv : (blockSize + dataBlocks - 1).tdiv dataBlocks =
        (blockSize + dataBlocks - 1) / dataBlocks := Int.tdiv_eq_ediv (by omega) (by omega)
    simp only [getChunkSize, goDiv64, hsum, if_neg hd0, hdiv, wrapInt64_of_mem (by linarith) hq1]
  · intro hover
    -- the dividend is `-a` for `a = 2^64 + 1 - blockSize - dataBlocks ≥ 0`
    have hsum : wrapInt64 (wrapInt64 (blockSize + dataBlocks) - 1) =
        -(2 ^ 64 + 1 - blockSize - dataBlocks) := by
      rw [wrapInt64_wrap_sub]; unfold wrapInt64; omega
    have ha0 : 0 ≤ 2 ^ 64 + 1 - blockSize - dataBlocks := by omega
    have hq0 := Int.tdiv_nonneg ha0 (by omega : 0 ≤ dataBlocks)
    have hq1 : (2 ^ 64 + 1 - blockSize - dataBlocks).tdiv dataBlocks ≤
        2 ^ 64 + 1 - blockSize - dataBlocks := by
      rw [Int.tdiv_eq_ediv ha0 (by omega)]; exact Int.ediv_le_self _ ha0
    have hwrap : wrapInt64 (-(2 ^ 64 + 1 - blockSize - dataBlocks).tdiv dataBlocks) =
        -(2 ^ 64 + 1 - blockSize - dataBlocks).tdiv dataBlocks :=
      wrapInt64_of_mem (by omega) (by omega)
    refine ⟨-(2 ^ 64 + 1 - blockSize - dataBlocks).tdiv dataBlocks, by omega, ?_⟩
    simp only [getChunkSize, goDiv64, hsum, if_neg hd0, Int.neg_tdiv, hwrap]

/-- The largest int64 block size over two data blocks: the sum wraps and
the chunk size is not positive. -/
theorem getChunkSize_int64_max_over_two :
    ((2 ^ 63 - 1 : Int) + 2 ≤ 2 ^ 63 →
      getChunkSize (2 ^ 63 - 1) 2 = .ok ((2 ^ 63 - 1 + 2 - 1) / 2)) ∧
    (2 ^ 63 < (2 ^ 63 - 1 : Int) + 2 → ∃ c ≤ 0, getChunkSize (2 ^ 63 - 1) 2 = .ok c) :=
  getChunkSize_int64 (2 ^ 63 - 1) 2 (by norm_num) (by norm_num) (by norm_num) (by norm_num)

/-! ## The stripe layout -/

theorem splitPieces_length (c n : Nat) (xs : Bytes) : (splitPieces c n xs).length = n := by
  induction n generalizing xs with
  | zero => rfl
  | succ n ih => simp [splitPieces, ih]

theorem flatten_splitPieces (c n : Nat) (xs : Bytes) :
    (splitPieces c n xs).flatten = xs.take (n * c) := by
  induction n generalizing xs with
  | zero => simp [splitPieces]
  | succ n ih => rw [splitPieces, List.flatten_cons, ih, Nat.succ_mul, Nat.add_comm,
      List.take_add]

/-- The data blocks of a padded stripe concatenate back to the padded
stripe. -/
theorem flatten_stripeBlocks {p : Bytes} {dataBlocks c : Nat} (h : p.length ≤ c * dataBlocks) :
    (stripeBlocks p dataBlocks c).flatten =
      p ++ List.replicate (c * dataBlocks - p.length) 0 := by
  rw [stripeBlocks, flatten_splitPieces, List.take_of_length_le]
  simp only [List.length_append, List.length_replicate]
  have := Nat.mul_comm c dataBlocks
  omega

/-- **The padding is never emitted.** With `c = getChunkSize(len(p),
dataBlocks)`, the `dataBlocks` blocks of `c` bytes hold all of `p` with
less than one byte of padding per block, and every window of `p`, read
back through `writeDataBlocks` from those blocks followed by any parity
blocks, is exactly that window of `p`. -/
theorem getChunkSize_stripe (p : Bytes) (dataBlocks : Nat) (hd : 1 ≤ dataBlocks)
    (hfit : p.length + dataBlocks ≤ 2 ^ 63) :
    ∃ c : Nat, getChunkSize p.length dataBlocks = .ok c ∧
      p.length ≤ c * dataBlocks ∧ c * dataBlocks < p.length + dataBlocks ∧
      ∀ (parity : List Bytes) (acc : Bytes) (offset length : Nat),
        offset + length ≤ p.length →
        writeDataBlocks Writer.full acc (stripeBlocks p dataBlocks c ++ parity) dataBlocks
            offset length = (acc ++ (p.drop offset).take length, .ok length) := by
  obtain ⟨hlo, hhi⟩ := ceil_div_bounds p.length dataBlocks hd
  refine ⟨_, getChunkSize_of_fits hd hfit, hlo, hhi, fun parity acc offset length hw => ?_⟩
  set c := (p.length + dataBlocks - 1) / dataBlocks
  have hlen : (stripeBlocks p dataBlocks c).length = dataBlocks := splitPieces_length _ _ _
  have htake : (stripeBlocks p dataBlocks c ++ parity).take dataBlocks =
      stripeBlocks p dataBlocks c := by
    rw [List.take_append_eq_append_take, List.take_of_length_le hlen.le, hlen, Nat.sub_self,
      List.take_zero, List.append_nil]
  have hdl : ((dataBlocks : Int)) ≤ (stripeBlocks p dataBlocks c ++ parity).length := by
    simp only [List.length_append, hlen]; omega
  rw [writeDataBlocks_full_inside (by omega) hdl (by omega) (by omega)]
  · simp only [dataWindow, Int.toNat_natCast, htake, flatten_stripeBlocks hlo,
      List.drop_append_of_le_length (by omega : offset ≤ p.length)]
    rw [List.take_append_of_le_length (by simp; omega)]
  · simp only [Int.toNat_natCast, htake, flatten_stripeBlocks hlo, List.length_append,
      List.length_replicate]
    omega

/-- The scenario of the spec: ten bytes over four data blocks give a
chunk size of 3, twelve bytes of capacity, and the padding stays out of
every window. -/
theorem getChunkSize_stripe_ABCDEFGHIJ :
    ∃ c : Nat, getChunkSize 10 4 = .ok c ∧ 10 ≤ c * 4 ∧ c * 4 < 10 + 4 ∧
      ∀ (parity : List Bytes) (acc : Bytes) (offset length : Nat), offset + length ≤ 10 →
        writeDataBlocks Writer.full acc
            (stripeBlocks [65, 66, 67, 68, 69, 70, 71, 72, 73, 74] 4 c ++ parity) 4
            offset length =
          (acc ++ (([65, 66, 67, 68, 69, 70, 71, 72, 73, 74] : Bytes).drop offset).take length,
            .ok length) :=
  getChunkSize_stripe [65, 66, 67, 68, 69, 70, 71, 72, 73, 74] 4 (by decide) (by norm_num)

end ShareOS
