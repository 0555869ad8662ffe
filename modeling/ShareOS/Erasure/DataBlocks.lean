import ShareOS.Go.Runtime

/-!
# Erasure — data blocks

`getDataBlockLen` and `writeDataBlocks` of `src/cmd/erasure-utils.go`:
the range extraction that turns the decoded blocks of one stripe into
the bytes a reader asked for.

`writeDataBlocks` walks `enBlocks[:dataBlocks]` with three accumulators:
`offset` (bytes still to skip), `write` (bytes still to produce) and
`totalWritten`. A block no longer than `offset` is skipped whole; the
first block that is longer is sliced at `offset`, which then stays `0`;
from there each block is copied whole until one is longer than `write`,
which is copied up to `write` and ends the loop.

The loop invariant (`writeBlocksLoop_full`): against a writer that
accepts everything, the loop appends bytes `[offset, offset + write)` of
the concatenation of its blocks, clipped at the end of the data, and
returns their count. The guard on the data length compares it with
`length` alone, so a window that starts inside the data and runs past
its end is answered with a short count and a `nil` error
(`writeDataBlocks_short_success`).
-/

namespace ShareOS

open ShareOS.Go

/-- getDataBlockLen - get length of data blocks from encoded blocks: the
`size += len(block)` loop over `enBlocks[:dataBlocks]`. -/
def getDataBlockLen (enBlocks : List Bytes) (dataBlocks : Int) : Except GoError Int :=
  (sliceUpTo enBlocks dataBlocks).map fun blocks =>
    blocks.foldl (fun size block => size + block.length) 0

/-- The `for _, block := range enBlocks[:dataBlocks]` loop of
`writeDataBlocks`, from accumulators `offset`, `write`, `totalWritten`,
with `dst` holding `acc`. `block[offset:]` and `block[:write]` are taken
where the loop reaches them, with `0 ≤ offset < len(block)` and
`0 ≤ write < len(block)`. An error ends the loop with `0, err`. -/
def writeBlocksLoop (dst : Writer) :
    List Bytes → Int → Int → Int → Bytes → Bytes × Except GoError Int
  | [], _, _, totalWritten, acc => (acc, .ok totalWritten)
  | block :: rest, offset, write, totalWritten, acc =>
    if offset ≥ block.length then
      writeBlocksLoop dst rest (offset - block.length) write totalWritten acc
    else
      let block := block.drop offset.toNat
      if write < block.length then
        match ioCopy dst acc (block.take write.toNat) with
        | (acc, _, some e) => (acc, .error e)
        | (acc, n, none) => (acc, .ok (totalWritten + n))
      else
        match ioCopy dst acc block with
        | (acc, _, some e) => (acc, .error e)
        | (acc, n, none) => writeBlocksLoop dst rest 0 (write - n) (totalWritten + n) acc

/-- Writes all the data blocks from encoded blocks until requested
outSize length, skipping bytes until the offset. The result pairs what
`dst` holds afterwards with `totalWritten, nil` or the error
(`traceError` only annotates an error, so it is the identity here). -/
def writeDataBlocks (dst : Writer) (acc : Bytes) (enBlocks : List Bytes)
    (dataBlocks offset length : Int) : Bytes × Except GoError Int :=
  if offset < 0 ∨ length < 0 then (acc, .error .errUnexpected)
  else if (enBlocks.length : Int) < dataBlocks then (acc, .error .errTooFewShards)
  else
    match getDataBlockLen enBlocks dataBlocks with
    | .error e => (acc, .error e)
    | .ok size =>
      if size < length then (acc, .error .errShortData)
      else
        match sliceUpTo enBlocks dataBlocks with
        | .error e => (acc, .error e)
        | .ok blocks => writeBlocksLoop dst blocks offset length 0 acc

/-- Bytes `[offset, offset + length)` of the concatenation of the first
`dataBlocks` blocks: the range the decoder is to produce. -/
def dataWindow (enBlocks : List Bytes) (dataBlocks offset length : Nat) : Bytes :=
  ((enBlocks.take dataBlocks).flatten.drop offset).take length

/-! ## The data length -/

theorem foldl_size_eq (blocks : List Bytes) (s : Int) :
    blocks.foldl (fun size (block : Bytes) => size + (block.length : Int)) s =
      s + blocks.flatten.length := by
  induction blocks generalizing s with
  | nil => simp
  | cons block rest ih => simp only [List.foldl_cons, ih, List.flatten_cons,
      List.length_append, Nat.cast_add]; ring

theorem getDataBlockLen_of_le {enBlocks : List Bytes} {dataBlocks : Int}
    (h0 : 0 ≤ dataBlocks) (h : dataBlocks ≤ enBlocks.length) :
    getDataBlockLen enBlocks dataBlocks =
      .ok ((enBlocks.take dataBlocks.toNat).flatten.length : Int) := by
  simp [getDataBlockLen, sliceUpTo_of_le h0 h, foldl_size_eq, Except.map]

/-! ## The guards -/

/-- The guards in the order the code checks them: each failure names its
error and leaves `dst` as it was. A negative `dataBlocks` passes the
shard-count guard and panics in `enBlocks[:dataBlocks]`. -/
theorem writeDataBlocks_guards (dst : Writer) (acc : Bytes) (enBlocks : List Bytes)
    (dataBlocks offset length : Int) :
    ((offset < 0 ∨ length < 0) →
      writeDataBlocks dst acc enBlocks dataBlocks offset length = (acc, .error .errUnexpected)) ∧
    (0 ≤ offset → 0 ≤ length → (enBlocks.length : Int) < dataBlocks →
      writeDataBlocks dst acc enBlocks dataBlocks offset length =
        (acc, .error .errTooFewShards)) ∧
    (0 ≤ offset → 0 ≤ length → dataBlocks < 0 →
      writeDataBlocks dst acc enBlocks dataBlocks offset length =
        (acc, .error (.runtimePanic "slice bounds out of range"))) ∧
    (0 ≤ offset → 0 ≤ length → 0 ≤ dataBlocks → dataBlocks ≤ enBlocks.length →
      ((enBlocks.take dataBlocks.toNat).flatten.length : Int) < length →
      writeDataBlocks dst acc enBlocks dataBlocks offset length = (acc, .error .errShortData)) := by
  refine ⟨fun h => by simp [writeDataBlocks, h], fun ho hl hd => ?_, fun ho hl hd => ?_,
    fun ho hl hd0 hd hs => ?_⟩
  · simp [writeDataBlocks, not_lt.mpr ho, not_lt.mpr hl, hd]
  · have hlen : ¬ (enBlocks.length : Int) < dataBlocks := by omega
    simp [writeDataBlocks, not_lt.mpr ho, not_lt.mpr hl, hlen, getDataBlockLen, sliceUpTo,
      not_le.mpr hd, Except.map]
  · have hg : ¬ (offset < 0 ∨ length < 0) := by omega
    simp only [writeDataBlocks, if_neg hg, if_neg (not_lt.mpr hd), getDataBlockLen_of_le hd0 hd,
      if_pos hs]

/-- The errors the guards return. -/
def GuardError (e : GoError) : Prop :=
  e = .errUnexpected ∨ e = .errTooFewShards ∨ e = .runtimePanic "slice bounds out of range" ∨
    e = .errShortData

/-- **Inversion.** A call either fails at a guard, returning its error
with `dst` untouched, or passes all of them and runs the loop over the
first `dataBlocks` blocks. -/
theorem writeDataBlocks_cases (dst : Writer) (acc : Bytes) (enBlocks : List Bytes)
    (dataBlocks offset length : Int) :
    (∃ e, GuardError e ∧
      writeDataBlocks dst acc enBlocks dataBlocks offset length = (acc, .error e)) ∨
    (0 ≤ offset ∧ 0 ≤ length ∧ 0 ≤ dataBlocks ∧ dataBlocks ≤ enBlocks.length ∧
      length ≤ (enBlocks.take dataBlocks.toNat).flatten.length ∧
      writeDataBlocks dst acc enBlocks dataBlocks offset length =
        writeBlocksLoop dst (enBlocks.take dataBlocks.toNat) offset length 0 acc) := by
  by_cases hneg : offset < 0 ∨ length < 0
  · exact .inl ⟨_, .inl rfl, by simp only [writeDataBlocks, if_pos hneg]⟩
  by_cases hlen : (enBlocks.length : Int) < dataBlocks
  · exact .inl ⟨_, .inr (.inl rfl), by simp only [writeDataBlocks, if_neg hneg, if_pos hlen]⟩
  by_cases hd0 : dataBlocks < 0
  · exact .inl ⟨_, .inr (.inr (.inl rfl)), by simp [writeDataBlocks, hneg, hlen,
      getDataBlockLen, sliceUpTo, not_le.mpr hd0, Except.map]⟩
  have hd0' : 0 ≤ dataBlocks := by omega
  have hd : dataBlocks ≤ enBlocks.length := by omega
  by_cases hs : ((enBlocks.take dataBlocks.toNat).flatten.length : Int) < length
  · exact .inl ⟨_, .inr (.inr (.inr rfl)), by simp only [writeDataBlocks, if_neg hneg,
      if_neg hlen, getDataBlockLen_of_le hd0' hd, if_pos hs]⟩
  · exact .inr ⟨by omega, by omega, hd0', hd, by omega, by simp only [writeDataBlocks,
      if_neg hneg, if_neg hlen, getDataBlockLen_of_le hd0' hd, if_neg hs,
      sliceUpTo_of_le hd0' hd]⟩

/-! ## The loop invariant -/

/-- **Loop invariant.** From offset `o` with `w` bytes still to write,
the loop appends bytes `[o, o + w)` of the concatenation of its blocks,
clipped at the end, and adds their count to `totalWritten`. -/
theorem writeBlocksLoop_full (blocks : List Bytes) (o w : Nat) (t : Int) (acc : Bytes) :
    writeBlocksLoop Writer.full blocks o w t acc =
      (acc ++ (blocks.flatten.drop o).take w,
        .ok (t + (min w (blocks.flatten.length - o) : Nat))) := by
  induction blocks generalizing o w t acc with
  | nil => simp [writeBlocksLoop]
  | cons block rest ih =>
    by_cases hskip : block.length ≤ o
    · -- the whole block lies before the offset
      have h := ih (o - block.length) w t acc
      rw [Nat.cast_sub hskip] at h
      simp only [writeBlocksLoop, ge_iff_le, Nat.cast_le, hskip, if_true, h,
        List.flatten_cons, List.drop_append_eq_append_drop, List.drop_eq_nil_of_le hskip,
        List.nil_append, List.length_append]
      congr 4; omega
    · -- the offset falls inside this block
      have hlt : o < block.length := by omega
      have hlen : (block.drop o).length = block.length - o := List.length_drop o block
      by_cases hlast : w < block.length - o
      · simp only [writeBlocksLoop, ge_iff_le, Nat.cast_le, hskip, if_false,
          Int.toNat_natCast, hlen, Nat.cast_lt, hlast, if_true, ioCopy_full,
          List.flatten_cons, List.drop_append_of_le_length hlt.le, List.length_append,
          List.length_take, List.take_append_of_le_length (by omega : w ≤ (block.drop o).length)]
        congr 3; omega
      · have h := ih 0 (w - (block.length - o)) (t + (block.length - o : Nat))
          (acc ++ block.drop o)
        rw [Nat.cast_sub (by omega)] at h
        simp only [writeBlocksLoop, ge_iff_le, Nat.cast_le, hskip, if_false,
          Int.toNat_natCast, hlen, Nat.cast_lt, hlast, ioCopy_full, Nat.cast_zero] at h ⊢
        rw [h]
        simp only [List.flatten_cons, List.drop_append_of_le_length hlt.le,
          List.take_append_eq_append_take, List.drop_zero, List.append_assoc, hlen,
          List.take_of_length_le (by omega : (block.drop o).length ≤ w), List.length_append]
        congr 2; omega

/-- Against a writer that accepts everything, a request that passes the
three guards appends the window `[offset, offset + length)` of the data
blocks, clipped at the end of the data, and returns that window's
length with a `nil` error. -/
theorem writeDataBlocks_full {acc : Bytes} {enBlocks : List Bytes}
    {dataBlocks offset length : Int} (hd0 : 0 ≤ dataBlocks)
    (hd : dataBlocks ≤ enBlocks.length) (ho : 0 ≤ offset) (hl : 0 ≤ length)
    (hs : length ≤ (enBlocks.take dataBlocks.toNat).flatten.length) :
    writeDataBlocks Writer.full acc enBlocks dataBlocks offset length =
      (acc ++ dataWindow enBlocks dataBlocks.toNat offset.toNat length.toNat,
        .ok (min length.toNat
          ((enBlocks.take dataBlocks.toNat).flatten.length - offset.toNat) : Nat)) := by
  obtain ⟨o, rfl⟩ := Int.eq_ofNat_of_zero_le ho
  obtain ⟨w, rfl⟩ := Int.eq_ofNat_of_zero_le hl
  have hguard : ¬ ((o : Int) < 0 ∨ (w : Int) < 0) := by omega
  simp only [writeDataBlocks, hguard, if_false, not_lt.mpr hd, getDataBlockLen_of_le hd0 hd,
    not_lt.mpr hs, sliceUpTo_of_le hd0 hd, writeBlocksLoop_full, zero_add, Int.toNat_natCast,
    dataWindow]

/-! ## Any writer -/

/-- Whatever the writer, a loop that ends with `nil` ran exactly as it
would against a writer that accepts everything: every copy it made was
taken in full. -/
theorem writeBlocksLoop_ok {dst : Writer} {blocks : List Bytes} {o w t n : Int}
    {acc acc' : Bytes} (h : writeBlocksLoop dst blocks o w t acc = (acc', .ok n)) :
    writeBlocksLoop dst blocks o w t acc = writeBlocksLoop Writer.full blocks o w t acc := by
  induction blocks generalizing o w t acc with
  | nil => rfl
  | cons block rest ih =>
    unfold writeBlocksLoop at h ⊢
    dsimp only at h ⊢
    split_ifs at h ⊢
    · exact ih h
    · rcases ioCopy_error_or_full dst acc ((block.drop o.toNat).take w.toNat) with
        ⟨_, _, _, hc⟩ | hc
      · simp [hc] at h
      · rw [hc]
    · rcases ioCopy_error_or_full dst acc (block.drop o.toNat) with ⟨_, _, _, hc⟩ | hc
      · simp [hc] at h
      · simp only [hc, ioCopy_full] at h ⊢
        exact ih h

/-- **No masked failure.** Whatever the writer, `writeDataBlocks`
succeeds only as it would against a writer that accepts everything: a
write error or a short write is always returned. -/
theorem writeDataBlocks_ok_eq_full {dst : Writer} {acc acc' : Bytes} {enBlocks : List Bytes}
    {dataBlocks offset length n : Int}
    (h : writeDataBlocks dst acc enBlocks dataBlocks offset length = (acc', .ok n)) :
    writeDataBlocks dst acc enBlocks dataBlocks offset length =
      writeDataBlocks Writer.full acc enBlocks dataBlocks offset length := by
  -- the guards do not involve `dst`: only the loop can differ
  unfold writeDataBlocks at h ⊢
  split_ifs at h ⊢
  · rfl
  · rfl
  · split at h
    · rfl
    · split_ifs at h ⊢
      · rfl
      · split at h
        · rfl
        · exact writeBlocksLoop_ok h

/-- **Loop, any writer.** Whatever the writer does, the loop from offset
`o` with `w` bytes to write hands it a prefix of bytes `[o, o + w)` of
its blocks, however it ends. -/
theorem writeBlocksLoop_prefix (dst : Writer) (blocks : List Bytes) (o w : Nat) (t : Int)
    (acc : Bytes) :
    ∃ u, (writeBlocksLoop dst blocks o w t acc).1 = acc ++ u ∧
      u <+: (blocks.flatten.drop o).take w := by
  induction blocks generalizing o w t acc with
  | nil => exact ⟨[], by simp [writeBlocksLoop]⟩
  | cons block rest ih =>
    by_cases hskip : block.length ≤ o
    · -- the whole block lies before the offset
      obtain ⟨u, hu, hpre⟩ := ih (o - block.length) w t acc
      rw [Nat.cast_sub hskip] at hu
      refine ⟨u, ?_, ?_⟩
      · simpa only [writeBlocksLoop, ge_iff_le, Nat.cast_le, hskip, if_true] using hu
      · rwa [List.flatten_cons, List.drop_append_eq_append_drop, List.drop_eq_nil_of_le hskip,
          List.nil_append]
    · have hlt : o < block.length := by omega
      have hlen : (block.drop o).length = block.length - o := List.length_drop o block
      have hwin : (block :: rest).flatten.drop o = block.drop o ++ rest.flatten := by
        rw [List.flatten_cons, List.drop_append_of_le_length hlt.le]
      rw [hwin]
      by_cases hlast : w < block.length - o
      · -- the window ends inside this block
        obtain ⟨u, hu, hpre⟩ := ioCopy_prefix dst acc ((block.drop o).take w)
        refine ⟨u, ?_, ?_⟩
        · simp only [writeBlocksLoop, ge_iff_le, Nat.cast_le, hskip, if_false,
            Int.toNat_natCast, hlen, Nat.cast_lt, hlast, if_true]
          rcases hc : ioCopy dst acc ((block.drop o).take w) with ⟨a, m, _ | e⟩ <;>
            rw [hc] at hu <;> exact hu
        · rwa [List.take_append_of_le_length (by omega)]
      · -- the whole rest of the block is copied
        have htake : (block.drop o ++ rest.flatten).take w =
            block.drop o ++ rest.flatten.take (w - (block.length - o)) := by
          rw [List.take_append_eq_append_take, List.take_of_length_le (by omega), hlen]
        rw [htake]
        rcases ioCopy_error_or_full dst acc (block.drop o) with ⟨a, m, e, hc⟩ | hc
        · obtain ⟨u, hu, hpre⟩ := ioCopy_prefix dst acc (block.drop o)
          rw [hc] at hu
          refine ⟨u, ?_, hpre.trans (List.prefix_append _ _)⟩
          simp only [writeBlocksLoop, ge_iff_le, Nat.cast_le, hskip, if_false,
            Int.toNat_natCast, hlen, Nat.cast_lt, hlast, hc]
          exact hu
        · obtain ⟨u, hu, hpre⟩ := ih 0 (w - (block.length - o)) (t + (block.length - o : Nat))
            (acc ++ block.drop o)
          rw [Nat.cast_sub (by omega), Nat.cast_zero] at hu
          refine ⟨block.drop o ++ u, ?_,
            (List.prefix_append_right_inj _).mpr (by simpa using hpre)⟩
          simp only [writeBlocksLoop, ge_iff_le, Nat.cast_le, hskip, if_false,
            Int.toNat_natCast, hlen, Nat.cast_lt, hlast, hc, ioCopy_full, Nat.cast_zero]
          rw [hu, List.append_assoc]

/-- **Only the window is written.** Whatever the writer does and however
the call ends, `dst` receives a prefix of the requested window
`[offset, offset + length)` of the data blocks, clipped at the end of the
data, and nothing else. -/
theorem writeDataBlocks_prefix_window (dst : Writer) (acc : Bytes) (enBlocks : List Bytes)
    (dataBlocks offset length : Int) :
    ∃ u, (writeDataBlocks dst acc enBlocks dataBlocks offset length).1 = acc ++ u ∧
      u <+: dataWindow enBlocks dataBlocks.toNat offset.toNat length.toNat := by
  rcases writeDataBlocks_cases dst acc enBlocks dataBlocks offset length with
    ⟨e, -, he⟩ | ⟨ho, hl, -, -, -, hloop⟩
  · exact ⟨[], by rw [he, List.append_nil], List.nil_prefix⟩
  · obtain ⟨o, rfl⟩ := Int.eq_ofNat_of_zero_le ho
    obtain ⟨l, rfl⟩ := Int.eq_ofNat_of_zero_le hl
    rw [hloop]
    simpa only [dataWindow, Int.toNat_natCast] using
      writeBlocksLoop_prefix dst (enBlocks.take dataBlocks.toNat) o l 0 acc

/-- **Success means the whole window.** Whatever the writer, a call that
returns `nil` has written exactly the window, clipped at the end of the
data, and returns the number of bytes in it. -/
theorem writeDataBlocks_ok_exact {dst : Writer} {acc acc' : Bytes} {enBlocks : List Bytes}
    {dataBlocks offset length n : Int}
    (h : writeDataBlocks dst acc enBlocks dataBlocks offset length = (acc', .ok n)) :
    acc' = acc ++ dataWindow enBlocks dataBlocks.toNat offset.toNat length.toNat ∧
      n = (dataWindow enBlocks dataBlocks.toNat offset.toNat length.toNat).length := by
  rcases writeDataBlocks_cases dst acc enBlocks dataBlocks offset length with
    ⟨e, -, he⟩ | ⟨ho, hl, hd0, hd, hs, -⟩
  · rw [he] at h; cases h
  · rw [writeDataBlocks_ok_eq_full h, writeDataBlocks_full hd0 hd ho hl hs] at h
    cases h
    exact ⟨rfl, by simp only [dataWindow, List.length_take, List.length_drop]⟩

/-- Two blocks, offset 1, length 2: the call returns `2, nil` having
written `[2, 3]`. -/
theorem writeDataBlocks_ok_exact_two_blocks :
    ([2, 3] : Bytes) = [] ++ dataWindow [[1, 2], [3, 4]] (2 : Int).toNat (1 : Int).toNat
        (2 : Int).toNat ∧
      (2 : Int) = (dataWindow [[1, 2], [3, 4]] (2 : Int).toNat (1 : Int).toNat
        (2 : Int).toNat).length :=
  @writeDataBlocks_ok_exact Writer.full [] [2, 3] [[1, 2], [3, 4]] 2 1 2 2 rfl

/-- **Loop, failure.** Whatever the writer, a loop that fails wrote the
window `[o, o + w)` in full up to some point `u`, then failed on its one
`Write` of the next piece `p` of it: `dst` holds what that write took,
and the error is that write's. -/
theorem writeBlocksLoop_error_write {dst : Writer} {blocks : List Bytes} {o w : Nat} {t : Int}
    {acc acc' : Bytes} {e : GoError} (h : writeBlocksLoop dst blocks o w t acc = (acc', .error e)) :
    ∃ u p, u ++ p <+: (blocks.flatten.drop o).take w ∧ ∃ n, ioCopy dst (acc ++ u) p = (acc', n, some e) := by
  induction blocks generalizing o w t acc with
  | nil => simp [writeBlocksLoop] at h
  | cons block rest ih =>
    by_cases hskip : block.length ≤ o
    · -- the whole block lies before the offset
      have h' : writeBlocksLoop dst rest ((o - block.length : Nat) : Int) w t acc =
          (acc', .error e) := by
        rw [Nat.cast_sub hskip]
        simpa only [writeBlocksLoop, ge_iff_le, Nat.cast_le, hskip, if_true] using h
      obtain ⟨u, p, hpre, hc⟩ := ih h'
      refine ⟨u, p, ?_, hc⟩
      rwa [List.flatten_cons, List.drop_append_eq_append_drop, List.drop_eq_nil_of_le hskip,
        List.nil_append]
    have hlt : o < block.length := by omega
    have hlen : (block.drop o).length = block.length - o := List.length_drop o block
    have hwin : (block :: rest).flatten.drop o = block.drop o ++ rest.flatten := by
      rw [List.flatten_cons, List.drop_append_of_le_length hlt.le]
    rw [hwin]
    by_cases hlast : w < block.length - o
    · -- the window ends inside this block
      simp only [writeBlocksLoop, ge_iff_le, Nat.cast_le, hskip, if_false, Int.toNat_natCast, hlen,
        Nat.cast_lt, hlast, if_true] at h
      rcases hc : ioCopy dst acc ((block.drop o).take w) with ⟨a, m, _ | e'⟩ <;> rw [hc] at h <;>
        cases h
      refine ⟨[], (block.drop o).take w, ?_, m, by rw [List.append_nil, hc]⟩
      rw [List.nil_append, List.take_append_of_le_length (by omega)]
    · -- the whole rest of the block is copied
      have htake : (block.drop o ++ rest.flatten).take w =
          block.drop o ++ rest.flatten.take (w - (block.length - o)) := by
        rw [List.take_append_eq_append_take, List.take_of_length_le (by omega), hlen]
      rw [htake]
      rcases ioCopy_error_or_full dst acc (block.drop o) with ⟨a, m, e', hc⟩ | hc
      · simp only [writeBlocksLoop, ge_iff_le, Nat.cast_le, hskip, if_false, Int.toNat_natCast, hlen,
          Nat.cast_lt, hlast, hc] at h
        cases h
        exact ⟨[], block.drop o, by simp, m, by rw [List.append_nil, hc]⟩
      · have h' : writeBlocksLoop dst rest ((0 : Nat) : Int) ((w - (block.length - o) : Nat) : Int)
            (t + (block.length - o : Nat)) (acc ++ block.drop o) = (acc', .error e) := by
          rw [Nat.cast_sub (by omega), Nat.cast_zero]
          simpa only [writeBlocksLoop, ge_iff_le, Nat.cast_le, hskip, if_false, Int.toNat_natCast,
            hlen, Nat.cast_lt, hlast, hc, ioCopy_full] using h
        obtain ⟨u, p, hpre, n, hc'⟩ := ih h'
        refine ⟨block.drop o ++ u, p, ?_, n, by rwa [← List.append_assoc]⟩
        rw [List.append_assoc]
        exact (List.prefix_append_right_inj _).mpr (by simpa using hpre)

/-- **Errors pass through unchanged.** Whatever the writer, an error that
`writeDataBlocks` returns is a guard's, with `dst` untouched, or the
error of one `Write`: the loop handed `dst` a first part `u` of the
window in full, then a non-empty next piece `p` of it, and that write
returned the error, or took fewer than `len(p)` bytes without one, which
alone makes the error `io.ErrShortWrite`; `dst` ends holding what it
took. -/
theorem writeDataBlocks_error_source {dst : Writer} {acc acc' : Bytes} {enBlocks : List Bytes}
    {dataBlocks offset length : Int} {e : GoError}
    (h : writeDataBlocks dst acc enBlocks dataBlocks offset length = (acc', .error e)) :
    (GuardError e ∧ acc' = acc) ∨
      ∃ u p, u ++ p <+: dataWindow enBlocks dataBlocks.toNat offset.toNat length.toNat ∧ p ≠ [] ∧
        acc' = acc ++ u ++ p.take (dst.write (acc ++ u) p).1 ∧
        ((dst.write (acc ++ u) p).2 = some e ∨
          ((dst.write (acc ++ u) p).2 = none ∧ (dst.write (acc ++ u) p).1 < p.length ∧
            e = .errShortWrite)) := by
  rcases writeDataBlocks_cases dst acc enBlocks dataBlocks offset length with
    ⟨e', hg, he⟩ | ⟨ho, hl, -, -, -, hloop⟩
  · rw [he, Prod.mk.injEq, Except.error.injEq] at h
    obtain ⟨rfl, rfl⟩ := h
    exact .inl ⟨hg, rfl⟩
  · obtain ⟨o, rfl⟩ := Int.eq_ofNat_of_zero_le ho
    obtain ⟨l, rfl⟩ := Int.eq_ofNat_of_zero_le hl
    obtain ⟨u, p, hpre, n, hc⟩ := writeBlocksLoop_error_write (hloop ▸ h)
    obtain ⟨hp, hacc, herr⟩ := ioCopy_error_write hc
    exact .inr ⟨u, p, by simpa only [dataWindow, Int.toNat_natCast] using hpre, hp, hacc, herr⟩

/-- A writer that takes nothing and fails every write. -/
def failingWriter : Writer := ⟨fun _ _ => (0, some (.other 7)), fun _ _ => Nat.zero_le _⟩

/-- The failing writer: the call returns its error, from its one write,
of the whole window. -/
theorem writeDataBlocks_error_source_failing_writer :
    (GuardError (.other 7) ∧ ([] : Bytes) = []) ∨
      ∃ u p, u ++ p <+: dataWindow [[1, 2]] (1 : Int).toNat (0 : Int).toNat (2 : Int).toNat ∧
        p ≠ [] ∧ ([] : Bytes) = [] ++ u ++ p.take (failingWriter.write ([] ++ u) p).1 ∧
        ((failingWriter.write ([] ++ u) p).2 = some (.other 7) ∨
          ((failingWriter.write ([] ++ u) p).2 = none ∧
            (failingWriter.write ([] ++ u) p).1 < p.length ∧ GoError.other 7 = .errShortWrite)) :=
  @writeDataBlocks_error_source failingWriter [] [] [[1, 2]] 1 0 2 (.other 7) rfl

/-- **Parity is never read.** With the data blocks first, as the decoder
lays them out, the blocks after them do not matter: whatever the writer,
the call writes the same bytes and returns the same result. -/
theorem writeDataBlocks_parity_unread (dst : Writer) (acc : Bytes)
    (data parity parity' : List Bytes) (offset length : Int) :
    writeDataBlocks dst acc (data ++ parity) data.length offset length =
      writeDataBlocks dst acc (data ++ parity') data.length offset length := by
  have hlen (p : List Bytes) : ¬ (((data ++ p).length : Int) < data.length) := by simp
  have htake (p : List Bytes) : (data ++ p).take (data.length : Int).toNat = data := by simp
  have hsize (p : List Bytes) :
      getDataBlockLen (data ++ p) data.length = .ok (data.flatten.length : Int) := by
    rw [getDataBlockLen_of_le (by omega) (by simp), htake]
  have hslice (p : List Bytes) : sliceUpTo (data ++ p) data.length = .ok data := by
    rw [sliceUpTo_of_le (by omega) (by simp), htake]
  simp only [writeDataBlocks, hlen, hsize, hslice, if_false]

/-! ## Windows inside and past the data -/

/-- A window that ends inside the data is written exactly, and `length`
is returned. -/
theorem writeDataBlocks_full_inside {acc : Bytes} {enBlocks : List Bytes}
    {dataBlocks offset length : Int} (hd0 : 0 ≤ dataBlocks)
    (hd : dataBlocks ≤ enBlocks.length) (ho : 0 ≤ offset) (hl : 0 ≤ length)
    (hw : offset + length ≤ (enBlocks.take dataBlocks.toNat).flatten.length) :
    writeDataBlocks Writer.full acc enBlocks dataBlocks offset length =
      (acc ++ dataWindow enBlocks dataBlocks.toNat offset.toNat length.toNat, .ok length) := by
  rw [writeDataBlocks_full hd0 hd ho hl (by omega)]
  congr 2; omega

/-- A window `[offset, offset + length)` that lies inside the first
`dataBlocks` blocks is written exactly, and `length` is returned. -/
theorem writeDataBlocks_window (acc : Bytes) (enBlocks : List Bytes)
    (dataBlocks offset length size : Int) (hd0 : 0 ≤ dataBlocks)
    (hd : dataBlocks ≤ enBlocks.length) (ho : 0 ≤ offset) (hl : 0 ≤ length)
    (hsize : getDataBlockLen enBlocks dataBlocks = .ok size) (hw : offset + length ≤ size) :
    writeDataBlocks Writer.full acc enBlocks dataBlocks offset length =
      (acc ++ dataWindow enBlocks dataBlocks.toNat offset.toNat length.toNat, .ok length) := by
  rw [getDataBlockLen_of_le hd0 hd] at hsize
  cases hsize
  exact writeDataBlocks_full_inside hd0 hd ho hl hw

/-- The scenario of the spec: `"ABCDEFGHIJKL"` in four data blocks of
three bytes, then two parity blocks; offset 4, length 5 gives `"EFGHI"`. -/
theorem writeDataBlocks_window_EFGHI :
    writeDataBlocks Writer.full []
        [[65, 66, 67], [68, 69, 70], [71, 72, 73], [74, 75, 76], [1, 2, 3], [4, 5, 6]] 4 4 5 =
      ([69, 70, 71, 72, 73], .ok 5) := by
  rw [writeDataBlocks_window []
    [[65, 66, 67], [68, 69, 70], [71, 72, 73], [74, 75, 76], [1, 2, 3], [4, 5, 6]] 4 4 5 12
    (by decide) (by decide) (by decide) (by decide) rfl (by decide)]
  rfl

/-- A non-empty window that passes the three guards but runs past the
end of the data is answered with a `nil` error and a count short of
`length`: the guard compares the data length with `length`, not with
`offset + length`. -/
theorem writeDataBlocks_short_success {acc : Bytes} {enBlocks : List Bytes}
    {dataBlocks offset length : Int} (hd0 : 0 ≤ dataBlocks)
    (hd : dataBlocks ≤ enBlocks.length) (ho : 0 ≤ offset) (hl : 0 < length)
    (hs : length ≤ (enBlocks.take dataBlocks.toNat).flatten.length)
    (hpast : (enBlocks.take dataBlocks.toNat).flatten.length < offset + length) :
    ∃ n < length, (writeDataBlocks Writer.full acc enBlocks dataBlocks offset length).2 = .ok n := by
  rw [writeDataBlocks_full hd0 hd ho hl.le hs]
  exact ⟨_, by rw [Nat.cast_min]; omega, rfl⟩

/-- One two-byte block, offset 1, length 2: the count is short of
`length`. -/
theorem writeDataBlocks_short_success_one_byte :
    ∃ n < (2 : Int), (writeDataBlocks Writer.full [] [[0, 0]] 1 1 2).2 = .ok n :=
  writeDataBlocks_short_success (by decide) (by decide) (by decide) (by decide) (by decide)
    (by decide)

/-- One two-byte block, offset 1, length 2: the guard passes (`2 ≥ 2`),
one byte is written, and the call reports `1, nil`. -/
theorem writeDataBlocks_past_end :
    writeDataBlocks Writer.full [] [[0, 0]] 1 1 2 = ([0], .ok 1) := by
  rfl

/-! ## Consecutive reads -/

/-- **Reads compose.** Reading `[offset, offset + l₁)` and then
`[offset + l₁, offset + l₁ + l₂)` into the same writer writes what one
read of `[offset, offset + l₁ + l₂)` writes, and the counts add up, also
for windows clipped at the end of the data. -/
theorem writeDataBlocks_consecutive (acc : Bytes) (enBlocks : List Bytes) (dataBlocks : Int)
    (offset l₁ l₂ : Nat) (hd0 : 0 ≤ dataBlocks) (hd : dataBlocks ≤ enBlocks.length)
    (hs : l₁ + l₂ ≤ (enBlocks.take dataBlocks.toNat).flatten.length) :
    let first := writeDataBlocks Writer.full acc enBlocks dataBlocks offset l₁
    let second := writeDataBlocks Writer.full first.1 enBlocks dataBlocks (offset + l₁ : Nat) l₂
    let whole := writeDataBlocks Writer.full acc enBlocks dataBlocks offset (l₁ + l₂ : Nat)
    second.1 = whole.1 ∧
      ∃ n₁ n₂, first.2 = .ok n₁ ∧ second.2 = .ok n₂ ∧ whole.2 = .ok (n₁ + n₂) := by
  intro first second whole
  simp only [first, second, whole, writeDataBlocks_full hd0 hd (Int.natCast_nonneg offset)
    (Int.natCast_nonneg l₁) (by omega), writeDataBlocks_full hd0 hd
    (Int.natCast_nonneg (offset + l₁)) (Int.natCast_nonneg l₂) (by omega),
    writeDataBlocks_full hd0 hd (Int.natCast_nonneg offset) (Int.natCast_nonneg (l₁ + l₂))
    (by push_cast; omega), Int.toNat_natCast, dataWindow]
  refine ⟨?_, _, _, rfl, rfl, by push_cast; congr 2; omega⟩
  rw [List.append_assoc, List.take_add, List.drop_drop]

/-- Bytes `[1, 3)` then `[3, 6)` of two three-byte blocks. -/
theorem writeDataBlocks_consecutive_two_reads :
    let first := writeDataBlocks Writer.full [] [[1, 2, 3], [4, 5, 6]] 2 (1 : Nat) (2 : Nat)
    let second :=
      writeDataBlocks Writer.full first.1 [[1, 2, 3], [4, 5, 6]] 2 (1 + 2 : Nat) (3 : Nat)
    let whole := writeDataBlocks Writer.full [] [[1, 2, 3], [4, 5, 6]] 2 (1 : Nat) (2 + 3 : Nat)
    second.1 = whole.1 ∧
      ∃ n₁ n₂, first.2 = .ok n₁ ∧ second.2 = .ok n₂ ∧ whole.2 = .ok (n₁ + n₂) :=
  writeDataBlocks_consecutive [] [[1, 2, 3], [4, 5, 6]] 2 1 2 3 (by decide) (by decide)
    (by decide)

end ShareOS
