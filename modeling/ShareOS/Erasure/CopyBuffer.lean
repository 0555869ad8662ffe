import ShareOS.Go.Runtime

/-!
# Erasure — streaming copy and hashing

`copyBuffer` and `hashSum` of `src/cmd/erasure-utils.go`: copy a whole
blob of a storage unit into a writer through a staging buffer, and hash
a blob that way.

`copyBuffer` is a `for {}` loop, so the model runs it on `fuel`: at most
`fuel` iterations, `none` when the loop has not exited by then. The
results below say how much fuel a run needs (`len(b) + 1` iterations
bound every run with a non-empty buffer), and that a `nil` buffer
exhausts every budget.

The storage unit is the spec's adapter (`blobDisk`): a blob served by
`ReadFile` with `io.ReadFull`'s end-of-data signals, where any call may
fail instead. Its per-call answers are stated once
(`blobDisk_readFile_*`) and the loop's per-iteration lemmas are derived
from them; every run lemma is an induction on fuel over those.
-/

namespace ShareOS

open ShareOS.Go

/-- A Go `[]byte` staging buffer as `copyBuffer` sees it: `nil`, or a
non-nil slice of some length. Its contents never matter: each read
overwrites `buf[:n]` before `buf[:n]` is written out. -/
inductive Buf where
  | nil
  | make (len : Nat)
  deriving DecidableEq, Repr

/-- `len(buf)`. -/
def Buf.len : Buf → Nat
  | .nil => 0
  | .make n => n

/-- The method of `StorageAPI` that `copyBuffer` calls:
`readFile volume path offset buf` answers `ReadFile(volume, path, offset,
buf)` with the bytes it copied into `buf` (their count is `n`) and its
error. `readFile_le` is `n ≤ len(buf)`. -/
structure StorageAPI where
  readFile : String → String → Nat → Buf → Bytes × Option GoError
  readFile_le : ∀ volume path offset buf, (readFile volume path offset buf).1.length ≤ buf.len

/-- The `if n > 0 { ... }` block of `copyBuffer`: write `buf[:n]` out,
returning the writer's error, or `io.ErrShortWrite` on a short count. -/
def copyOut (writer : Writer) (acc data : Bytes) : Bytes × Option GoError :=
  if 0 < data.length then
    let r := writer.writeChecked acc data
    (r.1, r.2.2)
  else (acc, none)

/-- The `for` loop of `copyBuffer` from `startOffset`, the writer holding
`acc`, for at most `fuel` iterations. A read error of `io.EOF` or
`io.ErrUnexpectedEOF` breaks the loop with success; any other error, of
the read or of the write, is returned. -/
def copyBufferLoop (writer : Writer) (disk : StorageAPI) (volume path : String) (buf : Buf) :
    Nat → Nat → Bytes → Option (Bytes × Option GoError)
  | 0, _, _ => none
  | fuel + 1, startOffset, acc =>
    let r := disk.readFile volume path startOffset buf
    let w := copyOut writer acc r.1
    match w.2, r.2 with
    | some wErr, _ => some (w.1, some wErr)
    | none, some err =>
      if err = .eof ∨ err = .errUnexpectedEOF then some (w.1, none) else some (w.1, some err)
    | none, none => copyBufferLoop writer disk volume path buf fuel (startOffset + r.1.length) w.1

/-- copyBuffer - copies from disk, volume, path to input writer until
either EOF is reached at volume, path or an error occurs; a zero-length
buffer is an error. The result pairs what the writer holds with the
returned error. -/
def copyBuffer (fuel : Nat) (writer : Writer) (acc : Bytes) (disk : StorageAPI)
    (volume path : String) (buf : Buf) : Option (Bytes × Option GoError) :=
  if buf ≠ .nil ∧ buf.len = 0 then some (acc, some (.errorsNew "empty buffer in readBuffer"))
  else copyBufferLoop writer disk volume path buf fuel 0 acc

/-- hashSum calculates the hash of the entire path: `copyBuffer` into a
fresh hash through a pooled buffer of `readSizeV1` bytes, then
`writer.Sum(nil)`. The hash is given by `sum`, the digest of what was
written to it (a `hash.Hash` accepts every write in full). -/
def hashSum {α : Type} (fuel readSizeV1 : Nat) (disk : StorageAPI) (volume path : String)
    (sum : Bytes → α) : Option (Except GoError α) :=
  (copyBuffer fuel Writer.full [] disk volume path (.make readSizeV1)).map fun r =>
    match r.2 with
    | some e => .error e
    | none => .ok (sum r.1)

/-! ## The storage unit -/

/-- A failing `ReadFile` call: it copies `copied` bytes of what a clean
read would have (a read error after a partial transfer) and fails with
`err`, an error other than `io.EOF` and `io.ErrUnexpectedEOF`. -/
structure ReadFault where
  copied : Nat
  err : GoError
  err_ne_eof : err ≠ .eof
  err_ne_unexpectedEOF : err ≠ .errUnexpectedEOF

/-- Modelled from the spec: the storage unit's `ReadFile` (its `posix`
implementation is not in this repository's sources) as the spec's shard
store adapter describes it. A read at `offset` copies
`min(len(buf), len(b) - offset)` bytes of the blob `b`; it returns
`io.EOF` when it copied nothing into a non-empty buffer,
`io.ErrUnexpectedEOF` when it copied fewer than `len(buf)` bytes, and
`nil` otherwise. `fault offset` makes the call at that offset fail. -/
def blobDisk (b : Bytes) (fault : Nat → Option ReadFault) : StorageAPI where
  readFile _ _ offset buf :=
    match fault offset with
    | some f => (((b.drop offset).take buf.len).take f.copied, some f.err)
    | none =>
      ((b.drop offset).take buf.len,
        if (b.drop offset).take buf.len = [] ∧ 0 < buf.len then some .eof
        else if ((b.drop offset).take buf.len).length < buf.len then some .errUnexpectedEOF
        else none)
  readFile_le _ _ offset buf := by
    dsimp only
    split <;> simp only [List.length_take] <;> omega

section Blob

variable {b : Bytes} {fault : Nat → Option ReadFault} {volume path : String} {k : Nat}

theorem blobDisk_readFile_full {o : Nat} (hf : fault o = none) (h : o + k ≤ b.length) :
    (blobDisk b fault).readFile volume path o (.make k) = ((b.drop o).take k, none) := by
  have hl : ((b.drop o).take k).length = k := by
    rw [List.length_take, List.length_drop]; omega
  simp only [blobDisk, Buf.len, hf, hl, lt_irrefl, if_false, Prod.mk.injEq, true_and]
  rw [if_neg fun hc => by simp [hc.1] at hl; omega]

theorem blobDisk_readFile_last {o : Nat} (hf : fault o = none) (hk : 1 ≤ k)
    (h : b.length < o + k) :
    ∃ err, (err = .eof ∨ err = .errUnexpectedEOF) ∧ ∀ volume path,
      (blobDisk b fault).readFile volume path o (.make k) = (b.drop o, some err) := by
  have ht : (b.drop o).take k = b.drop o :=
    List.take_of_length_le (by rw [List.length_drop]; omega)
  by_cases he : b.drop o = []
  · refine ⟨.eof, .inl rfl, fun _ _ => ?_⟩
    simp only [blobDisk, Buf.len, hf, ht]
    rw [if_pos ⟨he, by omega⟩, he]
  · refine ⟨.errUnexpectedEOF, .inr rfl, fun _ _ => ?_⟩
    have hl : (b.drop o).length < k := by rw [List.length_drop]; omega
    simp only [blobDisk, Buf.len, hf, ht]
    rw [if_neg fun hc => he hc.1, if_pos hl]

theorem blobDisk_readFile_fault {o : Nat} {f : ReadFault} (hf : fault o = some f) :
    (blobDisk b fault).readFile volume path o (.make k) =
      (((b.drop o).take k).take f.copied, some f.err) := by
  simp [blobDisk, Buf.len, hf]

/-- A clean answer (no error) from the blob is a full buffer, inside the
blob. -/
theorem blobDisk_readFile_clean {o : Nat} (hk : 1 ≤ k)
    (h : ((blobDisk b fault).readFile volume path o (.make k)).2 = none) :
    fault o = none ∧ o + k ≤ b.length := by
  cases hf : fault o with
  | some f => simp [blobDisk_readFile_fault hf] at h
  | none =>
    refine ⟨rfl, Nat.not_lt.mp fun hlt => ?_⟩
    obtain ⟨err, -, hr⟩ := blobDisk_readFile_last hf hk hlt
    simp [hr] at h

/-! ## One iteration -/

@[simp] theorem copyOut_full (acc data : Bytes) :
    copyOut Writer.full acc data = (acc ++ data, none) := by
  by_cases h : 0 < data.length
  · simp [copyOut, h]
  · simp [copyOut, h, List.length_eq_zero.mp (Nat.eq_zero_of_not_pos h)]

/-- A write-out that reports no error handed the writer all of `data`. -/
theorem copyOut_ok {writer : Writer} {acc data : Bytes} (h : (copyOut writer acc data).2 = none) :
    copyOut writer acc data = (acc ++ data, none) := by
  unfold copyOut at h ⊢
  split_ifs at h ⊢ with hd
  · rw [Writer.writeChecked_ok h]
  · simp [List.length_eq_zero.mp (Nat.eq_zero_of_not_pos hd)]

/-- **No masked write failure.** Whatever the writer and the disk, a copy
that ends with `nil` ran as it would against a writer that accepts
everything. -/
theorem copyBufferLoop_ok {writer : Writer} {disk : StorageAPI} {volume path : String} {buf : Buf}
    {fuel o : Nat} {acc acc' : Bytes}
    (h : copyBufferLoop writer disk volume path buf fuel o acc = some (acc', none)) :
    copyBufferLoop Writer.full disk volume path buf fuel o acc = some (acc', none) := by
  induction fuel generalizing o acc with
  | zero => exact h
  | succ fuel ih =>
    simp only [copyBufferLoop] at h ⊢
    rcases hw : (copyOut writer acc (disk.readFile volume path o buf).1).2 with _ | e
    · rw [copyOut_ok hw] at h
      rw [copyOut_full]
      rcases hr : (disk.readFile volume path o buf).2 with _ | err
      · simp only [hr] at h ⊢
        exact ih h
      · simpa only [hr] using h
    · simp [hw] at h

theorem copyBufferLoop_full_read {fuel o : Nat} {acc : Bytes} (hf : fault o = none)
    (h : o + k ≤ b.length) :
    copyBufferLoop Writer.full (blobDisk b fault) volume path (.make k) (fuel + 1) o acc =
      copyBufferLoop Writer.full (blobDisk b fault) volume path (.make k) fuel (o + k)
        (acc ++ (b.drop o).take k) := by
  have hl : ((b.drop o).take k).length = k := by
    rw [List.length_take, List.length_drop]; omega
  simp only [copyBufferLoop, blobDisk_readFile_full hf h, copyOut_full, hl]

theorem copyBufferLoop_last_read {fuel o : Nat} {acc : Bytes} (hf : fault o = none)
    (hk : 1 ≤ k) (h : b.length < o + k) :
    copyBufferLoop Writer.full (blobDisk b fault) volume path (.make k) (fuel + 1) o acc =
      some (acc ++ b.drop o, none) := by
  obtain ⟨err, herr, hr⟩ := blobDisk_readFile_last hf hk h
  simp only [copyBufferLoop, hr, copyOut_full, herr, if_true]

theorem copyBufferLoop_fault_read {fuel o : Nat} {acc : Bytes} {f : ReadFault}
    (hf : fault o = some f) :
    copyBufferLoop Writer.full (blobDisk b fault) volume path (.make k) (fuel + 1) o acc =
      some (acc ++ ((b.drop o).take k).take f.copied, some f.err) := by
  simp only [copyBufferLoop, blobDisk_readFile_fault hf, copyOut_full, f.err_ne_eof,
    f.err_ne_unexpectedEOF, or_self, if_false]

/-! ## Whole runs -/

/-- **Clean run.** From the `j`-th call on, if no call fails, the loop
appends the rest of the blob and returns success. -/
theorem copyBufferLoop_clean (volume path : String) (hk : 1 ≤ k) (fuel j : Nat) (acc : Bytes)
    (hj : j * k ≤ b.length) (hfuel : b.length - j * k < fuel)
    (hclean : ∀ i, j ≤ i → i * k ≤ b.length → fault (i * k) = none) :
    copyBufferLoop Writer.full (blobDisk b fault) volume path (.make k) fuel (j * k) acc =
      some (acc ++ b.drop (j * k), none) := by
  induction fuel generalizing j acc with
  | zero => omega
  | succ fuel ih =>
    have hf := hclean j le_rfl hj
    have hnext : (j + 1) * k = j * k + k := Nat.succ_mul j k
    by_cases hfull : j * k + k ≤ b.length
    · rw [copyBufferLoop_full_read hf hfull, ← hnext,
        ih (j + 1) _ (by omega) (by omega) fun i hi => hclean i (by omega), hnext,
        List.append_assoc, ← List.drop_drop, List.take_append_drop]
    · exact copyBufferLoop_last_read hf hk (by omega)

/-- **First failing call.** If the `j₀`-th call is the first to fail, the
loop returns that call's error unchanged, having appended a prefix of
the rest of the blob. -/
theorem copyBufferLoop_first_fault (volume path : String) (fuel j j₀ : Nat) (acc : Bytes)
    {f : ReadFault}
    (hj : j ≤ j₀) (hj₀ : j₀ * k ≤ b.length) (hf : fault (j₀ * k) = some f)
    (hbefore : ∀ i, j ≤ i → i < j₀ → fault (i * k) = none) (hfuel : j₀ - j < fuel) :
    ∃ w, copyBufferLoop Writer.full (blobDisk b fault) volume path (.make k) fuel (j * k) acc =
      some (acc ++ w, some f.err) ∧ w <+: b.drop (j * k) := by
  induction fuel generalizing j acc with
  | zero => omega
  | succ fuel ih =>
    rcases Nat.lt_or_ge j j₀ with hlt | hge
    · have hnext : (j + 1) * k = j * k + k := Nat.succ_mul j k
      have hfull : j * k + k ≤ b.length :=
        hnext ▸ le_trans (Nat.mul_le_mul_right k hlt) hj₀
      obtain ⟨w, hw, hpre⟩ := ih (j + 1) (acc ++ (b.drop (j * k)).take k) hlt
        (fun i hi => hbefore i (by omega)) (by omega)
      refine ⟨(b.drop (j * k)).take k ++ w, ?_, ?_⟩
      · rw [copyBufferLoop_full_read (hbefore j le_rfl hlt) hfull, ← hnext, hw,
          List.append_assoc]
      · rw [hnext, ← List.drop_drop] at hpre
        exact ((List.prefix_append_right_inj _).mpr hpre).trans
          ⟨[], by rw [List.append_nil, List.take_append_drop]⟩
    · obtain rfl : j = j₀ := by omega
      exact ⟨_, copyBufferLoop_fault_read hf, (List.take_prefix _ _).trans (List.take_prefix _ _)⟩

/-- **Nothing lost.** A run against the blob that ends with `nil` has
appended exactly the rest of the blob, whichever calls were set to fail:
a failing call ends the run with its error. -/
theorem copyBufferLoop_success (volume path : String) (hk : 1 ≤ k) (fuel o : Nat)
    (acc acc' : Bytes) (ho : o ≤ b.length)
    (h : copyBufferLoop Writer.full (blobDisk b fault) volume path (.make k) fuel o acc =
      some (acc', none)) :
    acc' = acc ++ b.drop o := by
  induction fuel generalizing o acc with
  | zero => cases h
  | succ fuel ih =>
    cases hf : fault o with
    | some f => simp [copyBufferLoop_fault_read hf] at h
    | none =>
      by_cases hfull : o + k ≤ b.length
      · rw [copyBufferLoop_full_read hf hfull] at h
        rw [ih (o + k) _ hfull h, List.append_assoc, ← List.drop_drop, List.take_append_drop]
      · rw [copyBufferLoop_last_read hf hk (by omega)] at h
        cases h
        rfl

/-- Every iteration that does not exit reads a full buffer, so for a
buffer of `k ≥ 1` bytes the offset grows by `k` each time, and a run
from `o` exits within `len(b) - o + 1` iterations, whatever the writer
and whichever calls fail. -/
theorem copyBufferLoop_terminates (volume path : String) (hk : 1 ≤ k) (writer : Writer)
    (fuel o : Nat) (acc : Bytes)
    (h : b.length - o < fuel) :
    copyBufferLoop writer (blobDisk b fault) volume path (.make k) fuel o acc ≠ none := by
  induction fuel generalizing o acc with
  | zero => omega
  | succ fuel ih =>
    rw [copyBufferLoop]
    split
    · simp
    · split <;> simp
    · rename_i hr
      obtain ⟨hf, hfull⟩ := blobDisk_readFile_clean hk hr
      rw [blobDisk_readFile_full hf hfull]
      exact ih _ _ (by rw [List.length_take, List.length_drop]; omega)

end Blob

/-! ## `copyBuffer` and `hashSum` -/

theorem copyBuffer_make {fuel k : Nat} (writer : Writer) (acc : Bytes) (disk : StorageAPI)
    (volume path : String) (hk : 1 ≤ k) :
    copyBuffer fuel writer acc disk volume path (.make k) =
      copyBufferLoop writer disk volume path (.make k) fuel 0 acc := by
  simp [copyBuffer, Buf.len]; omega

/-- **Streaming copy.** With a buffer of `k ≥ 1` bytes, a writer that
accepts everything and enough fuel: if no `ReadFile` call fails, the
writer receives exactly the blob and `copyBuffer` returns `nil`, so
`hashSum` hashes exactly the blob, whatever `k` is; if some call fails,
`copyBuffer` returns the first failing call's error unchanged, having
written a prefix of the blob. -/
theorem copyBuffer_blob (b : Bytes) (fault : Nat → Option ReadFault) (k : Nat) (hk : 1 ≤ k)
    (volume path : String) (acc : Bytes) (fuel : Nat) (hfuel : b.length < fuel) :
    ((∀ j, j * k ≤ b.length → fault (j * k) = none) →
      copyBuffer fuel Writer.full acc (blobDisk b fault) volume path (.make k) =
        some (acc ++ b, none) ∧
      ∀ {α : Type} (sum : Bytes → α),
        hashSum fuel k (blobDisk b fault) volume path sum = some (.ok (sum b))) ∧
    (∀ j f, j * k ≤ b.length → fault (j * k) = some f → (∀ i < j, fault (i * k) = none) →
      ∃ w, copyBuffer fuel Writer.full acc (blobDisk b fault) volume path (.make k) =
        some (acc ++ w, some f.err) ∧ w <+: b) := by
  have hrun : ∀ acc, (∀ j, j * k ≤ b.length → fault (j * k) = none) →
      copyBuffer fuel Writer.full acc (blobDisk b fault) volume path (.make k) =
        some (acc ++ b, none) := fun acc hclean => by
    rw [copyBuffer_make Writer.full acc _ volume path hk]
    simpa using copyBufferLoop_clean volume path hk fuel 0 acc (by simp)
      (by simpa using hfuel) fun i _ => hclean i
  refine ⟨fun hclean => ⟨hrun acc hclean, fun sum => ?_⟩, fun j f hj hf hbefore => ?_⟩
  · simp [hashSum, hrun [] hclean]
  · have hjb : j ≤ b.length := le_trans (Nat.le_mul_of_pos_right j hk) hj
    simpa [copyBuffer_make _ _ _ _ _ hk] using
      copyBufferLoop_first_fault volume path fuel 0 j acc (Nat.zero_le _)
        hj hf (fun i _ hi => hbefore i hi) (by omega)

/-- Three bytes through a two-byte buffer: two reads, the second one
short, and the writer holds the three bytes. -/
theorem copyBuffer_blob_three_by_two :
    copyBuffer 4 Writer.full [] (blobDisk [1, 2, 3] fun _ => none) "data" "part.1" (.make 2) =
      some ([1, 2, 3], none) :=
  ((copyBuffer_blob [1, 2, 3] (fun _ => none) 2 (by decide) "data" "part.1" [] 4
    (by decide)).1 fun _ _ => rfl).1

/-- Whatever the writer, whichever `ReadFile` calls fail and however
much fuel: a copy through a buffer of at least one byte that returns
`nil` has handed the writer exactly the blob. -/
theorem copyBuffer_success_blob {b : Bytes} {fault : Nat → Option ReadFault} {writer : Writer}
    {volume path : String} {k fuel : Nat} {acc acc' : Bytes} (hk : 1 ≤ k)
    (h : copyBuffer fuel writer acc (blobDisk b fault) volume path (.make k) = some (acc', none)) :
    acc' = acc ++ b := by
  rw [copyBuffer_make _ _ _ _ _ hk] at h
  simpa using copyBufferLoop_success volume path hk fuel 0 acc acc' (Nat.zero_le _)
    (copyBufferLoop_ok h)

/-- Every buffer the guard admits with at least one byte ends the copy
within `len(b) + 1` iterations, and a non-`nil` empty buffer is rejected
at once. -/
theorem copyBuffer_make_terminates (b : Bytes) (fault : Nat → Option ReadFault)
    (writer : Writer) (acc : Bytes) (volume path : String) (k fuel : Nat)
    (hfuel : b.length < fuel) :
    copyBuffer fuel writer acc (blobDisk b fault) volume path (.make k) ≠ none := by
  rcases Nat.eq_zero_or_pos k with rfl | hk
  · simp [copyBuffer, Buf.len]
  · rw [copyBuffer_make _ _ _ _ _ hk]
    exact copyBufferLoop_terminates volume path hk writer fuel 0 acc (by omega)

/-- Three bytes through a two-byte buffer exit within four iterations. -/
theorem copyBuffer_make_terminates_three_by_two :
    copyBuffer 4 Writer.full [] (blobDisk [1, 2, 3] fun _ => none) "data" "part.1" (.make 2) ≠
      none :=
  copyBuffer_make_terminates [1, 2, 3] (fun _ => none) Writer.full [] "data" "part.1" 2 4
    (by decide)

/-! ## The `nil` buffer -/

/-- A read into a `nil` buffer copies nothing and reports the call's
failure, if it is set to fail. -/
theorem blobDisk_readFile_nil_buf (b : Bytes) (fault : Nat → Option ReadFault)
    (volume path : String) (o : Nat) :
    (blobDisk b fault).readFile volume path o .nil = ([], (fault o).map (·.err)) := by
  cases hf : fault o <;> simp [blobDisk, Buf.len, hf]

theorem blobDisk_readFile_nil (b : Bytes) (volume path : String) (o : Nat) :
    (blobDisk b fun _ => none).readFile volume path o .nil = ([], none) :=
  blobDisk_readFile_nil_buf b _ volume path o

/-- A `nil` buffer passes the guard (it tests `buf != nil`), every read
into it copies nothing and reports no error, and the offset never moves:
the loop exhausts every budget. -/
theorem copyBuffer_nil_loops (b : Bytes) (writer : Writer) (acc : Bytes)
    (volume path : String) (fuel : Nat) :
    copyBuffer fuel writer acc (blobDisk b fun _ => none) volume path .nil = none := by
  suffices h : ∀ fuel, copyBufferLoop writer (blobDisk b fun _ => none) volume path .nil
      fuel 0 acc = none by simpa [copyBuffer] using h fuel
  intro fuel
  induction fuel with
  | zero => rfl
  | succ fuel ih => simpa [copyBufferLoop, blobDisk_readFile_nil, copyOut] using ih

/-- Into a `nil` buffer every call copies nothing, so a run that exits
does so on a failing call, with its error. -/
theorem copyBufferLoop_nil_error (b : Bytes) (fault : Nat → Option ReadFault)
    (writer : Writer) (volume path : String) (fuel o : Nat) (acc acc' : Bytes)
    (h : copyBufferLoop writer (blobDisk b fault) volume path .nil fuel o acc =
      some (acc', none)) :
    False := by
  induction fuel generalizing o acc with
  | zero => cases h
  | succ fuel ih =>
    simp only [copyBufferLoop, blobDisk_readFile_nil_buf, copyOut, List.length_nil,
      lt_irrefl, if_false] at h
    cases hf : fault o with
    | some f => simp [hf, f.err_ne_eof, f.err_ne_unexpectedEOF] at h
    | none =>
      simp only [hf, Option.map_none', Nat.add_zero] at h
      exact ih _ _ h

/-! ## Any writer, any buffer -/

/-- Whatever a call answers, what it copied is a prefix of the rest of
the blob. -/
theorem blobDisk_readFile_prefix (b : Bytes) (fault : Nat → Option ReadFault)
    (volume path : String) (o : Nat) (buf : Buf) :
    ((blobDisk b fault).readFile volume path o buf).1 <+: b.drop o := by
  simp only [blobDisk]
  split
  · exact (List.take_prefix _ _).trans (List.take_prefix _ _)
  · exact List.take_prefix _ _

/-- A write-out hands the writer a prefix of `data`. -/
theorem copyOut_prefix (writer : Writer) (acc data : Bytes) :
    ∃ u, (copyOut writer acc data).1 = acc ++ u ∧ u <+: data := by
  unfold copyOut Writer.writeChecked
  split_ifs
  · exact ⟨_, rfl, List.take_prefix _ _⟩
  · exact ⟨[], by simp, List.nil_prefix⟩

/-- Appending to a prefix `r` of `l` a prefix of what follows `r` in `l`
gives a prefix of `l`. -/
theorem prefix_append_of_prefix_drop {r w l : Bytes} (hr : r <+: l)
    (hw : w <+: l.drop r.length) : r ++ w <+: l := by
  obtain ⟨t, rfl⟩ := hr
  rw [List.drop_left] at hw
  exact (List.prefix_append_right_inj r).mpr hw

/-- **Run, any writer.** Whatever the writer, the buffer and the failing
calls, a run from offset `o` that exits has handed the writer a prefix of
the blob from `o`. -/
theorem copyBufferLoop_prefix (b : Bytes) (fault : Nat → Option ReadFault) (writer : Writer)
    (volume path : String) (buf : Buf) (fuel o : Nat) (acc acc' : Bytes)
    (e : Option GoError)
    (h : copyBufferLoop writer (blobDisk b fault) volume path buf fuel o acc = some (acc', e)) :
    ∃ w, acc' = acc ++ w ∧ w <+: b.drop o := by
  induction fuel generalizing o acc with
  | zero => cases h
  | succ fuel ih =>
    have hr := blobDisk_readFile_prefix b fault volume path o buf
    obtain ⟨u, hu, hpre⟩ := copyOut_prefix writer acc
      ((blobDisk b fault).readFile volume path o buf).1
    simp only [copyBufferLoop] at h
    split at h
    · cases h; exact ⟨u, hu, hpre.trans hr⟩
    · split_ifs at h <;> cases h <;> exact ⟨u, hu, hpre.trans hr⟩
    · rename_i hw _
      rw [copyOut_ok hw] at h
      obtain ⟨w, rfl, hw'⟩ := ih _ _ h
      exact ⟨_, List.append_assoc _ _ _, prefix_append_of_prefix_drop hr
        (by rwa [List.drop_drop])⟩

/-- Whatever the writer and the buffer, a copy that returns `nil` has
handed the writer the whole blob. -/
theorem copyBuffer_ok_blob {b : Bytes} {fault : Nat → Option ReadFault} {writer : Writer}
    {acc acc' : Bytes} {volume path : String} {buf : Buf} {fuel : Nat}
    (h : copyBuffer fuel writer acc (blobDisk b fault) volume path buf = some (acc', none)) :
    acc' = acc ++ b := by
  have h' := h
  unfold copyBuffer at h'
  split_ifs at h' with hg
  · cases h'
  · cases buf with
    | nil => exact (copyBufferLoop_nil_error b fault writer volume path fuel 0 acc _ h').elim
    | make k => exact copyBuffer_success_blob (by simp [Buf.len] at hg; omega) h

/-- **Only the blob, in order.** Whatever the writer, the buffer and the
failing `ReadFile` calls, `copyBuffer` hands the writer a prefix of the
blob and nothing else, and it returns `nil` only after handing it the
whole blob. -/
theorem copyBuffer_prefix_blob (b : Bytes) (fault : Nat → Option ReadFault) (writer : Writer)
    (acc acc' : Bytes) (volume path : String) (buf : Buf) (fuel : Nat) (e : Option GoError)
    (h : copyBuffer fuel writer acc (blobDisk b fault) volume path buf = some (acc', e)) :
    ∃ w, acc' = acc ++ w ∧ w <+: b ∧ (e = none → w = b) := by
  have hpre : ∃ w, acc' = acc ++ w ∧ w <+: b := by
    unfold copyBuffer at h
    split_ifs at h
    · cases h; exact ⟨[], by simp, List.nil_prefix⟩
    · simpa using copyBufferLoop_prefix b fault writer volume path buf fuel 0 acc acc' e h
  obtain ⟨w, rfl, hw⟩ := hpre
  refine ⟨w, rfl, hw, fun he => ?_⟩
  subst he
  simpa using copyBuffer_ok_blob h

/-- Four bytes through a two-byte buffer, the second call failing after
one byte: the writer holds `[1, 2, 3]` and the call's error comes back. -/
theorem copyBuffer_prefix_blob_second_read_fails :
    ∃ w, ([1, 2, 3] : Bytes) = [] ++ w ∧ w <+: [1, 2, 3, 4] ∧
      (some (GoError.other 5) = none → w = [1, 2, 3, 4]) :=
  copyBuffer_prefix_blob [1, 2, 3, 4]
    (fun o => if o = 2 then some ⟨1, .other 5, by decide, by decide⟩ else none) Writer.full
    [] [1, 2, 3] "data" "part.1" (.make 2) 4 (some (.other 5)) rfl

/-- A call fails with its fault's error, or signals the end of the data. -/
theorem blobDisk_readFile_error {b : Bytes} {fault : Nat → Option ReadFault}
    {volume path : String} {o : Nat} {buf : Buf} {err : GoError}
    (h : ((blobDisk b fault).readFile volume path o buf).2 = some err) :
    (∃ f, fault o = some f ∧ err = f.err) ∨ err = .eof ∨ err = .errUnexpectedEOF := by
  simp only [blobDisk] at h
  split at h
  · rename_i f hf
    exact .inl ⟨f, hf, (Option.some.inj h).symm⟩
  · split_ifs at h <;> cases h
    · exact .inr (.inl rfl)
    · exact .inr (.inr rfl)

/-- A write-out fails only with the writer's own error or with
`io.ErrShortWrite`. -/
theorem copyOut_error {writer : Writer} {acc data : Bytes} {e : GoError}
    (h : (copyOut writer acc data).2 = some e) : writer.Returns e ∨ e = .errShortWrite := by
  unfold copyOut at h
  split_ifs at h
  exact Writer.writeChecked_error h

/-- **Run.** Whatever the writer and the buffer, a run that returns an
error returns the writer's own error, `io.ErrShortWrite`, or the error of
a failing `ReadFile` call, unchanged. -/
theorem copyBufferLoop_error (b : Bytes) (fault : Nat → Option ReadFault) (writer : Writer)
    (volume path : String) (buf : Buf) (fuel o : Nat) (acc acc' : Bytes) (e : GoError)
    (h : copyBufferLoop writer (blobDisk b fault) volume path buf fuel o acc =
      some (acc', some e)) :
    writer.Returns e ∨ e = .errShortWrite ∨ ∃ o f, fault o = some f ∧ e = f.err := by
  induction fuel generalizing o acc with
  | zero => cases h
  | succ fuel ih =>
    simp only [copyBufferLoop] at h
    rcases hw : (copyOut writer acc ((blobDisk b fault).readFile volume path o buf).1).2 with
      _ | wErr
    · rcases hr : ((blobDisk b fault).readFile volume path o buf).2 with _ | err
      · simp only [hw, hr] at h
        exact ih _ _ h
      · simp only [hw, hr] at h
        split_ifs at h with heof
        · cases h
        · obtain rfl : err = e := by cases h; rfl
          rcases blobDisk_readFile_error hr with ⟨f, hf, rfl⟩ | hsig
          · exact .inr (.inr ⟨o, f, hf, rfl⟩)
          · exact absurd hsig heof
    · simp only [hw] at h
      obtain rfl : wErr = e := by cases h; rfl
      exact (copyOut_error hw).imp_right .inl

/-- **A digest is of the whole blob.** Whichever `ReadFile` calls fail and
whatever the pool's buffer size, `hashSum` returns a digest only of the
whole blob, never of a truncated copy; and with a buffer of at least one
byte and enough iterations, the first failing call's error comes back
as `hashSum`'s error. -/
theorem hashSum_ok_whole {α : Type} (b : Bytes) (fault : Nat → Option ReadFault)
    (fuel readSizeV1 : Nat) (volume path : String) (sum : Bytes → α) :
    (∀ d, hashSum fuel readSizeV1 (blobDisk b fault) volume path sum = some (.ok d) →
      d = sum b) ∧
    (1 ≤ readSizeV1 → b.length < fuel → ∀ j f, j * readSizeV1 ≤ b.length →
      fault (j * readSizeV1) = some f → (∀ i < j, fault (i * readSizeV1) = none) →
      hashSum fuel readSizeV1 (blobDisk b fault) volume path sum = some (.error f.err)) := by
  refine ⟨fun d h => ?_, fun hk hfuel j f hj hf hbefore => ?_⟩
  · unfold hashSum at h
    rcases hc : copyBuffer fuel Writer.full [] (blobDisk b fault) volume path
      (.make readSizeV1) with _ | ⟨acc', _ | e⟩ <;> simp only [hc, Option.map_some',
        Option.map_none', reduceCtorEq, Option.some.injEq, Except.ok.injEq] at h
    · rw [← h, copyBuffer_ok_blob hc, List.nil_append]
  · have hjb : j ≤ b.length := le_trans (Nat.le_mul_of_pos_right j hk) hj
    obtain ⟨w, hw, -⟩ := copyBufferLoop_first_fault volume path fuel 0 j [] (Nat.zero_le _) hj hf
      (fun i _ hi => hbefore i hi) (by omega)
    rw [Nat.zero_mul] at hw
    simp [hashSum, copyBuffer_make _ _ _ _ _ hk, hw]

/-- Three bytes hashed through a two-byte buffer with the identity as the
digest: a clean run gives the digest of the blob, and a second read that
fails gives its error. -/
theorem hashSum_ok_whole_three_by_two :
    ([1, 2, 3] : Bytes) = id [1, 2, 3] ∧
      hashSum 4 2 (blobDisk [1, 2, 3] fun o => if o = 2 then some ⟨1, .other 9, by decide, by decide⟩
        else none) "data" "part.1" id = some (.error (.other 9)) :=
  ⟨(hashSum_ok_whole [1, 2, 3] (fun _ => none) 4 2 "data" "part.1" id).1 [1, 2, 3] rfl,
    (hashSum_ok_whole [1, 2, 3] (fun o => if o = 2 then some ⟨1, .other 9, by decide, by decide⟩
      else none) 4 2 "data" "part.1" id).2 (by decide) (by decide) 1 _ (by decide) rfl
      fun i hi => by rw [Nat.lt_one_iff.mp hi]; rfl⟩

end ShareOS
